import Catalog.Proofs.DefaultSchema
import Catalog.Proofs.EnumLinks

/-!
Enums and field types that name no schema. Such an enum is inserted where the default name leads,
and such a type is of the schema that has the default name. These are the same schema unless a
declared schema has the default name as its alias.
-/
namespace Catalog

/-- A field has a type of some name, in no schema in particular. -/
def FieldInfo.HasPlainType (f : FieldInfo) (name : String) : Prop :=
  f.type.typeName = name ∧ f.type.schemaName = none

instance (f : FieldInfo) (name : String) : Decidable (f.HasPlainType name) :=
  inferInstanceAs (Decidable (f.type.typeName = name ∧ f.type.schemaName = none))

/-- A field and an enum lead to each other. -/
def Enum.IsLinkedTo (e : Enum) (f : Field) : Prop :=
  f.enumId = some e.id ∧ f.id ∈ e.fields

namespace Database

/-- An enum that is declared without a schema is found by its name where the default name leads. -/
def KeepsEnum (db : Database) (c : Config) (d : Decl.Enum) (e : Enum) : Prop :=
  ∃ s, db.findSchema? c.defaultSchemaName = some s ∧ s.findEnum? d.name = some e ∧
    e.declared = d.bare

/-- Enums and fields that name no schema are linked by the name of the type. -/
def JoinsPlain (db : Database) (b : Decl.Bundle) (c : Config) : Prop :=
  ∀ d ∈ b.enums, d.schemaName = none → ∃ e, db.KeepsEnum c d e ∧
    ∀ f ∈ db.fields, f.HasPlainType d.name → e.IsLinkedTo f

end Database

theorem Database.KeepsEnum.unique {db : Database} {c : Config} {d : Decl.Enum} {e e' : Enum}
    (h : db.KeepsEnum c d e) (h' : db.KeepsEnum c d e') : e = e' := by
  obtain ⟨s, hs, he, -⟩ := h
  obtain ⟨s', hs', he', -⟩ := h'
  obtain rfl := Option.some.inj (hs.symm.trans hs')
  exact Option.some.inj (he.symm.trans he')

theorem FieldInfo.HasPlainType.isOfEnum_iff {f : FieldInfo} {name : String}
    (h : f.HasPlainType name) (defaultSchema schema : String) :
    f.isOfEnum defaultSchema schema name = true ↔ schema = defaultSchema := by
  rw [isOfEnum, h.1, FieldType.schemaNameOr, h.2]
  simp [eq_comm]

/-- What is in the second of two lists is paired with something behind the places of the first. -/
theorem exists_beyond_of_paired {α β : Type} {R : α → β → Prop} {l : List α} {xs ys : List β}
    (h : List.Forall₂ R l (xs ++ ys)) {y : β} (hy : y ∈ ys) :
    ∃ (i : Nat) (a : α), l[i]? = some a ∧ xs[i]? = none ∧ R a y := by
  obtain ⟨j, hj⟩ := List.mem_iff_getElem?.mp hy
  have hplace : (xs ++ ys)[xs.length + j]? = some y := by
    rw [List.getElem?_append_right (Nat.le_add_right ..), Nat.add_sub_cancel_left, hj]
  obtain ⟨a, ha, hR⟩ := getElem?_of_paired h.flip hplace
  exact ⟨_, a, ha, List.getElem?_eq_none (Nat.le_add_right ..), hR⟩

namespace Assembly

variable {b : Decl.Bundle} {c : Config} {a : Assembly} {d : Decl.Enum}

/-- An enum from outside of schema declarations has a place that none of those nested in them has,
in the schema that its name leads to. -/
theorem exists_enumAt_of_build (h : build b c = .ok a) (hd : d ∈ b.enums) :
    ∃ q s e, a.database.EnumAt q s e ∧ b.nestedEnum? q = none ∧ e.declared = d.bare ∧
      s.isNamed (d.schemaName.getD c.defaultSchemaName) = true := by
  have hrec : .enum d ∈ b.routed := by
    simp [Decl.Bundle.routed, hd]
  obtain ⟨i, s, r, hs, hr, hsn, hrn, hsr⟩ := exists_target_of_build h hrec
  have hgathered : d ∈ b.enums.filter
      fun d => r.isNamed (d.schemaName.getD c.defaultSchemaName) :=
    List.mem_filter.mpr ⟨hd, hrn⟩
  obtain ⟨j, e, he, hnone, hdeclared⟩ := exists_beyond_of_paired hsr.enums hgathered
  refine ⟨⟨i, j⟩, s, e, ⟨hs, he⟩, ?_, hdeclared, hsn⟩
  rw [b.nestedEnum?_of_roster c hr]
  exact hnone

/-- Such an enum is bound when all tables are there, so that what it is linked to is told by the
name of its schema alone. -/
theorem linked_iff_of_build (h : build b c = .ok a) (hd : d ∈ b.enums)
    (hnone : d.schemaName = none) :
    ∃ e, a.database.KeepsEnum c d e ∧
      ∀ f ∈ a.database.fields, f.HasPlainType d.name →
        (f.enumId = some e.id ↔ b.KeepsDefault c) ∧ (f.id ∈ e.fields ↔ b.KeepsDefault c) := by
  have hsound := (Reachable.build h).sound
  have hlinks := enumLinks_of_build h
  obtain ⟨q, s, e, hat, hbeyond, hdeclared, hnamed⟩ := exists_enumAt_of_build h hd
  have hs := List.mem_of_getElem? hat.1
  have he := List.mem_of_getElem? hat.2
  have hname : e.name = d.name := congrArg (·.name) hdeclared
  rw [hnone, Option.getD_none] at hnamed
  have hfound : s.findEnum? d.name = some e := by
    rw [← hname]
    exact find?_of_nodup ((hsound.named.distinct s hs).children .enum) he
  refine ⟨e, ⟨s, hsound.named.findSchema?_of_isNamed hs hnamed, hfound, hdeclared⟩, ?_⟩
  intro f hf hplain
  obtain ⟨p, t, ht, hft⟩ := Database.exists_tableAt_of_mem hf
  have hlinked : f.enumId = some e.id ↔ b.KeepsDefault c := by
    rw [hlinks.enumId_iff ht hft hat, hname, hplain.isOfEnum_iff, name_eq_default_iff h hs hnamed]
    exact and_iff_left (.inr (.inl hbeyond))
  have hmem : e ∈ a.database.enums := List.mem_flatMap.mpr ⟨s, hs, he⟩
  exact ⟨hlinked, (hlinks.mem_fields_iff (hsound.nodup_arena .field) hmem hf).trans hlinked⟩

end Assembly

/-- An enum that names no schema is linked to the fields of its name and no schema, from both sides
and under either policy, exactly if no declaration gives the default name away. -/
theorem Database.joinsPlain_iff {b : Decl.Bundle} {c : Config} {db : Database}
    (h : build b c = .ok db) :
    (∀ d ∈ b.enums, d.schemaName = none → ∃ e, db.KeepsEnum c d e ∧
      ∀ f ∈ db.fields, f.HasPlainType d.name →
        (f.enumId = some e.id ↔ b.KeepsDefault c) ∧ (f.id ∈ e.fields ↔ b.KeepsDefault c)) ∧
    (db.JoinsPlain b c ↔ b.KeepsDefault c ∨
      ∀ d ∈ b.enums, d.schemaName = none → ∀ f ∈ db.fields, ¬ f.HasPlainType d.name) := by
  obtain ⟨a, ha, rfl⟩ := build_eq_ok_iff.mp h
  have hlinked := fun d (hd : d ∈ b.enums) hnone => Assembly.linked_iff_of_build ha hd hnone
  refine ⟨hlinked, ?_, ?_⟩
  · intro hjoins
    by_contra! hneither
    obtain ⟨hgiven, d, hd, hnone, f, hf, hplain⟩ := hneither
    obtain ⟨e, hkept, hiff⟩ := hlinked d hd hnone
    obtain ⟨e', hkept', hjoined⟩ := hjoins d hd hnone
    obtain rfl := hkept.unique hkept'
    exact hgiven ((hiff f hf hplain).1.mp (hjoined f hf hplain).1)
  · intro hor d hd hnone
    obtain ⟨e, hkept, hiff⟩ := hlinked d hd hnone
    refine ⟨e, hkept, fun f hf hplain => ?_⟩
    obtain ⟨hfield, henum⟩ := hiff f hf hplain
    have hkeeps := hor.resolve_right fun hfree => hfree d hd hnone f hf hplain
    exact ⟨hfield.mpr hkeeps, henum.mpr hkeeps⟩

/-- A table in a declared schema and one outside of schemas, both with a field of an enum that, like
its type, names no schema. -/
def Decl.Bundle.crates : Decl.Bundle where
  schemas := [{ name := "depot", tables := [
    { name := "crates", fields := [.ofType "state" "state"] }] }]
  tables := [{ name := "pallets", fields := [.ofType "state" "state"] }]
  enums := [.ofValues "state" ["sealed"]]

theorem Database.joinsPlain_iff_crates : ∃ db, build .crates {} = .ok db ∧
    Decl.Bundle.KeepsDefault .crates {} ∧ db.JoinsPlain .crates {} ∧
    db.fields.map (·.enumId.isSome) = [true, true] := by
  have hbuilt : (build .crates {}).toOption.any (fun db =>
      db.fields.map (·.enumId.isSome) = [true, true]) = true := by
    decide +kernel
  have hkeeps : Decl.Bundle.KeepsDefault .crates {} := by
    decide
  obtain ⟨db, hdb, hlinked⟩ := exists_build_of_any hbuilt
  exact ⟨db, hdb, hkeeps, (joinsPlain_iff hdb).2.mpr (.inl hkeeps), of_decide_eq_true hlinked⟩

/-- A field is not linked to the enum that is its type, though neither names a schema. -/
theorem Database.not_joinsPlain_lodgers : ∃ db, build .lodgers {} = .ok db ∧
    (∃ f ∈ db.fields, f.HasPlainType "status" ∧ f.enumId = none) ∧
    ¬ db.JoinsPlain .lodgers {} := by
  have hbuilt : (build .lodgers {}).toOption.any (fun db =>
      ∃ f ∈ db.fields, f.HasPlainType "status" ∧ f.enumId = none) = true := by
    decide +kernel
  obtain ⟨db, hdb, heval⟩ := exists_build_of_any hbuilt
  have hfree := of_decide_eq_true heval
  refine ⟨db, hdb, hfree, ?_⟩
  intro hjoins
  obtain ⟨f, hf, hplain, hnone⟩ := hfree
  obtain ⟨e, -, hjoined⟩ := hjoins _ (List.mem_singleton.mpr rfl) rfl
  have hlinked := (hjoined f hf hplain).1
  rw [hnone] at hlinked
  cases hlinked

end Catalog
