import Catalog.Proofs.EnumLinks.Build
import Catalog.Proofs.Tree

/-!
The enum links of a built database. A field is linked to the enum that is its type. Where enums are
bound as they are inserted, the field has to be there in time.
-/
namespace Catalog

namespace Database

/-- A table stands at a place. -/
def TableAt (db : Database) (p : Place) (t : Table) : Prop :=
  ∃ s, db.schemas[p.schema]? = some s ∧ s.tables[p.item]? = some t

/-- An enum stands at a place, in a schema. -/
def EnumAt (db : Database) (q : Place) (s : Schema) (e : Enum) : Prop :=
  db.schemas[q.schema]? = some s ∧ s.enums[q.item]? = some e

/-- The tables and enums that a bundle nests in schemas are at the same places in a database, and
all others are from outside of schemas. -/
structure PlacedAs (db : Database) (b : Decl.Bundle) : Prop where
  schemas : ∀ {i : Nat} {d : Decl.Schema}, b.schemas[i]? = some d →
    ∃ s : Schema, db.schemas[i]? = some s ∧ s.toSchemaInfo = d.toSchemaInfo
  nestedTables : ∀ {p d}, b.nestedTable? p = some d → ∃ t, db.TableAt p t ∧ t.declared = d.bare
  otherTables : ∀ {p t}, db.TableAt p t → b.nestedTable? p = none →
    ∃ d ∈ b.tables, t.declared = d.bare
  nestedEnums : ∀ {q d}, b.nestedEnum? q = some d → ∃ s e, db.EnumAt q s e ∧ e.declared = d.bare
  otherEnums : ∀ {q s e}, db.EnumAt q s e → b.nestedEnum? q = none →
    ∃ d ∈ b.enums, e.declared = d.bare

/-- Fields are linked to the enums that are their types, all of them or those that are declared
before, and enums to the fields that are linked to them. -/
structure LinksEnums (db : Database) (b : Decl.Bundle) (c : Config) : Prop where
  afterConstruction : c.enumBinding = .afterConstruction → ∀ {p t f q s e}, db.TableAt p t →
    f ∈ t.fields → db.EnumAt q s e →
      (f.enumId = some e.id ↔ f.isOfEnum c.defaultSchemaName s.name e.name = true)
  onInsert : c.enumBinding = .onInsert → ∀ {p t f q s e}, db.TableAt p t →
    f ∈ t.fields → db.EnumAt q s e →
      (f.enumId = some e.id ↔
        f.isOfEnum c.defaultSchemaName s.name e.name = true ∧ b.Before p q)
  present : ∀ f ∈ db.fields, ∀ i ∈ f.enumId, ∃ q s e, db.EnumAt q s e ∧ e.id = i
  unique : ∀ f ∈ db.fields, ∀ {q s e q' s' e'}, db.EnumAt q s e → db.EnumAt q' s' e' →
    f.isOfEnum c.defaultSchemaName s.name e.name = true →
      f.isOfEnum c.defaultSchemaName s'.name e'.name = true → q = q'
  fields : ∀ e ∈ db.enums, e.fields = (db.fields.filter (·.enumId = some e.id)).map (·.id)
  nodup : ∀ e ∈ db.enums, e.fields.Nodup

theorem exists_tableAt_of_mem {db : Database} {f : Field} (hf : f ∈ db.fields) :
    ∃ p t, db.TableAt p t ∧ f ∈ t.fields := by
  obtain ⟨t, ht, hft⟩ := List.mem_flatMap.mp hf
  obtain ⟨s, hs, hst⟩ := List.mem_flatMap.mp ht
  obtain ⟨i, hi⟩ := List.mem_iff_getElem?.mp hs
  obtain ⟨j, hj⟩ := List.mem_iff_getElem?.mp hst
  exact ⟨⟨i, j⟩, t, ⟨s, hi, hj⟩, hft⟩

theorem exists_enumAt_of_mem {db : Database} {e : Enum} (he : e ∈ db.enums) :
    ∃ q s, db.EnumAt q s e := by
  obtain ⟨s, hs, hes⟩ := List.mem_flatMap.mp he
  obtain ⟨i, hi⟩ := List.mem_iff_getElem?.mp hs
  obtain ⟨j, hj⟩ := List.mem_iff_getElem?.mp hes
  exact ⟨⟨i, j⟩, s, hi, hj⟩

namespace LinksEnums

variable {db : Database} {b : Decl.Bundle} {c : Config} {f : Field} {e : Enum}

/-- Both policies as one: a field is linked by its type, and by what is there to be bound. -/
theorem enumId_iff (h : db.LinksEnums b c) {p q : Place} {t : Table} {s : Schema}
    (ht : db.TableAt p t) (hf : f ∈ t.fields) (he : db.EnumAt q s e) : f.enumId = some e.id ↔
      f.isOfEnum c.defaultSchemaName s.name e.name = true ∧
        (c.enumBinding = .afterConstruction ∨ b.Before p q) := by
  cases hbinding : c.enumBinding with
  | onInsert => simpa using h.onInsert hbinding ht hf he
  | afterConstruction => simpa using h.afterConstruction hbinding ht hf he

theorem mem_fields_iff (h : db.LinksEnums b c) (hn : (db.arena .field).Nodup) (he : e ∈ db.enums)
    (hf : f ∈ db.fields) : f.id ∈ e.fields ↔ f.enumId = some e.id := by
  rw [h.fields e he, List.mem_map]
  constructor
  · rintro ⟨g, hg, hid⟩
    obtain ⟨hg, hlinked⟩ := List.mem_filter.mp hg
    obtain rfl : g = f := List.inj_on_of_nodup_map hn hg hf hid
    exact of_decide_eq_true hlinked
  · intro hlinked
    exact ⟨f, List.mem_filter.mpr ⟨hf, decide_eq_true hlinked⟩, rfl⟩

end LinksEnums

end Database

namespace Decl.Bundle

variable {b : Bundle} (c : Config) {r : Schema}

/-- A table nested at a place is the one there in the roster, as an implied schema has none. -/
theorem nestedTable?_of_roster {p : Place} (hr : (b.roster c)[p.schema]? = some r) :
    b.nestedTable? p = r.tables[p.item]? := by
  rw [roster, List.getElem?_append] at hr
  split at hr
  · rw [nestedTable?, hr, Option.bind_some]
  · rename_i hge
    rw [List.getElem?_map, Option.map_eq_some_iff] at hr
    obtain ⟨name, -, rfl⟩ := hr
    rw [nestedTable?, List.getElem?_eq_none (Nat.le_of_not_lt hge)]
    rfl

theorem nestedEnum?_of_roster {q : Place} (hr : (b.roster c)[q.schema]? = some r) :
    b.nestedEnum? q = r.enums[q.item]? := by
  rw [roster, List.getElem?_append] at hr
  split at hr
  · rw [nestedEnum?, hr, Option.bind_some]
  · rename_i hge
    rw [List.getElem?_map, Option.map_eq_some_iff] at hr
    obtain ⟨name, -, rfl⟩ := hr
    rw [nestedEnum?, List.getElem?_eq_none (Nat.le_of_not_lt hge)]
    rfl

theorem roster_of_declared {i : Nat} {d : Schema} (hd : b.schemas[i]? = some d) :
    (b.roster c)[i]? = some d := by
  rw [roster, List.getElem?_append_left (List.getElem?_eq_some_iff.mp hd).1, hd]

end Decl.Bundle

/-- What is paired with two lists, one after the other: the elements of the first have their places,
and the rest is from the second. -/
theorem split_of_paired {α β : Type} {R : α → β → Prop} {l : List α} {xs ys : List β}
    {t : β → Bool} (h : List.Forall₂ R l (xs ++ ys.filter t)) :
    (∀ (i : Nat) y, xs[i]? = some y → ∃ a, l[i]? = some a ∧ R a y) ∧
      ∀ (i : Nat) a, l[i]? = some a → xs[i]? = none → ∃ y ∈ ys, R a y := by
  constructor
  · intro i y hy
    apply getElem?_of_paired h.flip
    rw [List.getElem?_append_left (List.getElem?_eq_some_iff.mp hy).1, hy]
  · intro i a ha hnone
    obtain ⟨y, hy, hR⟩ := getElem?_of_paired h ha
    rw [List.getElem?_append_right (List.getElem?_eq_none_iff.mp hnone)] at hy
    exact ⟨y, List.mem_of_mem_filter (List.mem_of_getElem? hy), hR⟩

namespace Assembly

variable {b : Decl.Bundle} {c : Config} {a : Assembly}

theorem gathered_of_build (h : build b c = .ok a) :
    List.Forall₂ (fun (s : Schema) r => s.toSchemaInfo = r.toSchemaInfo ∧
        List.Forall₂ (fun t d => t.declared = d.bare) s.tables (b.gather c r).tables ∧
        List.Forall₂ (fun e d => e.declared = d.bare) s.enums (b.gather c r).enums)
      a.database.schemas (b.roster c) :=
  (rostered_of_build h).imp fun _ _ hm => ⟨hm.info, hm.tables, hm.enums⟩

theorem placedAs_of_build (h : build b c = .ok a) : a.database.PlacedAs b := by
  have hgathered := gathered_of_build h
  refine ⟨?_, ?_, ?_, ?_, ?_⟩
  · intro i d hd
    obtain ⟨s, hs, hinfo, -⟩ := getElem?_of_paired hgathered.flip (b.roster_of_declared c hd)
    exact ⟨s, hs, hinfo⟩
  · intro p d hp
    obtain ⟨r, hr, hd⟩ := Option.bind_eq_some_iff.mp hp
    obtain ⟨s, hs, -, htables, -⟩ :=
      getElem?_of_paired hgathered.flip (b.roster_of_declared c hr)
    obtain ⟨t, ht, hdeclared⟩ := (split_of_paired htables).1 _ d hd
    exact ⟨t, ⟨s, hs, ht⟩, hdeclared⟩
  · rintro p t ⟨s, hs, ht⟩ hnone
    obtain ⟨r, hr, -, htables, -⟩ := getElem?_of_paired hgathered hs
    rw [Decl.Bundle.nestedTable?_of_roster c hr] at hnone
    exact (split_of_paired htables).2 _ t ht hnone
  · intro q d hq
    obtain ⟨r, hr, hd⟩ := Option.bind_eq_some_iff.mp hq
    obtain ⟨s, hs, -, -, henums⟩ :=
      getElem?_of_paired hgathered.flip (b.roster_of_declared c hr)
    obtain ⟨e, he, hdeclared⟩ := (split_of_paired henums).1 _ d hd
    exact ⟨s, e, ⟨hs, he⟩, hdeclared⟩
  · rintro q s e ⟨hs, he⟩ hnone
    obtain ⟨r, hr, -, -, henums⟩ := getElem?_of_paired hgathered hs
    rw [Decl.Bundle.nestedEnum?_of_roster c hr] at hnone
    exact (split_of_paired henums).2 _ e he hnone

theorem enumLinks_of_build (h : build b c = .ok a) : a.database.LinksEnums b c := by
  obtain ⟨hsound, -, hlinks⟩ := links_of_build h
  have hn := hsound.nodup_arena
  have hwired : ∀ {q s e}, a.database.EnumAt q s e →
      Wiring.HasEnum a.database.wiring q s.name e :=
    fun he => Database.hasEnum_wiring_iff.mpr ⟨_, he.1, rfl, he.2⟩
  have hlink : ∀ {p t f q s e}, a.database.TableAt p t → f ∈ t.fields → a.database.EnumAt q s e →
      (f.enumId = some e.id ↔ f.isOfEnum c.defaultSchemaName s.name e.name = true ∧
        (c.enumBinding = .afterConstruction ∨ b.Before p q)) := by
    rintro p t f q s e ⟨_, hs, ht⟩ hf he
    have hfield := Database.hasField_wiring hs ht hf
    exact (hlinks.link hfield (hwired he) :)
  have hfields : ∀ e ∈ a.database.enums,
      e.fields = (a.database.fields.filter (·.enumId = some e.id)).map (·.id) := by
    intro e he
    obtain ⟨q, s, he⟩ := Database.exists_enumAt_of_mem he
    rw [hlinks.fields (hwired he), Database.fields_wiring, List.filter_map, List.map_map]
    rfl
  exact {
    afterConstruction := by
      intro hbinding p t f q s e ht hf he
      rw [hlink ht hf he]
      simp [hbinding]
    onInsert := by
      intro hbinding p t f q s e ht hf he
      rw [hlink ht hf he]
      simp [hbinding]
    present := by
      intro f hf i hi
      obtain ⟨e, he, hid⟩ := List.mem_map.mp (hsound.linked.enumId hf hi)
      obtain ⟨q, s, he⟩ := Database.exists_enumAt_of_mem he
      exact ⟨q, s, e, he, hid⟩
    unique := by
      rintro f - ⟨i, j⟩ s e ⟨i', j'⟩ s' e' ⟨hs, he⟩ ⟨hs', he'⟩ hmatch hmatch'
      obtain ⟨hschema, hname⟩ := Wiring.eq_of_isOfEnum hmatch hmatch'
      obtain rfl : i = i' := index_eq_of_nodup hsound.named.nodup_names hs hs' hschema
      obtain rfl := Option.some.inj (hs.symm.trans hs')
      have hnames : (s.enums.map (·.name)).Nodup :=
        (hsound.named.distinct s (List.mem_of_getElem? hs)).children .enum
      exact congrArg (Place.mk i) (index_eq_of_nodup hnames he he' hname)
    fields := hfields
    nodup := by
      intro e he
      rw [hfields e he]
      exact (hn .field).sublist (List.filter_sublist.map _) }

end Assembly

/-- What a build links is decided by names alone, or by names and by what is declared first. -/
theorem Database.linksEnums_of_build {b : Decl.Bundle} {c : Config} {db : Database}
    (h : Database.build b c = .ok db) : db.PlacedAs b ∧ db.LinksEnums b c := by
  obtain ⟨a, ha, rfl⟩ := build_eq_ok_iff.mp h
  exact ⟨Assembly.placedAs_of_build ha, Assembly.enumLinks_of_build ha⟩

/-- A nested enum that comes before the field of its type, and an enum that comes last. -/
def Decl.Bundle.parcels : Decl.Bundle where
  schemas := [
    { name := "states", enums := [{ name := "state" }] },
    { name := "depot", tables := [
      { name := "parcels", fields := [
        .withTypeSchema (.ofType "state" "state") "states",
        .withTypeSchema (.ofType "size" "size") "depot"] }] }]
  enums := [{ name := "size", schemaName := some "depot" }]

theorem Database.linksEnums_of_build_parcels : ∃ db, Database.build .parcels {} = .ok db ∧
    db.PlacedAs .parcels ∧ db.LinksEnums .parcels {} ∧
    db.fields.map (·.enumId.isSome) = [false, true] := by
  have hbuilt : (Database.build .parcels {}).toOption.any (fun db =>
      db.fields.map (·.enumId.isSome) = [false, true]) = true := by
    decide +kernel
  obtain ⟨db, hdb, hlinked⟩ := exists_build_of_any hbuilt
  obtain ⟨hplaced, hlinks⟩ := linksEnums_of_build hdb
  exact ⟨db, hdb, hplaced, hlinks, of_decide_eq_true hlinked⟩

end Catalog
