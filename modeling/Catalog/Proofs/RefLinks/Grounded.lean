import Catalog.Proofs.Integrity.Reach
import Catalog.Proofs.Integrity.Schemas
import Mathlib.Data.Finset.Dedup
import Mathlib.Data.Sym.Sym2

/-!
What a ref connects. An endpoint includes fields of one table, under the names that it was declared
with, and the two endpoints of a ref include different sets of equally many fields. Tables keep
their identifiers and the names of their fields, so this holds of a ref once and for all.
-/
namespace Catalog

/-- An endpoint includes fields of a table, each once, in the order of the names given. -/
structure Endpoint.Grounded (e : Endpoint) (t : Table) : Prop where
  table : t.id = e.table
  nonempty : e.fields ≠ []
  nodup : e.fields.Nodup
  names : List.Forall₂ (fun i name => ∃ f ∈ t.fields, f.id = i ∧ f.name = name)
    e.fields e.fieldNames

def Endpoint.fieldSet (e : Endpoint) : Finset (Id .field) :=
  e.fields.toFinset

/-- The two sets of fields that a ref connects, in no order. -/
def Ref.sides (r : Ref) : Sym2 (Finset (Id .field)) :=
  s(r.first.fieldSet, r.second.fieldSet)

/-- A ref connects different sets of equally many fields, each of them in one table. -/
structure Ref.Proper (db : Database) (r : Ref) : Prop where
  grounded : ∀ e ∈ r.endpoints, ∃ t ∈ db.tables, e.Grounded t
  lengths : r.first.fields.length = r.second.fields.length
  differ : r.first.fieldSet ≠ r.second.fieldSet

section Sides

variable {e e' : Endpoint} {r r' : Ref}

theorem sameFields_iff_toFinset {is js : List (Id .field)} :
    sameFields is js = true ↔ is.toFinset = js.toFinset := by
  simp only [sameFields_iff, Finset.ext_iff, List.mem_toFinset]

theorem Endpoint.sameFields_iff_fieldSet : e.sameFields e' = true ↔ e.fieldSet = e'.fieldSet :=
  sameFields_iff_toFinset

/-- The check for duplicates catches a ref with the same sides. -/
theorem Ref.connectsSame_of_sides (h : r.sides = r'.sides) : r.connectsSame r' = true := by
  simp only [connectsSame, endpoints, List.all_cons, List.all_nil, List.any_cons, List.any_nil,
    Bool.and_true, Bool.or_false, Bool.and_eq_true, Bool.or_eq_true,
    Endpoint.sameFields_iff_fieldSet]
  rcases Sym2.eq_iff.mp h with ⟨hfirst, hsecond⟩ | ⟨hfirst, hsecond⟩
  · exact ⟨.inl hfirst, .inr hsecond⟩
  · exact ⟨.inr hsecond, .inl hfirst⟩

end Sides

/-! What is resolved is grounded. -/

section Resolved

variable {db : Database} {token : Span}

theorem resolveFields_nodup {s : Schema} {t : Table} {names : List String}
    {earlier ids : List (Id .field)} (hr : resolveFields s t token earlier names = .ok ids) :
    ids.Nodup ∧ ∀ i ∈ ids, i ∉ earlier := by
  induction names generalizing earlier ids with
  | nil =>
    cases hr
    exact ⟨.nil, by simp⟩
  | cons name names ih =>
    rw [resolveFields_cons] at hr
    split at hr
    · cases hr
    · rename_i f _
      split at hr
      · cases hr
      · rename_i hnew
        cases hrest : resolveFields s t token (f.id :: earlier) names with
        | error r => simp [hrest, Except.map] at hr
        | ok rest =>
          simp only [hrest, Except.map, Except.ok.injEq] at hr
          obtain ⟨hnodup, hlater⟩ := ih hrest
          subst hr
          refine ⟨List.nodup_cons.mpr ⟨fun hmem => ?_, hnodup⟩, ?_⟩
          · exact hlater f.id hmem List.mem_cons_self
          · intro i hi
            rcases List.mem_cons.mp hi with rfl | hi
            · exact hnew
            · exact fun hearlier => hlater i hi (List.mem_cons_of_mem _ hearlier)

/-- No check asks for fields on either side, but without them both sides would be the same. -/
theorem ne_nil_of_differ {is js : List (Id .field)} (hlength : is.length = js.length)
    (hdiffer : is.toFinset ≠ js.toFinset) : is ≠ [] ∧ js ≠ [] := by
  constructor
  · rintro rfl
    exact hdiffer (by rw [List.eq_nil_of_length_eq_zero hlength.symm])
  · rintro rfl
    exact hdiffer (by rw [List.eq_nil_of_length_eq_zero hlength])

theorem Endpoint.grounded_of_resolve {d : Decl.Endpoint} {e : Resolved} {v : Endpoint}
    (h : db.resolveEndpoint token d = .ok e) (hv : v.Of e) (hne : e.fields ≠ []) :
    ∃ t ∈ db.tables, v.Grounded t := by
  obtain ⟨s, t, ids, htable, hfields, rfl⟩ := Database.resolveEndpoint_eq_ok h
  obtain ⟨hs, ht⟩ := Database.mem_of_locate (Database.locate_of_resolveTable htable)
  refine ⟨t, List.mem_flatMap.mpr ⟨s, hs, ht⟩, hv.table.symm, ?_, ?_, ?_⟩
  · rw [hv.fields]
    exact hne
  · rw [hv.fields]
    exact (resolveFields_nodup hfields).1
  · rw [hv.fields, hv.info]
    exact resolveFields_paired hfields

theorem Ref.ResolvedIn.proper {r : Ref} (h : r.ResolvedIn db) : r.Proper db := by
  obtain ⟨d, first, second, hres, -, -, hfirst, hsecond⟩ := h
  obtain ⟨e₁, e₂, -, h₁, h₂, hlengths, hsame⟩ := Database.resolveRef_eq_ok hres
  rw [sameFields_iff_toFinset] at hsame
  obtain ⟨hne₁, hne₂⟩ := ne_nil_of_differ hlengths hsame
  refine ⟨?_, ?_, ?_⟩
  · intro e he
    rcases List.mem_cons.mp he with rfl | he
    · exact Endpoint.grounded_of_resolve h₁ hfirst hne₁
    · rw [List.mem_singleton.mp he]
      exact Endpoint.grounded_of_resolve h₂ hsecond hne₂
  · rw [hfirst.fields, hsecond.fields]
    exact hlengths
  · rw [Endpoint.fieldSet, Endpoint.fieldSet, hfirst.fields, hsecond.fields]
    exact hsame

end Resolved

/-! Tables are still there, with their fields, whatever is done to a database. -/

/-- A table by its identifier, and its fields by theirs and their names. -/
def Table.register (t : Table) : Id .table × List (Id .field × String) :=
  (t.id, t.fields.map fun f => (f.id, f.name))

def Database.register (db : Database) : List (Id .table × List (Id .field × String)) :=
  db.tables.map (·.register)

theorem Table.Agrees.register {t t' : Table} (h : t.Agrees t') : t.register = t'.register :=
  Prod.ext h.id h.fields

theorem Table.Bound.register {tags : List Tag} {t' t : Table} (h : t'.Bound tags t) :
    t'.register = t.register := by
  rw [Table.register, h.id, h.fields]
  rfl

theorem Endpoint.Grounded.of_register {e : Endpoint} {t t' : Table} (h : e.Grounded t)
    (heq : t'.register = t.register) : e.Grounded t' where
  table := (congrArg Prod.fst heq).trans h.table
  nonempty := h.nonempty
  nodup := h.nodup
  names := by
    have hfields : t'.fields.map (fun f => (f.id, f.name)) = t.fields.map fun f => (f.id, f.name) :=
      congrArg Prod.snd heq
    apply h.names.imp
    rintro i name ⟨f, hf, rfl, rfl⟩
    have hmem : (f.id, f.name) ∈ t'.fields.map fun f => (f.id, f.name) :=
      hfields ▸ List.mem_map.mpr ⟨f, hf, rfl⟩
    obtain ⟨f', hf', heq'⟩ := List.mem_map.mp hmem
    exact ⟨f', hf', congrArg Prod.fst heq', congrArg Prod.snd heq'⟩

theorem Ref.Proper.mono {db db' : Database} {r : Ref} (h : r.Proper db)
    (hle : db.register ⊆ db'.register) : r.Proper db' where
  grounded := by
    intro e he
    obtain ⟨t, ht, hgrounded⟩ := h.grounded e he
    obtain ⟨t', ht', heq⟩ := List.mem_map.mp (hle (List.mem_map.mpr ⟨t, ht, rfl⟩))
    exact ⟨t', ht', hgrounded.of_register heq⟩
  lengths := h.lengths
  differ := h.differ

namespace Database

variable {db : Database}

theorem register_relink {f : Table → Table} {g : Enum → Enum} (hf : ∀ t, (f t).Agrees t) :
    (db.relink f g).register = db.register := by
  simp only [register, tables, relink, List.flatMap_map, List.map_flatMap, List.map_map,
    Function.comp_def, (hf _).register]

theorem register_bindEnum (i : Id .enum) : (db.bindEnum i).register = db.register := by
  rw [bindEnum_eq, register_relink (db.agrees_linkEnum i)]

theorem register_addSchema (s : Schema) : db.register ⊆ (db.addSchema s).register := by
  simp only [register, tables, addSchema, List.flatMap_append, List.map_append]
  exact List.subset_append_left _ _

theorem register_place (id : Id .schema) (e : Entity) :
    db.register ⊆ (db.place id e).register := by
  have hrelink : (db.relink e.tie fun e => e).register = db.register := register_relink e.agrees_tie
  rw [← hrelink]
  apply List.map_subset
  intro t ht
  obtain ⟨s, hs, ht⟩ := List.mem_flatMap.mp ht
  refine List.mem_flatMap.mpr ⟨_, mem_updateSchema.mpr ⟨s, hs, rfl⟩, ?_⟩
  split
  · exact s.tables_insert e ht
  · exact ht

end Database

namespace Assembly

variable {m : Remit} {a b : Assembly}

theorem Change.register (h : Change m a b) : a.database.register ⊆ b.database.register := by
  cases h with
  | spend h =>
    rw [h.database]
    exact List.Subset.refl _
  | mark => exact List.Subset.refl _
  | opens h =>
    rw [h.database]
    exact Database.register_addSchema _
  | inserts h =>
    rw [h.database]
    obtain ⟨f, g, heq, hf, -⟩ := a.database.commit_eq_relink _ _
    rw [heq, Database.register_relink hf]
    exact Database.register_place _ _
  | bindEnum i =>
    rw [Database.register_bindEnum]
    exact List.Subset.refl _

theorem Bound.register (h : Bound a b) : b.database.register = a.database.register := by
  simp only [Database.register, Database.tables, List.map_flatMap]
  apply flatMap_eq_of_paired h.schemas
  intro s' s hs
  exact map_eq_of_paired hs.tables fun _ _ ht => ht.register

end Assembly

end Catalog
