import Catalog.Proofs.GroupLinks

/-!
How a database grows. Entities stay where they are, with their identifiers and with what they were
declared with. Others come after them in the lists that they are in, and links are drawn where there
were none.
-/
namespace Catalog

/-- A list begins with later versions of the elements of an earlier one, in their order. -/
inductive Begins {α : Type} (R : α → α → Prop) : List α → List α → Prop
  | nil {l : List α} : Begins R [] l
  | cons {x y : α} {l l' : List α} : R x y → Begins R l l' → Begins R (x :: l) (y :: l')

namespace Begins

variable {α β : Type} {R S : α → α → Prop} {l l' l'' : List α}

theorem of_paired (h : List.Forall₂ R l l') : Begins R l l' := by
  induction h with
  | nil => exact .nil
  | cons hxy _ ih => exact .cons hxy ih

theorem map {f : α → α} (h : ∀ x ∈ l, R x (f x)) : Begins R l (l.map f) :=
  .of_paired (List.forall₂_map_right_iff.mpr (List.forall₂_same.mpr h))

theorem refl (h : ∀ x, R x x) (l : List α) : Begins R l l :=
  .of_paired (List.forall₂_same.mpr fun x _ => h x)

theorem trans (h : Begins R l l') (h' : Begins R l' l'')
    (hR : ∀ x y z, R x y → R y z → R x z) : Begins R l l'' := by
  induction h generalizing l'' with
  | nil => exact .nil
  | cons hxy _ ih =>
    cases h' with
    | cons hyz h' => exact .cons (hR _ _ _ hxy hyz) (ih h')

theorem append (h : Begins R l l') (added : List α) : Begins R l (l' ++ added) := by
  induction h with
  | nil => exact .nil
  | cons hxy _ ih => exact .cons hxy ih

theorem imp (h : Begins R l l') (hRS : ∀ x y, R x y → S x y) : Begins S l l' := by
  induction h with
  | nil => exact .nil
  | cons hxy _ ih => exact .cons (hRS _ _ hxy) ih

theorem exists_of_mem (h : Begins R l l') {x : α} (hx : x ∈ l) : ∃ y ∈ l', R x y := by
  induction h with
  | nil => cases hx
  | cons hxy _ ih =>
    rcases List.mem_cons.mp hx with rfl | hx
    · exact ⟨_, List.mem_cons_self, hxy⟩
    · obtain ⟨y, hy, hr⟩ := ih hx
      exact ⟨y, List.mem_cons_of_mem _ hy, hr⟩

/-- What later versions have in common with earlier ones, the lists have at their beginnings. -/
theorem map_prefix {f : α → β} (h : Begins R l l') (hf : ∀ x y, R x y → f y = f x) :
    l.map f <+: l'.map f := by
  induction h with
  | nil => exact List.nil_prefix
  | cons hxy _ ih =>
    rw [List.map_cons, List.map_cons, hf _ _ hxy]
    exact List.cons_prefix_cons.mpr ⟨rfl, ih⟩

/-- The first element to pass a test is not outrun by elements that come later. -/
theorem find? {p : α → Bool} (h : Begins R l l') (hp : ∀ x y, R x y → p y = p x) {x : α}
    (hx : l.find? p = some x) : ∃ y, l'.find? p = some y ∧ R x y := by
  induction h with
  | nil => cases hx
  | cons hxy _ ih =>
    rw [List.find?_cons] at hx ⊢
    rw [hp _ _ hxy]
    split at hx
    · cases hx
      exact ⟨_, rfl, hxy⟩
    · exact ih hx

end Begins

/-! What may become of an entity. -/

structure Field.Grows (f f' : Field) : Prop where
  same : f' = { f with enumId := f'.enumId, endpoints := f'.endpoints }
  enumId : ∀ i, f.enumId = some i → f'.enumId = some i
  endpoints : f.endpoints <+: f'.endpoints

structure Table.Grows (t t' : Table) : Prop where
  same : t' = { t with fields := t'.fields, group := t'.group }
  fields : List.Forall₂ Field.Grows t.fields t'.fields
  group : ∀ i, t.group = some i → t'.group = some i

structure Enum.Grows (e e' : Enum) : Prop where
  same : e' = { e with fields := e'.fields }
  fields : e.fields <+: e'.fields

/-- Refs, tags and groups of tables never change at all. -/
structure Schema.Grows (s s' : Schema) : Prop where
  same : s' = { s with tables := s'.tables, enums := s'.enums, refs := s'.refs, tags := s'.tags,
                       tableGroups := s'.tableGroups }
  tables : Begins Table.Grows s.tables s'.tables
  enums : Begins Enum.Grows s.enums s'.enums
  refs : s.refs <+: s'.refs
  tags : s.tags <+: s'.tags
  tableGroups : s.tableGroups <+: s'.tableGroups

structure Database.Grows (db db' : Database) : Prop where
  same : db' = { db with hasDefaultSchema := db'.hasDefaultSchema, schemas := db'.schemas }
  marked : db.hasDefaultSchema = true → db'.hasDefaultSchema = true
  schemas : Begins Schema.Grows db.schemas db'.schemas

/-! Growth can be taken step by step. -/

theorem Field.Grows.refl (f : Field) : f.Grows f :=
  ⟨rfl, fun _ h => h, List.prefix_rfl⟩

theorem Table.Grows.refl (t : Table) : t.Grows t :=
  ⟨rfl, List.forall₂_same.mpr fun f _ => .refl f, fun _ h => h⟩

theorem Enum.Grows.refl (e : Enum) : e.Grows e :=
  ⟨rfl, List.prefix_rfl⟩

theorem Schema.Grows.refl (s : Schema) : s.Grows s :=
  ⟨rfl, .refl .refl _, .refl .refl _, List.prefix_rfl, List.prefix_rfl, List.prefix_rfl⟩

theorem Database.Grows.refl (db : Database) : db.Grows db :=
  ⟨rfl, fun h => h, .refl .refl _⟩

theorem Field.Grows.trans {f f' f'' : Field} (h : f.Grows f') (h' : f'.Grows f'') :
    f.Grows f'' where
  same := h'.same.trans (by rw [h.same])
  enumId i hi := h'.enumId i (h.enumId i hi)
  endpoints := h.endpoints.trans h'.endpoints

theorem Table.Grows.trans {t t' t'' : Table} (h : t.Grows t') (h' : t'.Grows t'') :
    t.Grows t'' where
  same := h'.same.trans (by rw [h.same])
  fields := paired_comp h.fields h'.fields fun _ _ _ => .trans
  group i hi := h'.group i (h.group i hi)

theorem Enum.Grows.trans {e e' e'' : Enum} (h : e.Grows e') (h' : e'.Grows e'') :
    e.Grows e'' where
  same := h'.same.trans (by rw [h.same])
  fields := h.fields.trans h'.fields

theorem Schema.Grows.trans {s s' s'' : Schema} (h : s.Grows s') (h' : s'.Grows s'') :
    s.Grows s'' where
  same := h'.same.trans (by rw [h.same])
  tables := h.tables.trans h'.tables fun _ _ _ => .trans
  enums := h.enums.trans h'.enums fun _ _ _ => .trans
  refs := h.refs.trans h'.refs
  tags := h.tags.trans h'.tags
  tableGroups := h.tableGroups.trans h'.tableGroups

theorem Database.Grows.trans {db db' db'' : Database} (h : db.Grows db') (h' : db'.Grows db'') :
    db.Grows db'' where
  same := h'.same.trans (by rw [h.same])
  marked hm := h'.marked (h.marked hm)
  schemas := h.schemas.trans h'.schemas fun _ _ _ => .trans

/-! The ways in which databases change. -/

theorem Field.grows_linkEndpoint (f : Field) (e : Endpoint) : f.Grows (f.linkEndpoint e) := by
  unfold linkEndpoint
  split
  · exact ⟨rfl, fun _ h => h, List.prefix_append _ _⟩
  · exact .refl f

theorem Table.grows_mapFields {f : Field → Field} (t : Table) (h : ∀ x ∈ t.fields, x.Grows (f x)) :
    t.Grows { t with fields := t.fields.map f } where
  same := rfl
  fields := List.forall₂_map_right_iff.mpr (List.forall₂_same.mpr h)
  group _ h := h

/-- A table records an entity that it is linked to, unless it would have to forget a group. -/
theorem Entity.grows_tie {e : Entity} {t : Table}
    (h : ∀ g, e = .tableGroup g → t.id ∈ g.tables → t.group = none) : t.Grows (e.tie t) := by
  cases e with
  | ref r =>
    apply t.grows_mapFields
    exact fun f _ => (f.grows_linkEndpoint _).trans (Field.grows_linkEndpoint _ _)
  | tableGroup g =>
    simp only [tie]
    split
    · rename_i hmem
      have hnone := h g rfl (List.contains_iff_mem.mp hmem)
      refine ⟨rfl, (Table.Grows.refl t).fields, ?_⟩
      rw [hnone]
      rintro i ⟨⟩
    · exact .refl t
  | _ => exact .refl t

theorem Schema.grows_insert (s : Schema) (e : Entity) : s.Grows (s.insert e) := by
  cases e with
  | table t => exact { Grows.refl s with same := rfl, tables := (Begins.refl .refl _).append _ }
  | enum e => exact { Grows.refl s with same := rfl, enums := (Begins.refl .refl _).append _ }
  | ref r => exact { Grows.refl s with same := rfl, refs := List.prefix_append _ _ }
  | tag t => exact { Grows.refl s with same := rfl, tags := List.prefix_append _ _ }
  | tableGroup g => exact { Grows.refl s with same := rfl, tableGroups := List.prefix_append _ _ }

namespace Database

variable {db : Database}

theorem grows_relink {f : Table → Table} {g : Enum → Enum} (hf : ∀ t ∈ db.tables, t.Grows (f t))
    (hg : ∀ e ∈ db.enums, e.Grows (g e)) : db.Grows (db.relink f g) where
  same := rfl
  marked h := h
  schemas := by
    apply Begins.map
    intro s hs
    exact {
      same := rfl
      tables := .map fun t ht => hf t (List.mem_flatMap.mpr ⟨s, hs, ht⟩)
      enums := .map fun e he => hg e (List.mem_flatMap.mpr ⟨s, hs, he⟩)
      refs := List.prefix_rfl
      tags := List.prefix_rfl
      tableGroups := List.prefix_rfl }

theorem grows_updateSchema (db : Database) (id : Id .schema) (e : Entity) :
    db.Grows (db.updateSchema id (·.insert e)) where
  same := rfl
  marked h := h
  schemas := by
    apply Begins.map
    intro s _
    split
    · exact s.grows_insert e
    · exact .refl s

theorem grows_addSchema (db : Database) (s : Schema) : db.Grows (db.addSchema s) :=
  ⟨rfl, fun h => h, (Begins.refl .refl _).append _⟩

theorem grows_markDefault (db : Database) : db.Grows db.markDefault :=
  ⟨rfl, fun _ => rfl, .refl .refl _⟩

/-- An entity is placed after everything that is there, and nothing is forgotten for it. -/
theorem grows_place (hn : (db.arena .table).Nodup) (id : Id .schema) {e : Entity}
    (he : e.LinkedIn db) : db.Grows (db.place id e) := by
  refine (grows_relink ?_ fun e _ => .refl e).trans (grows_updateSchema _ id e)
  intro t ht
  apply Entity.grows_tie
  rintro g rfl hmem
  exact he.ungrouped hn ht hmem

end Database

end Catalog
