import Catalog.Proofs.Outline
import Mathlib.Algebra.Order.BigOperators.Group.List
import Mathlib.Algebra.Order.Group.Nat
import Mathlib.Data.List.Basic

/-!
Outlines only grow: schemas get further records, and further schemas come after. What a name
refers to stays as it is, since the first match counts and additions come last.
-/
namespace Catalog

theorem SchemaInfo.isNamed_iff (s : SchemaInfo) (name : String) :
    s.isNamed name = true ↔ s.name = name ∨ s.aliasName = some name := by
  rw [isNamed, Catalog.isNamed, Bool.or_eq_true, decide_eq_true_iff, decide_eq_true_iff]

theorem SchemaInfo.isNamed_name (s : SchemaInfo) : s.isNamed s.name = true :=
  (s.isNamed_iff s.name).mpr (.inl rfl)

theorem Config.isNamed_impliedSchema (c : Config) (name other : String) :
    (c.impliedSchema name).isNamed other = true ↔ name = other := by
  rw [SchemaInfo.isNamed_iff]
  simp [impliedSchema]

theorem find?_of_prefix {α : Type} {p : α → Bool} {l l' : List α} {a : α} (h : l <+: l')
    (ha : l.find? p = some a) : l'.find? p = some a := by
  obtain ⟨rest, rfl⟩ := h
  rw [List.find?_append, ha]
  rfl

/-- What no other element passes a test with is found by it. -/
theorem find?_of_unique {α : Type} {p : α → Bool} {l : List α} {a : α} (ha : a ∈ l)
    (hp : p a = true) (hunique : ∀ b ∈ l, p b = true → b = a) : l.find? p = some a := by
  cases hfind : l.find? p with
  | none => exact absurd hp (List.find?_eq_none.mp hfind a ha)
  | some b => rw [hunique b (List.mem_of_find?_eq_some hfind) (List.find?_some hfind)]

namespace Decl

/-- The records of one schema are the first ones of the other. -/
structure Schema.Grows (s s' : Schema) : Prop where
  info : s'.toSchemaInfo = s.toSchemaInfo
  tables : s.tables <+: s'.tables
  tags : s.tags <+: s'.tags
  enums : s.enums <+: s'.enums
  refs : s.refs <+: s'.refs
  tableGroups : s.tableGroups <+: s'.tableGroups

namespace Schema.Grows

theorem refl (s : Schema) : s.Grows s :=
  ⟨rfl, List.prefix_rfl, List.prefix_rfl, List.prefix_rfl, List.prefix_rfl, List.prefix_rfl⟩

theorem trans {s s' s'' : Schema} (h : s.Grows s') (h' : s'.Grows s'') : s.Grows s'' :=
  ⟨h'.info.trans h.info, h.tables.trans h'.tables, h.tags.trans h'.tags, h.enums.trans h'.enums,
    h.refs.trans h'.refs, h.tableGroups.trans h'.tableGroups⟩

theorem name {s s' : Schema} (h : s.Grows s') : s'.name = s.name := by
  rw [h.info]

theorem isNamed {s s' : Schema} (h : s.Grows s') (name : String) :
    s'.isNamed name = s.isNamed name := by
  rw [h.info]

end Schema.Grows

theorem Schema.grows_add (s : Schema) (r : Item) : s.Grows (s.add r) := by
  cases r <;> constructor <;> simp [Schema.add]

theorem Schema.grows_withImpliedTags (s : Schema) : s.Grows s.withImpliedTags := by
  constructor <;> simp [Schema.withImpliedTags]

theorem Schema.Distinct.of_grows {s s' : Schema} (h : s'.Distinct) (hg : s.Grows s') :
    s.Distinct where
  tables := h.tables.sublist (hg.tables.sublist.map _)
  enums := h.enums.sublist (hg.enums.sublist.map _)
  tags := h.tags.sublist (hg.tags.sublist.map _)
  tableGroups := h.tableGroups.sublist (hg.tableGroups.sublist.map _)
  fields := fun t ht => h.fields t (hg.tables.subset ht)
  values := fun e he => h.values e (hg.enums.subset he)

theorem Schema.records_sublist {s s' : Schema} (h : s.Grows s') :
    s.records.Sublist s'.records := by
  unfold Schema.records
  apply List.Sublist.append
  · apply List.Sublist.append
    · apply List.Sublist.append
      · exact (h.tables.sublist.map _).append (h.tags.sublist.map _)
      · exact h.enums.sublist.map _
    · exact h.refs.sublist.map _
  · exact h.tableGroups.sublist.map _

theorem Schema.extent_le {s s' : Schema} (h : s.Grows s') (k : Kind) : s.extent k ≤ s'.extent k :=
  Nat.add_le_add_left (((records_sublist h).map _).sum_le_sum (by simp)) _

/-- Each schema of one outline has grown to the one in the same place of the other. -/
def Outline.Grows (o o' : Outline) : Prop :=
  ∀ (i : Nat) (s : Schema), o[i]? = some s → ∃ s', o'[i]? = some s' ∧ s.Grows s'

namespace Outline

variable {c : Config} {o o' o'' : Outline}

theorem Grows.refl (o : Outline) : o.Grows o :=
  fun _ s h => ⟨s, h, Schema.Grows.refl s⟩

theorem Grows.trans (h : o.Grows o') (h' : o'.Grows o'') : o.Grows o'' := by
  intro i s hs
  obtain ⟨s', hs', hg⟩ := h i s hs
  obtain ⟨s'', hs'', hg'⟩ := h' i s' hs'
  exact ⟨s'', hs'', hg.trans hg'⟩

theorem grows_append (o rest : Outline) : o.Grows (o ++ rest) := by
  intro i s hs
  refine ⟨s, ?_, Schema.Grows.refl s⟩
  rw [List.getElem?_append_left (List.getElem?_eq_some_iff.mp hs).1]
  exact hs

theorem grows_map (o : Outline) {f : Schema → Schema} (hf : ∀ s ∈ o, s.Grows (f s)) :
    o.Grows (o.map f) := by
  intro i s hs
  exact ⟨f s, by simp [hs], hf s (List.mem_of_getElem? hs)⟩

theorem grows_arrive (c : Config) (o : Outline) (name : String) : o.Grows (o.arrive c name) := by
  unfold Outline.arrive
  split
  · exact Grows.refl o
  · exact grows_append o _

theorem grows_cons_iff {s : Schema} :
    Outline.Grows (s :: o) o' ↔ ∃ s' rest, o' = s' :: rest ∧ s.Grows s' ∧ o.Grows rest := by
  constructor
  · intro h
    obtain ⟨s', hs', hg⟩ := h 0 s rfl
    cases o' with
    | nil => simp at hs'
    | cons t rest =>
      cases hs'
      exact ⟨s', rest, rfl, hg, fun i u hu => h (i + 1) u hu⟩
  · rintro ⟨s', rest, rfl, hg, h⟩ i u hu
    cases i with
    | zero =>
      cases hu
      exact ⟨s', rfl, hg⟩
    | succ i => exact h i u hu

theorem Grows.mem (h : o.Grows o') {s : Schema} (hs : s ∈ o) : ∃ s' ∈ o', s.Grows s' := by
  obtain ⟨i, hi⟩ := List.getElem?_of_mem hs
  obtain ⟨s', hs', hg⟩ := h i s hi
  exact ⟨s', List.mem_of_getElem? hs', hg⟩

/-- What further schemas and records add stands in between and after, so lists over all schemas
have their old elements in the old order. -/
theorem Grows.flatMap_sublist {α : Type} {f : Schema → List α} (h : o.Grows o')
    (hf : ∀ s s' : Schema, s.Grows s' → (f s).Sublist (f s')) :
    (o.flatMap f).Sublist (o'.flatMap f) := by
  induction o generalizing o' with
  | nil => exact List.nil_sublist _
  | cons s o ih =>
    obtain ⟨s', rest, rfl, hg, hrest⟩ := grows_cons_iff.mp h
    rw [List.flatMap_cons, List.flatMap_cons]
    exact (hf s s' hg).append (ih hrest)

theorem Grows.extent_le (h : o.Grows o') (k : Kind) : o.extent k ≤ o'.extent k := by
  unfold extent
  apply Nat.add_le_add_left
  induction o generalizing o' with
  | nil => simp
  | cons s o ih =>
    obtain ⟨s', rest, rfl, hg, hrest⟩ := grows_cons_iff.mp h
    simp only [List.map_cons, List.sum_cons]
    exact Nat.add_le_add (Schema.extent_le hg k) (ih hrest)

theorem HasRoom.of_grows (h : o'.HasRoom c) (hg : o.Grows o') : o.HasRoom c :=
  fun k => Nat.le_trans (Nat.add_le_add_left (hg.extent_le k) _) (h k)

/-! Looking up names. -/

theorem Grows.schema? (h : o.Grows o') {name : String} {s : Schema}
    (hs : o.schema? name = some s) : ∃ s', o'.schema? name = some s' ∧ s.Grows s' := by
  induction o generalizing o' with
  | nil => simp [Outline.schema?] at hs
  | cons t o ih =>
    obtain ⟨t', rest, rfl, hg, hrest⟩ := grows_cons_iff.mp h
    unfold Outline.schema? at hs ⊢
    rw [List.find?_cons] at hs ⊢
    rw [hg.isNamed]
    split at hs
    · cases hs
      exact ⟨t', rfl, hg⟩
    · exact ih hrest hs

theorem locate?_eq_some_iff {schemaName : Option String} {tableName : String} {s : Schema}
    {t : Table} : o.locate? c schemaName tableName = some (s, t) ↔
      o.schema? (schemaName.getD c.defaultSchemaName) = some s ∧
        s.tables.find? (·.isNamed tableName) = some t := by
  unfold locate?
  simp only [Option.bind_eq_some_iff, Option.map_eq_some_iff, Prod.mk.injEq]
  constructor
  · rintro ⟨s', hs, t', ht, rfl, rfl⟩
    exact ⟨hs, ht⟩
  · rintro ⟨hs, ht⟩
    exact ⟨s, hs, t, ht, rfl, rfl⟩

theorem Grows.locate? (h : o.Grows o') {schemaName : Option String} {tableName : String}
    {s : Schema} {t : Table} (hl : o.locate? c schemaName tableName = some (s, t)) :
    ∃ s', o'.locate? c schemaName tableName = some (s', t) ∧ s.Grows s' := by
  obtain ⟨hs, ht⟩ := locate?_eq_some_iff.mp hl
  obtain ⟨s', hs', hg⟩ := h.schema? hs
  exact ⟨s', locate?_eq_some_iff.mpr ⟨hs', find?_of_prefix hg.tables ht⟩, hg⟩

theorem Grows.tablePath? (h : o.Grows o') {schemaName : Option String} {tableName : String}
    {p : TablePath} (hp : o.tablePath? c schemaName tableName = some p) :
    o'.tablePath? c schemaName tableName = some p := by
  unfold Outline.tablePath? at hp ⊢
  obtain ⟨⟨s, t⟩, hl, rfl⟩ := Option.map_eq_some_iff.mp hp
  obtain ⟨s', hl', hg⟩ := h.locate? hl
  rw [hl', Option.map_some, hg.name]

theorem Grows.fieldPath? (h : o.Grows o') {e : EndpointInfo} {name : String} {p : FieldPath}
    (hp : o.fieldPath? c e name = some p) : o'.fieldPath? c e name = some p := by
  unfold Outline.fieldPath? at hp ⊢
  obtain ⟨⟨s, t⟩, hl, hf⟩ := Option.bind_eq_some_iff.mp hp
  obtain ⟨s', hl', hg⟩ := h.locate? hl
  rw [hl', Option.bind_some, hg.name]
  exact hf

theorem Resolves.cover_eq {e : EndpointInfo} (hr : o.Resolves c e) (h : o.Grows o') :
    o'.cover c e = o.cover c e := by
  unfold cover
  apply List.map_congr_left
  intro name hname
  obtain ⟨p, hp⟩ := Option.isSome_iff_exists.mp (hr.fields name hname)
  rw [h.fieldPath? hp, hp]

theorem Resolves.of_grows {e : EndpointInfo} (hr : o.Resolves c e) (h : o.Grows o') :
    o'.Resolves c e where
  table := by
    obtain ⟨p, hp⟩ := Option.isSome_iff_exists.mp hr.table
    rw [h.tablePath? hp]
    rfl
  fields := by
    intro name hname
    obtain ⟨p, hp⟩ := Option.isSome_iff_exists.mp (hr.fields name hname)
    rw [h.fieldPath? hp]
    rfl
  nodup := by
    rw [hr.cover_eq h]
    exact hr.nodup

theorem Connects.resolves {r : Ref} (hr : o.Connects c r) {e : Endpoint}
    (he : e ∈ r.endpoints) : o.Resolves c e.toEndpointInfo := by
  obtain ⟨e₁, e₂, hends, h₁, h₂, -, -⟩ := hr
  rw [hends] at he
  rcases List.mem_pair.mp he with rfl | rfl
  · exact h₁
  · exact h₂

theorem Connects.of_grows {r : Ref} (hr : o.Connects c r) (h : o.Grows o') : o'.Connects c r := by
  obtain ⟨e₁, e₂, hends, h₁, h₂, hlen, hne⟩ := hr
  refine ⟨e₁, e₂, hends, h₁.of_grows h, h₂.of_grows h, hlen, ?_⟩
  rw [h₁.cover_eq h, h₂.cover_eq h]
  exact hne

theorem SameEnds.of_cover_eq {r r' : Ref} (h : o.SameEnds c r r')
    (hr : ∀ e ∈ r.endpoints, o'.cover c e.toEndpointInfo = o.cover c e.toEndpointInfo)
    (hr' : ∀ e ∈ r'.endpoints, o'.cover c e.toEndpointInfo = o.cover c e.toEndpointInfo) :
    o'.SameEnds c r r' := by
  obtain ⟨e₁, e₂, e₁', e₂', hends, hends', hsame⟩ := h
  refine ⟨e₁, e₂, e₁', e₂', hends, hends', ?_⟩
  rw [hr e₁ (by simp [hends]), hr e₂ (by simp [hends]), hr' e₁' (by simp [hends']),
    hr' e₂' (by simp [hends'])]
  exact hsame

theorem sameEnds_iff_of_grows {r r' : Ref} (hr : o.Connects c r) (hr' : o.Connects c r')
    (h : o.Grows o') : o'.SameEnds c r r' ↔ o.SameEnds c r r' := by
  have hcover : ∀ e ∈ r.endpoints, o'.cover c e.toEndpointInfo = o.cover c e.toEndpointInfo :=
    fun e he => (hr.resolves he).cover_eq h
  have hcover' : ∀ e ∈ r'.endpoints, o'.cover c e.toEndpointInfo = o.cover c e.toEndpointInfo :=
    fun e he => (hr'.resolves he).cover_eq h
  constructor
  · intro hs
    exact hs.of_cover_eq (fun e he => (hcover e he).symm) fun e he => (hcover' e he).symm
  · intro hs
    exact hs.of_cover_eq hcover hcover'

theorem Gathers.of_grows {g : TableGroup} (hg : o.Gathers c g) (h : o.Grows o') :
    o'.Gathers c g := by
  intro m hm
  obtain ⟨p, hp⟩ := Option.isSome_iff_exists.mp (hg m hm)
  rw [h.tablePath? hp]
  rfl

theorem Gathers.members_eq {g : TableGroup} (hg : o.Gathers c g) (h : o.Grows o') :
    o'.members c g = o.members c g := by
  unfold members
  congr 1
  apply List.filterMap_congr
  intro m hm
  obtain ⟨p, hp⟩ := Option.isSome_iff_exists.mp (hg m hm)
  rw [h.tablePath? hp, hp]

end Outline

end Decl

end Catalog
