import Catalog.Proofs.Flattening.Filed
import Catalog.Store

/-!
The store of an assembly: every entity of the tree as a record, in the arena of its kind, with its
owner written into it.
-/
namespace Catalog

/-! The record of an entity, given its owner. -/

def Schema.stored (database : Id .database) (s : Schema) : Stored.Schema where
  toSchemaInfo := s.toSchemaInfo
  id := s.id
  token := s.token
  database
  tables := s.tables.map (·.id)
  enums := s.enums.map (·.id)
  refs := s.refs.map (·.id)
  tags := s.tags.map (·.id)
  tableGroups := s.tableGroups.map (·.id)

def Table.stored (schema : Id .schema) (t : Table) : Stored.Table where
  toTableInfo := t.toTableInfo
  id := t.id
  token := t.token
  schema
  fields := t.fields.map (·.id)
  indexes := t.indexes.map (·.id)
  mentions := t.mentions
  tags := t.tags
  group := t.group

def Field.stored (table : Id .table) (f : Field) : Stored.Field where
  toFieldInfo := f.toFieldInfo
  id := f.id
  token := f.token
  table
  enumId := f.enumId
  endpoints := f.endpoints

def Index.stored (table : Id .table) (x : Index) : Stored.Index where
  toIndexInfo := x.toIndexInfo
  id := x.id
  token := x.token
  table
  columns := x.columns.map (·.id)

def IndexColumn.stored (index : Id .index) (c : IndexColumn) : Stored.IndexColumn where
  toIndexColumnInfo := c.toIndexColumnInfo
  id := c.id
  token := c.token
  index

def Enum.stored (schema : Id .schema) (e : Enum) : Stored.Enum where
  toEnumInfo := e.toEnumInfo
  id := e.id
  token := e.token
  schema
  values := e.values.map (·.id)
  fields := e.fields

def EnumValue.stored (enumId : Id .enum) (v : EnumValue) : Stored.EnumValue where
  toEnumValueInfo := v.toEnumValueInfo
  id := v.id
  token := v.token
  enumId

def Ref.stored (schema : Id .schema) (r : Ref) : Stored.Ref where
  toRefInfo := r.toRefInfo
  id := r.id
  token := r.token
  schema
  endpoints := r.endpoints.map (·.id)

def Endpoint.stored (ref : Id .ref) (e : Endpoint) : Stored.Endpoint where
  toEndpointInfo := e.toEndpointInfo
  id := e.id
  token := e.token
  ref
  table := e.table
  fields := e.fields

def TableGroup.stored (schema : Id .schema) (g : TableGroup) : Stored.TableGroup where
  toTableGroupInfo := g.toTableGroupInfo
  id := g.id
  token := g.token
  schema
  tables := g.tables

def Tag.stored (schema : Id .schema) (t : Tag) : Stored.Tag where
  toTagInfo := t.toTagInfo
  id := t.id
  token := t.token
  schema
  tables := t.tables

/-- Records of all kinds. -/
abbrev Rows := (k : Kind) → List (Stored k)

/-- The records of what a schema holds. -/
def Schema.rows (s : Schema) : Rows
  | .database | .schema => []
  | .table => s.tables.map (·.stored s.id)
  | .field => s.tables.flatMap fun t => t.fields.map (·.stored t.id)
  | .index => s.tables.flatMap fun t => t.indexes.map (·.stored t.id)
  | .indexColumn => s.tables.flatMap fun t =>
    t.indexes.flatMap fun x => x.columns.map (·.stored x.id)
  | .enum => s.enums.map (·.stored s.id)
  | .enumValue => s.enums.flatMap fun e => e.values.map (·.stored e.id)
  | .ref => s.refs.map (·.stored s.id)
  | .endpoint => s.refs.flatMap fun r => r.endpoints.map (·.stored r.id)
  | .tableGroup => s.tableGroups.map (·.stored s.id)
  | .tag => s.tags.map (·.stored s.id)

def Database.rows (db : Database) : Rows
  | .schema => db.schemas.map (·.stored db.id)
  | k => db.schemas.flatMap (·.rows k)

/-- Arenas with some records, each under its own identifier. -/
def Rows.arena (ρ : Rows) (k : Kind) : Bucket k (Stored k) :=
  .ofList ((ρ k).map fun r => (r.key, r))

def Assembly.layout (a : Assembly) : Store where
  toDatabaseInfo := a.database.toDatabaseInfo
  id := a.database.id
  config := a.database.config
  hasDefaultSchema := a.database.hasDefaultSchema
  schemas := a.database.schemas.map (·.id)
  arena := a.database.rows.arena
  ids := a.ids

/-! Buckets with the same records are the same. -/

theorem Bucket.ext_get? {k : Kind} {α : Type} {b b' : Bucket k α}
    (h : ∀ i, b.get? i = b'.get? i) : b = b' := by
  have hnodup : ∀ b : Bucket k α, b.entries.Nodup := by
    intro b
    apply List.Pairwise.imp _ b.ascending
    rintro e _ hlt rfl
    exact Nat.lt_irrefl _ hlt
  have hmem : ∀ e, e ∈ b.entries ↔ e ∈ b'.entries := by
    rintro ⟨i, r⟩
    rw [← get?_eq_some_iff, ← get?_eq_some_iff, h i]
  have hperm : b.entries.Perm b'.entries :=
    (List.perm_ext_iff_of_nodup (hnodup b) (hnodup b')).mpr hmem
  have heq : b.entries = b'.entries := by
    apply hperm.eq_of_pairwise _ b.ascending b'.ascending
    intro e e' _ _ hlt hgt
    exact absurd (Nat.lt_trans hlt hgt) (Nat.lt_irrefl _)
  rw [← Bucket.mk.injEq _ b.ascending _ b'.ascending] at heq
  exact heq

namespace Rows

variable {k : Kind} {ρ ρ' : Rows} {i : Id k} {r : Stored k}

/-- No two records of some kind share an identifier. -/
def Told (ρ : Rows) (k : Kind) : Prop :=
  ((ρ k).map Stored.key).Nodup

theorem get?_arena (h : ρ.Told k) : (ρ.arena k).get? i = some r ↔ r ∈ ρ k ∧ r.key = i := by
  have hkeys : (((ρ k).map fun r => (r.key, r)).map (·.1)).Nodup := by
    rw [List.map_map]
    exact h
  rw [Bucket.get?_eq_some_iff, arena, (Bucket.entries_ofList hkeys).mem_iff, List.mem_map]
  constructor
  · rintro ⟨r', hr', heq⟩
    obtain ⟨rfl, rfl⟩ := Prod.mk.inj heq
    exact ⟨hr', rfl⟩
  · rintro ⟨hr, rfl⟩
    exact ⟨r, hr, rfl⟩

theorem get?_arena_of_mem (h : ρ.Told k) (hr : r ∈ ρ k) : (ρ.arena k).get? r.key = some r :=
  (get?_arena h).mpr ⟨hr, rfl⟩

theorem ids_arena (h : ρ.Told k) : (ρ.arena k).ids.Perm ((ρ k).map Stored.key) := by
  have hkeys : (((ρ k).map fun r => (r.key, r)).map (·.1)).Nodup := by
    rw [List.map_map]
    exact h
  have hids := (Bucket.entries_ofList hkeys).map (·.1)
  rw [List.map_map] at hids
  exact hids

/-- The order in which records are filed makes no difference. -/
theorem arena_eq_of_perm (h : ρ.Told k) (hperm : (ρ k).Perm (ρ' k)) : ρ.arena k = ρ'.arena k := by
  have h' : ρ'.Told k := (hperm.map _).nodup_iff.mp h
  apply Bucket.ext_get?
  intro i
  apply Option.ext
  intro r
  rw [get?_arena h, get?_arena h', hperm.mem_iff]

/-- One more record. -/
def push (ρ : Rows) (r : Stored k) : Rows :=
  Function.update ρ k (ρ k ++ [r])

/-- More records of one kind. -/
def append (ρ : Rows) (rs : List (Stored k)) : Rows :=
  Function.update ρ k (ρ k ++ rs)

/-- Changes the record with some identifier. -/
def alter (ρ : Rows) (i : Id k) (f : Stored k → Stored k) : Rows :=
  Function.update ρ k ((ρ k).map fun r => if r.key = i then f r else r)

/-- Changes the records with some identifiers. -/
def alterEach (ρ : Rows) (is : List (Id k)) (f : Stored k → Stored k) : Rows :=
  Function.update ρ k ((ρ k).map fun r => if is.contains r.key then f r else r)

theorem alterEach_eq (ρ : Rows) (is : List (Id k)) (f : Stored k → Stored k) :
    ρ.alterEach is f
      = Function.update ρ k ((ρ k).map fun r => if r.key ∈ is then f r else r) := by
  simp only [alterEach, List.contains_iff_mem]

theorem arena_update (ρ : Rows) (rs : List (Stored k)) : (Rows.arena (Function.update ρ k rs))
    = Function.update ρ.arena k (.ofList (rs.map fun r => (r.key, r))) := by
  funext k'
  by_cases hk : k' = k
  · subst hk
    simp only [arena, Function.update_self]
  · simp only [arena, Function.update_of_ne hk]

theorem arena_push (ρ : Rows) (r : Stored k) :
    (ρ.push r).arena = Function.update ρ.arena k ((ρ.arena k).insert r.key r) := by
  rw [push, arena_update, List.map_append, Bucket.ofList, List.foldl_append]
  rfl

theorem map_key_alterEach (ρ : Rows) (is : List (Id k)) {f : Stored k → Stored k}
    (hf : ∀ r, (f r).key = r.key) (k' : Kind) :
    (ρ.alterEach is f k').map Stored.key = (ρ k').map Stored.key := by
  by_cases hk : k' = k
  · subst hk
    rw [alterEach, Function.update_self, List.map_map]
    apply List.map_congr_left
    intro r _
    rw [Function.comp_apply]
    split
    · exact hf r
    · rfl
  · rw [alterEach, Function.update_of_ne hk]

theorem alter_eq_alterEach (ρ : Rows) (i : Id k) (f : Stored k → Stored k) :
    ρ.alter i f = ρ.alterEach [i] f := by
  simp only [alter, alterEach_eq, List.mem_singleton]

theorem map_key_alter (ρ : Rows) (i : Id k) {f : Stored k → Stored k}
    (hf : ∀ r, (f r).key = r.key) (k' : Kind) :
    (ρ.alter i f k').map Stored.key = (ρ k').map Stored.key := by
  rw [alter_eq_alterEach]
  exact ρ.map_key_alterEach [i] hf k'

theorem mem_alter (h : ρ.Told k) (hr : r ∈ ρ k) {f : Stored k → Stored k} {u : Stored k} :
    u ∈ ρ.alter r.key f k ↔ u = f r ∨ u ∈ ρ k ∧ u.key ≠ r.key := by
  rw [alter, Function.update_self, List.mem_map]
  constructor
  · rintro ⟨v, hv, rfl⟩
    by_cases hkey : v.key = r.key
    · rw [if_pos hkey, List.inj_on_of_nodup_map h hv hr hkey]
      exact .inl rfl
    · rw [if_neg hkey]
      exact .inr ⟨hv, hkey⟩
  · rintro (rfl | ⟨hu, hkey⟩)
    · exact ⟨r, hr, if_pos rfl⟩
    · exact ⟨u, hu, if_neg hkey⟩

theorem arena_alter (h : ρ.Told k) (hr : r ∈ ρ k) {f : Stored k → Stored k}
    (hf : ∀ r, (f r).key = r.key) :
    (ρ.alter r.key f).arena = Function.update ρ.arena k ((ρ.arena k).insert r.key (f r)) := by
  have h' : Told (ρ.alter r.key f) k := by
    rw [Told, map_key_alter _ _ hf]
    exact h
  funext k'
  by_cases hk : k' = k
  · subst hk
    rw [Function.update_self]
    apply Bucket.ext_get?
    intro j
    apply Option.ext
    intro u
    rw [Bucket.get?_insert, get?_arena h', mem_alter h hr]
    by_cases hj : j = r.key
    · subst hj
      rw [if_pos rfl, Option.some.injEq]
      constructor
      · rintro ⟨rfl | ⟨-, hne⟩, hkey⟩
        · rfl
        · exact absurd hkey hne
      · rintro rfl
        exact ⟨.inl rfl, hf r⟩
    · rw [if_neg hj, get?_arena h]
      constructor
      · rintro ⟨rfl | ⟨hu, -⟩, hkey⟩
        · exact absurd (hkey.symm.trans (hf r)) hj
        · exact ⟨hu, hkey⟩
      · rintro ⟨hu, rfl⟩
        exact ⟨.inr ⟨hu, hj⟩, rfl⟩
  · rw [Function.update_of_ne hk, arena, arena, alter, Function.update_of_ne hk]

end Rows

end Catalog
