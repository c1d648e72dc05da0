import Catalog.Proofs.Flattening
import Catalog.Proofs.Store.Reach

/-!
Referential integrity: in every store that can be reached, each record is on the list of the one
owner that it names, and each identifier leads to a record.
-/
namespace Catalog

/-- The identifiers that a record mentions besides its own. -/
def Stored.targets : {k : Kind} → Stored k → (k' : Kind) → List (Id k')
  | .schema, (s : Schema), .database => [s.database]
  | .schema, (s : Schema), .table => s.tables
  | .schema, (s : Schema), .enum => s.enums
  | .schema, (s : Schema), .ref => s.refs
  | .schema, (s : Schema), .tag => s.tags
  | .schema, (s : Schema), .tableGroup => s.tableGroups
  | .table, (t : Table), .schema => [t.schema]
  | .table, (t : Table), .field => t.fields
  | .table, (t : Table), .index => t.indexes
  | .table, (t : Table), .tag => t.tags
  | .table, (t : Table), .tableGroup => t.group.toList
  | .field, (f : Field), .table => [f.table]
  | .field, (f : Field), .enum => f.enumId.toList
  | .field, (f : Field), .endpoint => f.endpoints
  | .index, (x : Index), .table => [x.table]
  | .index, (x : Index), .indexColumn => x.columns
  | .indexColumn, (c : IndexColumn), .index => [c.index]
  | .enum, (e : Enum), .schema => [e.schema]
  | .enum, (e : Enum), .enumValue => e.values
  | .enum, (e : Enum), .field => e.fields
  | .enumValue, (v : EnumValue), .enum => [v.enumId]
  | .ref, (r : Ref), .schema => [r.schema]
  | .ref, (r : Ref), .endpoint => r.endpoints
  | .endpoint, (e : Endpoint), .ref => [e.ref]
  | .endpoint, (e : Endpoint), .table => [e.table]
  | .endpoint, (e : Endpoint), .field => e.fields
  | .tableGroup, (g : TableGroup), .schema => [g.schema]
  | .tableGroup, (g : TableGroup), .table => g.tables
  | .tag, (g : Tag), .schema => [g.schema]
  | .tag, (g : Tag), .table => g.tables
  | _, _, _ => []

namespace Store

/-- The identifiers in use. -/
def keys (st : Store) : (k : Kind) → List (Id k)
  | .database => [st.id]
  | k => (st.arena k).ids

/-- Records are filed under their own identifiers, all identifiers that are mentioned are in use,
and each record is on one list, once, which is that of the owner it names. -/
structure Integral (st : Store) : Prop where
  key : ∀ {k} {i : Id k} {r : Stored k}, (st.arena k).get? i = some r → r.key = i
  targets : ∀ {k} {i : Id k} {r : Stored k}, (st.arena k).get? i = some r →
    ∀ k', r.targets k' ⊆ st.keys k'
  listed : st.schemas ⊆ st.keys .schema
  schemas : ∀ {i s}, (st.arena .schema).get? i = some s →
    s.database = st.id ∧ st.schemas.count i = 1
  tables : (st.arena .schema).Parents (st.arena .table) (·.tables) (·.schema)
  enums : (st.arena .schema).Parents (st.arena .enum) (·.enums) (·.schema)
  refs : (st.arena .schema).Parents (st.arena .ref) (·.refs) (·.schema)
  tags : (st.arena .schema).Parents (st.arena .tag) (·.tags) (·.schema)
  tableGroups : (st.arena .schema).Parents (st.arena .tableGroup) (·.tableGroups) (·.schema)
  fields : (st.arena .table).Parents (st.arena .field) (·.fields) (·.table)
  indexes : (st.arena .table).Parents (st.arena .index) (·.indexes) (·.table)
  indexColumns : (st.arena .index).Parents (st.arena .indexColumn) (·.columns) (·.index)
  enumValues : (st.arena .enum).Parents (st.arena .enumValue) (·.values) (·.enumId)
  endpoints : (st.arena .ref).Parents (st.arena .endpoint) (·.endpoints) (·.ref)

end Store

/-! The records of a database, owner by owner. -/

section Children

variable {ω χ : Type} {k : Kind} {os : List ω} {cs : ω → List χ} {g : ω → χ → Stored k}

theorem exists_child_of_mem {r : Stored k} (hr : r ∈ os.flatMap fun o => (cs o).map (g o)) :
    ∃ o ∈ os, ∃ c ∈ cs o, g o c = r := by
  obtain ⟨o, ho, hr⟩ := List.mem_flatMap.mp hr
  obtain ⟨c, hc, rfl⟩ := List.mem_map.mp hr
  exact ⟨o, ho, c, hc, rfl⟩

theorem Rows.arena_children {ρ : Rows} (h : ρ k = os.flatMap fun o => (cs o).map (g o))
    {cid : χ → Id k} (hid : ∀ o c, (g o c).key = cid c) :
    ρ.arena k = .ofList (os.flatMap fun o => (cs o).map fun c => (cid c, g o c)) := by
  rw [arena, h, List.map_flatMap]
  simp only [List.map_map, Function.comp_def, hid]

end Children

namespace Database

variable (db : Database)

theorem rows_field :
    db.rows .field = db.tables.flatMap fun t => t.fields.map (·.stored t.id) :=
  List.flatMap_assoc.symm

theorem rows_index :
    db.rows .index = db.tables.flatMap fun t => t.indexes.map (·.stored t.id) :=
  List.flatMap_assoc.symm

theorem rows_indexColumn :
    db.rows .indexColumn = db.indexes.flatMap fun x => x.columns.map (·.stored x.id) := by
  simp only [rows, Schema.rows, indexes, tables, List.flatMap_assoc]

theorem rows_enumValue :
    db.rows .enumValue = db.enums.flatMap fun e => e.values.map (·.stored e.id) :=
  List.flatMap_assoc.symm

theorem rows_endpoint :
    db.rows .endpoint = db.refs.flatMap fun r => r.endpoints.map (·.stored r.id) :=
  List.flatMap_assoc.symm

variable {db}

/-- Whatever a record mentions is there. -/
theorem targets_rows (hl : db.Linked) {k : Kind} {r : Stored k} (hr : r ∈ db.rows k) (k' : Kind) :
    r.targets k' ⊆ db.arena k' := by
  cases k with
  | database => exact nomatch r
  | schema =>
    obtain ⟨s, hs, rfl⟩ := List.mem_map.mp hr
    have hflat := Schema.mentions_flat hs k'
    cases k' <;> exact hflat
  | table =>
    obtain ⟨s, hs, t, ht, rfl⟩ := exists_child_of_mem hr
    have hflat := Table.mentions_flat hl hs ht k'
    cases k' <;> exact hflat
  | field =>
    obtain ⟨t, ht, f, hf, rfl⟩ := exists_child_of_mem (db.rows_field ▸ hr)
    have hflat := Field.mentions_flat hl ht hf k'
    cases k' <;> exact hflat
  | index =>
    obtain ⟨t, ht, x, hx, rfl⟩ := exists_child_of_mem (db.rows_index ▸ hr)
    have hflat := Index.mentions_flat ht hx k'
    cases k' <;> exact hflat
  | indexColumn =>
    obtain ⟨x, hx, c, -, rfl⟩ := exists_child_of_mem (db.rows_indexColumn ▸ hr)
    have hflat := IndexColumn.mentions_flat hx c k'
    cases k' <;> exact hflat
  | enum =>
    obtain ⟨s, hs, e, he, rfl⟩ := exists_child_of_mem hr
    have hflat := Enum.mentions_flat hl hs he k'
    cases k' <;> exact hflat
  | enumValue =>
    obtain ⟨e, he, v, -, rfl⟩ := exists_child_of_mem (db.rows_enumValue ▸ hr)
    have hflat := EnumValue.mentions_flat he v k'
    cases k' <;> exact hflat
  | ref =>
    obtain ⟨s, hs, v, hv, rfl⟩ := exists_child_of_mem hr
    have hflat := Ref.mentions_flat hs hv k'
    cases k' <;> exact hflat
  | endpoint =>
    obtain ⟨v, hv, e, he, rfl⟩ := exists_child_of_mem (db.rows_endpoint ▸ hr)
    have hflat := Endpoint.mentions_flat hl hv he k'
    cases k' <;> exact hflat
  | tableGroup =>
    obtain ⟨s, hs, g, hg, rfl⟩ := exists_child_of_mem hr
    have hflat := TableGroup.mentions_flat hl hs hg k'
    cases k' <;> exact hflat
  | tag =>
    obtain ⟨s, hs, g, hg, rfl⟩ := exists_child_of_mem hr
    have hflat := Tag.mentions_flat hl hs hg k'
    cases k' <;> exact hflat

end Database

namespace Store

variable {a : Assembly} (hn : ∀ k, (a.database.arena k).Nodup)
include hn

theorem keys_layout (k : Kind) : (a.layout.keys k).Perm (a.database.arena k) := by
  by_cases hk : k = .database
  · subst hk
    exact .refl _
  · have hids := Rows.ids_arena (Database.told_rows hn k)
    rw [Database.map_key_rows _ k hk] at hids
    cases k <;> first
      | exact absurd rfl hk
      | exact hids

/-- The schemas of a tree, each with a list of what it holds. -/
theorem lists_schemas {k : Kind} {list : Stored.Schema → List (Id k)} {ids : Schema → List (Id k)}
    (hlist : ∀ s : Schema, list (s.stored a.database.id) = ids s) :
    (a.layout.arena .schema).Lists list a.database.schemas (·.id) ids := by
  have htold := Database.told_rows hn .schema
  constructor
  · intro j r hj
    obtain ⟨hr, rfl⟩ := (Rows.get?_arena htold).mp hj
    obtain ⟨s, hs, rfl⟩ := List.mem_map.mp hr
    exact ⟨s, hs, rfl, hlist s⟩
  · exact fun s hs => ⟨_, Rows.get?_arena_of_mem htold (Database.mem_rows_schema hs), hlist s⟩

section Owners

variable {k k' : Kind} {ω χ : Type} {os : List ω} {cs : ω → List χ} {cid : χ → Id k}
  {g : ω → χ → Stored k}

theorem nodup_children (h : a.database.rows k = os.flatMap fun o => (cs o).map (g o))
    (hid : ∀ o c, (g o c).key = cid c) : ((os.flatMap cs).map cid).Nodup := by
  have htold := Database.told_rows hn k
  rw [Rows.Told, h, List.map_flatMap] at htold
  simp only [List.map_map, Function.comp_def, hid] at htold
  rw [List.map_flatMap]
  exact htold

theorem lists_children {list : Stored k → List (Id k')} {ids : χ → List (Id k')}
    (h : a.database.rows k = os.flatMap fun o => (cs o).map (g o))
    (hid : ∀ o c, (g o c).key = cid c) (hlist : ∀ o c, list (g o c) = ids c) :
    (a.layout.arena k).Lists list (os.flatMap cs) cid ids := by
  have harena : a.layout.arena k = _ := Rows.arena_children h hid
  rw [harena]
  exact Bucket.lists_children (nodup_children hn h hid) hlist

/-- Children whose owners list them, and whose records name these owners. -/
theorem parents_layout {owners : Bucket k' (Stored k')} {list : Stored k' → List (Id k)}
    {parent : Stored k → Id k'} {oid : ω → Id k'}
    (hlists : owners.Lists list os oid fun o => (cs o).map cid)
    (h : a.database.rows k = os.flatMap fun o => (cs o).map (g o))
    (hid : ∀ o c, (g o c).key = cid c) (hparent : ∀ o c, parent (g o c) = oid o) :
    owners.Parents (a.layout.arena k) list parent := by
  have harena : a.layout.arena k = _ := Rows.arena_children h hid
  rw [harena]
  exact hlists.parents (nodup_children hn h hid) hparent

end Owners

theorem integral_layout (hl : a.database.Linked) : a.layout.Integral := by
  have hget : ∀ {k} {i : Id k} {r : Stored k}, (a.layout.arena k).get? i = some r →
      r ∈ a.database.rows k ∧ r.key = i := (Rows.get?_arena (Database.told_rows hn _)).mp
  have hkeys := keys_layout hn
  have hschemas : ∀ {k : Kind} {list : Stored.Schema → List (Id k)} {ids : Schema → List (Id k)},
      (∀ s : Schema, list (s.stored a.database.id) = ids s) →
      (a.layout.arena .schema).Lists list a.database.schemas (·.id) ids := lists_schemas hn
  have htables : ∀ {k : Kind} {list : Stored.Table → List (Id k)} {ids : Table → List (Id k)},
      (∀ (s : Schema) t, list (Table.stored s.id t) = ids t) →
      (a.layout.arena .table).Lists list a.database.tables (·.id) ids :=
    lists_children hn (k := .table) rfl fun _ _ => rfl
  have hindexes : (a.layout.arena .index).Lists (·.columns) a.database.indexes (·.id)
      fun x => x.columns.map (·.id) :=
    lists_children hn (k := .index) a.database.rows_index (fun _ _ => rfl) fun _ _ => rfl
  have henums : (a.layout.arena .enum).Lists (·.values) a.database.enums (·.id)
      fun e => e.values.map (·.id) :=
    lists_children hn (k := .enum) rfl (fun _ _ => rfl) fun _ _ => rfl
  have hrefs : (a.layout.arena .ref).Lists (·.endpoints) a.database.refs (·.id)
      fun r => r.endpoints.map (·.id) :=
    lists_children hn (k := .ref) rfl (fun _ _ => rfl) fun _ _ => rfl
  exact {
    key := fun hr => (hget hr).2
    targets := fun hr k' j hj =>
      (hkeys k').mem_iff.mpr (Database.targets_rows hl (hget hr).1 k' hj)
    listed := fun i hi => (hkeys .schema).mem_iff.mpr hi
    schemas := by
      intro i s hs
      obtain ⟨hrow, rfl⟩ := hget hs
      obtain ⟨s, hmem, rfl⟩ := List.mem_map.mp hrow
      exact ⟨rfl, List.count_eq_one_of_mem (hn .schema) (List.mem_map.mpr ⟨s, hmem, rfl⟩)⟩
    tables := parents_layout hn (hschemas fun _ => rfl) rfl (fun _ _ => rfl) fun _ _ => rfl
    enums := parents_layout hn (hschemas fun _ => rfl) rfl (fun _ _ => rfl) fun _ _ => rfl
    refs := parents_layout hn (hschemas fun _ => rfl) rfl (fun _ _ => rfl) fun _ _ => rfl
    tags := parents_layout hn (hschemas fun _ => rfl) rfl (fun _ _ => rfl) fun _ _ => rfl
    tableGroups := parents_layout hn (hschemas fun _ => rfl) rfl (fun _ _ => rfl) fun _ _ => rfl
    fields := parents_layout hn (htables fun _ _ => rfl) a.database.rows_field (fun _ _ => rfl)
      fun _ _ => rfl
    indexes := parents_layout hn (htables fun _ _ => rfl) a.database.rows_index (fun _ _ => rfl)
      fun _ _ => rfl
    indexColumns := parents_layout hn hindexes a.database.rows_indexColumn (fun _ _ => rfl)
      fun _ _ => rfl
    enumValues := parents_layout hn henums a.database.rows_enumValue (fun _ _ => rfl)
      fun _ _ => rfl
    endpoints := parents_layout hn hrefs a.database.rows_endpoint (fun _ _ => rfl) fun _ _ => rfl }

omit hn in
/-- No identifier ever leads nowhere, neither as a bundle is built nor in an operation after that.
Whatever comes of an operation, it leaves the store integral. -/
theorem integral : (∀ b config, (build b config).isSome) ∧ ∀ st : Store, st.Reachable →
    st.Integral ∧ ∀ op, st.Admits op → ((perform op).run.run st).isSome := by
  refine ⟨fun b config => by rw [build_eq]; rfl, fun st hst => ?_⟩
  obtain ⟨a, ha, rfl⟩ := hst.exists_layout
  have hn := ha.sound.nodup_arena
  refine ⟨integral_layout hn ha.sound.linked, fun op hop => ?_⟩
  rw [perform_eq ha.sound ((admits_layout hn).mp hop)]
  rfl

omit hn in
theorem integral_orders : ∃ st st' out, build .orders {} = some (.ok st) ∧
    (perform (.getOrCreateSchema "archive")).run.run st = some (out, st') ∧ st'.Reachable ∧
    st'.Integral ∧ ((perform .bindEnums).run.run st').isSome := by
  obtain ⟨a, ha⟩ := Assembly.exists_build_orders
  have hbuilt : a.Reachable := .build ha
  have hbuild : build .orders {} = some (.ok a.layout) := by
    rw [build_eq, ha]
    rfl
  have happlies : Operation.AppliesTo a.database (.getOrCreateSchema "archive") := trivial
  have hreach := reachable_layout (hbuilt.step happlies)
  obtain ⟨hintegral, hruns⟩ := integral.2 _ hreach
  exact ⟨_, _, _, hbuild, perform_eq hbuilt.sound happlies, hreach, hintegral,
    hruns .bindEnums trivial⟩

end Store

end Catalog
