import Catalog.Flat
import Catalog.Proofs.Flattening.Filed
import Catalog.Proofs.Integrity.Linked

/-!
The flat model is complete and closed: its keys are the identifiers of the entities, its records
mention nothing else, and children and parents agree.
-/
namespace Catalog

namespace Flat

/-! The identifiers that a record mentions besides its own. -/

def Database.mentions (d : Database) : (k : Kind) → List (Id k)
  | .schema => d.schemaIds
  | _ => []

def Schema.mentions (s : Schema) : (k : Kind) → List (Id k)
  | .table => s.tableIds
  | .enum => s.enumIds
  | .tableGroup => s.tableGroupIds
  | .ref => s.refIds
  | .tag => s.tagIds
  | .database => [s.databaseId]
  | _ => []

def Table.mentions (t : Table) : (k : Kind) → List (Id k)
  | .field => t.fieldIds
  | .index => t.indexIds
  | .tag => t.tagIds
  | .tableGroup => t.groupId.toList
  | .schema => [t.schemaId]
  | _ => []

def Field.mentions (f : Field) : (k : Kind) → List (Id k)
  | .endpoint => f.endpointIds
  | .enum => f.enumId.toList
  | .table => [f.tableId]
  | _ => []

def Index.mentions (i : Index) : (k : Kind) → List (Id k)
  | .indexColumn => i.columnIds
  | .table => [i.tableId]
  | _ => []

def IndexColumn.mentions (c : IndexColumn) : (k : Kind) → List (Id k)
  | .index => [c.indexId]
  | _ => []

def Enum.mentions (e : Enum) : (k : Kind) → List (Id k)
  | .enumValue => e.valueIds
  | .field => e.fieldIds
  | .schema => [e.schemaId]
  | _ => []

def EnumValue.mentions (v : EnumValue) : (k : Kind) → List (Id k)
  | .enum => [v.enumId]
  | _ => []

def Ref.mentions (r : Ref) : (k : Kind) → List (Id k)
  | .endpoint => r.endpointIds
  | .schema => [r.schemaId]
  | _ => []

def Endpoint.mentions (e : Endpoint) : (k : Kind) → List (Id k)
  | .ref => [e.refId]
  | .table => [e.tableId]
  | .field => e.fieldIds
  | _ => []

def TableGroup.mentions (g : TableGroup) : (k : Kind) → List (Id k)
  | .table => g.tableIds
  | .schema => [g.schemaId]
  | _ => []

def Tag.mentions (t : Tag) : (k : Kind) → List (Id k)
  | .table => t.tableIds
  | .schema => [t.schemaId]
  | _ => []

namespace Model

/-- The identifiers that there are records for. -/
def keys (m : Model) : (k : Kind) → List (Id k)
  | .database => m.database.ids
  | .schema => m.schemas.ids
  | .table => m.tables.ids
  | .field => m.fields.ids
  | .index => m.indexes.ids
  | .indexColumn => m.indexColumns.ids
  | .enum => m.enums.ids
  | .enumValue => m.enumValues.ids
  | .ref => m.refs.ids
  | .endpoint => m.endpoints.ids
  | .tableGroup => m.tableGroups.ids
  | .tag => m.tags.ids

/-- The records of a bucket are filed under their own identifiers and mention keys only. -/
def Closes {k : Kind} {α : Type} (m : Model) (b : Bucket k α) (id : α → Id k)
    (mentions : α → (k : Kind) → List (Id k)) : Prop :=
  ∀ i r, b.get? i = some r → id r = i ∧ ∀ k', mentions r k' ⊆ m.keys k'

/-- Every record is filed under its own identifier, and every identifier that it mentions is a key
of the bucket that it belongs to. -/
structure Closed (m : Model) : Prop where
  database : m.Closes m.database (·.id) (·.mentions)
  schemas : m.Closes m.schemas (·.id) (·.mentions)
  tables : m.Closes m.tables (·.id) (·.mentions)
  fields : m.Closes m.fields (·.id) (·.mentions)
  indexes : m.Closes m.indexes (·.id) (·.mentions)
  indexColumns : m.Closes m.indexColumns (·.id) (·.mentions)
  enums : m.Closes m.enums (·.id) (·.mentions)
  enumValues : m.Closes m.enumValues (·.id) (·.mentions)
  refs : m.Closes m.refs (·.id) (·.mentions)
  endpoints : m.Closes m.endpoints (·.id) (·.mentions)
  tableGroups : m.Closes m.tableGroups (·.id) (·.mentions)
  tags : m.Closes m.tags (·.id) (·.mentions)

/-- Every child names as its parent the one record that lists it. -/
structure Parented (m : Model) : Prop where
  schemas : m.database.Parents m.schemas (·.schemaIds) (·.databaseId)
  tables : m.schemas.Parents m.tables (·.tableIds) (·.schemaId)
  enums : m.schemas.Parents m.enums (·.enumIds) (·.schemaId)
  refs : m.schemas.Parents m.refs (·.refIds) (·.schemaId)
  tags : m.schemas.Parents m.tags (·.tagIds) (·.schemaId)
  tableGroups : m.schemas.Parents m.tableGroups (·.tableGroupIds) (·.schemaId)
  fields : m.tables.Parents m.fields (·.fieldIds) (·.tableId)
  indexes : m.tables.Parents m.indexes (·.indexIds) (·.tableId)
  indexColumns : m.indexes.Parents m.indexColumns (·.columnIds) (·.indexId)
  enumValues : m.enums.Parents m.enumValues (·.valueIds) (·.enumId)
  endpoints : m.refs.Parents m.endpoints (·.endpointIds) (·.refId)

end Model

end Flat

/-! What the records of a database mention. -/

section Mentions

variable {db : Database} {s : Schema} {t : Table} {k : Kind}

/-- The identifiers of the children of one owner are among those of all. -/
theorem map_subset_flatMap {ω χ γ : Type} {os : List ω} {cs : ω → List χ} {f : χ → γ} {o : ω}
    (ho : o ∈ os) : (cs o).map f ⊆ (os.flatMap cs).map f :=
  List.map_subset f fun _ hc => List.mem_flatMap.mpr ⟨o, ho, hc⟩

theorem singleton_subset_map {ω γ : Type} {os : List ω} {f : ω → γ} {o : ω} (ho : o ∈ os) :
    [f o] ⊆ os.map f := by
  intro x hx
  rw [List.mem_singleton.mp hx]
  exact List.mem_map.mpr ⟨o, ho, rfl⟩

theorem Database.mentions_flat (db : Database) (k : Kind) : db.flat.mentions k ⊆ db.arena k := by
  cases k with
  | schema => exact List.Subset.refl _
  | _ => exact List.nil_subset _

theorem Schema.mentions_flat (hs : s ∈ db.schemas) (k : Kind) :
    (s.flat db.id).mentions k ⊆ db.arena k := by
  cases k with
  | table => exact map_subset_flatMap hs
  | enum => exact map_subset_flatMap hs
  | tableGroup => exact map_subset_flatMap hs
  | ref => exact map_subset_flatMap hs
  | tag => exact map_subset_flatMap hs
  | database => exact List.Subset.refl _
  | _ => exact List.nil_subset _

theorem Table.mentions_flat (hl : db.Linked) (hs : s ∈ db.schemas) (ht : t ∈ s.tables)
    (k : Kind) : (t.flat s.id).mentions k ⊆ db.arena k := by
  have ht' : t ∈ db.tables := List.mem_flatMap.mpr ⟨s, hs, ht⟩
  cases k with
  | field => exact map_subset_flatMap ht'
  | index => exact map_subset_flatMap ht'
  | tag => exact fun _ hi => hl.tags ht' hi
  | tableGroup => exact fun _ hi => hl.group ht' (Option.mem_toList.mp hi)
  | schema => exact singleton_subset_map (f := (·.id)) hs
  | _ => exact List.nil_subset _

theorem Field.mentions_flat (hl : db.Linked) (ht : t ∈ db.tables) {f : Field} (hf : f ∈ t.fields)
    (k : Kind) : (f.flat t.id).mentions k ⊆ db.arena k := by
  have hf' : f ∈ db.fields := List.mem_flatMap.mpr ⟨t, ht, hf⟩
  cases k with
  | endpoint => exact fun _ hi => hl.endpoints hf' hi
  | enum => exact fun _ hi => hl.enumId hf' (Option.mem_toList.mp hi)
  | table => exact singleton_subset_map (f := (·.id)) ht
  | _ => exact List.nil_subset _

theorem Index.mentions_flat (ht : t ∈ db.tables) {i : Index} (hi : i ∈ t.indexes) (k : Kind) :
    (i.flat t.id).mentions k ⊆ db.arena k := by
  have hi' : i ∈ db.indexes := List.mem_flatMap.mpr ⟨t, ht, hi⟩
  cases k with
  | indexColumn => exact map_subset_flatMap hi'
  | table => exact singleton_subset_map (f := (·.id)) ht
  | _ => exact List.nil_subset _

theorem IndexColumn.mentions_flat {i : Index} (hi : i ∈ db.indexes) (c : IndexColumn) (k : Kind) :
    (c.flat i.id).mentions k ⊆ db.arena k := by
  cases k with
  | index => exact singleton_subset_map (f := (·.id)) hi
  | _ => exact List.nil_subset _

theorem Enum.mentions_flat (hl : db.Linked) (hs : s ∈ db.schemas) {e : Enum} (he : e ∈ s.enums)
    (k : Kind) : (e.flat s.id).mentions k ⊆ db.arena k := by
  have he' : e ∈ db.enums := List.mem_flatMap.mpr ⟨s, hs, he⟩
  cases k with
  | enumValue => exact map_subset_flatMap he'
  | field => exact fun _ hi => hl.enumFields he' hi
  | schema => exact singleton_subset_map (f := (·.id)) hs
  | _ => exact List.nil_subset _

theorem EnumValue.mentions_flat {e : Enum} (he : e ∈ db.enums) (v : EnumValue) (k : Kind) :
    (v.flat e.id).mentions k ⊆ db.arena k := by
  cases k with
  | enum => exact singleton_subset_map (f := (·.id)) he
  | _ => exact List.nil_subset _

theorem Ref.mentions_flat (hs : s ∈ db.schemas) {r : Ref} (hr : r ∈ s.refs) (k : Kind) :
    (r.flat s.id).mentions k ⊆ db.arena k := by
  have hr' : r ∈ db.refs := List.mem_flatMap.mpr ⟨s, hs, hr⟩
  cases k with
  | endpoint => exact map_subset_flatMap hr'
  | schema => exact singleton_subset_map (f := (·.id)) hs
  | _ => exact List.nil_subset _

theorem Endpoint.mentions_flat (hl : db.Linked) {r : Ref} (hr : r ∈ db.refs) {e : Endpoint}
    (he : e ∈ r.endpoints) (k : Kind) : (e.flat r.id).mentions k ⊆ db.arena k := by
  have he' : e ∈ db.endpoints := List.mem_flatMap.mpr ⟨r, hr, he⟩
  cases k with
  | ref => exact singleton_subset_map (f := (·.id)) hr
  | table =>
    intro i hi
    rw [List.mem_singleton.mp hi]
    exact hl.endpointTable he'
  | field => exact fun _ hi => hl.endpointFields he' hi
  | _ => exact List.nil_subset _

theorem TableGroup.mentions_flat (hl : db.Linked) (hs : s ∈ db.schemas) {g : TableGroup}
    (hg : g ∈ s.tableGroups) (k : Kind) : (g.flat s.id).mentions k ⊆ db.arena k := by
  cases k with
  | table => exact fun _ hi => hl.groupTables (List.mem_flatMap.mpr ⟨s, hs, hg⟩) hi
  | schema => exact singleton_subset_map (f := (·.id)) hs
  | _ => exact List.nil_subset _

theorem Tag.mentions_flat (hl : db.Linked) (hs : s ∈ db.schemas) {g : Tag} (hg : g ∈ s.tags)
    (k : Kind) : (g.flat s.id).mentions k ⊆ db.arena k := by
  cases k with
  | table => exact fun _ hi => hl.tagTables (List.mem_flatMap.mpr ⟨s, hs, hg⟩) hi
  | schema => exact singleton_subset_map (f := (·.id)) hs
  | _ => exact List.nil_subset _

end Mentions

/-! What is filed, where no two entities of a kind share an identifier. -/

namespace Database

variable {db : Database} (hn : ∀ k, (db.arena k).Nodup)

theorem normalize_schemas (db : Database) : db.normalize.schemas
    = .ofList ([db].flatMap fun o => o.schemas.map fun s => (s.id, s.flat o.id)) := by
  simp [normalize]

include hn

theorem keys_normalize (k : Kind) : (db.normalize.keys k).Perm (db.arena k) := by
  cases k with
  | database => exact .refl _
  | schema =>
    have hone : [db].flatMap (·.schemas) = db.schemas := List.flatMap_singleton _ _
    have hperm :
        (Bucket.ofList ([db].flatMap fun o => o.schemas.map fun s => (s.id, s.flat o.id))).ids.Perm
          (([db].flatMap (·.schemas)).map (·.id)) :=
      Bucket.ids_children (by rw [hone]; exact hn .schema)
    rw [← normalize_schemas, hone] at hperm
    exact hperm
  | table => exact Bucket.ids_children (hn .table)
  | field => exact Bucket.ids_children (hn .field)
  | index => exact Bucket.ids_children (hn .index)
  | indexColumn => exact Bucket.ids_children (hn .indexColumn)
  | enum => exact Bucket.ids_children (hn .enum)
  | enumValue => exact Bucket.ids_children (hn .enumValue)
  | ref => exact Bucket.ids_children (hn .ref)
  | endpoint => exact Bucket.ids_children (hn .endpoint)
  | tableGroup => exact Bucket.ids_children (hn .tableGroup)
  | tag => exact Bucket.ids_children (hn .tag)

theorem recordCount_normalize : db.normalize.recordCount = 1 + (db.schemas.length
    + db.refs.length + db.enums.length + db.tableGroups.length + db.tags.length + db.tables.length
    + db.endpoints.length + db.enumValues.length + db.indexes.length + db.indexColumns.length
    + db.fields.length) := by
  have hsize : ∀ {k : Kind} {α : Type} (b : Bucket k α) (l : List (Id k)), b.ids.Perm l →
      b.size = l.length := by
    intro k α b l hperm
    rw [← hperm.length_eq, Bucket.ids, List.length_map, Bucket.size]
  have hkeys := keys_normalize hn
  have hdatabase : db.normalize.database.size = 1 := rfl
  rw [Flat.Model.recordCount, hdatabase, hsize _ _ (hkeys .schema), hsize _ _ (hkeys .ref),
    hsize _ _ (hkeys .enum), hsize _ _ (hkeys .tableGroup), hsize _ _ (hkeys .tag),
    hsize _ _ (hkeys .table), hsize _ _ (hkeys .endpoint), hsize _ _ (hkeys .enumValue),
    hsize _ _ (hkeys .index), hsize _ _ (hkeys .indexColumn), hsize _ _ (hkeys .field)]
  simp only [arena, List.length_map]
  omega

/-- A bucket of children is closed if their records are. -/
theorem closes_children {k : Kind} {ω χ β : Type} {os : List ω} {cs : ω → List χ} {f : χ → Id k}
    {g : ω → χ → β} {key : β → Id k} {mentions : β → (k : Kind) → List (Id k)}
    (hc : ((os.flatMap cs).map f).Nodup)
    (hr : ∀ o ∈ os, ∀ c ∈ cs o, key (g o c) = f c ∧ ∀ k, mentions (g o c) k ⊆ db.arena k) :
    db.normalize.Closes (.ofList (os.flatMap fun o => (cs o).map fun c => (f c, g o c))) key
      mentions := by
  intro i r hi
  obtain ⟨o, ho, c, hcs, rfl, rfl⟩ := (Bucket.get?_children hc).mp hi
  obtain ⟨hkey, hmentions⟩ := hr o ho c hcs
  refine ⟨hkey, fun k j hj => ?_⟩
  exact (keys_normalize hn k).mem_iff.mpr (hmentions k hj)

theorem closed_normalize (hl : db.Linked) : db.normalize.Closed where
  database := by
    intro i r hi
    have hmem : (i, r) ∈ [(db.id, db.flat)] := Bucket.get?_eq_some_iff.mp hi
    obtain ⟨rfl, rfl⟩ := Prod.mk.inj (List.mem_singleton.mp hmem)
    exact ⟨rfl, fun k j hj => (keys_normalize hn k).mem_iff.mpr (db.mentions_flat k hj)⟩
  schemas := by
    have hone : [db].flatMap (·.schemas) = db.schemas := List.flatMap_singleton _ _
    rw [normalize_schemas]
    apply closes_children hn (by rw [hone]; exact hn .schema)
    intro o ho s hs
    rw [List.mem_singleton.mp ho] at hs ⊢
    exact ⟨rfl, Schema.mentions_flat hs⟩
  tables := closes_children hn (hn .table) fun _ hs _ ht => ⟨rfl, Table.mentions_flat hl hs ht⟩
  fields := closes_children hn (hn .field) fun _ ht _ hf => ⟨rfl, Field.mentions_flat hl ht hf⟩
  indexes := closes_children hn (hn .index) fun _ ht _ hi => ⟨rfl, Index.mentions_flat ht hi⟩
  indexColumns := closes_children hn (hn .indexColumn) fun _ hi c _ =>
    ⟨rfl, IndexColumn.mentions_flat hi c⟩
  enums := closes_children hn (hn .enum) fun _ hs _ he => ⟨rfl, Enum.mentions_flat hl hs he⟩
  enumValues := closes_children hn (hn .enumValue) fun _ he v _ =>
    ⟨rfl, EnumValue.mentions_flat he v⟩
  refs := closes_children hn (hn .ref) fun _ hs _ hr => ⟨rfl, Ref.mentions_flat hs hr⟩
  endpoints := closes_children hn (hn .endpoint) fun _ hr _ he =>
    ⟨rfl, Endpoint.mentions_flat hl hr he⟩
  tableGroups := closes_children hn (hn .tableGroup) fun _ hs _ hg =>
    ⟨rfl, TableGroup.mentions_flat hl hs hg⟩
  tags := closes_children hn (hn .tag) fun _ hs _ hg => ⟨rfl, Tag.mentions_flat hl hs hg⟩

theorem parented_normalize : db.normalize.Parented := by
  have hone : [db].flatMap (·.schemas) = db.schemas := List.flatMap_singleton _ _
  have hn' : (([db].flatMap (·.schemas)).map (·.id)).Nodup := by
    rw [hone]
    exact hn .schema
  have hdatabase : db.normalize.database.Lists (·.schemaIds) [db] (·.id)
      fun o => o.schemas.map (·.id) := by
    have hiff : ∀ {j r}, db.normalize.database.get? j = some r ↔ j = db.id ∧ r = db.flat :=
      Bucket.get?_eq_some_iff.trans (List.mem_singleton.trans Prod.mk_inj)
    constructor
    · intro j r hj
      obtain ⟨rfl, rfl⟩ := hiff.mp hj
      exact ⟨db, List.mem_singleton_self db, rfl, rfl⟩
    · intro o ho
      rw [List.mem_singleton.mp ho]
      exact ⟨db.flat, hiff.mpr ⟨rfl, rfl⟩, rfl⟩
  have hschemas : ∀ {k : Kind} {list : Flat.Schema → List (Id k)} {ids : Schema → List (Id k)},
      (∀ (o : Database) s, list (s.flat o.id) = ids s) →
      db.normalize.schemas.Lists list db.schemas (·.id) ids := by
    intro k list ids hlist
    rw [normalize_schemas]
    have hlists :
        (Bucket.ofList ([db].flatMap fun o => o.schemas.map fun s => (s.id, s.flat o.id))).Lists
          list ([db].flatMap (·.schemas)) (·.id) ids :=
      Bucket.lists_children hn' hlist
    rw [hone] at hlists
    exact hlists
  have htables : ∀ {k : Kind} {list : Flat.Table → List (Id k)} {ids : Table → List (Id k)},
      (∀ (s : Schema) t, list (t.flat s.id) = ids t) →
      db.normalize.tables.Lists list db.tables (·.id) ids := fun hlist =>
    Bucket.lists_children (hn .table) hlist
  have hindexes : db.normalize.indexes.Lists (·.columnIds) db.indexes (·.id)
      fun i => i.columns.map (·.id) := Bucket.lists_children (hn .index) fun _ _ => rfl
  have henums : db.normalize.enums.Lists (·.valueIds) db.enums (·.id)
      fun e => e.values.map (·.id) := Bucket.lists_children (hn .enum) fun _ _ => rfl
  have hrefs : db.normalize.refs.Lists (·.endpointIds) db.refs (·.id)
      fun r => r.endpoints.map (·.id) := Bucket.lists_children (hn .ref) fun _ _ => rfl
  exact {
    schemas := by
      rw [normalize_schemas]
      exact hdatabase.parents hn' fun _ _ => rfl
    tables := (hschemas fun _ _ => rfl).parents (hn .table) fun _ _ => rfl
    enums := (hschemas fun _ _ => rfl).parents (hn .enum) fun _ _ => rfl
    refs := (hschemas fun _ _ => rfl).parents (hn .ref) fun _ _ => rfl
    tags := (hschemas fun _ _ => rfl).parents (hn .tag) fun _ _ => rfl
    tableGroups := (hschemas fun _ _ => rfl).parents (hn .tableGroup) fun _ _ => rfl
    fields := (htables fun _ _ => rfl).parents (hn .field) fun _ _ => rfl
    indexes := (htables fun _ _ => rfl).parents (hn .index) fun _ _ => rfl
    indexColumns := hindexes.parents (hn .indexColumn) fun _ _ => rfl
    enumValues := henums.parents (hn .enumValue) fun _ _ => rfl
    endpoints := hrefs.parents (hn .endpoint) fun _ _ => rfl }

end Database

end Catalog
