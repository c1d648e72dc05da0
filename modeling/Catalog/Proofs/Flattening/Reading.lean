import Catalog.Proofs.Flattening.Closed
import Catalog.Proofs.Lookup

/-!
Reading the export tree off a flat model, from the record of the database down. Nothing is read
where a record is missing; in the flat model of a database none is, and what is read is its export.
-/
namespace Catalog

namespace Flat.Model

variable (m : Model)

def field? (i : Id .field) : Option FieldInfo := do
  let f ← m.fields.get? i
  pure f.toFieldInfo

def column? (i : Id .indexColumn) : Option IndexColumnInfo := do
  let c ← m.indexColumns.get? i
  pure c.toIndexColumnInfo

def index? (i : Id .index) : Option Export.Index := do
  let x ← m.indexes.get? i
  pure { toIndexInfo := x.toIndexInfo, columns := ← x.columnIds.mapM m.column? }

def tag? (i : Id .tag) : Option TagInfo := do
  let t ← m.tags.get? i
  pure t.toTagInfo

def tagName? (i : Id .tag) : Option String := do
  let t ← m.tag? i
  pure t.name

def table? (i : Id .table) : Option Export.Table := do
  let t ← m.tables.get? i
  pure {
    toTableInfo := t.toTableInfo
    fields := ← t.fieldIds.mapM m.field?
    indexes := ← t.indexIds.mapM m.index?
    tags := ← t.tagIds.mapM m.tagName? }

def value? (i : Id .enumValue) : Option EnumValueInfo := do
  let v ← m.enumValues.get? i
  pure v.toEnumValueInfo

def enum? (i : Id .enum) : Option Export.Enum := do
  let e ← m.enums.get? i
  pure { toEnumInfo := e.toEnumInfo, values := ← e.valueIds.mapM m.value? }

def endpoint? (i : Id .endpoint) : Option EndpointInfo := do
  let e ← m.endpoints.get? i
  pure e.toEndpointInfo

def ref? (i : Id .ref) : Option Export.Ref := do
  let r ← m.refs.get? i
  pure { toRefInfo := r.toRefInfo, endpoints := ← r.endpointIds.mapM m.endpoint? }

/-- A member of a group: the name of the table and that of its schema. -/
def member? (i : Id .table) : Option Export.Member := do
  let t ← m.tables.get? i
  let s ← m.schemas.get? t.schemaId
  pure { tableName := t.name, schemaName := s.name }

def tableGroup? (i : Id .tableGroup) : Option Export.TableGroup := do
  let g ← m.tableGroups.get? i
  pure { toTableGroupInfo := g.toTableGroupInfo, tables := ← g.tableIds.mapM m.member? }

def schema? (i : Id .schema) : Option Export.Schema := do
  let s ← m.schemas.get? i
  pure {
    toSchemaInfo := s.toSchemaInfo
    tables := ← s.tableIds.mapM m.table?
    enums := ← s.enumIds.mapM m.enum?
    tableGroups := ← s.tableGroupIds.mapM m.tableGroup?
    refs := ← s.refIds.mapM m.ref?
    tags := ← s.tagIds.mapM m.tag? }

/-- The tree below the single record of the database. -/
def tree? : Option Export.Tree :=
  match m.database.entries with
  | [(_, d)] => do
    pure {
      toDatabaseInfo := d.toDatabaseInfo
      hasDefaultSchema := d.hasDefaultSchema
      schemas := ← d.schemaIds.mapM m.schema? }
  | _ => none

end Flat.Model

/-! Checked maps whose checks all pass. -/

theorem mapM_map_eq_some {α β χ : Type} {f : α → Option β} {g : χ → α} {h : χ → β} {l : List χ}
    (hf : ∀ x ∈ l, f (g x) = some (h x)) : (l.map g).mapM f = some (l.map h) := by
  induction l with
  | nil => rfl
  | cons x l ih =>
    rw [List.map_cons, List.mapM_cons, hf x List.mem_cons_self,
      ih fun y hy => hf y (List.mem_cons_of_mem x hy)]
    rfl

theorem mapM_eq_some_filterMap {α β : Type} {f g : α → Option β} {l : List α}
    (hf : ∀ x ∈ l, ∃ y, f x = some y ∧ g x = some y) : l.mapM f = some (l.filterMap g) := by
  induction l with
  | nil => rfl
  | cons x l ih =>
    obtain ⟨y, hfy, hgy⟩ := hf x List.mem_cons_self
    rw [List.mapM_cons, hfy, ih fun z hz => hf z (List.mem_cons_of_mem x hz),
      List.filterMap_cons_some hgy]
    rfl

namespace Database

variable {db : Database} (hn : ∀ k, (db.arena k).Nodup) {s : Schema} {t : Table}

include hn

theorem get?_table (hs : s ∈ db.schemas) (ht : t ∈ s.tables) :
    db.normalize.tables.get? t.id = some (t.flat s.id) :=
  (Bucket.get?_children (hn .table)).mpr ⟨s, hs, t, ht, rfl, rfl⟩

theorem get?_schema (hs : s ∈ db.schemas) :
    db.normalize.schemas.get? s.id = some (s.flat db.id) := by
  have hone : [db].flatMap (·.schemas) = db.schemas := List.flatMap_singleton _ _
  rw [normalize_schemas]
  exact (Bucket.get?_children (by rw [hone]; exact hn .schema)).mpr
    ⟨db, List.mem_singleton_self db, s, hs, rfl, rfl⟩

theorem get?_tag (hs : s ∈ db.schemas) {g : Tag} (hg : g ∈ s.tags) :
    db.normalize.tags.get? g.id = some (g.flat s.id) :=
  (Bucket.get?_children (hn .tag)).mpr ⟨s, hs, g, hg, rfl, rfl⟩

theorem read_field (ht : t ∈ db.tables) {f : Field} (hf : f ∈ t.fields) :
    db.normalize.field? f.id = some f.toFieldInfo := by
  have hget : db.normalize.fields.get? f.id = some (f.flat t.id) :=
    (Bucket.get?_children (hn .field)).mpr ⟨t, ht, f, hf, rfl, rfl⟩
  rw [Flat.Model.field?, hget]
  rfl

theorem read_column {i : Index} (hi : i ∈ db.indexes) {c : IndexColumn} (hc : c ∈ i.columns) :
    db.normalize.column? c.id = some c.toIndexColumnInfo := by
  have hget : db.normalize.indexColumns.get? c.id = some (c.flat i.id) :=
    (Bucket.get?_children (hn .indexColumn)).mpr ⟨i, hi, c, hc, rfl, rfl⟩
  rw [Flat.Model.column?, hget]
  rfl

theorem read_index (ht : t ∈ db.tables) {i : Index} (hi : i ∈ t.indexes) :
    db.normalize.index? i.id = some i.toExport := by
  have hi' : i ∈ db.indexes := List.mem_flatMap.mpr ⟨t, ht, hi⟩
  have hget : db.normalize.indexes.get? i.id = some (i.flat t.id) :=
    (Bucket.get?_children (hn .index)).mpr ⟨t, ht, i, hi, rfl, rfl⟩
  have hcolumns : (i.columns.map (·.id)).mapM db.normalize.column?
      = some (i.columns.map (·.toIndexColumnInfo)) :=
    mapM_map_eq_some fun c hc => read_column hn hi' hc
  rw [Flat.Model.index?, hget]
  simp [Index.flat, hcolumns, Index.toExport]

theorem read_tag (hs : s ∈ db.schemas) {g : Tag} (hg : g ∈ s.tags) :
    db.normalize.tag? g.id = some g.toTagInfo := by
  rw [Flat.Model.tag?, get?_tag hn hs hg]
  rfl

theorem read_value {e : Enum} (he : e ∈ db.enums) {v : EnumValue} (hv : v ∈ e.values) :
    db.normalize.value? v.id = some v.toEnumValueInfo := by
  have hget : db.normalize.enumValues.get? v.id = some (v.flat e.id) :=
    (Bucket.get?_children (hn .enumValue)).mpr ⟨e, he, v, hv, rfl, rfl⟩
  rw [Flat.Model.value?, hget]
  rfl

theorem read_enum (hs : s ∈ db.schemas) {e : Enum} (he : e ∈ s.enums) :
    db.normalize.enum? e.id = some e.toExport := by
  have he' : e ∈ db.enums := List.mem_flatMap.mpr ⟨s, hs, he⟩
  have hget : db.normalize.enums.get? e.id = some (e.flat s.id) :=
    (Bucket.get?_children (hn .enum)).mpr ⟨s, hs, e, he, rfl, rfl⟩
  have hvalues : (e.values.map (·.id)).mapM db.normalize.value?
      = some (e.values.map (·.toEnumValueInfo)) :=
    mapM_map_eq_some fun v hv => read_value hn he' hv
  rw [Flat.Model.enum?, hget]
  simp [Enum.flat, hvalues, Enum.toExport]

theorem read_endpoint {r : Ref} (hr : r ∈ db.refs) {e : Endpoint} (he : e ∈ r.endpoints) :
    db.normalize.endpoint? e.id = some e.toEndpointInfo := by
  have hget : db.normalize.endpoints.get? e.id = some (e.flat r.id) :=
    (Bucket.get?_children (hn .endpoint)).mpr ⟨r, hr, e, he, rfl, rfl⟩
  rw [Flat.Model.endpoint?, hget]
  rfl

theorem read_ref (hs : s ∈ db.schemas) {r : Ref} (hr : r ∈ s.refs) :
    db.normalize.ref? r.id = some r.toExport := by
  have hr' : r ∈ db.refs := List.mem_flatMap.mpr ⟨s, hs, hr⟩
  have hget : db.normalize.refs.get? r.id = some (r.flat s.id) :=
    (Bucket.get?_children (hn .ref)).mpr ⟨s, hs, r, hr, rfl, rfl⟩
  have hendpoints : (r.endpoints.map (·.id)).mapM db.normalize.endpoint?
      = some (r.endpoints.map (·.toEndpointInfo)) :=
    mapM_map_eq_some fun e he => read_endpoint hn hr' he
  rw [Flat.Model.ref?, hget]
  simp [Ref.flat, hendpoints, Ref.toExport]

/-- A member of a group is read from the record of a table and that of its schema. -/
theorem read_member {i : Id .table} (hi : i ∈ db.arena .table) :
    ∃ m, db.normalize.member? i = some m ∧ db.member? i = some m := by
  obtain ⟨t, ht, rfl⟩ := List.mem_map.mp hi
  obtain ⟨s, hs, ht⟩ := List.mem_flatMap.mp ht
  refine ⟨_, ?_, member?_of_mem (hn .table) hs ht⟩
  rw [Flat.Model.member?, get?_table hn hs ht]
  simp [Table.flat, get?_schema hn hs, Schema.flat]

theorem read_tagName {i : Id .tag} (hi : i ∈ db.arena .tag) :
    ∃ name, db.normalize.tagName? i = some name ∧ (db.tag? i).map (·.name) = some name := by
  obtain ⟨g, hg, rfl⟩ := List.mem_map.mp hi
  obtain ⟨s, hs, hg'⟩ := List.mem_flatMap.mp hg
  refine ⟨g.name, ?_, ?_⟩
  · rw [Flat.Model.tagName?, read_tag hn hs hg']
    rfl
  · rw [tag?_of_mem (hn .tag) hg]
    rfl

variable (hl : db.Linked)

include hl

theorem read_table (hs : s ∈ db.schemas) (ht : t ∈ s.tables) :
    db.normalize.table? t.id = some (db.toExportTable t) := by
  have ht' : t ∈ db.tables := List.mem_flatMap.mpr ⟨s, hs, ht⟩
  have hfields : (t.fields.map (·.id)).mapM db.normalize.field?
      = some (t.fields.map (·.toFieldInfo)) := mapM_map_eq_some fun f hf => read_field hn ht' hf
  have hindexes : (t.indexes.map (·.id)).mapM db.normalize.index?
      = some (t.indexes.map (·.toExport)) := mapM_map_eq_some fun i hi => read_index hn ht' hi
  have htags : t.tags.mapM db.normalize.tagName?
      = some (t.tags.filterMap fun id => (db.tag? id).map (·.name)) :=
    mapM_eq_some_filterMap fun i hi => read_tagName hn (hl.tags ht' hi)
  rw [Flat.Model.table?, get?_table hn hs ht]
  simp [Table.flat, hfields, hindexes, htags, toExportTable]

theorem read_tableGroup (hs : s ∈ db.schemas) {g : TableGroup} (hg : g ∈ s.tableGroups) :
    db.normalize.tableGroup? g.id = some (db.toExportTableGroup g) := by
  have hg' : g ∈ db.tableGroups := List.mem_flatMap.mpr ⟨s, hs, hg⟩
  have hget : db.normalize.tableGroups.get? g.id = some (g.flat s.id) :=
    (Bucket.get?_children (hn .tableGroup)).mpr ⟨s, hs, g, hg, rfl, rfl⟩
  have htables : g.tables.mapM db.normalize.member? = some (g.tables.filterMap db.member?) :=
    mapM_eq_some_filterMap fun i hi => read_member hn (hl.groupTables hg' hi)
  rw [Flat.Model.tableGroup?, hget]
  simp [TableGroup.flat, htables, toExportTableGroup]

theorem read_schema (hs : s ∈ db.schemas) :
    db.normalize.schema? s.id = some (db.toExportSchema s) := by
  have htables : (s.tables.map (·.id)).mapM db.normalize.table?
      = some (s.tables.map db.toExportTable) :=
    mapM_map_eq_some fun t ht => read_table hn hl hs ht
  have henums : (s.enums.map (·.id)).mapM db.normalize.enum? = some (s.enums.map (·.toExport)) :=
    mapM_map_eq_some fun e he => read_enum hn hs he
  have hgroups : (s.tableGroups.map (·.id)).mapM db.normalize.tableGroup?
      = some (s.tableGroups.map db.toExportTableGroup) :=
    mapM_map_eq_some fun g hg => read_tableGroup hn hl hs hg
  have hrefs : (s.refs.map (·.id)).mapM db.normalize.ref? = some (s.refs.map (·.toExport)) :=
    mapM_map_eq_some fun r hr => read_ref hn hs hr
  have htags : (s.tags.map (·.id)).mapM db.normalize.tag? = some (s.tags.map (·.toTagInfo)) :=
    mapM_map_eq_some fun g hg => read_tag hn hs hg
  rw [Flat.Model.schema?, get?_schema hn hs]
  simp [Schema.flat, htables, henums, hgroups, hrefs, htags, toExportSchema]

/-- The tree read off the flat model is the export. -/
theorem read_tree : db.normalize.tree? = some db.toExport := by
  have hentries : db.normalize.database.entries = [(db.id, db.flat)] := rfl
  have hschemas : (db.schemas.map (·.id)).mapM db.normalize.schema?
      = some (db.schemas.map db.toExportSchema) :=
    mapM_map_eq_some fun s hs => read_schema hn hl hs
  rw [Flat.Model.tree?, hentries]
  simp [Database.flat, hschemas, toExport, header]

end Database

end Catalog
