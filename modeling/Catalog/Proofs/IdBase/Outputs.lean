import Catalog.Proofs.Flattening.Closed
import Catalog.Proofs.IdBase.Shift

/-!
What is made of a database after a shift: the same export, and the flat model with all identifiers
shifted, filed in the same order as long as none is led around the end of the range.
-/
namespace Catalog

variable {d : UInt32}

/-! Exports. -/

namespace Database

variable (db : Database)

theorem member?_shift (i : Id .table) : (db.shift d).member? (i.shift d) = db.member? i := by
  unfold member?
  rw [schemaOfTable?_shift, table?_shift]
  cases db.schemaOfTable? i <;> cases db.table? i <;> rfl

theorem toExportTable_shift (t : Table) :
    (db.shift d).toExportTable (t.shift d) = db.toExportTable t := by
  have htag : ∀ i, ((db.shift d).tag? (Id.shift d i)).map (·.name) = (db.tag? i).map (·.name) := by
    intro i
    rw [tag?_shift, Option.map_map]
    rfl
  simp only [toExportTable, Table.shift, List.map_map, List.filterMap_map, Function.comp_def, htag]
  congr 1
  apply List.map_congr_left
  intro i _
  simp only [Index.toExport, Index.shift, List.map_map]
  rfl

theorem toExportTableGroup_shift (g : TableGroup) :
    (db.shift d).toExportTableGroup (g.shift d) = db.toExportTableGroup g := by
  simp only [toExportTableGroup, TableGroup.shift, List.filterMap_map, Function.comp_def,
    member?_shift]

theorem toExportSchema_shift (s : Schema) :
    (db.shift d).toExportSchema (s.shift d) = db.toExportSchema s := by
  have henum : ∀ e : Enum, (e.shift d).toExport = e.toExport := by
    intro e
    simp only [Enum.toExport, Enum.shift, List.map_map]
    rfl
  simp only [toExportSchema, Schema.shift, List.map_map, Function.comp_def, toExportTable_shift,
    toExportTableGroup_shift, henum]
  rfl

theorem toExport_shift : (db.shift d).toExport = db.toExport := by
  have hschemas : (db.shift d).schemas.map (db.shift d).toExportSchema
      = db.schemas.map db.toExportSchema := by
    rw [shift, List.map_map]
    exact List.map_congr_left fun s _ => db.toExportSchema_shift s
  rw [toExport, hschemas]
  rfl

end Database

/-! Flat models. -/

/-- Moving an identifier from one base to another leads to the one that is as far from its base. -/
def Id.Moves {k : Kind} (p q : UInt32) (i : Id k) : Prop :=
  (i.shift (q - p)).toNat + p.toNat = i.toNat + q.toNat

namespace Bucket

variable {k : Kind} {α : Type}

/-- The same records in the same order, with all identifiers shifted. -/
def Shifted (d : UInt32) (f : α → α) (b b' : Bucket k α) : Prop :=
  b'.entries = b.entries.map (Prod.map (Id.shift d) f)

theorem shifted_ofList {p q : UInt32} {f : α → α} {es : List (Id k × α)}
    (hn : (es.map (·.1)).Nodup) (hmoves : ∀ i ∈ es.map (·.1), i.Moves p q) :
    (ofList es).Shifted (q - p) f (ofList (es.map (Prod.map (Id.shift (q - p)) f))) := by
  have hkeys : (es.map (Prod.map (Id.shift (q - p)) f)).map (·.1)
      = (es.map (·.1)).map (·.shift (q - p)) := by
    rw [List.map_map, List.map_map]
    rfl
  have hn' : ((es.map (Prod.map (Id.shift (q - p)) f)).map (·.1)).Nodup := by
    rw [hkeys]
    exact hn.map (Id.shift_injective (q - p))
  have hperm := (entries_ofList hn').trans ((entries_ofList hn).map _).symm
  have hmoves' : ∀ e ∈ (ofList es).entries, e.1.Moves p q := by
    intro e he
    exact hmoves e.1 (List.mem_map.mpr ⟨e, (entries_ofList hn).mem_iff.mp he, rfl⟩)
  have hascending : Ascending ((ofList es).entries.map (Prod.map (Id.shift (q - p)) f)) := by
    rw [Ascending, List.pairwise_map]
    apply (ofList es).ascending.imp_of_mem
    intro e e' he he' hlt
    have hm := hmoves' e he
    have hm' := hmoves' e' he'
    unfold Id.Moves at hm hm'
    change (e.1.shift (q - p)).toNat < (e'.1.shift (q - p)).toNat
    omega
  -- Entries in strictly ascending order are determined by what they are.
  apply hperm.eq_of_pairwise _ (ofList _).ascending hascending
  intro e e' _ _ hlt hgt
  exact absurd (Nat.lt_trans hlt hgt) (Nat.lt_irrefl _)

/-- The children of owners, filed owner by owner, before and after a shift. -/
theorem shifted_children {ω χ : Type} {p q : UInt32} {os : List ω} {cs : ω → List χ}
    {f : χ → Id k} {g : ω → χ → α} {o' : ω → ω} {c' : χ → χ} {r' : α → α}
    (hn : ((os.flatMap cs).map f).Nodup) (hmoves : ∀ i ∈ (os.flatMap cs).map f, i.Moves p q)
    (hcs : ∀ o, cs (o' o) = (cs o).map c') (hf : ∀ c, f (c' c) = (f c).shift (q - p))
    (hg : ∀ o c, g (o' o) (c' c) = r' (g o c)) :
    (ofList (os.flatMap fun o => (cs o).map fun c => (f c, g o c))).Shifted (q - p) r'
      (ofList ((os.map o').flatMap fun o => (cs o).map fun c => (f c, g o c))) := by
  rw [← map_children (g := g)] at hn hmoves
  have hshift : ((os.map o').flatMap fun o => (cs o).map fun c => (f c, g o c))
      = (os.flatMap fun o => (cs o).map fun c => (f c, g o c)).map
          (Prod.map (Id.shift (q - p)) r') := by
    simp only [List.flatMap_map, List.map_flatMap, hcs, List.map_map, Function.comp_def, hf, hg]
    rfl
  rw [hshift]
  exact shifted_ofList hn hmoves

end Bucket

namespace Flat

variable (d : UInt32)

def Database.shift (r : Database) : Database :=
  { r with id := r.id.shift d, schemaIds := r.schemaIds.map (·.shift d) }

def Schema.shift (r : Schema) : Schema :=
  { r with
    id := r.id.shift d, tableIds := r.tableIds.map (·.shift d),
    enumIds := r.enumIds.map (·.shift d), tableGroupIds := r.tableGroupIds.map (·.shift d),
    refIds := r.refIds.map (·.shift d),
    tagIds := r.tagIds.map (·.shift d), databaseId := r.databaseId.shift d }

def Table.shift (r : Table) : Table :=
  { r with
    id := r.id.shift d, fieldIds := r.fieldIds.map (·.shift d),
    indexIds := r.indexIds.map (·.shift d), tagIds := r.tagIds.map (·.shift d),
    schemaId := r.schemaId.shift d, groupId := r.groupId.map (·.shift d) }

def Field.shift (r : Field) : Field :=
  { r with
    id := r.id.shift d, endpointIds := r.endpointIds.map (·.shift d),
    tableId := r.tableId.shift d, enumId := r.enumId.map (·.shift d) }

def Index.shift (r : Index) : Index :=
  { r with
    id := r.id.shift d, columnIds := r.columnIds.map (·.shift d), tableId := r.tableId.shift d }

def IndexColumn.shift (r : IndexColumn) : IndexColumn :=
  { r with id := r.id.shift d, indexId := r.indexId.shift d }

def Enum.shift (r : Enum) : Enum :=
  { r with
    id := r.id.shift d, valueIds := r.valueIds.map (·.shift d),
    fieldIds := r.fieldIds.map (·.shift d), schemaId := r.schemaId.shift d }

def EnumValue.shift (r : EnumValue) : EnumValue :=
  { r with id := r.id.shift d, enumId := r.enumId.shift d }

def Ref.shift (r : Ref) : Ref :=
  { r with
    id := r.id.shift d, endpointIds := r.endpointIds.map (·.shift d),
    schemaId := r.schemaId.shift d }

def Endpoint.shift (r : Endpoint) : Endpoint :=
  { r with
    id := r.id.shift d, refId := r.refId.shift d, tableId := r.tableId.shift d,
    fieldIds := r.fieldIds.map (·.shift d) }

def TableGroup.shift (r : TableGroup) : TableGroup :=
  { r with
    id := r.id.shift d, tableIds := r.tableIds.map (·.shift d), schemaId := r.schemaId.shift d }

def Tag.shift (r : Tag) : Tag :=
  { r with
    id := r.id.shift d, tableIds := r.tableIds.map (·.shift d), schemaId := r.schemaId.shift d }

/-- A flat model is another one with every identifier moved from one base to another. That the first
one is closed makes keys of all identifiers in it. -/
structure Model.Moved (p q : UInt32) (m m' : Model) : Prop where
  closed : m.Closed
  moves : ∀ k, ∀ i ∈ m.keys k, i.Moves p q
  database : m.database.Shifted (q - p) (.shift (q - p)) m'.database
  schemas : m.schemas.Shifted (q - p) (.shift (q - p)) m'.schemas
  refs : m.refs.Shifted (q - p) (.shift (q - p)) m'.refs
  enums : m.enums.Shifted (q - p) (.shift (q - p)) m'.enums
  tableGroups : m.tableGroups.Shifted (q - p) (.shift (q - p)) m'.tableGroups
  tags : m.tags.Shifted (q - p) (.shift (q - p)) m'.tags
  tables : m.tables.Shifted (q - p) (.shift (q - p)) m'.tables
  endpoints : m.endpoints.Shifted (q - p) (.shift (q - p)) m'.endpoints
  enumValues : m.enumValues.Shifted (q - p) (.shift (q - p)) m'.enumValues
  indexes : m.indexes.Shifted (q - p) (.shift (q - p)) m'.indexes
  indexColumns : m.indexColumns.Shifted (q - p) (.shift (q - p)) m'.indexColumns
  fields : m.fields.Shifted (q - p) (.shift (q - p)) m'.fields

end Flat

/-! The record of an entity after a shift. -/

theorem Database.flat_shift (db : Database) : (db.shift d).flat = db.flat.shift d := by
  simp only [flat, shift, Flat.Database.shift, List.map_map]
  rfl

theorem Schema.flat_shift (owner : Id .database) (s : Schema) :
    (s.shift d).flat (owner.shift d) = (s.flat owner).shift d := by
  simp only [flat, shift, Flat.Schema.shift, List.map_map]
  rfl

theorem Table.flat_shift (owner : Id .schema) (t : Table) :
    (t.shift d).flat (owner.shift d) = (t.flat owner).shift d := by
  simp only [flat, shift, Flat.Table.shift, List.map_map]
  rfl

theorem Index.flat_shift (owner : Id .table) (i : Index) :
    (i.shift d).flat (owner.shift d) = (i.flat owner).shift d := by
  simp only [flat, shift, Flat.Index.shift, List.map_map]
  rfl

theorem Enum.flat_shift (owner : Id .schema) (e : Enum) :
    (e.shift d).flat (owner.shift d) = (e.flat owner).shift d := by
  simp only [flat, shift, Flat.Enum.shift, List.map_map]
  rfl

namespace Database

/-- The flat model of a shifted database is the flat model of the database, moved. -/
theorem moved_normalize {db : Database} {p q : UInt32} (hn : ∀ k, (db.arena k).Nodup)
    (hl : db.Linked) (hmoves : ∀ k, ∀ i ∈ db.arena k, i.Moves p q) :
    db.normalize.Moved p q (db.shift (q - p)).normalize where
  closed := closed_normalize hn hl
  moves k i hi := hmoves k i ((keys_normalize hn k).mem_iff.mp hi)
  database := by
    have hflat : [((db.shift (q - p)).id, (db.shift (q - p)).flat)]
        = [(db.id, db.flat)].map (Prod.map (Id.shift (q - p)) (.shift (q - p))) := by
      rw [flat_shift]
      rfl
    change (Bucket.ofList _).Shifted _ _
      (.ofList [((db.shift (q - p)).id, (db.shift (q - p)).flat)])
    rw [hflat]
    exact Bucket.shifted_ofList (hn .database) (hmoves .database)
  schemas := by
    have hone : [db].flatMap (·.schemas) = db.schemas := List.flatMap_singleton _ _
    rw [normalize_schemas, normalize_schemas]
    change (Bucket.ofList _).Shifted _ _ (.ofList (([db].map (·.shift (q - p))).flatMap _))
    apply Bucket.shifted_children
    · rw [hone]
      exact hn .schema
    · rw [hone]
      exact hmoves .schema
    · exact fun _ => rfl
    · exact fun _ => rfl
    · exact fun o s => s.flat_shift o.id
  refs := Bucket.shifted_children (hn .ref) (hmoves .ref) (fun _ => rfl) (fun _ => rfl)
    fun _ _ => rfl
  enums := Bucket.shifted_children (hn .enum) (hmoves .enum) (fun _ => rfl) (fun _ => rfl)
    fun s e => e.flat_shift s.id
  tableGroups := Bucket.shifted_children (hn .tableGroup) (hmoves .tableGroup) (fun _ => rfl)
    (fun _ => rfl) fun _ _ => rfl
  tags := Bucket.shifted_children (hn .tag) (hmoves .tag) (fun _ => rfl) (fun _ => rfl)
    fun _ _ => rfl
  tables := Bucket.shifted_children (hn .table) (hmoves .table) (fun _ => rfl) (fun _ => rfl)
    fun s t => t.flat_shift s.id
  endpoints := by
    have hsides : ∀ r : Ref, (r.shift (q - p)).endpoints = r.endpoints.map (·.shift (q - p)) :=
      fun _ => rfl
    simp only [normalize, refs_shift]
    exact Bucket.shifted_children (hn .endpoint) (hmoves .endpoint) hsides (fun _ => rfl)
      fun _ _ => rfl
  enumValues := by
    simp only [normalize, enums_shift]
    exact Bucket.shifted_children (hn .enumValue) (hmoves .enumValue) (fun _ => rfl) (fun _ => rfl)
      fun _ _ => rfl
  indexes := by
    simp only [normalize, tables_shift]
    exact Bucket.shifted_children (hn .index) (hmoves .index) (fun _ => rfl) (fun _ => rfl)
      fun t i => i.flat_shift t.id
  indexColumns := by
    simp only [normalize, indexes_shift]
    exact Bucket.shifted_children (hn .indexColumn) (hmoves .indexColumn) (fun _ => rfl)
      (fun _ => rfl) fun _ _ => rfl
  fields := by
    simp only [normalize, tables_shift]
    exact Bucket.shifted_children (hn .field) (hmoves .field) (fun _ => rfl) (fun _ => rfl)
      fun _ _ => rfl

end Database

end Catalog
