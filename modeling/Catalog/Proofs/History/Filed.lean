import Catalog.Proofs.Flattening.Closed
import Catalog.Proofs.History.Grows

/-!
Growth as the flat model shows it. A record that has been filed under an identifier stays there,
with the same owner, and only some of its links may become more.
-/
namespace Catalog

/-! What may become of a record. -/

namespace Flat

structure Database.Grows (d d' : Database) : Prop where
  same : d' = { d with hasDefaultSchema := d'.hasDefaultSchema, schemaIds := d'.schemaIds }
  marked : d.hasDefaultSchema = true → d'.hasDefaultSchema = true
  schemaIds : d.schemaIds <+: d'.schemaIds

structure Schema.Grows (s s' : Schema) : Prop where
  same : s' = { s with tableIds := s'.tableIds, enumIds := s'.enumIds, refIds := s'.refIds,
                       tagIds := s'.tagIds, tableGroupIds := s'.tableGroupIds }
  tableIds : s.tableIds <+: s'.tableIds
  enumIds : s.enumIds <+: s'.enumIds
  refIds : s.refIds <+: s'.refIds
  tagIds : s.tagIds <+: s'.tagIds
  tableGroupIds : s.tableGroupIds <+: s'.tableGroupIds

structure Table.Grows (t t' : Table) : Prop where
  same : t' = { t with groupId := t'.groupId }
  groupId : ∀ i, t.groupId = some i → t'.groupId = some i

structure Field.Grows (f f' : Field) : Prop where
  same : f' = { f with endpointIds := f'.endpointIds, enumId := f'.enumId }
  endpointIds : f.endpointIds <+: f'.endpointIds
  enumId : ∀ i, f.enumId = some i → f'.enumId = some i

structure Enum.Grows (e e' : Enum) : Prop where
  same : e' = { e with fieldIds := e'.fieldIds }
  fieldIds : e.fieldIds <+: e'.fieldIds

end Flat

/-- The records of a bucket are in a later one under the same identifiers, or what has become of
them. -/
def Bucket.Keeps {k : Kind} {α : Type} (b : Bucket k α) (R : α → α → Prop) (b' : Bucket k α) :
    Prop :=
  ∀ i r, b.get? i = some r → ∃ r', b'.get? i = some r' ∧ R r r'

structure Flat.Model.Grows (m m' : Flat.Model) : Prop where
  database : m.database.Keeps Flat.Database.Grows m'.database
  schemas : m.schemas.Keeps Flat.Schema.Grows m'.schemas
  tables : m.tables.Keeps Flat.Table.Grows m'.tables
  fields : m.fields.Keeps Flat.Field.Grows m'.fields
  indexes : m.indexes.Keeps Eq m'.indexes
  indexColumns : m.indexColumns.Keeps Eq m'.indexColumns
  enums : m.enums.Keeps Flat.Enum.Grows m'.enums
  enumValues : m.enumValues.Keeps Eq m'.enumValues
  refs : m.refs.Keeps Eq m'.refs
  endpoints : m.endpoints.Keeps Eq m'.endpoints
  tableGroups : m.tableGroups.Keeps Eq m'.tableGroups
  tags : m.tags.Keeps Eq m'.tags

/-- Children are still filed if their owners are there and have them. -/
theorem Bucket.keeps_children {k : Kind} {ω χ α : Type} {os os' : List ω} {cs : ω → List χ}
    {cid : χ → Id k} {g : ω → χ → α} {R : α → α → Prop} (hn : ((os.flatMap cs).map cid).Nodup)
    (hn' : ((os'.flatMap cs).map cid).Nodup)
    (h : ∀ o ∈ os, ∃ o' ∈ os', ∀ c ∈ cs o, ∃ c' ∈ cs o', cid c' = cid c ∧ R (g o c) (g o' c')) :
    (ofList (os.flatMap fun o => (cs o).map fun c => (cid c, g o c))).Keeps R
      (ofList (os'.flatMap fun o => (cs o).map fun c => (cid c, g o c))) := by
  intro i r hi
  obtain ⟨o, ho, c, hc, rfl, rfl⟩ := (get?_children hn).mp hi
  obtain ⟨o', ho', hchildren⟩ := h o ho
  obtain ⟨c', hc', hid, hR⟩ := hchildren c hc
  exact ⟨g o' c', (get?_children hn').mpr ⟨o', ho', c', hc', hid.symm, rfl⟩, hR⟩

/-! Entities that grow have records that grow. -/

theorem Schema.Grows.id {s s' : Schema} (h : s.Grows s') : s'.id = s.id := by
  rw [h.same]

theorem Table.Grows.id {t t' : Table} (h : t.Grows t') : t'.id = t.id := by
  rw [h.same]

theorem Enum.Grows.id {e e' : Enum} (h : e.Grows e') : e'.id = e.id := by
  rw [h.same]

theorem Field.Grows.id {f f' : Field} (h : f.Grows f') : f'.id = f.id := by
  rw [h.same]

theorem Schema.Grows.flat {s s' : Schema} (h : s.Grows s') (owner : Id .database) :
    (s.flat owner).Grows (s'.flat owner) where
  same := by
    rw [h.same]
    rfl
  tableIds := h.tables.map_prefix fun _ _ ht => ht.id
  enumIds := h.enums.map_prefix fun _ _ he => he.id
  refIds := h.refs.map _
  tagIds := h.tags.map _
  tableGroupIds := h.tableGroups.map _

theorem Table.Grows.flat {t t' : Table} (h : t.Grows t') (owner : Id .schema) :
    (t.flat owner).Grows (t'.flat owner) where
  same := by
    have hfields : t'.fields.map (·.id) = t.fields.map (·.id) :=
      (map_eq_of_paired h.fields fun _ _ hf => hf.id.symm).symm
    rw [Table.flat, hfields, h.same]
    rfl
  groupId := h.group

theorem Field.Grows.flat {f f' : Field} (h : f.Grows f') (owner : Id .table) :
    (f.flat owner).Grows (f'.flat owner) where
  same := by
    rw [h.same]
    rfl
  endpointIds := h.endpoints
  enumId := h.enumId

theorem Enum.Grows.flat {e e' : Enum} (h : e.Grows e') (owner : Id .schema) :
    (e.flat owner).Grows (e'.flat owner) where
  same := by
    rw [h.same]
    rfl
  fieldIds := h.fields

namespace Database.Grows

variable {db db' : Database}

theorem exists_table (h : db.Grows db') {t : Table} (ht : t ∈ db.tables) :
    ∃ t' ∈ db'.tables, t.Grows t' := by
  obtain ⟨s, hs, ht⟩ := List.mem_flatMap.mp ht
  obtain ⟨s', hs', hgrow⟩ := h.schemas.exists_of_mem hs
  obtain ⟨t', ht', htgrow⟩ := hgrow.tables.exists_of_mem ht
  exact ⟨t', List.mem_flatMap.mpr ⟨s', hs', ht'⟩, htgrow⟩

theorem exists_enum (h : db.Grows db') {e : Enum} (he : e ∈ db.enums) :
    ∃ e' ∈ db'.enums, e.Grows e' := by
  obtain ⟨s, hs, he⟩ := List.mem_flatMap.mp he
  obtain ⟨s', hs', hgrow⟩ := h.schemas.exists_of_mem hs
  obtain ⟨e', he', hegrow⟩ := hgrow.enums.exists_of_mem he
  exact ⟨e', List.mem_flatMap.mpr ⟨s', hs', he'⟩, hegrow⟩

theorem indexes (h : db.Grows db') : db.indexes ⊆ db'.indexes := by
  intro i hi
  obtain ⟨t, ht, hi⟩ := List.mem_flatMap.mp hi
  obtain ⟨t', ht', hgrow⟩ := h.exists_table ht
  refine List.mem_flatMap.mpr ⟨t', ht', ?_⟩
  rw [hgrow.same]
  exact hi

theorem refs (h : db.Grows db') : db.refs ⊆ db'.refs := by
  intro r hr
  obtain ⟨s, hs, hr⟩ := List.mem_flatMap.mp hr
  obtain ⟨s', hs', hgrow⟩ := h.schemas.exists_of_mem hs
  exact List.mem_flatMap.mpr ⟨s', hs', hgrow.refs.subset hr⟩

/-- Where no two entities of a kind share an identifier, a database that grows has a flat model that
does. -/
theorem normalize (h : db.Grows db') (hn : ∀ k, (db.arena k).Nodup)
    (hn' : ∀ k, (db'.arena k).Nodup) : db.normalize.Grows db'.normalize where
  database := by
    intro i r hi
    have hmem : (i, r) ∈ [(db.id, db.flat)] := Bucket.get?_eq_some_iff.mp hi
    obtain ⟨rfl, rfl⟩ := Prod.mk.inj (List.mem_singleton.mp hmem)
    have hid : db'.id = db.id := by rw [h.same]
    refine ⟨db'.flat, Bucket.get?_eq_some_iff.mpr (List.mem_singleton.mpr (by rw [hid])), ?_⟩
    refine ⟨?_, h.marked, h.schemas.map_prefix fun _ _ hs => hs.id⟩
    rw [h.same]
    rfl
  schemas := by
    have hone : ∀ db : Database, [db].flatMap (·.schemas) = db.schemas :=
      fun _ => List.flatMap_singleton _ _
    rw [normalize_schemas, normalize_schemas]
    apply Bucket.keeps_children (by rw [hone]; exact hn .schema) (by rw [hone]; exact hn' .schema)
    intro o ho
    refine ⟨db', List.mem_singleton_self _, ?_⟩
    rw [List.mem_singleton.mp ho, show db'.id = db.id by rw [h.same]]
    intro s hs
    obtain ⟨s', hs', hgrow⟩ := h.schemas.exists_of_mem hs
    exact ⟨s', hs', hgrow.id, hgrow.flat db.id⟩
  tables := by
    apply Bucket.keeps_children (hn .table) (hn' .table)
    intro s hs
    obtain ⟨s', hs', hgrow⟩ := h.schemas.exists_of_mem hs
    refine ⟨s', hs', fun t ht => ?_⟩
    obtain ⟨t', ht', htgrow⟩ := hgrow.tables.exists_of_mem ht
    exact ⟨t', ht', htgrow.id, hgrow.id ▸ htgrow.flat _⟩
  fields := by
    apply Bucket.keeps_children (hn .field) (hn' .field)
    intro t ht
    obtain ⟨t', ht', hgrow⟩ := h.exists_table ht
    refine ⟨t', ht', fun f hf => ?_⟩
    obtain ⟨f', hf', hfgrow⟩ := exists_right_of_paired hgrow.fields hf
    exact ⟨f', hf', hfgrow.id, hgrow.id ▸ hfgrow.flat _⟩
  indexes := by
    apply Bucket.keeps_children (hn .index) (hn' .index)
    intro t ht
    obtain ⟨t', ht', hgrow⟩ := h.exists_table ht
    refine ⟨t', ht', fun i hi => ⟨i, ?_, rfl, by rw [hgrow.id]⟩⟩
    rw [hgrow.same]
    exact hi
  indexColumns := by
    apply Bucket.keeps_children (hn .indexColumn) (hn' .indexColumn)
    exact fun i hi => ⟨i, h.indexes hi, fun c hc => ⟨c, hc, rfl, rfl⟩⟩
  enums := by
    apply Bucket.keeps_children (hn .enum) (hn' .enum)
    intro s hs
    obtain ⟨s', hs', hgrow⟩ := h.schemas.exists_of_mem hs
    refine ⟨s', hs', fun e he => ?_⟩
    obtain ⟨e', he', hegrow⟩ := hgrow.enums.exists_of_mem he
    exact ⟨e', he', hegrow.id, hgrow.id ▸ hegrow.flat _⟩
  enumValues := by
    apply Bucket.keeps_children (hn .enumValue) (hn' .enumValue)
    intro e he
    obtain ⟨e', he', hgrow⟩ := h.exists_enum he
    refine ⟨e', he', fun v hv => ⟨v, ?_, rfl, by rw [hgrow.id]⟩⟩
    rw [hgrow.same]
    exact hv
  refs := by
    apply Bucket.keeps_children (hn .ref) (hn' .ref)
    intro s hs
    obtain ⟨s', hs', hgrow⟩ := h.schemas.exists_of_mem hs
    exact ⟨s', hs', fun r hr => ⟨r, hgrow.refs.subset hr, rfl, by rw [hgrow.id]⟩⟩
  endpoints := by
    apply Bucket.keeps_children (hn .endpoint) (hn' .endpoint)
    exact fun r hr => ⟨r, h.refs hr, fun e he => ⟨e, he, rfl, rfl⟩⟩
  tableGroups := by
    apply Bucket.keeps_children (hn .tableGroup) (hn' .tableGroup)
    intro s hs
    obtain ⟨s', hs', hgrow⟩ := h.schemas.exists_of_mem hs
    exact ⟨s', hs', fun g hg => ⟨g, hgrow.tableGroups.subset hg, rfl, by rw [hgrow.id]⟩⟩
  tags := by
    apply Bucket.keeps_children (hn .tag) (hn' .tag)
    intro s hs
    obtain ⟨s', hs', hgrow⟩ := h.schemas.exists_of_mem hs
    exact ⟨s', hs', fun t ht => ⟨t, hgrow.tags.subset ht, rfl, by rw [hgrow.id]⟩⟩

end Database.Grows

end Catalog
