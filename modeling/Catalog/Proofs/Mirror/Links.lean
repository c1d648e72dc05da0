import Catalog.Proofs.Mirror.Place

/-!
Drawing links between entities that exist. Links are not part of what is mirrored, so drawing them
keeps the mirror.
-/
namespace Catalog

variable {db : Database} {c : Config} {project : DatabaseInfo} {x : Decl.Stage} {a : Assembly}

/-- Two versions of a table that differ in its links to other entities at most. -/
structure Table.Agrees (t t' : Table) : Prop where
  id : t.id = t'.id
  declared : t.declared = t'.declared
  numbers : ∀ k, t.numbers k = t'.numbers k
  tags : t.tags = t'.tags
  fields : t.fields.map (fun f => (f.id, f.name)) = t'.fields.map fun f => (f.id, f.name)

structure Enum.Agrees (e e' : Enum) : Prop where
  declared : e.declared = e'.declared
  numbers : ∀ k, e.numbers k = e'.numbers k

namespace Database

def relink (db : Database) (f : Table → Table) (g : Enum → Enum) : Database :=
  { db with
    schemas := db.schemas.map fun s => { s with tables := s.tables.map f, enums := s.enums.map g } }

variable {f : Table → Table} {g : Enum → Enum}

theorem tablePaths_relink (hf : ∀ t, (f t).Agrees t) :
    (db.relink f g).tablePaths = db.tablePaths := by
  have hname : ∀ t, (f t).name = t.name := fun t => congrArg (·.name) (hf t).declared
  simp only [tablePaths, relink, List.flatMap_map, List.map_map, Function.comp_def, (hf _).id,
    hname]

theorem fieldPaths_relink (hf : ∀ t, (f t).Agrees t) :
    (db.relink f g).fieldPaths = db.fieldPaths := by
  have hname : ∀ t, (f t).name = t.name := fun t => congrArg (·.name) (hf t).declared
  have hfields : ∀ (s : Schema) (t : Table),
      ((f t).fields.map fun e => (e.id, FieldPath.mk ⟨s.name, t.name⟩ e.name))
        = t.fields.map fun e => (e.id, FieldPath.mk ⟨s.name, t.name⟩ e.name) := by
    intro s t
    have hmap := congrArg (List.map fun e => (e.1, FieldPath.mk ⟨s.name, t.name⟩ e.2)) (hf t).fields
    rw [List.map_map, List.map_map] at hmap
    exact hmap
  simp only [fieldPaths, relink, List.flatMap_map, hname, hfields]

theorem keeps_relink (hf : ∀ t, (f t).Agrees t) : db.Keeps (db.relink f g) where
  tables := by rw [tablePaths_relink hf]; exact List.Subset.refl _
  fields := by rw [fieldPaths_relink hf]; exact List.Subset.refl _

theorem numbers_relink (hf : ∀ t, (f t).Agrees t) (hg : ∀ e, (g e).Agrees e) (k : Kind) :
    (db.relink f g).numbers k = db.numbers k := by
  simp only [numbers, relink, Schema.numbers, List.flatMap_map, (hf _).numbers, (hg _).numbers]

theorem mem_relink {s' : Schema} : s' ∈ (db.relink f g).schemas ↔
    ∃ s ∈ db.schemas, s' = { s with tables := s.tables.map f, enums := s.enums.map g } := by
  simp only [relink, List.mem_map]
  constructor
  · rintro ⟨s, hs, rfl⟩
    exact ⟨s, hs, rfl⟩
  · rintro ⟨s, hs, rfl⟩
    exact ⟨s, hs, rfl⟩

theorem Denotes.relink {name : String} {id : Id .schema} (h : db.Denotes name id) :
    (db.relink f g).Denotes name id := by
  obtain ⟨s, hs, hid, hn⟩ := h
  exact ⟨_, mem_relink.mpr ⟨s, hs, rfl⟩, hid, hn⟩

end Database

/-- Links between entities are not part of what is mirrored. -/
theorem Assembly.Mirrors.relink (h : a.Mirrors c project x) {f : Table → Table} {g : Enum → Enum}
    (hf : ∀ t, (f t).Agrees t) (hg : ∀ e, (g e).Agrees e) :
    Assembly.Mirrors c project x ⟨a.database.relink f g, a.ids⟩ where
  config := h.config
  project := h.project
  base := h.base
  issued := h.issued
  numbers := fun k => (Database.numbers_relink hf hg k).symm ▸ h.numbers k
  schemas := by
    rw [Database.relink, List.forall₂_map_left_iff]
    apply h.schemas.imp
    intro s d hm
    have hm' := hm.mono (Database.keeps_relink (g := g) hf) (Decl.Outline.Grows.refl x.outline)
    refine ⟨hm'.info, hm'.token, ?_, hm'.tags, ?_, hm'.refs, hm'.tableGroups⟩
    · rw [List.forall₂_map_left_iff]
      exact hm.tables.imp fun t _ ht => (hf t).declared.trans ht
    · rw [List.forall₂_map_left_iff]
      exact hm.enums.imp fun e _ he => (hg e).declared.trans he
  untagged := by
    intro htagged u hu t ht
    obtain ⟨s, hs, rfl⟩ := Database.mem_relink.mp hu
    obtain ⟨t', ht', rfl⟩ := List.mem_map.mp ht
    rw [(hf t').tags]
    exact h.untagged htagged s hs t' ht'
  tagged := by
    intro htagged u hu t ht
    obtain ⟨s, hs, rfl⟩ := Database.mem_relink.mp hu
    obtain ⟨t', ht', rfl⟩ := List.mem_map.mp ht
    have hmentions : (f t').mentions = t'.mentions := congrArg (·.tags) (hf t').declared
    have hm := h.tagged htagged s hs t' ht'
    unfold Table.Tagged at hm ⊢
    rw [(hf t').tags, hmentions]
    exact hm
  marked := h.marked
  sound := h.sound

theorem Table.agrees_mapFields {f : Field → Field} (t : Table)
    (hf : ∀ e, (f e).id = e.id ∧ (f e).declared = e.declared) :
    Table.Agrees { t with fields := t.fields.map f } t where
  id := rfl
  declared := by simp only [Table.declared, List.map_map, Function.comp_def, (hf _).2]
  numbers := by
    intro k
    simp only [Table.numbers, List.flatMap_map, (hf _).1]
  tags := rfl
  fields := by
    have hname : ∀ e, (f e).name = e.name := fun e => congrArg (·.name) (hf e).2
    simp only [List.map_map, Function.comp_def, (hf _).1, hname]

namespace Database

theorem mapFields_eq_relink (db : Database) (f : Field → Field) :
    db.mapFields f = db.relink (fun t => { t with fields := t.fields.map f }) fun e => e := by
  simp only [mapFields, mapTables, relink, List.map_id']

/-- A field as binding an enum leaves it. -/
def linkEnum (db : Database) (i : Id .enum) (f : Field) : Field :=
  if db.matchesEnum i f then { f with enumId := some i } else f

/-- An enum as binding one leaves it. -/
def collectFields (db : Database) (i : Id .enum) (e : Enum) : Enum :=
  if e.id = i then
    { e with fields := ((db.matchingFields i).map (·.id)).foldl pushNew e.fields }
  else e

theorem bindEnum_eq (db : Database) (i : Id .enum) : db.bindEnum i = db.relink
    (fun t => { t with fields := t.fields.map (db.linkEnum i) }) (db.collectFields i) := by
  change (db.mapFields (db.linkEnum i)).mapEnums (db.collectFields i) = _
  simp only [mapFields, mapTables, mapEnums, relink, List.map_map]
  rfl

theorem agrees_linkEnum (db : Database) (i : Id .enum) (t : Table) :
    Table.Agrees { t with fields := t.fields.map (db.linkEnum i) } t := by
  apply t.agrees_mapFields
  intro f
  simp only [linkEnum]
  split <;> exact ⟨rfl, rfl⟩

theorem agrees_collectFields (db : Database) (i : Id .enum) (e : Enum) :
    (db.collectFields i e).Agrees e := by
  simp only [collectFields]
  split <;> exact ⟨rfl, fun _ => rfl⟩

/-- Binding an enum draws links between it and fields. -/
theorem bindEnum_eq_relink (db : Database) (i : Id .enum) : ∃ f g,
    db.bindEnum i = db.relink f g ∧ (∀ t, (f t).Agrees t ∧ (f t).group = t.group) ∧
      ∀ e, (g e).Agrees e :=
  ⟨_, _, db.bindEnum_eq i, fun t => ⟨db.agrees_linkEnum i t, rfl⟩, db.agrees_collectFields i⟩

/-- Whether an enum is bound as it is inserted depends on the configuration. -/
theorem addEnum_cases (db : Database) (id : Id .schema) (e : Enum) :
    db.config.enumBinding = .afterConstruction ∧
        db.addEnum id e = db.updateSchema id (·.insert (.enum e)) ∨
      db.config.enumBinding = .onInsert ∧
        db.addEnum id e = (db.updateSchema id (·.insert (.enum e))).bindEnum e.id := by
  unfold addEnum
  cases h : db.config.enumBinding with
  | onInsert => exact .inr ⟨rfl, by simp only [updateSchema, h]; rfl⟩
  | afterConstruction => exact .inl ⟨rfl, by simp only [updateSchema, h]; rfl⟩

end Database

/-! The links that come with an entity. -/

/-- A table with the links to an entity that is to be inserted. -/
def Entity.tie : Entity → Table → Table
  | .ref r, t =>
    { t with fields := t.fields.map fun f => (f.linkEndpoint r.first).linkEndpoint r.second }
  | .tableGroup g, t => if g.tables.contains t.id then { t with group := some g.id } else t
  | _, t => t

theorem Entity.agrees_tie (e : Entity) (t : Table) : (e.tie t).Agrees t := by
  have same : t.Agrees t := ⟨rfl, rfl, fun _ => rfl, rfl, rfl⟩
  cases e with
  | ref r =>
    apply t.agrees_mapFields
    intro f
    simp only [Field.linkEndpoint]
    split <;> split <;> exact ⟨rfl, rfl⟩
  | tableGroup g =>
    simp only [tie]
    split <;> exact ⟨rfl, rfl, fun _ => rfl, rfl, rfl⟩
  | _ => exact same

namespace Database

/-- Inserts an entity after the links to it have been drawn. -/
def place (db : Database) (id : Id .schema) (e : Entity) : Database :=
  (db.relink e.tie fun e => e).updateSchema id (·.insert e)

theorem relink_self (db : Database) : (db.relink (fun t => t) fun e => e) = db := by
  simp [relink]

theorem addRef_eq (db : Database) (id : Id .schema) (r : Ref) :
    db.addRef id r = db.place id (.ref r) := by
  unfold addRef place
  rw [mapFields_eq_relink]
  rfl

theorem addTableGroup_eq (db : Database) (id : Id .schema) (g : TableGroup) :
    db.addTableGroup id g = db.place id (.tableGroup g) := by
  have hmap : ∀ f, db.mapTables f = db.relink f fun e => e := by
    intro f
    simp only [mapTables, relink, List.map_id']
  have htie : (fun t : Table => if t.id ∈ g.tables then { t with group := some g.id } else t)
      = (Entity.tableGroup g).tie := by
    funext t
    simp only [Entity.tie, List.contains_iff_mem]
  unfold addTableGroup place
  rw [htie, hmap]
  rfl

end Database

end Catalog
