import Catalog.Assembly
import Catalog.Proofs.Declared
import Catalog.Proofs.Outline.Stage
import Mathlib.Data.List.Forall2
import Mathlib.Data.List.Nodup

/-!
A database under construction mirrors the outline that its build has reached: the same schemas with
the same records in the same order, links to the tables and fields that lookups in the outline find,
and numbers without gaps or repetitions.
-/
namespace Catalog

/-! Where tables and fields are, by name. -/

namespace Database

def tablePaths (db : Database) : List (Id .table × TablePath) :=
  db.schemas.flatMap fun s => s.tables.map fun t => (t.id, ⟨s.name, t.name⟩)

def fieldPaths (db : Database) : List (Id .field × FieldPath) :=
  db.schemas.flatMap fun s => s.tables.flatMap fun t =>
    t.fields.map fun f => (f.id, ⟨⟨s.name, t.name⟩, f.name⟩)

theorem mem_tablePaths {db : Database} {id : Id .table} {p : TablePath} :
    (id, p) ∈ db.tablePaths ↔
      ∃ s ∈ db.schemas, ∃ t ∈ s.tables, t.id = id ∧ p = ⟨s.name, t.name⟩ := by
  simp only [tablePaths, List.mem_flatMap, List.mem_map, Prod.mk.injEq]
  constructor
  · rintro ⟨s, hs, t, ht, hid, hp⟩
    exact ⟨s, hs, t, ht, hid, hp.symm⟩
  · rintro ⟨s, hs, t, ht, hid, hp⟩
    exact ⟨s, hs, t, ht, hid, hp.symm⟩

theorem mem_fieldPaths {db : Database} {id : Id .field} {p : FieldPath} :
    (id, p) ∈ db.fieldPaths ↔ ∃ s ∈ db.schemas, ∃ t ∈ s.tables, ∃ f ∈ t.fields,
      f.id = id ∧ p = ⟨⟨s.name, t.name⟩, f.name⟩ := by
  simp only [fieldPaths, List.mem_flatMap, List.mem_map, Prod.mk.injEq]
  constructor
  · rintro ⟨s, hs, t, ht, f, hf, hid, hp⟩
    exact ⟨s, hs, t, ht, f, hf, hid, hp.symm⟩
  · rintro ⟨s, hs, t, ht, f, hf, hid, hp⟩
    exact ⟨s, hs, t, ht, f, hf, hid, hp.symm⟩

end Database

/-- What a record becomes in a database. -/
inductive Entity where
  | table (t : Table)
  | tag (t : Tag)
  | enum (e : Enum)
  | ref (r : Ref)
  | tableGroup (g : TableGroup)

def Entity.numbers : Entity → Kind → List Nat
  | table t, k => t.numbers k
  | tag t, k => t.id.number k
  | enum e, k => e.numbers k
  | ref r, k => r.numbers k
  | tableGroup g, k => g.id.number k

def Schema.insert (s : Schema) : Entity → Schema
  | .table t => { s with tables := s.tables ++ [t] }
  | .tag t => { s with tags := s.tags ++ [t] }
  | .enum e => { s with enums := s.enums ++ [e] }
  | .ref r => { s with refs := s.refs ++ [r] }
  | .tableGroup g => { s with tableGroups := s.tableGroups ++ [g] }

variable (db : Database) (c : Config) (o : Decl.Outline)

/-- An endpoint is linked to the table and the fields that its names refer to. -/
structure Endpoint.Mirrors (e : Endpoint) (d : Decl.Endpoint) : Prop where
  info : e.toEndpointInfo = d.toEndpointInfo
  token : e.token = d.token
  table : ∃ p, o.tablePath? c d.schemaName d.tableName = some p ∧ (e.table, p) ∈ db.tablePaths
  fields : List.Forall₂ (fun f name => ∃ p, o.fieldPath? c d.toEndpointInfo name = some p ∧
    (f, p) ∈ db.fieldPaths) e.fields d.fieldNames

structure Ref.Mirrors (r : Ref) (d : Decl.Ref) : Prop where
  info : r.toRefInfo = d.toRefInfo
  token : r.token = d.token
  endpoints : List.Forall₂ (Endpoint.Mirrors db c o) r.endpoints d.endpoints

structure TableGroup.Mirrors (g : TableGroup) (d : Decl.TableGroup) : Prop where
  info : g.toTableGroupInfo = d.toTableGroupInfo
  token : g.token = d.token
  gathers : o.Gathers c d
  tables : List.Forall₂ (fun id p => (id, p) ∈ db.tablePaths) g.tables (o.members c d)

structure Schema.Mirrors (s : Schema) (d : Decl.Schema) : Prop where
  info : s.toSchemaInfo = d.toSchemaInfo
  token : s.token = d.token
  tables : List.Forall₂ (fun t d => t.declared = d.bare) s.tables d.tables
  tags : List.Forall₂ (fun t d => t.declared = d.bare) s.tags d.tags
  enums : List.Forall₂ (fun e d => e.declared = d.bare) s.enums d.enums
  refs : List.Forall₂ (Ref.Mirrors db c o) s.refs d.refs
  tableGroups : List.Forall₂ (TableGroup.Mirrors db c o) s.tableGroups d.tableGroups

inductive Entity.Mirrors : Entity → Decl.Item → Prop
  | table {t : Table} {d : Decl.Table} : t.declared = d.bare → t.tags = [] →
      Entity.Mirrors (.table t) (.table d)
  | tag {t : Tag} {d : Decl.Tag} : t.declared = d.bare → Entity.Mirrors (.tag t) (.tag d)
  | enum {e : Enum} {d : Decl.Enum} : e.declared = d.bare → Entity.Mirrors (.enum e) (.enum d)
  | ref {r : Ref} {d : Decl.Ref} : r.Mirrors db c o d → Entity.Mirrors (.ref r) (.ref d)
  | tableGroup {g : TableGroup} {d : Decl.TableGroup} : g.Mirrors db c o d →
      Entity.Mirrors (.tableGroup g) (.tableGroup d)

/-- The tags of a table are those that it mentions, each once. -/
def Table.Tagged (t : Table) (s : Schema) : Prop :=
  List.Forall₂ (fun id name => ∃ g ∈ s.tags, g.id = id ∧ g.name = name) t.tags
    (t.mentions.map (·.name)).eraseDups

/-- A database and its allocator are where a build has come to. -/
structure Assembly.Mirrors (c : Config) (project : DatabaseInfo) (x : Decl.Stage) (a : Assembly) :
    Prop where
  config : a.database.config = c
  project : a.database.toDatabaseInfo = project
  base : a.ids.base = c.idBase
  issued : ∀ k, a.ids.issued k = x.outline.extent k
  numbers : ∀ k,
    (a.database.numbers k).Perm (List.range' c.idBase.toNat (x.outline.extent k))
  schemas : List.Forall₂ (Schema.Mirrors a.database c x.outline) a.database.schemas x.outline
  untagged : x.tagged = false → ∀ s ∈ a.database.schemas, ∀ t ∈ s.tables, t.tags = []
  tagged : x.tagged = true → ∀ s ∈ a.database.schemas, ∀ t ∈ s.tables, t.Tagged s
  marked : a.database.hasDefaultSchema = x.marked
  sound : x.outline.Sound c

/-- A table knows that it is in a group. -/
def Database.Grouped (db : Database) : Prop :=
  ∀ s ∈ db.schemas, ∀ t ∈ s.tables,
    (t.group.isSome = true ↔ ∃ s' ∈ db.schemas, ∃ g ∈ s'.tableGroups, t.id ∈ g.tables)

/-! Lists paired element by element. -/

section Paired

variable {α β γ : Type} {R : α → β → Prop} {l : List α} {l' : List β}

theorem map_eq_of_paired {f : α → γ} {g : β → γ} (h : List.Forall₂ R l l')
    (hfg : ∀ a b, R a b → f a = g b) : l.map f = l'.map g := by
  induction h with
  | nil => rfl
  | cons hab _ ih => rw [List.map_cons, List.map_cons, hfg _ _ hab, ih]

theorem paired_imp_of_mem {S : α → β → Prop} (h : List.Forall₂ R l l')
    (hRS : ∀ a ∈ l, ∀ b ∈ l', R a b → S a b) : List.Forall₂ S l l' := by
  induction h with
  | nil => exact .nil
  | cons hab _ ih =>
    apply List.Forall₂.cons (hRS _ List.mem_cons_self _ List.mem_cons_self hab)
    exact ih fun a ha b hb => hRS a (List.mem_cons_of_mem _ ha) b (List.mem_cons_of_mem _ hb)

theorem exists_right_of_paired (h : List.Forall₂ R l l') {a : α} (ha : a ∈ l) :
    ∃ b ∈ l', R a b := by
  induction h with
  | nil => cases ha
  | cons hab _ ih =>
    rcases List.mem_cons.mp ha with rfl | ha
    · exact ⟨_, List.mem_cons_self, hab⟩
    · obtain ⟨b, hb, hr⟩ := ih ha
      exact ⟨b, List.mem_cons_of_mem _ hb, hr⟩

theorem getElem?_of_paired (h : List.Forall₂ R l l') {i : Nat} {a : α} (ha : l[i]? = some a) :
    ∃ b, l'[i]? = some b ∧ R a b := by
  induction h generalizing i with
  | nil => cases ha
  | cons hab _ ih =>
    cases i with
    | zero =>
      cases ha
      exact ⟨_, rfl, hab⟩
    | succ i => exact ih ha

theorem exists_left_of_paired (h : List.Forall₂ R l l') {b : β} (hb : b ∈ l') :
    ∃ a ∈ l, R a b :=
  exists_right_of_paired h.flip hb

/-- The first elements to pass corresponding tests are paired, or there are none. -/
theorem find?_of_paired {p : α → Bool} {q : β → Bool} (h : List.Forall₂ R l l')
    (hpq : ∀ a b, R a b → p a = q b) :
    l.find? p = none ∧ l'.find? q = none ∨
      ∃ a b, l.find? p = some a ∧ l'.find? q = some b ∧ R a b := by
  induction h with
  | nil => exact .inl ⟨rfl, rfl⟩
  | @cons a b _ _ hab _ ih =>
    rw [List.find?_cons, List.find?_cons, hpq a b hab]
    split
    · exact .inr ⟨a, b, rfl, rfl, hab⟩
    · exact ih

theorem paired_append {k : List α} {k' : List β} (h : List.Forall₂ R l l')
    (h' : List.Forall₂ R k k') : List.Forall₂ R (l ++ k) (l' ++ k') :=
  List.rel_append h h'

end Paired

variable {db : Database} {c : Config} {o : Decl.Outline}

theorem Table.info_of_declared {t : Table} {d : Decl.Table} (h : t.declared = d.bare) :
    t.toTableInfo = d.toTableInfo :=
  congrArg Decl.Table.toTableInfo h

theorem Table.fieldNames_of_declared {t : Table} {d : Decl.Table} (h : t.declared = d.bare) :
    t.fields.map (·.name) = d.fields.map (·.name) := by
  have hfields := congrArg (fun d => d.fields.map (·.name)) h
  simp only [Table.declared, List.map_map] at hfields
  exact hfields

theorem Schema.Mirrors.isNamed {s : Schema} {d : Decl.Schema} (h : s.Mirrors db c o d)
    (name : String) : s.isNamed name = d.isNamed name := by
  rw [h.info]

theorem Schema.Mirrors.names {s : Schema} {d : Decl.Schema} (h : s.Mirrors db c o d)
    (sort : ChildSort) : s.names sort = d.names sort := by
  cases sort with
  | table => exact map_eq_of_paired h.tables fun t d ht => congrArg (·.name) ht
  | enum => exact map_eq_of_paired h.enums fun e d he => congrArg (·.name) he
  | tag => exact map_eq_of_paired h.tags fun t d ht => congrArg (·.name) ht
  | tableGroup => exact map_eq_of_paired h.tableGroups fun g d hg => congrArg (·.name) hg.info

/-! Entities are told apart by their numbers. -/

theorem flatMap_nothing {α β : Type} (l : List α) : (l.flatMap fun _ => ([] : List β)) = [] := by
  rw [List.flatMap_eq_nil_iff]
  exact fun _ _ => rfl

/-- Where the items of all owners are different, an item tells its owner. -/
theorem eq_of_nodup_flatMap {ω χ γ : Type} {os : List ω} {cs : ω → List χ} {f : χ → γ}
    (h : (os.flatMap fun o => (cs o).map f).Nodup) {o o' : ω} {c c' : χ} (ho : o ∈ os)
    (hc : c ∈ cs o) (ho' : o' ∈ os) (hc' : c' ∈ cs o') (heq : f c = f c') : o = o' ∧ c = c' := by
  have hn : ((os.flatMap fun o => (cs o).map fun c => (o, c)).map fun p => f p.2).Nodup := by
    rw [List.map_flatMap]
    simpa only [List.map_map, Function.comp_def] using h
  have hmem : ∀ o ∈ os, ∀ c ∈ cs o, (o, c) ∈ os.flatMap fun o => (cs o).map fun c => (o, c) :=
    fun o ho c hc => List.mem_flatMap.mpr ⟨o, ho, List.mem_map.mpr ⟨c, hc, rfl⟩⟩
  exact Prod.mk.inj (List.inj_on_of_nodup_map hn (hmem o ho c hc) (hmem o' ho' c' hc') heq)

namespace Database

variable {db : Database}

/-- The identifiers of all entities of one kind, in the order of the tree. -/
def arena (db : Database) : (k : Kind) → List (Id k)
  | .database => [db.id]
  | .schema => db.schemas.map (·.id)
  | .table => db.tables.map (·.id)
  | .field => db.fields.map (·.id)
  | .index => db.indexes.map (·.id)
  | .indexColumn => db.indexColumns.map (·.id)
  | .enum => db.enums.map (·.id)
  | .enumValue => db.enumValues.map (·.id)
  | .ref => db.refs.map (·.id)
  | .endpoint => db.endpoints.map (·.id)
  | .tableGroup => db.tableGroups.map (·.id)
  | .tag => db.tags.map (·.id)

theorem numbers_eq_arena (db : Database) (k : Kind) :
    db.numbers k = (db.arena k).map (·.toNat) := by
  cases k <;>
    simp [numbers, arena, Schema.numbers, Table.numbers, Index.numbers, Enum.numbers, Ref.numbers,
      Id.number, tables, fields, indexes, indexColumns, enums, enumValues, refs, endpoints,
      tableGroups, tags, flatMap_nothing, List.map_eq_flatMap, List.flatMap_assoc]

theorem mem_arena {k : Kind} {i : Id k} : i ∈ db.arena k ↔ i.toNat ∈ db.numbers k := by
  rw [numbers_eq_arena, List.mem_map]
  constructor
  · exact fun hi => ⟨i, hi, rfl⟩
  · rintro ⟨j, hj, heq⟩
    exact Id.toNat_inj heq ▸ hj

theorem nodup_arena {k : Kind} (hn : (db.numbers k).Nodup) : (db.arena k).Nodup := by
  rw [numbers_eq_arena] at hn
  exact hn.of_map _

/-! Entities with different numbers are told apart by their identifiers. -/

theorem eq_of_schema_id (hn : (db.numbers .schema).Nodup) {s s' : Schema} (hs : s ∈ db.schemas)
    (hs' : s' ∈ db.schemas) (hid : s.id = s'.id) : s = s' :=
  List.inj_on_of_nodup_map (nodup_arena hn) hs hs' hid

theorem eq_of_table_id (hn : (db.numbers .table).Nodup) {s s' : Schema} {t t' : Table}
    (hs : s ∈ db.schemas) (ht : t ∈ s.tables) (hs' : s' ∈ db.schemas) (ht' : t' ∈ s'.tables)
    (hid : t.id = t'.id) : s = s' ∧ t = t' := by
  have harena := nodup_arena hn
  rw [arena, tables, List.map_flatMap] at harena
  exact eq_of_nodup_flatMap harena hs ht hs' ht' hid

theorem eq_of_field_id (hn : (db.numbers .field).Nodup) {s s' : Schema} {t t' : Table}
    {f f' : Field} (hs : s ∈ db.schemas) (ht : t ∈ s.tables) (hf : f ∈ t.fields)
    (hs' : s' ∈ db.schemas) (ht' : t' ∈ s'.tables) (hf' : f' ∈ t'.fields) (hid : f.id = f'.id) :
    s = s' ∧ t = t' ∧ f = f' := by
  have harena := nodup_arena hn
  have hmem : ∀ s : Schema, ∀ t ∈ s.tables, ∀ f ∈ t.fields, f ∈ s.fields :=
    fun s t ht f hf => List.mem_flatMap.mpr ⟨t, ht, hf⟩
  have hfields : db.fields = db.schemas.flatMap (·.fields) := by
    simp only [fields, tables, Schema.fields, List.flatMap_assoc]
  rw [arena, hfields, List.map_flatMap] at harena
  obtain ⟨rfl, rfl⟩ :=
    eq_of_nodup_flatMap harena hs (hmem s t ht f hf) hs' (hmem s' t' ht' f' hf') hid
  have hown := (List.nodup_flatMap.mp harena).1 s hs
  rw [Schema.fields, List.map_flatMap] at hown
  obtain ⟨rfl, -⟩ := eq_of_nodup_flatMap hown ht hf ht' hf' rfl
  exact ⟨rfl, rfl, rfl⟩

end Database

namespace Assembly.Mirrors

variable {project : DatabaseInfo} {x : Decl.Stage} {a : Assembly} {s s' : Schema} {t t' : Table}

theorem nodup_numbers (h : a.Mirrors c project x) (k : Kind) : (a.database.numbers k).Nodup :=
  (h.numbers k).nodup_iff.mpr List.nodup_range'

theorem eq_of_schema_id (h : a.Mirrors c project x) (hs : s ∈ a.database.schemas)
    (hs' : s' ∈ a.database.schemas) (hid : s.id = s'.id) : s = s' :=
  Database.eq_of_schema_id (h.nodup_numbers .schema) hs hs' hid

theorem eq_of_table_id (h : a.Mirrors c project x) (hs : s ∈ a.database.schemas)
    (ht : t ∈ s.tables) (hs' : s' ∈ a.database.schemas) (ht' : t' ∈ s'.tables)
    (hid : t.id = t'.id) : s = s' ∧ t = t' :=
  Database.eq_of_table_id (h.nodup_numbers .table) hs ht hs' ht' hid

theorem eq_of_field_id (h : a.Mirrors c project x) (hs : s ∈ a.database.schemas)
    (ht : t ∈ s.tables) (hs' : s' ∈ a.database.schemas) (ht' : t' ∈ s'.tables) {f f' : Field}
    (hf : f ∈ t.fields) (hf' : f' ∈ t'.fields) (hid : f.id = f'.id) :
    s = s' ∧ t = t' ∧ f = f' :=
  Database.eq_of_field_id (h.nodup_numbers .field) hs ht hf hs' ht' hf' hid

/-! Names tell schemas, tables and fields apart as they do in the outline. -/

theorem exists_decl (h : a.Mirrors c project x) (hs : s ∈ a.database.schemas) :
    ∃ d ∈ x.outline, s.Mirrors a.database c x.outline d :=
  exists_right_of_paired h.schemas hs

theorem eq_of_isNamed (h : a.Mirrors c project x) (hs : s ∈ a.database.schemas)
    (hs' : s' ∈ a.database.schemas) {name : String} (hn : s.isNamed name = true)
    (hn' : s'.isNamed name = true) : s = s' := by
  have infos : a.database.schemas.map (·.toSchemaInfo) = x.outline.map (·.toSchemaInfo) :=
    map_eq_of_paired h.schemas fun _ _ hd => hd.info
  have apart : (x.outline.map (·.toSchemaInfo)).Pairwise fun s t =>
      ∀ name, ¬ (s.isNamed name = true ∧ t.isNamed name = true) :=
    List.pairwise_map.mpr h.sound.apart
  rw [← infos, List.pairwise_map] at apart
  by_contra hne
  have symm : Std.Symm fun s t : Schema =>
      ∀ name, ¬ (s.isNamed name = true ∧ t.isNamed name = true) :=
    ⟨fun _ _ h name hn => h name hn.symm⟩
  exact apart.forall hs hs' hne name ⟨hn, hn'⟩

theorem nodup_tableNames (h : a.Mirrors c project x) (hs : s ∈ a.database.schemas) :
    (s.tables.map (·.name)).Nodup := by
  obtain ⟨d, hd, hm⟩ := h.exists_decl hs
  have hn : (s.names .table).Nodup := hm.names .table ▸ (h.sound.distinct d hd).tables
  exact hn

theorem eq_of_table_name (h : a.Mirrors c project x) (hs : s ∈ a.database.schemas)
    (ht : t ∈ s.tables) (ht' : t' ∈ s.tables) (hname : t.name = t'.name) : t = t' :=
  List.inj_on_of_nodup_map (h.nodup_tableNames hs) ht ht' hname

theorem nodup_fieldNames (h : a.Mirrors c project x) (hs : s ∈ a.database.schemas)
    (ht : t ∈ s.tables) : (t.fields.map (·.name)).Nodup := by
  obtain ⟨d, hd, hm⟩ := h.exists_decl hs
  obtain ⟨e, he, hdecl⟩ := exists_right_of_paired hm.tables ht
  rw [Table.fieldNames_of_declared hdecl]
  exact (h.sound.distinct d hd).fields e he

/-- Tables have the same path only if they are the same. -/
theorem tablePath_eq_iff (h : a.Mirrors c project x) {id id' : Id .table} {p p' : TablePath}
    (hp : (id, p) ∈ a.database.tablePaths) (hp' : (id', p') ∈ a.database.tablePaths) :
    id = id' ↔ p = p' := by
  obtain ⟨s, hs, t, ht, rfl, rfl⟩ := Database.mem_tablePaths.mp hp
  obtain ⟨s', hs', t', ht', rfl, rfl⟩ := Database.mem_tablePaths.mp hp'
  constructor
  · intro hid
    obtain ⟨rfl, rfl⟩ := h.eq_of_table_id hs ht hs' ht' hid
    rfl
  · intro heq
    injection heq with hschema htable
    obtain rfl := h.eq_of_isNamed hs hs' s.isNamed_name (hschema ▸ s'.isNamed_name)
    rw [h.eq_of_table_name hs ht ht' htable]

theorem fieldPath_eq_iff (h : a.Mirrors c project x) {id id' : Id .field} {p p' : FieldPath}
    (hp : (id, p) ∈ a.database.fieldPaths) (hp' : (id', p') ∈ a.database.fieldPaths) :
    id = id' ↔ p = p' := by
  obtain ⟨s, hs, t, ht, f, hf, rfl, rfl⟩ := Database.mem_fieldPaths.mp hp
  obtain ⟨s', hs', t', ht', f', hf', rfl, rfl⟩ := Database.mem_fieldPaths.mp hp'
  constructor
  · intro hid
    obtain ⟨rfl, rfl, rfl⟩ := h.eq_of_field_id hs ht hs' ht' hf hf' hid
    rfl
  · intro heq
    injection heq with hpath hfield
    injection hpath with hschema htable
    obtain rfl := h.eq_of_isNamed hs hs' s.isNamed_name (hschema ▸ s'.isNamed_name)
    obtain rfl := h.eq_of_table_name hs ht ht' htable
    rw [List.inj_on_of_nodup_map (h.nodup_fieldNames hs ht) hf hf' hfield]

end Assembly.Mirrors

end Catalog
