import Catalog.Proofs.Store.Drafting

/-!
How the records of a database change with it: changing entities in place changes their records and
no others, and inserting an entity adds its records and lists it in its schema.
-/
namespace Catalog

/-- The records that an entity brings to a schema. -/
def Entity.rows (schema : Id .schema) : Entity → Rows
  | table t, .table => [t.stored schema]
  | table t, .field => t.fields.map (·.stored t.id)
  | table t, .index => t.indexes.map (·.stored t.id)
  | table t, .indexColumn => t.indexes.flatMap fun x => x.columns.map (·.stored x.id)
  | tag t, .tag => [t.stored schema]
  | enum e, .enum => [e.stored schema]
  | enum e, .enumValue => e.values.map (·.stored e.id)
  | ref r, .ref => [r.stored schema]
  | ref r, .endpoint => r.endpoints.map (·.stored r.id)
  | tableGroup g, .tableGroup => [g.stored schema]
  | _, _ => []

theorem Schema.rows_insert (s : Schema) (e : Entity) (k : Kind) :
    (s.insert e).rows k = s.rows k ++ e.rows s.id k := by
  cases e <;> cases k <;> simp [insert, rows, Entity.rows]

/-- The record of a schema that lists one more entity. -/
def Stored.Schema.list (s : Stored.Schema) : Entity → Stored.Schema
  | .table t => { s with tables := s.tables ++ [t.id] }
  | .tag t => { s with tags := s.tags ++ [t.id] }
  | .enum e => { s with enums := s.enums ++ [e.id] }
  | .ref r => { s with refs := s.refs ++ [r.id] }
  | .tableGroup g => { s with tableGroups := s.tableGroups ++ [g.id] }

theorem Schema.stored_insert (db : Id .database) (s : Schema) (e : Entity) :
    (s.insert e).stored db = (s.stored db).list e := by
  cases e <;> simp [insert, stored, Stored.Schema.list]

theorem Stored.Schema.key_list (s : Stored.Schema) (e : Entity) :
    Stored.key (k := .schema) (s.list e) = s.id := by
  cases e <;> rfl

namespace Database

variable (db : Database)

theorem rows_mapFields {f : Field → Field} {g : Stored.Field → Stored.Field}
    (hg : ∀ t x, (f x).stored t = g (x.stored t)) (hid : ∀ x, (f x).id = x.id) :
    (db.mapFields f).rows = Function.update db.rows .field ((db.rows .field).map g) := by
  funext k
  cases k <;> simp [rows, Schema.rows, mapFields, mapTables, Function.update, List.flatMap_map,
    List.map_flatMap, Function.comp_def, Schema.stored, Table.stored, hg,
    hid]

theorem rows_mapTables {f : Table → Table} {g : Stored.Table → Stored.Table}
    (hg : ∀ s t, (f t).stored s = g (t.stored s)) (hid : ∀ t, (f t).id = t.id)
    (hfields : ∀ t, (f t).fields = t.fields) (hindexes : ∀ t, (f t).indexes = t.indexes) :
    (db.mapTables f).rows = Function.update db.rows .table ((db.rows .table).map g) := by
  funext k
  cases k <;> simp [rows, Schema.rows, mapTables, Function.update, List.flatMap_map,
    List.map_flatMap, Function.comp_def, Schema.stored, hg, hid, hfields, hindexes]

theorem rows_mapEnums {f : Enum → Enum} {g : Stored.Enum → Stored.Enum}
    (hg : ∀ s e, (f e).stored s = g (e.stored s)) (hid : ∀ e, (f e).id = e.id)
    (hvalues : ∀ e, (f e).values = e.values) :
    (db.mapEnums f).rows = Function.update db.rows .enum ((db.rows .enum).map g) := by
  funext k
  cases k <;> simp [rows, Schema.rows, mapEnums, Function.update, List.flatMap_map,
    List.map_flatMap, Function.comp_def, Schema.stored, hg, hid, hvalues]

theorem flatMap_tables_rows :
    (db.rows .schema).flatMap (·.tables) = (db.rows .table).map Stored.key := by
  simp [rows, Schema.rows, Schema.stored, Table.stored, Stored.key, List.flatMap_map,
    List.map_flatMap, Function.comp_def]

theorem flatMap_fields_rows :
    (db.rows .table).flatMap (·.fields) = (db.rows .field).map Stored.key := by
  simp [rows, Schema.rows, Table.stored, Field.stored, Stored.key, List.flatMap_map,
    List.map_flatMap, List.flatMap_assoc, Function.comp_def]

variable {db} {id : Id .schema}

theorem rows_relink_schema {f : Table → Table} (hf : ∀ t, (f t).Agrees t) :
    (db.relink f fun e => e).rows .schema = db.rows .schema := by
  simp [rows, relink, Schema.stored, Function.comp_def, (hf _).id]

theorem arena_eq_of_numbers {db' : Database} {k : Kind} (h : db.numbers k = db'.numbers k) :
    db.arena k = db'.arena k := by
  rw [numbers_eq_arena, numbers_eq_arena] at h
  exact List.map_injective_iff.mpr (fun _ _ => Id.toNat_inj) h

/-- An entity that is inserted adds its records to those of the database. -/
theorem rows_updateSchema (hn : (db.arena .schema).Nodup) (hid : ∃ s ∈ db.schemas, s.id = id)
    (e : Entity) {k : Kind} (hk : k ≠ .schema) :
    ((db.updateSchema id (·.insert e)).rows k).Perm (db.rows k ++ e.rows id k) := by
  obtain ⟨s, hs, hsid⟩ := hid
  have hapart : db.schemas.Pairwise fun u v => ¬ (u.id = id ∧ v.id = id) := by
    apply (List.pairwise_map.mp hn).imp
    rintro u v hne ⟨rfl, hv⟩
    exact hne hv.symm
  have hinsert : ((s.insert e).rows k).Perm (s.rows k ++ e.rows id k) := by
    rw [← hsid, s.rows_insert]
  have hperm : ((db.updateSchema id (·.insert e)).schemas.flatMap (·.rows k)).Perm _ :=
    perm_flatMap_map hs hsid hapart hinsert
  cases k <;> first
    | exact absurd rfl hk
    | exact hperm

theorem rows_updateSchema_schema (id : Id .schema) (e : Entity) :
    (db.updateSchema id (·.insert e)).rows .schema = (db.rows.alter id (·.list e)) .schema := by
  simp only [rows, Rows.alter, Function.update_self, updateSchema, List.map_map]
  apply List.map_congr_left
  intro s _
  rw [Function.comp_apply, Function.comp_apply]
  by_cases hs : s.id = id
  · rw [if_pos hs, if_pos (show Stored.key (k := .schema) (s.stored db.id) = id from hs),
      Schema.stored_insert]
  · rw [if_neg hs, if_neg (show ¬ Stored.key (k := .schema) (s.stored db.id) = id from hs)]

/-- Filing the records of an entity in any order and listing it in its schema comes to the store of
the database with the entity. -/
theorem arena_updateSchema (hn : ∀ k, (db.arena k).Nodup) (hid : ∃ s ∈ db.schemas, s.id = id)
    {e : Entity} (hn' : ∀ k, ((db.updateSchema id (·.insert e)).arena k).Nodup) {ρ : Rows}
    (hschema : ρ .schema = (db.rows.alter id (·.list e)) .schema)
    (hrows : ∀ k ≠ .schema, ρ k = db.rows k ++ e.rows id k) :
    ρ.arena = (db.updateSchema id (·.insert e)).rows.arena := by
  funext k
  symm
  apply Rows.arena_eq_of_perm (told_rows hn' k)
  by_cases hk : k = .schema
  · subst hk
    rw [hschema, rows_updateSchema_schema]
  · rw [hrows k hk]
    exact rows_updateSchema (hn .schema) hid e hk

end Database

theorem Database.schemaIds_of_heads {db db' : Database}
    (h : db'.schemas.map (·.head) = db.schemas.map (·.head)) :
    db'.schemas.map (·.id) = db.schemas.map (·.id) := by
  have hsnd := congrArg (List.map (·.2)) h
  rw [List.map_map, List.map_map] at hsnd
  exact hsnd

/-- The store of a database that has been changed in its schemas alone, from records that make up
the same arenas. -/
theorem Assembly.layout_eq (a : Assembly) (db : Database) {ρ : Rows}
    (harena : db.rows.arena = ρ.arena)
    (hdb : { db with schemas := a.database.schemas } = a.database)
    (hids : db.schemas.map (·.id) = a.database.schemas.map (·.id)) :
    layout ⟨db, a.ids⟩ = a.layout.withRows ρ := by
  obtain ⟨⟨info, id, config, marked, schemas⟩, ids⟩ := a
  obtain ⟨info', id', config', marked', schemas'⟩ := db
  cases hdb
  simp only [layout, Store.withRows, hids, harena]

end Catalog
