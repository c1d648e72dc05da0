import Catalog.Database.Lookup

/-!
Changing entities in place, and linking enums to fields. None of these changes adds or removes an
entity, apart from what `updateSchema` is told to do.
-/
namespace Catalog

/-- Appends an element unless it is there already. -/
def pushNew {α : Type} [DecidableEq α] (xs : List α) (x : α) : List α :=
  if x ∈ xs then xs else xs ++ [x]

theorem mem_pushNew {α : Type} [DecidableEq α] {xs : List α} {x y : α} :
    y ∈ pushNew xs x ↔ y ∈ xs ∨ y = x := by
  simp only [pushNew]
  split <;> simp_all

theorem nodup_pushNew {α : Type} [DecidableEq α] {xs : List α} (h : xs.Nodup) (x : α) :
    (pushNew xs x).Nodup := by
  simp only [pushNew]
  split
  · exact h
  · rename_i hx
    rw [List.nodup_append]
    exact ⟨h, by simp, fun a ha b hb => by rintro rfl; simp_all⟩

namespace Database

def updateSchema (db : Database) (id : Id .schema) (f : Schema → Schema) : Database :=
  { db with schemas := db.schemas.map fun s => if s.id = id then f s else s }

def addSchema (db : Database) (s : Schema) : Database :=
  { db with schemas := db.schemas ++ [s] }

def mapTables (db : Database) (f : Table → Table) : Database :=
  { db with schemas := db.schemas.map fun s => { s with tables := s.tables.map f } }

def mapFields (db : Database) (f : Field → Field) : Database :=
  db.mapTables fun t => { t with fields := t.fields.map f }

def mapEnums (db : Database) (f : Enum → Enum) : Database :=
  { db with schemas := db.schemas.map fun s => { s with enums := s.enums.map f } }

/-- Marks that a record has been placed in the default schema. -/
def markDefault (db : Database) : Database :=
  { db with hasDefaultSchema := true }

end Database

/-- Whether a field is declared with an enum of a schema as its type. -/
def FieldInfo.isOfEnum (f : FieldInfo) (defaultSchema schema enum : String) : Bool :=
  f.type.typeName = enum && f.type.schemaNameOr defaultSchema = schema

namespace Database

/-- Whether an enum is the declared type of a field. -/
def matchesEnum (db : Database) (id : Id .enum) (f : Field) : Bool :=
  match db.schemaOfEnum? id, db.enum? id with
  | some s, some e => f.isOfEnum db.config.defaultSchemaName s.name e.name
  | _, _ => false

/-- The fields, in any schema, that an enum is the declared type of. -/
def matchingFields (db : Database) (id : Id .enum) : List Field :=
  db.fields.filter (db.matchesEnum id)

/-- Links an enum and all fields that it is the declared type of, as far as they exist. -/
def bindEnum (db : Database) (id : Id .enum) : Database :=
  let ids := (db.matchingFields id).map (·.id)
  (db.mapFields fun f => if db.matchesEnum id f then { f with enumId := some id } else f).mapEnums
    fun e => if e.id = id then { e with fields := ids.foldl pushNew e.fields } else e

/-- Links all enums in turn. -/
def bindEnums (db : Database) : Database :=
  db.enums.foldl (fun db e => db.bindEnum e.id) db

end Database

end Catalog
