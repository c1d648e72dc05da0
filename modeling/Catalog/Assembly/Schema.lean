import Catalog.Assembly.Enum
import Catalog.Assembly.Table
import Catalog.Assembly.TableGroup
import Catalog.Assembly.Tag

/-!
Inserting schemas, by declaration or on first mention, and the records nested in a declared one.
-/
namespace Catalog.Assembly

/-- Inserts a schema without children unless one with a name or alias in common exists. -/
def pushSchema (info : SchemaInfo) (token : Span) : Construction Schema :=
  insert
    (fun db => do
      let id ← issue .schema
      if db.schemas.any fun s => s.collides info then
        .reject { cause := .duplicateSchema info.name, span := token }
      else pure { toSchemaInfo := info, id, token })
    Database.addSchema

def markDefault : Construction Unit :=
  .modify fun s => { s with database := s.database.markDefault }

/-- The schema with some name or alias, created where there is none. Arriving at the default schema
marks the database, even where the schema cannot be created. -/
def getOrCreateSchema (name : String) : Construction (Id .schema) := do
  let db := (← Attempt.state).database
  match db.findSchema? name with
  | some s =>
    if s.name = db.config.defaultSchemaName then markDefault
    pure s.id
  | none =>
    if name = db.config.defaultSchemaName then
      markDefault
      let s ← pushSchema { name, note := some db.config.defaultSchemaNote } {}
      pure s.id
    else
      let s ← pushSchema { name } {}
      pure s.id

/-- The schema that a record outside of schema declarations belongs to. -/
def route (schemaName : Option String) : Construction (Id .schema) := do
  let db := (← Attempt.state).database
  getOrCreateSchema (schemaName.getD db.config.defaultSchemaName)

/-- Inserts the records nested in a schema declaration. -/
def process (schema : Id .schema) (d : Decl.Schema) : Construction Unit := do
  Attempt.forEach (pushTable schema) d.tables
  Attempt.forEach (pushTag schema) d.tags
  Attempt.forEach (pushEnum schema) d.enums
  Attempt.forEach (pushRef schema) d.refs
  Attempt.forEach (pushTableGroup schema) d.tableGroups

/-- Marks the database if the schema is the default one and holds anything. -/
def markIfDefault (schema : Id .schema) : Construction Unit :=
  .modify fun a =>
    match a.database.schema? schema with
    | some s =>
      if s.name = a.database.config.defaultSchemaName ∧ s.isEmpty = false then
        { a with database := a.database.markDefault }
      else a
    | none => a

def declareSchema (d : Decl.Schema) : Construction Unit := do
  let s ← pushSchema d.toSchemaInfo d.token
  process s.id d
  markIfDefault s.id

end Catalog.Assembly
