import Catalog.Database
import Catalog.Rejection

/-!
Finding entities by name and by identifier. Schemas and tables answer to their name and their
alias, and the first match counts.
-/
namespace Catalog

namespace Table

def findField? (t : Table) (name : String) : Option Field :=
  t.fields.find? (·.name = name)

end Table

namespace Schema

def findTable? (s : Schema) (name : String) : Option Table :=
  s.tables.find? (·.isNamed name)

def findEnum? (s : Schema) (name : String) : Option Enum :=
  s.enums.find? (·.name = name)

def findTag? (s : Schema) (name : String) : Option Tag :=
  s.tags.find? (·.name = name)

/-- The names that a schema has given to its children of some sort. -/
def names (s : Schema) : ChildSort → List String
  | .table => s.tables.map (·.name)
  | .enum => s.enums.map (·.name)
  | .tag => s.tags.map (·.name)
  | .tableGroup => s.tableGroups.map (·.name)

end Schema

namespace Database

def schema? (db : Database) (id : Id .schema) : Option Schema :=
  db.schemas.find? (·.id = id)

def table? (db : Database) (id : Id .table) : Option Table :=
  db.tables.find? (·.id = id)

def field? (db : Database) (id : Id .field) : Option Field :=
  db.fields.find? (·.id = id)

def ref? (db : Database) (id : Id .ref) : Option Ref :=
  db.refs.find? (·.id = id)

def endpoint? (db : Database) (id : Id .endpoint) : Option Endpoint :=
  db.endpoints.find? (·.id = id)

def tag? (db : Database) (id : Id .tag) : Option Tag :=
  db.tags.find? (·.id = id)

def tableGroup? (db : Database) (id : Id .tableGroup) : Option TableGroup :=
  db.tableGroups.find? (·.id = id)

/-- The schema that holds a table. -/
def schemaOfTable? (db : Database) (id : Id .table) : Option Schema :=
  db.schemas.find? fun s => s.tables.any (·.id = id)

/-- The schema that holds an enum. -/
def schemaOfEnum? (db : Database) (id : Id .enum) : Option Schema :=
  db.schemas.find? fun s => s.enums.any (·.id = id)

def enum? (db : Database) (id : Id .enum) : Option Enum :=
  db.enums.find? (·.id = id)

def findSchema? (db : Database) (name : String) : Option Schema :=
  db.schemas.find? (·.isNamed name)

/-- A table of the named schema, or of the default schema where none is named, together with its
schema. An unknown schema is a violation, an unknown table is not. -/
def locate (db : Database) (schema : Option String) (table : String) :
    Except Rejection (Option (Schema × Table)) :=
  let name := schema.getD db.config.defaultSchemaName
  match db.findSchema? name with
  | none => .error { cause := .schemaNotFound name }
  | some s => .ok ((s.findTable? table).map fun t => (s, t))

def findTable (db : Database) (schema : Option String) (table : String) :
    Except Rejection (Option Table) :=
  (db.locate schema table).map (·.map (·.2))

/-- A table as diagnostics show it, under the name of its schema. -/
def qualifiedTableName? (db : Database) (id : Id .table) : Option String := do
  let s ← db.schemaOfTable? id
  let t ← s.tables.find? (·.id = id)
  pure (qualifiedName (some s.name) t.name)

/-- The schema name that diagnostics put before the name of a child. The default schema goes
without until a record has been placed in it. -/
def shownSchema (db : Database) (s : Schema) : Option String :=
  if s.name ≠ db.config.defaultSchemaName ∨ db.hasDefaultSchema then some s.name else none

end Database

/-- Whether two lists of fields hold the same fields. -/
def sameFields (a b : List (Id .field)) : Bool :=
  a.all (· ∈ b) && b.all (· ∈ a)

theorem sameFields_iff {a b : List (Id .field)} : sameFields a b = true ↔ ∀ f, f ∈ a ↔ f ∈ b := by
  simp only [sameFields, Bool.and_eq_true, List.all_eq_true, decide_eq_true_eq]
  exact ⟨fun h f => ⟨h.1 f, h.2 f⟩, fun h => ⟨fun f => (h f).1, fun f => (h f).2⟩⟩

def Endpoint.covers (e : Endpoint) (f : Id .field) : Bool :=
  f ∈ e.fields

def Endpoint.sameFields (e e' : Endpoint) : Bool :=
  Catalog.sameFields e.fields e'.fields

/-- Whether every endpoint of `s` covers the same fields as some endpoint of `r`. -/
def Ref.connectsSame (r s : Ref) : Bool :=
  s.endpoints.all fun e => r.endpoints.any (·.sameFields e)

end Catalog
