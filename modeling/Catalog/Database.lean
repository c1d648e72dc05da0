import Catalog.Config
import Catalog.Declaration
import Catalog.Identifier

/-!
A database: a tree of schemas, each holding its entities. What an entity owns is part of it, so
ownership needs no upkeep; links across the tree are identifiers.
-/
namespace Catalog

structure Field extends FieldInfo where
  id : Id .field
  token : Span
  /-- The enum behind the type, once the two are linked. -/
  enumId : Option (Id .enum) := none
  /-- The endpoints that include this field. -/
  endpoints : List (Id .endpoint) := []
  deriving DecidableEq, Repr

structure IndexColumn extends IndexColumnInfo where
  id : Id .indexColumn
  token : Span
  deriving DecidableEq, Repr

structure Index extends IndexInfo where
  id : Id .index
  token : Span
  columns : List IndexColumn
  deriving DecidableEq, Repr

structure Table extends TableInfo where
  id : Id .table
  token : Span
  fields : List Field
  indexes : List Index
  /-- The tags named where the table was declared. -/
  mentions : List Decl.Mention
  tags : List (Id .tag) := []
  group : Option (Id .tableGroup) := none
  deriving DecidableEq, Repr

structure EnumValue extends EnumValueInfo where
  id : Id .enumValue
  token : Span
  deriving DecidableEq, Repr

structure Enum extends EnumInfo where
  id : Id .enum
  token : Span
  values : List EnumValue
  /-- The fields whose type is this enum. -/
  fields : List (Id .field) := []
  deriving DecidableEq, Repr

/-- One side of a ref, with the table and the fields that it was resolved to. -/
structure Endpoint extends EndpointInfo where
  id : Id .endpoint
  token : Span
  table : Id .table
  fields : List (Id .field)
  deriving DecidableEq, Repr

structure Ref extends RefInfo where
  id : Id .ref
  token : Span
  first : Endpoint
  second : Endpoint
  deriving DecidableEq, Repr

def Ref.endpoints (r : Ref) : List Endpoint :=
  [r.first, r.second]

structure TableGroup extends TableGroupInfo where
  id : Id .tableGroup
  token : Span
  tables : List (Id .table)
  deriving DecidableEq, Repr

structure Tag extends TagInfo where
  id : Id .tag
  token : Span
  tables : List (Id .table) := []
  deriving DecidableEq, Repr

structure Schema extends SchemaInfo where
  id : Id .schema
  token : Span
  tables : List Table := []
  enums : List Enum := []
  refs : List Ref := []
  tags : List Tag := []
  tableGroups : List TableGroup := []
  deriving DecidableEq, Repr

structure Database extends DatabaseInfo where
  id : Id .database
  config : Config
  /-- Whether a record has been placed in the default schema. -/
  hasDefaultSchema : Bool := false
  schemas : List Schema := []
  deriving DecidableEq, Repr

namespace Schema

def isEmpty (s : Schema) : Bool :=
  s.tables.isEmpty && s.enums.isEmpty && s.refs.isEmpty && s.tags.isEmpty && s.tableGroups.isEmpty

def fields (s : Schema) : List Field :=
  s.tables.flatMap (·.fields)

end Schema

/-! All entities of one kind, in the order of the tree. -/

namespace Database

def tables (db : Database) : List Table :=
  db.schemas.flatMap (·.tables)

def enums (db : Database) : List Enum :=
  db.schemas.flatMap (·.enums)

def refs (db : Database) : List Ref :=
  db.schemas.flatMap (·.refs)

def tags (db : Database) : List Tag :=
  db.schemas.flatMap (·.tags)

def tableGroups (db : Database) : List TableGroup :=
  db.schemas.flatMap (·.tableGroups)

def fields (db : Database) : List Field :=
  db.tables.flatMap (·.fields)

def indexes (db : Database) : List Index :=
  db.tables.flatMap (·.indexes)

def indexColumns (db : Database) : List IndexColumn :=
  db.indexes.flatMap (·.columns)

def enumValues (db : Database) : List EnumValue :=
  db.enums.flatMap (·.values)

def endpoints (db : Database) : List Endpoint :=
  db.refs.flatMap (·.endpoints)

end Database

end Catalog
