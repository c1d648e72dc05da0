import Catalog.Database.Lookup

/-!
The export tree: what was declared, schema by schema, without identifiers and tokens.
-/
namespace Catalog.Export

structure Index extends IndexInfo where
  columns : List IndexColumnInfo
  deriving DecidableEq, Repr

structure Table extends TableInfo where
  fields : List FieldInfo
  indexes : List Index
  /-- The names of the tags of the table. -/
  tags : List String
  deriving DecidableEq, Repr

structure Enum extends EnumInfo where
  values : List EnumValueInfo
  deriving DecidableEq, Repr

structure Ref extends RefInfo where
  endpoints : List EndpointInfo
  deriving DecidableEq, Repr

/-- A table of a group, with the schema that it is in. -/
structure Member where
  tableName : String
  schemaName : String
  deriving DecidableEq, Repr

structure TableGroup extends TableGroupInfo where
  tables : List Member
  deriving DecidableEq, Repr

structure Schema extends SchemaInfo where
  tables : List Table
  enums : List Enum
  tableGroups : List TableGroup
  refs : List Ref
  tags : List TagInfo
  deriving DecidableEq, Repr

/-- What a database says about itself. -/
structure Header extends DatabaseInfo where
  hasDefaultSchema : Bool
  deriving DecidableEq, Repr

structure Tree extends Header where
  schemas : List Schema
  deriving DecidableEq, Repr

end Catalog.Export

namespace Catalog

def Index.toExport (i : Index) : Export.Index where
  toIndexInfo := i.toIndexInfo
  columns := i.columns.map (·.toIndexColumnInfo)

def Enum.toExport (e : Enum) : Export.Enum where
  toEnumInfo := e.toEnumInfo
  values := e.values.map (·.toEnumValueInfo)

def Ref.toExport (r : Ref) : Export.Ref where
  toRefInfo := r.toRefInfo
  endpoints := r.endpoints.map (·.toEndpointInfo)

namespace Database

/-- A table as a member of a group. -/
def member? (db : Database) (id : Id .table) : Option Export.Member := do
  let s ← db.schemaOfTable? id
  let t ← db.table? id
  pure { tableName := t.name, schemaName := s.name }

def toExportTable (db : Database) (t : Table) : Export.Table where
  toTableInfo := t.toTableInfo
  fields := t.fields.map (·.toFieldInfo)
  indexes := t.indexes.map (·.toExport)
  tags := t.tags.filterMap fun id => (db.tag? id).map (·.name)

def toExportTableGroup (db : Database) (g : TableGroup) : Export.TableGroup where
  toTableGroupInfo := g.toTableGroupInfo
  tables := g.tables.filterMap db.member?

def toExportSchema (db : Database) (s : Schema) : Export.Schema where
  toSchemaInfo := s.toSchemaInfo
  tables := s.tables.map db.toExportTable
  enums := s.enums.map (·.toExport)
  tableGroups := s.tableGroups.map db.toExportTableGroup
  refs := s.refs.map (·.toExport)
  tags := s.tags.map (·.toTagInfo)

def header (db : Database) : Export.Header where
  toDatabaseInfo := db.toDatabaseInfo
  hasDefaultSchema := db.hasDefaultSchema

def toExport (db : Database) : Export.Tree where
  toHeader := db.header
  schemas := db.schemas.map db.toExportSchema

end Database

end Catalog
