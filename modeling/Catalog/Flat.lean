import Catalog.Database.Lookup
import Catalog.Flat.Bucket

/-!
The flat model: every entity as a record of its own, filed under its identifier, with the
identifiers of its children, of the entities it is linked to and of its owner.
-/
namespace Catalog.Flat

structure Database extends DatabaseInfo where
  id : Id .database
  hasDefaultSchema : Bool
  schemaIds : List (Id .schema)
  deriving DecidableEq, Repr

structure Schema extends SchemaInfo where
  id : Id .schema
  tableIds : List (Id .table)
  enumIds : List (Id .enum)
  tableGroupIds : List (Id .tableGroup)
  refIds : List (Id .ref)
  tagIds : List (Id .tag)
  databaseId : Id .database
  deriving DecidableEq, Repr

structure Table extends TableInfo where
  id : Id .table
  fieldIds : List (Id .field)
  indexIds : List (Id .index)
  tagIds : List (Id .tag)
  schemaId : Id .schema
  groupId : Option (Id .tableGroup)
  deriving DecidableEq, Repr

structure Field extends FieldInfo where
  id : Id .field
  endpointIds : List (Id .endpoint)
  tableId : Id .table
  enumId : Option (Id .enum)
  deriving DecidableEq, Repr

structure Index extends IndexInfo where
  id : Id .index
  columnIds : List (Id .indexColumn)
  tableId : Id .table
  deriving DecidableEq, Repr

structure IndexColumn extends IndexColumnInfo where
  id : Id .indexColumn
  indexId : Id .index
  deriving DecidableEq, Repr

structure Enum extends EnumInfo where
  id : Id .enum
  valueIds : List (Id .enumValue)
  fieldIds : List (Id .field)
  schemaId : Id .schema
  deriving DecidableEq, Repr

structure EnumValue extends EnumValueInfo where
  id : Id .enumValue
  enumId : Id .enum
  deriving DecidableEq, Repr

structure Ref extends RefInfo where
  id : Id .ref
  endpointIds : List (Id .endpoint)
  schemaId : Id .schema
  deriving DecidableEq, Repr

structure Endpoint extends EndpointInfo where
  id : Id .endpoint
  refId : Id .ref
  tableId : Id .table
  fieldIds : List (Id .field)
  deriving DecidableEq, Repr

structure TableGroup extends TableGroupInfo where
  id : Id .tableGroup
  tableIds : List (Id .table)
  schemaId : Id .schema
  deriving DecidableEq, Repr

structure Tag extends TagInfo where
  id : Id .tag
  tableIds : List (Id .table)
  schemaId : Id .schema
  deriving DecidableEq, Repr

structure Model where
  database : Bucket .database Database := {}
  schemas : Bucket .schema Schema := {}
  refs : Bucket .ref Ref := {}
  enums : Bucket .enum Enum := {}
  tableGroups : Bucket .tableGroup TableGroup := {}
  tags : Bucket .tag Tag := {}
  tables : Bucket .table Table := {}
  endpoints : Bucket .endpoint Endpoint := {}
  enumValues : Bucket .enumValue EnumValue := {}
  indexes : Bucket .index Index := {}
  indexColumns : Bucket .indexColumn IndexColumn := {}
  fields : Bucket .field Field := {}
  deriving DecidableEq, Repr

def Model.recordCount (m : Model) : Nat :=
  m.database.size + m.schemas.size + m.refs.size + m.enums.size + m.tableGroups.size + m.tags.size
    + m.tables.size + m.endpoints.size + m.enumValues.size + m.indexes.size + m.indexColumns.size
    + m.fields.size

end Catalog.Flat

namespace Catalog

/-! The record of an entity, given its owner. -/

def Database.flat (db : Database) : Flat.Database where
  toDatabaseInfo := db.toDatabaseInfo
  id := db.id
  hasDefaultSchema := db.hasDefaultSchema
  schemaIds := db.schemas.map (·.id)

def Schema.flat (owner : Id .database) (s : Schema) : Flat.Schema where
  toSchemaInfo := s.toSchemaInfo
  id := s.id
  tableIds := s.tables.map (·.id)
  enumIds := s.enums.map (·.id)
  tableGroupIds := s.tableGroups.map (·.id)
  refIds := s.refs.map (·.id)
  tagIds := s.tags.map (·.id)
  databaseId := owner

def Table.flat (owner : Id .schema) (t : Table) : Flat.Table where
  toTableInfo := t.toTableInfo
  id := t.id
  fieldIds := t.fields.map (·.id)
  indexIds := t.indexes.map (·.id)
  tagIds := t.tags
  schemaId := owner
  groupId := t.group

def Field.flat (owner : Id .table) (f : Field) : Flat.Field where
  toFieldInfo := f.toFieldInfo
  id := f.id
  endpointIds := f.endpoints
  tableId := owner
  enumId := f.enumId

def Index.flat (owner : Id .table) (i : Index) : Flat.Index where
  toIndexInfo := i.toIndexInfo
  id := i.id
  columnIds := i.columns.map (·.id)
  tableId := owner

def IndexColumn.flat (owner : Id .index) (c : IndexColumn) : Flat.IndexColumn where
  toIndexColumnInfo := c.toIndexColumnInfo
  id := c.id
  indexId := owner

def Enum.flat (owner : Id .schema) (e : Enum) : Flat.Enum where
  toEnumInfo := e.toEnumInfo
  id := e.id
  valueIds := e.values.map (·.id)
  fieldIds := e.fields
  schemaId := owner

def EnumValue.flat (owner : Id .enum) (v : EnumValue) : Flat.EnumValue where
  toEnumValueInfo := v.toEnumValueInfo
  id := v.id
  enumId := owner

def Ref.flat (owner : Id .schema) (r : Ref) : Flat.Ref where
  toRefInfo := r.toRefInfo
  id := r.id
  endpointIds := r.endpoints.map (·.id)
  schemaId := owner

def Endpoint.flat (owner : Id .ref) (e : Endpoint) : Flat.Endpoint where
  toEndpointInfo := e.toEndpointInfo
  id := e.id
  refId := owner
  tableId := e.table
  fieldIds := e.fields

def TableGroup.flat (owner : Id .schema) (g : TableGroup) : Flat.TableGroup where
  toTableGroupInfo := g.toTableGroupInfo
  id := g.id
  tableIds := g.tables
  schemaId := owner

def Tag.flat (owner : Id .schema) (t : Tag) : Flat.Tag where
  toTagInfo := t.toTagInfo
  id := t.id
  tableIds := t.tables
  schemaId := owner

/-- The flat model of a database. -/
def Database.normalize (db : Database) : Flat.Model where
  database := .ofList [(db.id, db.flat)]
  schemas := .ofList (db.schemas.map fun s => (s.id, s.flat db.id))
  refs := .ofList (db.schemas.flatMap fun s => s.refs.map fun r => (r.id, r.flat s.id))
  enums := .ofList (db.schemas.flatMap fun s => s.enums.map fun e => (e.id, e.flat s.id))
  tableGroups := .ofList (db.schemas.flatMap fun s => s.tableGroups.map fun g => (g.id, g.flat s.id))
  tags := .ofList (db.schemas.flatMap fun s => s.tags.map fun t => (t.id, t.flat s.id))
  tables := .ofList (db.schemas.flatMap fun s => s.tables.map fun t => (t.id, t.flat s.id))
  endpoints := .ofList (db.refs.flatMap fun r => r.endpoints.map fun e => (e.id, e.flat r.id))
  enumValues := .ofList (db.enums.flatMap fun e => e.values.map fun v => (v.id, v.flat e.id))
  indexes := .ofList (db.tables.flatMap fun t => t.indexes.map fun i => (i.id, i.flat t.id))
  indexColumns := .ofList (db.indexes.flatMap fun i => i.columns.map fun c => (c.id, c.flat i.id))
  fields := .ofList (db.tables.flatMap fun t => t.fields.map fun f => (f.id, f.flat t.id))

end Catalog
