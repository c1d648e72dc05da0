import Catalog.Info
import Catalog.Source.Span

/-!
Declarations: the records that a model is built from, as a parser hands them over. Nothing in them
is checked or linked. Each carries the token that it was declared at.
-/
namespace Catalog.Decl

structure Field extends FieldInfo where
  token : Span := {}
  deriving DecidableEq, Repr

structure IndexColumn extends IndexColumnInfo where
  token : Span := {}
  deriving DecidableEq, Repr

structure Index extends IndexInfo where
  columns : List IndexColumn := []
  token : Span := {}
  deriving DecidableEq, Repr

/-- A tag named by a table. -/
structure Mention where
  name : String
  token : Span := {}
  deriving DecidableEq, Repr

structure Table extends TableInfo where
  schemaName : Option String := none
  fields : List Field := []
  indexes : List Index := []
  tags : List Mention := []
  token : Span := {}
  deriving DecidableEq, Repr

structure EnumValue extends EnumValueInfo where
  token : Span := {}
  deriving DecidableEq, Repr

structure Enum extends EnumInfo where
  schemaName : Option String := none
  values : List EnumValue := []
  token : Span := {}
  deriving DecidableEq, Repr

structure Endpoint extends EndpointInfo where
  token : Span := {}
  deriving DecidableEq, Repr

structure Ref extends RefInfo where
  schemaName : Option String := none
  endpoints : List Endpoint := []
  token : Span := {}
  deriving DecidableEq, Repr

/-- A table named by a group. -/
structure Member where
  name : String
  schemaName : Option String := none
  token : Span := {}
  deriving DecidableEq, Repr

structure TableGroup extends TableGroupInfo where
  schemaName : Option String := none
  tables : List Member := []
  token : Span := {}
  deriving DecidableEq, Repr

structure Tag extends TagInfo where
  schemaName : Option String := none
  token : Span := {}
  deriving DecidableEq, Repr

/-- A schema declared by itself, with the records nested in it. -/
structure Schema extends SchemaInfo where
  tables : List Table := []
  refs : List Ref := []
  enums : List Enum := []
  tags : List Tag := []
  tableGroups : List TableGroup := []
  token : Span := {}
  deriving DecidableEq, Repr

/-- All declarations of one source. -/
structure Bundle where
  schemas : List Schema := []
  tables : List Table := []
  enums : List Enum := []
  refs : List Ref := []
  tableGroups : List TableGroup := []
  tags : List Tag := []
  project : DatabaseInfo := {}
  deriving DecidableEq, Repr

/-! Declarations put together step by step: a later setter replaces an earlier one, adders append. -/

namespace Bundle

def addSchema (b : Bundle) (s : Schema) : Bundle :=
  { b with schemas := b.schemas ++ [s] }

def addTable (b : Bundle) (t : Table) : Bundle :=
  { b with tables := b.tables ++ [t] }

def addEnum (b : Bundle) (e : Enum) : Bundle :=
  { b with enums := b.enums ++ [e] }

def addRef (b : Bundle) (r : Ref) : Bundle :=
  { b with refs := b.refs ++ [r] }

def addTableGroup (b : Bundle) (g : TableGroup) : Bundle :=
  { b with tableGroups := b.tableGroups ++ [g] }

def addTag (b : Bundle) (t : Tag) : Bundle :=
  { b with tags := b.tags ++ [t] }

def withProjectName (b : Bundle) (name : String) : Bundle :=
  { b with project := { b.project with name := some name } }

end Bundle

namespace Schema

def named (name : String) : Schema :=
  { name }

def withAlias (s : Schema) (aliasName : String) : Schema :=
  { s with aliasName := some aliasName }

def addTable (s : Schema) (t : Table) : Schema :=
  { s with tables := s.tables ++ [t] }

def addEnum (s : Schema) (e : Enum) : Schema :=
  { s with enums := s.enums ++ [e] }

end Schema

namespace Table

def named (name : String) : Table :=
  { name }

def inSchema (t : Table) (schema : String) : Table :=
  { t with schemaName := some schema }

def withAlias (t : Table) (aliasName : String) : Table :=
  { t with aliasName := some aliasName }

def addField (t : Table) (f : Field) : Table :=
  { t with fields := t.fields ++ [f] }

def mention (t : Table) (tag : String) : Table :=
  { t with tags := t.tags ++ [{ name := tag }] }

def declaredAt (t : Table) (token : Span) : Table :=
  { t with token }

end Table

namespace Field

def ofType (name typeName : String) : Field :=
  { name, type := { typeName } }

def withTypeSchema (f : Field) (schema : String) : Field :=
  { f with type := { f.type with schemaName := some schema } }

def primaryKey (f : Field) : Field :=
  { f with pk := true }

end Field

namespace Enum

def ofValues (name : String) (values : List String) : Enum :=
  { name, values := values.map fun v => { name := v } }

def inSchema (e : Enum) (schema : String) : Enum :=
  { e with schemaName := some schema }

end Enum

namespace Endpoint

def covering (tableName : String) (fieldNames : List String) (relation : Relation) : Endpoint :=
  { tableName, fieldNames, relation }

def inSchema (e : Endpoint) (schema : String) : Endpoint :=
  { e with schemaName := some schema }

end Endpoint

namespace Ref

def between (source target : Endpoint) : Ref :=
  { endpoints := [source, target] }

def inSchema (r : Ref) (schema : String) : Ref :=
  { r with schemaName := some schema }

end Ref

namespace TableGroup

def ofTables (name : String) (tables : List String) : TableGroup :=
  { name, tables := tables.map fun t => { name := t } }

def inSchema (g : TableGroup) (schema : String) : TableGroup :=
  { g with schemaName := some schema }

end TableGroup

namespace Tag

def named (name : String) : Tag :=
  { name }

def inSchema (t : Tag) (schema : String) : Tag :=
  { t with schemaName := some schema }

end Tag

end Catalog.Decl
