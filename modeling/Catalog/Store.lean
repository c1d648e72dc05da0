import Catalog.Attempt
import Catalog.Config
import Catalog.Declaration
import Catalog.Flat.Bucket
import Mathlib.Logic.Function.Basic

/-!
A store: every entity of a database as a record of its own, in the arena of its kind. A record names
its children, its owner and what it is linked to by their identifiers alone, so ownership is kept up
by whoever writes the records. Following an identifier under which nothing is stored ends all work.
-/
namespace Catalog

namespace Stored

structure Schema extends SchemaInfo where
  id : Id .schema
  token : Span
  database : Id .database
  tables : List (Id .table) := []
  enums : List (Id .enum) := []
  refs : List (Id .ref) := []
  tags : List (Id .tag) := []
  tableGroups : List (Id .tableGroup) := []
  deriving DecidableEq, Repr

structure Table extends TableInfo where
  id : Id .table
  token : Span
  schema : Id .schema
  fields : List (Id .field)
  indexes : List (Id .index)
  /-- The tags named where the table was declared. -/
  mentions : List Decl.Mention
  tags : List (Id .tag) := []
  group : Option (Id .tableGroup) := none
  deriving DecidableEq, Repr

structure Field extends FieldInfo where
  id : Id .field
  token : Span
  table : Id .table
  /-- The enum behind the type, once the two are linked. -/
  enumId : Option (Id .enum) := none
  /-- The endpoints that include this field. -/
  endpoints : List (Id .endpoint) := []
  deriving DecidableEq, Repr

structure Index extends IndexInfo where
  id : Id .index
  token : Span
  table : Id .table
  columns : List (Id .indexColumn)
  deriving DecidableEq, Repr

structure IndexColumn extends IndexColumnInfo where
  id : Id .indexColumn
  token : Span
  index : Id .index
  deriving DecidableEq, Repr

structure Enum extends EnumInfo where
  id : Id .enum
  token : Span
  schema : Id .schema
  values : List (Id .enumValue)
  /-- The fields whose type is this enum. -/
  fields : List (Id .field) := []
  deriving DecidableEq, Repr

structure EnumValue extends EnumValueInfo where
  id : Id .enumValue
  token : Span
  enumId : Id .enum
  deriving DecidableEq, Repr

structure Ref extends RefInfo where
  id : Id .ref
  token : Span
  schema : Id .schema
  endpoints : List (Id .endpoint)
  deriving DecidableEq, Repr

/-- One side of a ref, with the table and the fields that it was resolved to. -/
structure Endpoint extends EndpointInfo where
  id : Id .endpoint
  token : Span
  ref : Id .ref
  table : Id .table
  fields : List (Id .field)
  deriving DecidableEq, Repr

structure TableGroup extends TableGroupInfo where
  id : Id .tableGroup
  token : Span
  schema : Id .schema
  tables : List (Id .table)
  deriving DecidableEq, Repr

structure Tag extends TagInfo where
  id : Id .tag
  token : Span
  schema : Id .schema
  tables : List (Id .table) := []
  deriving DecidableEq, Repr

end Stored

/-- What is stored of an entity of some kind. The database has no arena. -/
@[reducible] def Stored : Kind → Type
  | .database => Empty
  | .schema => Stored.Schema
  | .table => Stored.Table
  | .field => Stored.Field
  | .index => Stored.Index
  | .indexColumn => Stored.IndexColumn
  | .enum => Stored.Enum
  | .enumValue => Stored.EnumValue
  | .ref => Stored.Ref
  | .endpoint => Stored.Endpoint
  | .tableGroup => Stored.TableGroup
  | .tag => Stored.Tag

namespace Stored

/-- The identifier of a record. -/
def key : {k : Kind} → Stored k → Id k
  | .database, r => nomatch r
  | .schema, (r : Schema) => r.id
  | .table, (r : Table) => r.id
  | .field, (r : Field) => r.id
  | .index, (r : Index) => r.id
  | .indexColumn, (r : IndexColumn) => r.id
  | .enum, (r : Enum) => r.id
  | .enumValue, (r : EnumValue) => r.id
  | .ref, (r : Ref) => r.id
  | .endpoint, (r : Endpoint) => r.id
  | .tableGroup, (r : TableGroup) => r.id
  | .tag, (r : Tag) => r.id

def Schema.isEmpty (s : Schema) : Bool :=
  s.tables.isEmpty && s.enums.isEmpty && s.refs.isEmpty && s.tags.isEmpty && s.tableGroups.isEmpty

end Stored

/-- One arena for each kind of entity, the database above them, and the allocator of all
identifiers. -/
structure Store extends DatabaseInfo where
  id : Id .database
  config : Config
  /-- Whether a record has been placed in the default schema. -/
  hasDefaultSchema : Bool := false
  schemas : List (Id .schema) := []
  arena : (k : Kind) → Bucket k (Stored k) := fun _ => {}
  ids : Allocator

/-- Work on a store. It may be rejected, and where an identifier leads nowhere it has no outcome at
all. -/
abbrev Access := ExceptT Rejection (StateT Store Option)

namespace Store

variable {k : Kind}

def file (st : Store) (i : Id k) (r : Stored k) : Store :=
  { st with arena := Function.update st.arena k ((st.arena k).insert i r) }

/-- The record under an identifier, which has to be there. -/
def row (i : Id k) : Access (Stored k) :=
  ExceptT.mk fun st => ((st.arena k).get? i).map fun r => (.ok r, st)

/-- Files a record, in place of one with the same identifier. -/
def insert (i : Id k) (r : Stored k) : Access Unit :=
  modify (·.file i r)

/-- Changes the record under an identifier in place. -/
def update (i : Id k) (f : Stored k → Stored k) : Access Unit := do
  insert i (f (← row i))

/-- Work that takes identifiers from the allocator of the store. -/
def drafted {α : Type} (x : Attempt Allocator α) : Access α :=
  ExceptT.mk fun st => some ((x.run st.ids).1, { st with ids := (x.run st.ids).2 })

end Store

end Catalog
