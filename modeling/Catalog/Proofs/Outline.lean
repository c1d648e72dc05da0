import Catalog.Config
import Catalog.Declaration
import Catalog.Export
import Catalog.Identifier
import Mathlib.Algebra.GroupWithZero.Nat

/-!
Outlines: the declarations of a bundle put together schema by schema, before anything is numbered
or linked. Names are looked up in an outline as in a database, the first match counting, and what
they refer to is a path of names. Building a database is measured against the outline of its
bundle.
-/
namespace Catalog

/-- A table by the name of its schema and its own. -/
structure TablePath where
  schema : String
  table : String
  deriving DecidableEq, Repr

structure FieldPath extends TablePath where
  field : String
  deriving DecidableEq, Repr

/-- Whether two lists hold the same elements, however often and in whatever order. -/
def SameElements {α : Type} (xs ys : List α) : Prop :=
  ∀ x, x ∈ xs ↔ x ∈ ys

namespace Decl

/-- A record that belongs to a schema. -/
inductive Item where
  | table (d : Table)
  | tag (d : Tag)
  | enum (d : Enum)
  | ref (d : Ref)
  | tableGroup (d : TableGroup)
  deriving DecidableEq, Repr

namespace Item

def schemaName : Item → Option String
  | table d => d.schemaName
  | tag d => d.schemaName
  | enum d => d.schemaName
  | ref d => d.schemaName
  | tableGroup d => d.schemaName

/-- The schema that a record outside of schema declarations is for. -/
def target (c : Config) (r : Item) : String :=
  r.schemaName.getD c.defaultSchemaName

end Item

/-! How many entities of each kind a declaration stands for. -/

def Table.extent (d : Table) : Kind → Nat
  | .table => 1
  | .field => d.fields.length
  | .index => d.indexes.length
  | .indexColumn => (d.indexes.map (·.columns.length)).sum
  | _ => 0

def Enum.extent (d : Enum) : Kind → Nat
  | .enum => 1
  | .enumValue => d.values.length
  | _ => 0

def Ref.extent (d : Ref) : Kind → Nat
  | .ref => 1
  | .endpoint => d.endpoints.length
  | _ => 0

def Item.extent : Item → Kind → Nat
  | table d, k => d.extent k
  | tag _, k => if k = .tag then 1 else 0
  | enum d, k => d.extent k
  | ref d, k => d.extent k
  | tableGroup _, k => if k = .tableGroup then 1 else 0

namespace Schema

/-- The nested records, in the order in which they are inserted. -/
def records (s : Schema) : List Item :=
  s.tables.map .table ++ s.tags.map .tag ++ s.enums.map .enum ++ s.refs.map .ref
    ++ s.tableGroups.map .tableGroup

def add (s : Schema) : Item → Schema
  | .table d => { s with tables := s.tables ++ [d] }
  | .tag d => { s with tags := s.tags ++ [d] }
  | .enum d => { s with enums := s.enums ++ [d] }
  | .ref d => { s with refs := s.refs ++ [d] }
  | .tableGroup d => { s with tableGroups := s.tableGroups ++ [d] }

def extent (s : Schema) (k : Kind) : Nat :=
  (if k = .schema then 1 else 0) + (s.records.map (·.extent k)).sum

def isPopulated (s : Schema) : Bool :=
  !s.records.isEmpty

/-- No name refers to both schemas, be it by their names or by their aliases. -/
def Apart (s t : Schema) : Prop :=
  ∀ name, ¬ (s.isNamed name = true ∧ t.isNamed name = true)

/-- Records of one sort have different names in a schema, as have the fields of a table and the
values of an enum. -/
structure Distinct (s : Schema) : Prop where
  tables : (s.tables.map (·.name)).Nodup
  enums : (s.enums.map (·.name)).Nodup
  tags : (s.tags.map (·.name)).Nodup
  tableGroups : (s.tableGroups.map (·.name)).Nodup
  fields : ∀ t ∈ s.tables, (t.fields.map (·.name)).Nodup
  values : ∀ e ∈ s.enums, (e.values.map (·.name)).Nodup

/-- The tags that stand for mentions of names which are not known, each at its first mention. -/
def impliedTags (known : List String) : List Mention → List Tag
  | [] => []
  | m :: ms =>
    if m.name ∈ known then impliedTags known ms
    else { name := m.name, token := m.token } :: impliedTags (m.name :: known) ms

/-- A schema with the tags that its tables mention, besides those it declares. -/
def withImpliedTags (s : Schema) : Schema :=
  { s with tags := s.tags ++ impliedTags (s.tags.map (·.name)) (s.tables.flatMap (·.tags)) }

end Schema

/-- Declared schemas with their records, as far as they are known. -/
abbrev Outline := List Schema

namespace Outline

def extent (o : Outline) (k : Kind) : Nat :=
  (if k = .database then 1 else 0) + (o.map (·.extent k)).sum

def schema? (o : Outline) (name : String) : Option Schema :=
  o.find? (·.isNamed name)

/-- A table of the named schema, or of the default one, together with its schema. -/
def locate? (o : Outline) (c : Config) (schemaName : Option String) (tableName : String) :
    Option (Schema × Table) :=
  (o.schema? (schemaName.getD c.defaultSchemaName)).bind fun s =>
    (s.tables.find? (·.isNamed tableName)).map fun t => (s, t)

def tablePath? (o : Outline) (c : Config) (schemaName : Option String) (tableName : String) :
    Option TablePath :=
  (o.locate? c schemaName tableName).map fun found =>
    { schema := found.1.name, table := found.2.name }

/-- The field that an endpoint means by a name. -/
def fieldPath? (o : Outline) (c : Config) (e : EndpointInfo) (name : String) : Option FieldPath :=
  (o.locate? c e.schemaName e.tableName).bind fun found =>
    if name ∈ found.2.fields.map (·.name) then
      some { schema := found.1.name, table := found.2.name, field := name }
    else none

/-- What the field names of an endpoint refer to, one by one. -/
def cover (o : Outline) (c : Config) (e : EndpointInfo) : List (Option FieldPath) :=
  e.fieldNames.map (o.fieldPath? c e)

/-- An endpoint has a table and all its fields, none of them twice. -/
structure Resolves (o : Outline) (c : Config) (e : EndpointInfo) : Prop where
  table : (o.tablePath? c e.schemaName e.tableName).isSome
  fields : ∀ name ∈ e.fieldNames, (o.fieldPath? c e name).isSome
  nodup : (o.cover c e).Nodup

/-- A ref has two endpoints, with equally many fields and not the same ones. -/
def Connects (o : Outline) (c : Config) (r : Ref) : Prop :=
  ∃ e₁ e₂, r.endpoints = [e₁, e₂] ∧ o.Resolves c e₁.toEndpointInfo ∧
    o.Resolves c e₂.toEndpointInfo ∧ e₁.fieldNames.length = e₂.fieldNames.length ∧
    ¬ SameElements (o.cover c e₁.toEndpointInfo) (o.cover c e₂.toEndpointInfo)

/-- Two refs connect the same fields, whichever side they are on. -/
def SameEnds (o : Outline) (c : Config) (r r' : Ref) : Prop :=
  ∃ e₁ e₂ e₁' e₂', r.endpoints = [e₁, e₂] ∧ r'.endpoints = [e₁', e₂'] ∧
    (SameElements (o.cover c e₁.toEndpointInfo) (o.cover c e₁'.toEndpointInfo) ∧
        SameElements (o.cover c e₂.toEndpointInfo) (o.cover c e₂'.toEndpointInfo) ∨
      SameElements (o.cover c e₁.toEndpointInfo) (o.cover c e₂'.toEndpointInfo) ∧
        SameElements (o.cover c e₂.toEndpointInfo) (o.cover c e₁'.toEndpointInfo))

/-- All members of a group are tables. -/
def Gathers (o : Outline) (c : Config) (g : TableGroup) : Prop :=
  ∀ m ∈ g.tables, (o.tablePath? c m.schemaName m.name).isSome

/-- The tables of a group, each at its first mention. -/
def members (o : Outline) (c : Config) (g : TableGroup) : List TablePath :=
  (g.tables.filterMap fun m => o.tablePath? c m.schemaName m.name).eraseDups

/-- Every identifier that an outline needs is there. -/
def HasRoom (o : Outline) (c : Config) : Prop :=
  ∀ k, c.idBase.toNat + o.extent k ≤ UInt32.size

end Outline

end Decl

/-- The schema that the mention of an unknown name stands for. -/
def Config.impliedSchema (c : Config) (name : String) : Decl.Schema :=
  { name, note := if name = c.defaultSchemaName then some c.defaultSchemaNote else none }

namespace Decl

/-- Adds the schema that a name refers to unless it is there. -/
def Outline.arrive (c : Config) (o : Outline) (name : String) : Outline :=
  if o.any (·.isNamed name) then o else o ++ [c.impliedSchema name]

namespace Bundle

/-- The records outside of schema declarations, in the order in which they are inserted. -/
def routed (b : Bundle) : List Item :=
  b.tables.map .table ++ b.tags.map .tag ++ b.refs.map .ref ++ b.enums.map .enum
    ++ b.tableGroups.map .tableGroup

/-- The names that no declared schema answers to, each at its first mention. -/
def implied (b : Bundle) (c : Config) : List String :=
  ((b.routed.map (·.target c)).filter fun name => !b.schemas.any (·.isNamed name)).eraseDups

/-- The declared schemas, then those that other records are the first to mention. -/
def roster (b : Bundle) (c : Config) : Outline :=
  b.schemas ++ (b.implied c).map c.impliedSchema

/-- A schema with the records nested in it, then those that name it. -/
def gather (b : Bundle) (c : Config) (s : Schema) : Schema :=
  let isMine (name : Option String) : Bool := s.isNamed (name.getD c.defaultSchemaName)
  { s with
    tables := s.tables ++ b.tables.filter (isMine ·.schemaName)
    refs := s.refs ++ b.refs.filter (isMine ·.schemaName)
    enums := s.enums ++ b.enums.filter (isMine ·.schemaName)
    tags := s.tags ++ b.tags.filter (isMine ·.schemaName)
    tableGroups := s.tableGroups ++ b.tableGroups.filter (isMine ·.schemaName) }

def outline (b : Bundle) (c : Config) : Outline :=
  (b.roster c).map (b.gather c)

end Bundle

end Decl

end Catalog
