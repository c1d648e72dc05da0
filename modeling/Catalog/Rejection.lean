import Catalog.Source.Span

/-!
Why a record is rejected: the cause, with what its message names, and the token to blame.
-/
namespace Catalog

/-- The sorts of violations. -/
inductive ViolationKind where
  | duplicateSchemaName | duplicateTableName | duplicateEnumName | duplicateTagName
  | duplicateTableGroupName | duplicateRef | schemaNotFound | duplicateFieldName
  | duplicateEnumValue | tableNotFound | fieldNotFound | invalidEndpoints | tableAlreadyGrouped
  | idSpaceExhausted
  deriving DecidableEq, Repr

namespace ViolationKind

def name : ViolationKind → String
  | duplicateSchemaName => "DuplicateSchemaName"
  | duplicateTableName => "DuplicateTableName"
  | duplicateEnumName => "DuplicateEnumName"
  | duplicateTagName => "DuplicateTagName"
  | duplicateTableGroupName => "DuplicateTableGroupName"
  | duplicateRef => "DuplicateRef"
  | schemaNotFound => "SchemaNotFound"
  | duplicateFieldName => "DuplicateFieldName"
  | duplicateEnumValue => "DuplicateEnumValue"
  | tableNotFound => "TableNotFound"
  | fieldNotFound => "FieldNotFound"
  | invalidEndpoints => "InvalidEndpoints"
  | tableAlreadyGrouped => "TableAlreadyGrouped"
  | idSpaceExhausted => "IdSpaceExhausted"

def all : List ViolationKind :=
  [duplicateSchemaName, duplicateTableName, duplicateEnumName, duplicateTagName,
    duplicateTableGroupName, duplicateRef, schemaNotFound, duplicateFieldName, duplicateEnumValue,
    tableNotFound, fieldNotFound, invalidEndpoints, tableAlreadyGrouped, idSpaceExhausted]

theorem mem_all (k : ViolationKind) : k ∈ all := by
  cases k <;> decide

def ofName? (name : String) : Option ViolationKind :=
  all.find? (·.name = name)

theorem ofName?_name (k : ViolationKind) : ofName? k.name = some k := by
  cases k <;> decide

/-- Whether two records of one sort stand in each other's way. -/
def isDuplicate : ViolationKind → Bool
  | duplicateSchemaName | duplicateTableName | duplicateEnumName | duplicateTagName
  | duplicateTableGroupName | duplicateRef | duplicateFieldName | duplicateEnumValue => true
  | schemaNotFound | tableNotFound | fieldNotFound | invalidEndpoints | tableAlreadyGrouped
  | idSpaceExhausted => false

end ViolationKind

/-- The records of a schema that are told apart by name. -/
inductive ChildSort where
  | table | enum | tag | tableGroup
  deriving DecidableEq, Repr

namespace ChildSort

def noun : ChildSort → String
  | table => "table"
  | enum => "enum"
  | tag => "tag"
  | tableGroup => "table group"

def violation : ChildSort → ViolationKind
  | table => .duplicateTableName
  | enum => .duplicateEnumName
  | tag => .duplicateTagName
  | tableGroup => .duplicateTableGroupName

end ChildSort

/-- What is wrong with the endpoints of a ref. -/
inductive EndpointProblem where
  | count (found : Nat)
  | repeatedField (name : String)
  | unequalLengths
  | sameFields
  deriving DecidableEq, Repr

namespace EndpointProblem

def message : EndpointProblem → String
  | count n => "a ref needs exactly two endpoints, found " ++ toString n
  | repeatedField name => "field \"" ++ name ++ "\" is listed twice in one endpoint"
  | unequalLengths => "both endpoints of a ref must have the same number of fields"
  | sameFields => "the two endpoints of a ref are the same"

end EndpointProblem

/-- A name in quotes, after the name of its schema where that is given. -/
def qualifiedName (schema : Option String) (name : String) : String :=
  match schema with
  | some s => "\"" ++ s ++ "\".\"" ++ name ++ "\""
  | none => "\"" ++ name ++ "\""

inductive Cause where
  | duplicateSchema (name : String)
  /-- The schema is named where the name alone would be ambiguous. -/
  | duplicateChild (sort : ChildSort) (schema : Option String) (name : String)
  | duplicateField (table field : String)
  | duplicateEnumValue (enum value : String)
  | duplicateRef
  | schemaNotFound (name : String)
  /-- The table is given as it is to be shown. -/
  | tableNotFound (table : String)
  | fieldNotFound (table field : String)
  | invalidEndpoints (problem : EndpointProblem)
  | tableAlreadyGrouped (table group : String)
  | idSpaceExhausted (counter : String) (base : UInt32)
  /-- A violation stated in words of one's own. -/
  | stated (kind : ViolationKind) (message : String)
  deriving DecidableEq, Repr

namespace Cause

def kind : Cause → ViolationKind
  | duplicateSchema _ => .duplicateSchemaName
  | duplicateChild sort _ _ => sort.violation
  | duplicateField .. => .duplicateFieldName
  | duplicateEnumValue .. => .duplicateEnumValue
  | duplicateRef => .duplicateRef
  | schemaNotFound _ => .schemaNotFound
  | tableNotFound _ => .tableNotFound
  | fieldNotFound .. => .fieldNotFound
  | invalidEndpoints _ => .invalidEndpoints
  | tableAlreadyGrouped .. => .tableAlreadyGrouped
  | idSpaceExhausted .. => .idSpaceExhausted
  | stated kind _ => kind

def message : Cause → String
  | duplicateSchema name => "schema " ++ qualifiedName none name ++ " already exists"
  | duplicateChild sort schema name =>
    sort.noun ++ " " ++ qualifiedName schema name ++ " already exists"
  | duplicateField table field =>
    "field \"" ++ field ++ "\" already exists in table \"" ++ table ++ "\""
  | duplicateEnumValue enum value =>
    "enum value \"" ++ value ++ "\" already exists in enum \"" ++ enum ++ "\""
  | duplicateRef => "a ref with the same endpoints already exists"
  | schemaNotFound name => "schema " ++ qualifiedName none name ++ " does not exist"
  | tableNotFound table => "table " ++ table ++ " does not exist"
  | fieldNotFound table field => "field \"" ++ field ++ "\" does not exist in table " ++ table
  | invalidEndpoints problem => problem.message
  | tableAlreadyGrouped table group =>
    "table " ++ table ++ " is already in table group \"" ++ group ++ "\""
  | idSpaceExhausted counter base =>
    counter ++ " identifiers exhausted (base " ++ toString base.toNat ++ ")"
  | stated _ message => message

end Cause

/-- A violation and the token to blame for it. -/
structure Rejection where
  cause : Cause
  span : Span := {}
  deriving DecidableEq, Repr

namespace Rejection

def kind (r : Rejection) : ViolationKind :=
  r.cause.kind

def message (r : Rejection) : String :=
  r.cause.message

def isDuplicate (r : Rejection) : Bool :=
  r.kind.isDuplicate

/-- The same violation blamed on another token. -/
def blamedOn (r : Rejection) (span : Span) : Rejection :=
  { r with span }

/-- The violation in one line. -/
def summary (r : Rejection) : String :=
  "semantic error: " ++ r.message

/-- The violation with the place in the source that is to blame. -/
def report (r : Rejection) (source : String) : String :=
  "error[" ++ r.kind.name ++ "]: " ++ r.message ++ "\n" ++ r.span.snippet source

end Rejection

end Catalog
