import Catalog.Json.Value

/-!
What the entities of a model say about themselves, apart from where they were declared, which
identifiers they have and what they are linked to. Declarations, entities, the export tree and the
flat model share these contents.
-/
namespace Catalog

/-- The cardinality on one side of a ref. -/
inductive Relation where
  | one
  | many
  deriving DecidableEq, Repr, Inhabited

/-- The type that a field is declared with. Its name is opaque unless it names an enum. -/
structure FieldType where
  typeName : String
  schemaName : Option String := none
  args : Option String := none
  deriving DecidableEq, Repr, Inhabited

/-- The default value of a field, with the sort of literal it was written as. -/
structure FieldDefault where
  valueType : String
  value : Json
  deriving DecidableEq, Repr

structure DatabaseInfo where
  name : Option String := none
  note : Option String := none
  databaseType : Option String := none
  deriving DecidableEq, Repr, Inhabited

structure SchemaInfo where
  name : String
  aliasName : Option String := none
  note : Option String := none
  deriving DecidableEq, Repr, Inhabited

structure TableInfo where
  name : String
  aliasName : Option String := none
  note : Option String := none
  headerColor : Option String := none
  deriving DecidableEq, Repr, Inhabited

structure FieldInfo where
  name : String
  type : FieldType
  pk : Bool := false
  unique : Bool := false
  notNull : Option Bool := none
  increment : Bool := false
  note : Option String := none
  default : Option FieldDefault := none
  deriving DecidableEq, Repr

structure IndexInfo where
  name : Option String := none
  type : Option String := none
  unique : Bool := false
  pk : Bool := false
  note : Option String := none
  deriving DecidableEq, Repr, Inhabited

/-- One column of an index: a field name, an expression or a literal. -/
structure IndexColumnInfo where
  type : String
  value : String
  deriving DecidableEq, Repr, Inhabited

structure EnumInfo where
  name : String
  note : Option String := none
  deriving DecidableEq, Repr, Inhabited

structure EnumValueInfo where
  name : String
  note : Option String := none
  deriving DecidableEq, Repr, Inhabited

structure RefInfo where
  name : Option String := none
  onDelete : Option String := none
  onUpdate : Option String := none
  deriving DecidableEq, Repr, Inhabited

/-- One side of a ref as declared; no schema name means the default schema. -/
structure EndpointInfo where
  schemaName : Option String := none
  tableName : String
  fieldNames : List String
  relation : Relation := .one
  deriving DecidableEq, Repr, Inhabited

structure TableGroupInfo where
  name : String
  note : Option String := none
  deriving DecidableEq, Repr, Inhabited

structure TagInfo where
  name : String
  note : Option String := none
  color : Option String := none
  deriving DecidableEq, Repr, Inhabited

/-- Whether a name refers to something with a name and perhaps an alias. -/
def isNamed (own : String) (aliasName : Option String) (name : String) : Bool :=
  own = name || aliasName = some name

namespace SchemaInfo

def isNamed (s : SchemaInfo) (name : String) : Bool :=
  Catalog.isNamed s.name s.aliasName name

/-- Whether two schemas denote one namespace: the name of either is the name or alias of the other,
or they share an alias. -/
def collides (s t : SchemaInfo) : Bool :=
  s.name = t.name || s.aliasName = some t.name || t.aliasName = some s.name
    || (s.aliasName.isSome && s.aliasName = t.aliasName)

theorem collides_comm (s t : SchemaInfo) : s.collides t = t.collides s := by
  rw [Bool.eq_iff_iff]
  simp only [collides, Bool.or_eq_true, Bool.and_eq_true, decide_eq_true_eq]
  constructor <;> rintro (((h | h) | h) | ⟨h, e⟩) <;> simp_all

/-- Two schemas collide where one is named by a name of the other. -/
theorem collides_iff (s t : SchemaInfo) :
    s.collides t = true ↔ s.isNamed t.name = true ∨ ∃ a, t.aliasName = some a ∧ s.isNamed a = true := by
  simp only [collides, isNamed, Catalog.isNamed, Bool.or_eq_true, Bool.and_eq_true,
    decide_eq_true_eq]
  constructor
  · rintro (((h | h) | h) | ⟨h, e⟩)
    · exact .inl (.inl h)
    · exact .inl (.inr h)
    · exact .inr ⟨_, h, .inl rfl⟩
    · obtain ⟨a, ha⟩ := Option.isSome_iff_exists.1 h
      exact .inr ⟨a, e ▸ ha, .inr ha⟩
  · rintro ((h | h) | ⟨a, h, e | e⟩) <;> simp_all

end SchemaInfo

def TableInfo.isNamed (t : TableInfo) (name : String) : Bool :=
  Catalog.isNamed t.name t.aliasName name

/-- The schema that the type refers to: the declared one or else the default. -/
def FieldType.schemaNameOr (t : FieldType) (default : String) : String :=
  t.schemaName.getD default

end Catalog
