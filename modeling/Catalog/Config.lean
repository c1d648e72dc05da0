import Catalog.Text.LetterCase

/-!
How a model is built.
-/
namespace Catalog

/-- When enums are linked to fields: each enum as it is inserted, to the fields that exist then, or
all enums once everything is built. -/
inductive EnumBinding where
  | onInsert
  | afterConstruction
  deriving DecidableEq, Repr, Inhabited

structure Config where
  /-- The schema of records that name none. -/
  defaultSchemaName : String := "public"
  /-- The first identifier of every kind. -/
  idBase : UInt32 := 1
  enumBinding : EnumBinding := .onInsert
  deriving DecidableEq, Repr, Inhabited

namespace Config

/-- The note of a default schema that nothing declares. -/
def defaultSchemaNote (c : Config) : String :=
  "Default " ++ Text.capitalize c.defaultSchemaName ++ " Schema"

def withDefaultSchemaName (c : Config) (name : String) : Config :=
  { c with defaultSchemaName := name }

def withIdBase (c : Config) (base : UInt32) : Config :=
  { c with idBase := base }

def withEnumBinding (c : Config) (binding : EnumBinding) : Config :=
  { c with enumBinding := binding }

end Config

end Catalog
