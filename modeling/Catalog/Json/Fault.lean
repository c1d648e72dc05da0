import Catalog.Json.Printer
import Catalog.Json.Node
import Catalog.Text.Quoted

/-!
Why a text does not decode: it is not JSON, or it is JSON of another shape than the one wanted.
-/
namespace Catalog.Json

/-- What was found where something else was wanted. -/
inductive Found where
  | null
  | bool (value : Bool)
  | number (value : Number)
  | string (value : String)
  | sequence
  | map
  deriving DecidableEq, Repr

/-- How JSON fails to have the shape that is wanted. -/
inductive Mismatch where
  | missingField (name : String)
  | duplicateField (name : String)
  | invalidType (found : Found) (expected : String)
  | outOfRange (value : Int) (expected : String)
  | invalidLength (length : Nat) (expected : String)
  | unknownVariant (name : String) (known : List String)
  deriving DecidableEq, Repr

inductive Fault where
  | flaw (flaw : Flaw)
  | mismatch (mismatch : Mismatch)
  deriving DecidableEq, Repr

/-- A value decoded, or the first fault of its text. -/
abbrev Decoded := Except Fault

def Found.text : Found → String
  | .null => "null"
  | .bool true => "boolean `true`"
  | .bool false => "boolean `false`"
  | .number (.int n) => "integer `" ++ String.ofList (Number.intText n) ++ "`"
  | .number (.double d) => "floating point `" ++ String.ofList (Number.doubleText d) ++ "`"
  | .string s => "string " ++ Text.quoted s
  | .sequence => "sequence"
  | .map => "map"

/-- The names that a choice of two or fewer has. -/
def alternatives (names : List String) : String :=
  " or ".intercalate (names.map fun n => "`" ++ n ++ "`")

def Mismatch.message : Mismatch → String
  | .missingField name => "missing field `" ++ name ++ "`"
  | .duplicateField name => "duplicate field `" ++ name ++ "`"
  | .invalidType found expected => "invalid type: " ++ found.text ++ ", expected " ++ expected
  | .outOfRange n expected =>
    "invalid value: integer `" ++ String.ofList (Number.intText n) ++ "`, expected " ++ expected
  | .invalidLength n expected => "invalid length " ++ toString n ++ ", expected " ++ expected
  | .unknownVariant name known =>
    "unknown variant `" ++ name ++ "`, expected " ++ alternatives known

def Flaw.message : Flaw → String
  | cutShort => "the text ends within a value"
  | malformed => "the text is not JSON"

def Fault.message : Fault → String
  | flaw f => f.message
  | mismatch m => m.message

end Catalog.Json
