/-!
The views of a model that can be printed.
-/
namespace Catalog

inductive View where
  /-- The tree of declarations. -/
  | tree
  /-- The flat model. -/
  | flat
  /-- A table of counts per schema. -/
  | summary
  deriving DecidableEq, Repr

namespace View

def name : View → String
  | tree => "export"
  | flat => "normalize"
  | summary => "summary"

def all : List View :=
  [tree, flat, summary]

theorem mem_all (v : View) : v ∈ all := by
  cases v <;> decide

def ofName? (name : String) : Option View :=
  all.find? (·.name = name)

theorem ofName?_name (v : View) : ofName? v.name = some v := by
  cases v <;> decide

end View

end Catalog
