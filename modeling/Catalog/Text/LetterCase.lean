import Catalog.Text.CaseTable

/-!
Case conversion character by character, without regard to neighbours or to a language.
-/
namespace Catalog.Text

/-- Looks a character up among the expansions first, then among the runs. -/
def convert (expansions : Array (Nat × List Nat)) (runs : Array CaseRun) (c : Char) : List Char :=
  match expansions.find? (·.1 = c.toNat) with
  | some (_, cs) => cs.map Char.ofNat
  | none =>
    match runs.find? (·.contains c.toNat) with
    | some r => [Char.ofNat (c.toNat + r.distance).toNat]
    | none => [c]

def lower (c : Char) : List Char :=
  convert lowerExpansions lowerRuns c

def upper (c : Char) : List Char :=
  convert upperExpansions upperRuns c

/-- The first letter in upper case, the others in lower case. -/
def capitalize (s : String) : String :=
  match s.toList with
  | [] => ""
  | c :: cs => String.ofList (upper c ++ cs.flatMap lower)

end Catalog.Text
