/-!
A source text as characters with byte offsets. A position is a line and a column, both counted
from one; columns count characters, offsets count UTF-8 bytes.
-/
namespace Catalog.Source

/-- The characters that begin before a byte offset. -/
def before : List Char → Nat → List Char
  | [], _ => []
  | c :: cs, offset => if offset = 0 then [] else c :: before cs (offset - c.utf8Size)

@[simp] theorem before_zero (cs : List Char) : before cs 0 = [] := by
  cases cs <;> rfl

/-- The number of bytes that a text takes. -/
def byteCount : List Char → Nat
  | [] => 0
  | c :: cs => c.utf8Size + byteCount cs

/-- The characters after the last line break. -/
def lastLine (cs : List Char) : List Char :=
  (cs.reverse.takeWhile (· != '\n')).reverse

/-- The line and column reached after reading `cs`. -/
def positionAfter (cs : List Char) : Nat × Nat :=
  (cs.count '\n' + 1, (lastLine cs).length + 1)

/-- The position of a byte offset. An offset inside a character counts as the next boundary, one
past the end as the end. -/
def position (source : String) (offset : Nat) : Nat × Nat :=
  positionAfter (before source.toList offset)

/-- The text cut at line breaks: one piece more than there are breaks. -/
def pieces : List Char → List (List Char)
  | [] => [[]]
  | c :: cs =>
    if c = '\n' then [] :: pieces cs
    else match pieces cs with
      | [] => [[c]]
      | p :: ps => (c :: p) :: ps

theorem pieces_ne_nil (cs : List Char) : pieces cs ≠ [] := by
  cases cs with
  | nil => simp [pieces]
  | cons c cs =>
    simp only [pieces]
    split
    · simp
    · split <;> simp

/-- A line without the carriage return that belongs to its line break. -/
def dropReturn (line : List Char) : List Char :=
  if line.getLast? = some '\r' then line.dropLast else line

/-- Lines as an editor shows them: a break may be preceded by a carriage return, and a break at the
very end opens no further line. -/
def lines (cs : List Char) : List (List Char) :=
  match (pieces cs).getLast? with
  | some (c :: last) => ((pieces cs).dropLast).map dropReturn ++ [c :: last]
  | _ => ((pieces cs).dropLast).map dropReturn

end Catalog.Source
