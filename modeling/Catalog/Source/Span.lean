import Catalog.Source.Text

/-!
Spans of a source text and the excerpt that points at one: the line it starts on, underlined from
its start to its end or to the end of the line, whichever comes first.
-/
namespace Catalog

/-- A byte range, its end excluded. Records without a source carry the empty span at zero. -/
structure Span where
  start : UInt64 := 0
  stop : UInt64 := 0
  deriving DecidableEq, Repr, Inhabited

namespace Span

/-- A reversed span has no length. -/
def length (s : Span) : Nat :=
  s.stop.toNat - s.start.toNat

def isEmpty (s : Span) : Bool :=
  s.stop ≤ s.start

theorem length_eq_zero_iff (s : Span) : s.length = 0 ↔ s.isEmpty = true := by
  simp [length, isEmpty, UInt64.le_iff_toNat_le, Nat.sub_eq_zero_iff_le]

/-- This span, or another one where it is empty. -/
def orElse (s other : Span) : Span :=
  if s.isEmpty then other else s

end Span

/-- The line that a span starts on and the marks below it. -/
structure Excerpt where
  line : Nat
  column : Nat
  text : List Char
  marks : Nat
  deriving DecidableEq, Repr

namespace Excerpt

/-- A number set right in three columns; longer numbers take the room they need. -/
def gutterNumber (n : Nat) : List Char :=
  let digits := (Nat.repr n).toList
  List.replicate (3 - digits.length) ' ' ++ digits

/-- The row that shows the text. -/
def textRow (e : Excerpt) : List Char :=
  gutterNumber e.line ++ ['|', ' '] ++ e.text

/-- The row that holds the caret and its tail. -/
def markRow (e : Excerpt) : List Char :=
  [' ', ' ', ' ', '|'] ++ List.replicate e.column ' ' ++ '^' :: List.replicate (e.marks - 1) '~'

def render (e : Excerpt) : List Char :=
  "   |\n".toList ++ e.textRow ++ ['\n'] ++ e.markRow ++ ['\n']

end Excerpt

namespace Span

/-- There is no excerpt where the span starts on no line of the text. At least one mark is set, and
no mark stands past the place after the text. -/
def excerpt? (s : Span) (source : String) : Option Excerpt :=
  let (line, column) := Source.position source s.start.toNat
  (Source.lines source.toList)[line - 1]?.map fun text =>
    { line, column, text
      marks := min (max s.length 1) (max (text.length + 1 - column) 1) }

/-- Where the span starts, as a line of its own. -/
def location (s : Span) (source : String) : String :=
  let (line, column) := Source.position source s.start.toNat
  s!"  --> line {line}:{column}\n"

def snippet (s : Span) (source : String) : String :=
  match s.excerpt? source with
  | none => s.location source
  | some e => s.location source ++ String.ofList e.render

end Span

end Catalog
