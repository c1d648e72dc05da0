import Catalog.Source.Text
import Catalog.Text.Width

/-!
Tables drawn with characters: columns as wide as their widest line, cells set left with a space on
either side, a double rule under the header.
-/
namespace Catalog.Text

/-- The lines of a cell. -/
abbrev Cell := List (List Char)

/-- A cell holds one line more than its text has line breaks. -/
def Cell.ofString (s : String) : Cell :=
  Source.pieces s.toList

def Cell.width (cell : Cell) : Nat :=
  (cell.map Text.width).foldl max 0

/-- The widths of the columns of some rows. -/
def columnWidths (columns : Nat) (rows : List (List Cell)) : List Nat :=
  (List.range columns).map fun i =>
    (rows.map fun row => (row[i]?.map Cell.width).getD 0).foldl max 0

/-- A rule across the table. -/
def rule (left mark cross right : Char) (widths : List Nat) : List Char :=
  left :: ([cross].intercalate (widths.map fun w => List.replicate (w + 2) mark) ++ [right])

/-- One line of a row; cells with fewer lines are blank there. -/
def rowLine (widths : List Nat) (row : List Cell) (i : Nat) : List Char :=
  let cells := (widths.zip row).map fun (w, cell) =>
    let line := cell[i]?.getD []
    ' ' :: (line ++ List.replicate (w - Text.width line) ' ' ++ [' '])
  '|' :: (['|'].intercalate cells ++ ['|'])

def rowLines (widths : List Nat) (row : List Cell) : List (List Char) :=
  (List.range ((row.map List.length).foldl max 0)).map (rowLine widths row)

/-- The table with a header and rows of as many cells. -/
def grid (header : List String) (rows : List (List String)) : String :=
  let head := header.map Cell.ofString
  let body := rows.map (·.map Cell.ofString)
  let widths := columnWidths header.length (head :: body)
  let border := rule '+' '-' '+' '+' widths
  let between := rule '|' '-' '+' '|' widths
  let bodyLines := [between].intercalate (body.map (rowLines widths))
  let lines := [border] ++ rowLines widths head ++ [rule '+' '=' '=' '+' widths] ++ bodyLines
    ++ [border]
  String.ofList (['\n'].intercalate lines)

end Catalog.Text
