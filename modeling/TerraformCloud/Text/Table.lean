/-
  TerraformCloud/Text/Table.lean
  ==============================
  **Tables drawn with plain characters.**

  A table has a heading and rows below it, each row between two rules.  A column is as
  wide as its widest line, a row as high as its highest cell; a cell is set to the left
  and to the top, with one blank on either side.
-/
import TerraformCloud.Text.Split
import TerraformCloud.Text.Width

namespace TerraformCloud

/-- A table: the titles of its columns, and its rows. -/
structure Table where
  heading : List String
  rows : List (List String)
deriving DecidableEq, Repr

namespace Table

/-- The lines of a cell, at least one. -/
def cellLines (cell : String) : List (List Char) := splitChars '\n' cell.toList

/-- The columns that a cell takes on a terminal. -/
def cellWidth (cell : String) : Nat := ((cellLines cell).map lineWidth).foldl max 0

/-- The heading and the rows, all alike. -/
def allRows (t : Table) : List (List String) := t.heading :: t.rows

/-- How wide the cells of a column are. -/
def columnWidth (t : Table) (column : Nat) : Nat :=
  (t.allRows.map fun row => cellWidth (row.getD column "")).foldl max 0

/-- How wide the cells of each column are. -/
def columnWidths (t : Table) : List Nat := (List.range t.heading.length).map t.columnWidth

/-- The rule above and below a row. -/
def rule (widths : List Nat) : List Char :=
  '+' :: widths.flatMap fun w => List.replicate (w + 2) '-' ++ ['+']

/-- A line of a cell, filled up with blanks. -/
def fill (width : Nat) (line : List Char) : List Char :=
  ' ' :: line ++ List.replicate (width - lineWidth line) ' ' ++ [' ', '|']

/-- The lines of a row: the nth one has the nth line of every cell. -/
def rowLines (widths : List Nat) (row : List String) : List (List Char) :=
  let cells := (row.map cellLines).zip widths
  let height := (cells.map fun c => c.1.length).foldl max 0
  (List.range height).map fun n => '|' :: cells.flatMap fun c => fill c.2 (c.1.getD n [])

def lines (t : Table) : List (List Char) :=
  let widths := t.columnWidths
  rule widths :: t.allRows.flatMap fun row => rowLines widths row ++ [rule widths]

def text (t : Table) : String := "\n".intercalate (t.lines.map String.ofList)

end Table
end TerraformCloud
