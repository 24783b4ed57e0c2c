import Reconcile.Text.Display
import Reconcile.Text.Search

namespace Reconcile

/-- A table in a box: each row has a cell for each column of the header. A cell may have several
    lines; its column is as wide as the longest line in it. -/
structure Table where
  header : List String
  rows : List (List String)
deriving DecidableEq, Repr, Inhabited

namespace Table

def cellLines (cell : String) : List (List Char) :=
  Text.splitOn '\n' cell.toList

/-- The number of columns that the longest line of a cell takes up. -/
def cellWidth (cell : String) : Nat :=
  ((cellLines cell).map Text.width).foldl max 0

/-- The width of each column, without the blanks. -/
def widths (table : Table) : List Nat :=
  table.rows.foldl (fun widths row => widths.zipWith max (row.map cellWidth))
    (table.header.map cellWidth)

/-- A line of a cell, filled up to a width, with a blank on each side. -/
def pad (width : Nat) (line : List Char) : List Char :=
  ' ' :: line ++ List.replicate (width - Text.width line + 1) ' '

/-- A line across all columns: what it begins with, what it is made of, what stands between two
    columns, and what it ends with. -/
def rule (widths : List Nat) (first fill between last : Char) : List Char :=
  let pieces := widths.map fun width => List.replicate (width + 2) fill
  first :: [between].intercalate pieces ++ [last]

/-- The lines of a row, as many as its highest cell has. -/
def rowLines (widths : List Nat) (row : List String) : List (List Char) :=
  let cells := row.map cellLines
  let height := (cells.map List.length).foldl max 0
  (List.range height).map fun i =>
    let pieces := widths.zipWith (fun width lines => pad width ((lines[i]?).getD [])) cells
    '│' :: ['┆'].intercalate pieces ++ ['│']

/-- The lines of a table. -/
def lines (table : Table) : List (List Char) :=
  let widths := table.widths
  let body := table.rows.map (rowLines widths)
  [rule widths '┌' '─' '┬' '┐'] ++ rowLines widths table.header ++
    [rule widths '╞' '═' '╪' '╡'] ++
    [rule widths '├' '╌' '┼' '┤'].intercalate body ++
    [rule widths '└' '─' '┴' '┘']

/-- A table as text, without a line end at its end. -/
def text (table : Table) : String :=
  String.ofList (['\n'].intercalate table.lines)

end Table

end Reconcile
