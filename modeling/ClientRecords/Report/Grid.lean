import ClientRecords.Text.Lines
import ClientRecords.Text.Width
/-!
Grids: titles and rows of cells between ruled lines. A column is as wide as the widest line of its
cells, and a row is as high as its highest cell.
-/

namespace ClientRecords.Grid

/-- A line of a cell, and the columns that it takes. -/
structure Line where
  text : String
  width : Nat

/-- A cell as its lines. -/
abbrev Cell := List Line

/-- The cell of a text; none if a line of it cannot be measured. -/
def cell? (s : String) : Option Cell :=
  (Text.lines s).mapM fun line => (Text.shownWidth? line).map fun width => ⟨line, width⟩

/-- The columns that a cell needs. -/
def cellWidth (c : Cell) : Nat := (c.map Line.width).foldl max 0

/-- The widths of the columns of rows of the same length. -/
def widths (titles : List Cell) (rows : List (List Cell)) : List Nat :=
  rows.foldl (fun ws row => List.zipWith max ws (row.map cellWidth)) (titles.map cellWidth)

/-- A line of parts between marks. -/
def between (mark : Char) (parts : List String) : String :=
  let m := String.singleton mark
  m ++ m.intercalate parts ++ m ++ "\n"

/-- A ruled line. -/
def rule (fill : Char) (ws : List Nat) : String :=
  between '+' (ws.map fun w => String.ofList (List.replicate (w + 2) fill))

/-- A line followed by blanks up to a width. -/
def padded (w : Nat) (l : Line) : String :=
  l.text ++ String.ofList (List.replicate (w - l.width) ' ')

/-- The number of lines of a row, at least one. -/
def height (row : List Cell) : Nat := (row.map List.length).foldl max 1

/-- The line of a row with a number. -/
def rowLine (ws : List Nat) (row : List Cell) (k : Nat) : String :=
  between '|' (List.zipWith (fun w cell => " " ++ padded w (cell.getD k ⟨"", 0⟩) ++ " ") ws row)

def rowText (ws : List Nat) (row : List Cell) : String :=
  String.join ((List.range (height row)).map (rowLine ws row))

/-- The grid of titles and rows, with a double line below the titles and a line below each row; a
grid without rows is closed by a line too. -/
def text (titles : List Cell) (rows : List (List Cell)) : String :=
  let ws := widths titles rows
  let body := rows.map fun row => rowText ws row ++ rule '-' ws
  rule '-' ws ++ rowText ws titles ++ rule '=' ws
    ++ if rows.isEmpty then rule '-' ws else String.join body

/-- The grid of the texts of titles and rows; none if one of them cannot be measured. -/
def ofTexts? (titles : List String) (rows : List (List String)) : Option String := do
  let titles ← titles.mapM cell?
  let rows ← rows.mapM fun row => row.mapM cell?
  return text titles rows

end ClientRecords.Grid
