import ClientRecords.Json.Printer
import ClientRecords.Record
import ClientRecords.Report.Grid
/-!
Reports for reading: rows, counts of tables and notes, as text, as JSON or as grids.
-/

namespace ClientRecords

inductive ReportFormat where
  | text
  | json
  | grid
  deriving DecidableEq

namespace ReportFormat

/-- The format of a name. -/
def ofName? (s : String) : Option ReportFormat :=
  if s = "text" then some .text
  else if s = "json" then some .json
  else if s = "table" then some .grid
  else none

end ReportFormat

/-- How what matters is marked: by words in front of notes, by colours, or not at all. -/
inductive Emphasis where
  | words
  | colors
  | nothing
  deriving DecidableEq

/-- The kinds of notes. -/
inductive NoteKind where
  | error
  | info
  | success
  deriving DecidableEq

namespace NoteKind

/-- The word in front of a note. -/
def label : NoteKind → String
  | .error => "Erreur"
  | .info => "Info"
  | .success => "Succès"

/-- The name of a note in JSON. -/
def key : NoteKind → String
  | .error => "error"
  | .info => "info"
  | .success => "success"

/-- The code of the colour of a note. -/
def color : NoteKind → String
  | .error => "1;31"
  | .info => "34"
  | .success => "1;32"

end NoteKind

structure ReportStyle where
  format : ReportFormat
  emphasis : Emphasis
  deriving DecidableEq

namespace ReportStyle

/-- The sequence that ends all colours. -/
def reset : String := "\x1b[0m"

/-- A text in a colour, which is taken up again wherever the text ends all colours. -/
def paint (color s : String) : String :=
  let start := "\x1b[" ++ color ++ "m"
  start ++ (reset ++ start).intercalate (s.splitOn reset) ++ reset

/-- The name of a field or a table. -/
def keyText (e : Emphasis) (key : String) : String := if e = .colors then paint "36" key else key

/-- The text that stands for no rows. -/
def noRows : String := "(aucune ligne)"

/-- The number of rows in words. -/
def rowCount (n : Nat) : String := s!"{n} ligne(s)"

/-- A value without quotes around strings. -/
def plain (v : Value) : String :=
  match v with
  | .string s => s
  | v => v.display

/-- A row as text under its number. -/
def rowText (e : Emphasis) (k : Nat) (r : Record) : String :=
  s!"[{k + 1}]\n" ++ "\n".intercalate
    (r.fields.map fun (name, v) => "  " ++ keyText e name ++ ": " ++ plain v)

/-- The names of the fields of rows in the order in which they come up. -/
def columns (rows : List Record) : List String :=
  (rows.flatMap (·.fields.names)).foldl (fun seen n => if n ∈ seen then seen else seen ++ [n]) []

/-- The most characters that a cell shows. -/
def cellLimit : Nat := 50

/-- The text of a cell; one that is too long is cut and ends with three points. -/
def cellText (v : Option Value) : String :=
  match v with
  | none | some .null => "NULL"
  | some v =>
    let cs := v.text.toList
    if cellLimit < cs.length then String.ofList (cs.take (cellLimit - 3)) ++ "..." else v.text

/-- Rows that a query gave; none if a grid cannot show one of them. -/
def rows? (s : ReportStyle) (rs : List Record) : Option String :=
  match s.format with
  | .json => some (Json.array (rs.map Record.toJson)).pretty
  | .text =>
    if rs.isEmpty then some noRows
    else some
      ("\n".intercalate (rs.mapIdx (rowText s.emphasis)) ++ "\n(" ++ rowCount rs.length ++ ")")
  | .grid =>
    if rs.isEmpty then some noRows
    else
      let names := columns rs
      Grid.ofTexts? names (rs.map fun r => names.map fun n => cellText (r.get? n))

/-- A table and its number of rows; the blanks make up for the bytes of the longest name. -/
def tableText (e : Emphasis) (w : Nat) (name : String) (n : Nat) : String :=
  let key := keyText e name
  key ++ String.ofList (List.replicate (w - key.length) ' ') ++ s!"  {n}"

/-- The numbers of rows of tables; none if a grid cannot show one of their names. -/
def tables? (s : ReportStyle) (counts : List (String × Nat)) : Option String :=
  match s.format with
  | .json =>
    some (Json.object (Entries.putAll [] (counts.map fun (name, n) => (name, Json.int n)))).pretty
  | .text =>
    let w := (counts.map fun (name, _) => name.utf8ByteSize).foldl max 0
    some ("\n".intercalate (counts.map fun (name, n) => tableText s.emphasis w name n))
  | .grid => Grid.ofTexts? ["Table", "Lignes"] (counts.map fun (name, n) => [name, toString n])

/-- A note. -/
def note (s : ReportStyle) (kind : NoteKind) (message : String) : String :=
  match s.format with
  | .json => (Json.object [(kind.key, .string message)]).pretty
  | _ =>
    match s.emphasis with
    | .words => kind.label ++ ": " ++ message
    | .colors => paint kind.color message
    | .nothing => message

end ReportStyle
end ClientRecords
