import ClientRecords.Arithmetic
import ClientRecords.Catalog
import ClientRecords.Json.Reader
import ClientRecords.Record
import ClientRecords.Table
/-!
The document: every table with its rows in order, and beside them the top-level values that are no
tables, which are carried along as they are. Any JSON object is a document; a table of the closed
set that it lacks, or that is not an array, is empty.
-/

namespace ClientRecords

structure Document where
  tables : Catalog (List Record)
  extras : Catalog Json

namespace Document

def blank : Document := ⟨.empty, .empty⟩

instance : Inhabited Document := ⟨blank⟩

/-- Adds a table without rows unless it is there. -/
def ensureTable (d : Document) (t : Table) : Document :=
  if d.tables.contains t.name then d else { d with tables := d.tables.put t.name [] }

/-- Adds the tables of the closed set that are missing. -/
def ensureTables (d : Document) : Document := Table.all.foldl ensureTable d

/-- Is a table of the closed set missing? -/
def lacksTable (d : Document) : Bool := Table.all.any fun t => !d.tables.contains t.name

/-- The document with every table of the closed set and no rows. -/
def new : Document := blank.ensureTables

/-- The rows of a table by its name, the case of the letters A to Z being free. -/
def rows (d : Document) (name : String) : List Record :=
  (d.tables.get? (Text.asciiLowercase name)).getD []

def hasTable (d : Document) (name : String) : Bool :=
  d.tables.contains (Text.asciiLowercase name)

/-- The rows of a table of the closed set. -/
def rowsOf (d : Document) (t : Table) : List Record := (d.tables.get? t.name).getD []

/-- Writes the rows of a table of the closed set. -/
def setRows (d : Document) (t : Table) (rows : List Record) : Document :=
  { d with tables := d.tables.put t.name rows }

/-- The number of rows of every table, in the order of the names. -/
def counts (d : Document) : List (String × Nat) :=
  d.tables.entries.map fun (name, rows) => (name, rows.length)

def totalRows (d : Document) : Nat := total (d.counts.map Prod.snd)

/-- The rows of an array: all its items if they are objects, else none. -/
def allRows? : Json → Option (List Record)
  | .array items => items.mapM Record.ofJson?
  | _ => none

/-- The items of an array that are objects. -/
def someRows : Json → List Record
  | .array items => items.filterMap Record.ofJson?
  | _ => []

def isTableName (key : String) : Bool := Table.all.any (·.name == key)

/-- Adds a member of an object. An array of objects is a table; of a table of the closed set that is
anything else, the objects among its items are kept; all else is no table. -/
def addMember (d : Document) (member : String × Json) : Document :=
  match allRows? member.2 with
  | some rows => { d with tables := d.tables.put member.1 rows }
  | none =>
    if isTableName member.1 then
      { d with tables := d.tables.put member.1 (someRows member.2) }
    else { d with extras := d.extras.put member.1 member.2 }

/-- The document that a JSON object is. -/
def ofJson? : Json → Option Document
  | .object members => some (members.foldl addMember blank).ensureTables
  | _ => none

/-- The document as a JSON object: the tables, then what is no table. -/
def toJson (d : Document) : Json :=
  .object (d.tables.entries.map (fun (name, rows) => (name, .array (rows.map Record.toJson)))
    ++ d.extras.entries.filter fun (key, _) => !d.tables.contains key)

/-- The document of a text. -/
def ofText? (s : String) : Option Document := (Json.ofText? s).bind ofJson?

end Document
end ClientRecords
