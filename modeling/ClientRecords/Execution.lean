import ClientRecords.Document
import ClientRecords.Query.Eval
import ClientRecords.Query.Reader
/-!
What statements ask of a document: its rows with one row more, with fields written or with rows
removed, and the rows that a query gives. Each change is to one table of the closed set.
-/

namespace ClientRecords

/-- Why a statement has no outcome: it is refused, or it is broken off in the middle of its
query. -/
inductive Failure where
  | refused (e : StoreError)
  | brokenOff (b : Breakdown)
  deriving DecidableEq

/-- The rows that a statement gives, and the document after it if it writes one. -/
structure Outcome where
  rows : List Record
  written : Option Document

namespace Document

/-- Does a row have the id of a record? A record whose id is missing or not truthy has none. -/
def hasIdOf (d : Document) (t : Table) (r : Record) : Bool :=
  match r.get? "id" with
  | some id => id.isTruthy && (d.rowsOf t).any fun row => (row.get? "id").any (·.strictEq id)
  | none => false

/-- Adds a row at the end of a table. -/
def append (d : Document) (t : Table) (r : Record) : Document := d.setRows t (d.rowsOf t ++ [r])

/-- Adds a row; none if rows with a known id are to be ignored and this is one. -/
def insert? (d : Document) (t : Table) (orIgnore : Bool) (r : Record) : Option Document :=
  if orIgnore && d.hasIdOf t r then none else some (d.append t r)

/-- Writes fields into the rows that satisfy the conditions. -/
def update (d : Document) (t : Table) (overlay : Record) (cs : List Condition) : Document :=
  d.setRows t ((d.rowsOf t).map fun r => if r.satisfies cs then r.putAll overlay.fields else r)

/-- Removes the rows that satisfy the conditions. -/
def delete (d : Document) (t : Table) (cs : List Condition) : Document :=
  d.setRows t ((d.rowsOf t).filter (!·.satisfies cs))

/-- The outcome of a query at the time of a stamp. What is no query has no rows. -/
def evaluate (d : Document) (mode : Mode) (now text : String) (params : List Value) :
    Except Failure Outcome :=
  match Query.ofText text mode params with
  | .error e => .error (.refused e)
  | .ok none => .ok ⟨[], none⟩
  | .ok (some q) =>
    match q.rows d now with
    | .ok rows => .ok ⟨rows, none⟩
    | .error b => .error (.brokenOff b)

end Document
end ClientRecords
