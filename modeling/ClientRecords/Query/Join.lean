import ClientRecords.Document
import ClientRecords.Query.Basic
/-!
Fields lent by joined tables. A row looks up the first matching row of the joined table and takes
from it the fields that are shown with such a table; a row without a match stays as it is.
-/

namespace ClientRecords
namespace Join

/-- Are two fields present, not null and equal? -/
def sameValue : Option Value → Option Value → Bool
  | some a, some b => !a.isNull && a.strictEq b
  | _, _ => false

/-- Does a row of the joined table match? The two fields are tried both ways round. -/
def matchesRow (j : Join) (row joined : Record) : Bool :=
  sameValue (joined.get? j.right) (row.get? j.left)
    || sameValue (joined.get? j.left) (row.get? j.right)

/-- Copies a field of the joined row, if it has it, under a name of the row. -/
def lend (joined : Record) (source target : String) (row : Record) : Record :=
  match joined.get? source with
  | some v => row.put target v
  | none => row

/-- Does a key of the row name the joined row? -/
def refersTo (row joined : Record) (key : String) : Bool :=
  match row.get? key, joined.get? "id" with
  | some k, some id => k.isTruthy && id.strictEq k
  | _, _ => false

/-- What a user lends to a row that is assigned to, or was performed by, that user. -/
def lendUser (joined row : Record) : Record :=
  let row :=
    if refersTo row joined "assigned_to" then
      lend joined "email" "assigned_email"
        (lend joined "role" "assigned_role" (lend joined "name" "assigned_name" row))
    else row
  if refersTo row joined "performed_by" then lend joined "name" "performed_by_name" row else row

/-- What a lead lends: its name, and its company if the row has none. -/
def lendLead (joined row : Record) : Record :=
  let row := lend joined "name" "lead_name" row
  if row.hasTruthy "company" then row else lend joined "company" "company" row

/-- What a matching row of a table lends to a row. -/
def merge (table : String) (joined row : Record) : Record :=
  if table == "users" then lendUser joined row
  else if table == "leads" then lendLead joined row
  else if table == "email_templates" then lend joined "name" "template_name" row
  else row

/-- A row with the fields lent by the first match in a joined table. -/
def apply (d : Document) (row : Record) (j : Join) : Record :=
  match (d.rows j.table).find? (j.matchesRow row) with
  | some joined => merge j.table joined row
  | none => row

end Join
end ClientRecords
