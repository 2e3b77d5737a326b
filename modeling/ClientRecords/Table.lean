import ClientRecords.Text.Lowercase
/-!
The closed set of tables that every document has.
-/

namespace ClientRecords

inductive Table where
  | users
  | accounts
  | leads
  | activities
  | tasks
  | payments
  | emailTemplates
  | emailTriggers
  deriving DecidableEq, Inhabited

namespace Table

def all : List Table :=
  [.users, .accounts, .leads, .activities, .tasks, .payments, .emailTemplates, .emailTriggers]

/-- The key of a table in a document. -/
def name : Table → String
  | .users => "users"
  | .accounts => "accounts"
  | .leads => "leads"
  | .activities => "activities"
  | .tasks => "tasks"
  | .payments => "payments"
  | .emailTemplates => "email_templates"
  | .emailTriggers => "email_triggers"

/-- The table of a name, the case of the letters A to Z being free. -/
def ofName? (s : String) : Option Table := all.find? (·.name == Text.asciiLowercase s)

theorem mem_all (t : Table) : t ∈ all := by cases t <;> decide

end Table
end ClientRecords
