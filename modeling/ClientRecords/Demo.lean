import ClientRecords.Calendar.Format
import ClientRecords.Database
/-!
Demonstration data: a small set of users, accounts, leads, activities, tasks and templates of
messages. Names and states go around in fixed lists and dates lie a fixed number of days from now,
so every run has the same shape; only the identifiers are new. The clock is read for every date and
for every statement, so the rows of a run are not all of one time. A database in which someone has
the address of the administrator is left as it is. The leads go to the users in the order of their
age, so where that order contradicts itself nothing is inserted but users and accounts.
-/

namespace ClientRecords
namespace Demo

def adminEmail : String := "admin@crm.com"

def users : List (String × String × String) := [
  ("Admin User", adminEmail, "admin"),
  ("Manager 1", "manager1@crm.com", "manager"),
  ("Agent 1", "agent1@crm.com", "agent"),
  ("Agent 2", "agent2@crm.com", "agent"),
  ("Agent 3", "agent3@crm.com", "agent")]

/-- An account; the revenue is in hundredths. -/
structure Account where
  name : String
  sector : String
  founded : Int64
  revenue : Nat
  employees : Int64
  location : String
  parent : Option String

def accounts : List Account := [
  ⟨"Acme Corporation", "technology", 1996, 110004, 2822, "United States", none⟩,
  ⟨"Betatech", "medical", 1986, 64718, 1185, "Kenya", none⟩,
  ⟨"Bluth Company", "technology", 1993, 124232, 3027, "United States", some "Acme Corporation"⟩,
  ⟨"Cheers", "entertainment", 1993, 426990, 6472, "United States", some "Massive Dynamic"⟩,
  ⟨"Globex Corporation", "technology", 2000, 122372, 2497, "Norway", none⟩,
  ⟨"Golddex", "finance", 2008, 5250, 165, "United States", none⟩,
  ⟨"Initech", "telecommunications", 1994, 639505, 20275, "United States", none⟩,
  ⟨"Massive Dynamic", "entertainment", 1989, 66506, 1095, "United States", none⟩,
  ⟨"Umbrella Corporation", "finance", 1998, 202214, 5113, "United States", none⟩,
  ⟨"Zotware", "software", 1979, 447847, 13809, "United States", none⟩]

def leadStatuses : List String :=
  ["New", "Contacted", "Qualified", "Proposal Sent", "Negotiation", "Won", "Lost"]

def priorities : List String := ["Low", "Medium", "High"]

def sources : List String :=
  ["Website", "LinkedIn", "Referral", "Cold Call", "Google Ads", "Trade Show", "Social Media",
    "WhatsApp"]

def companies : List String :=
  ["Alpha", "Beta", "Gamma", "Delta", "Epsilon", "Zeta", "Eta", "Theta", "Iota", "Kappa", "Lambda",
    "Mu"]

def activityTypes : List String := ["Call", "Email", "Meeting", "Note", "Video Call"]

def outcomes : List String := ["Positive", "Neutral", "Interested", "Not Interested"]

def subjects : List String :=
  ["Initial discovery call", "Follow-up on referral", "Sent product brochure", "Proposal sent",
    "Demo scheduling call"]

def durations : List Value := [.null, .int 15, .int 25, .int 35, .int 45]

def taskTitles : List String :=
  ["Send thank you note", "Send revised quotation", "Follow up CRM demo", "Schedule demo call",
    "Finalize SOW document"]

def taskStatuses : List String := ["Pending", "In Progress", "Completed", "Overdue", "Cancelled"]

/-- The place of a name in a template. -/
def placeOf (name : String) : String := "\x7b\x7b" ++ name ++ "\x7d\x7d"

def templates : List (String × String × String) := [
  ("Welcome Email", "Welcome to Our Services",
    "Dear " ++ placeOf "name" ++ ",\n\nThank you for your interest.\n\nBest,\nThe Team"),
  ("Follow-up Email", "Following Up on Our Discussion",
    "Hi " ++ placeOf "name" ++ ",\n\nJust following up on our conversation.\n\nBest,\n"
      ++ placeOf "agent"),
  ("Proposal Sent", "Proposal for " ++ placeOf "company",
    "Dear " ++ placeOf "name" ++ ",\n\nPlease find our proposal attached.\n\nRegards,\n"
      ++ placeOf "agent")]

/-- How many activities there are; they belong to the first leads. -/
def activityCount : Nat := 8

/-- What a run of seeding has inserted into each table, and why it broke off if it did. -/
structure Report where
  users : Nat
  accounts : Nat
  leads : Nat
  activities : Nat
  tasks : Nat
  templates : Nat
  skipped : Bool
  stopped : Option Breakdown
  deriving DecidableEq

namespace Report

def total (r : Report) : Nat :=
  r.users + r.accounts + r.leads + r.activities + r.tasks + r.templates

def text (r : Report) : String :=
  if r.skipped then "demo data already present, nothing inserted"
  else
    ", ".intercalate [s!"{r.users} users", s!"{r.accounts} accounts", s!"{r.leads} leads",
      s!"{r.activities} activities", s!"{r.tasks} tasks", s!"{r.templates} email templates"]

/-- The report of a run that finds the data present. -/
def present : Report := ⟨0, 0, 0, 0, 0, 0, true, none⟩

/-- The report of a run that inserts users and accounts and then breaks off. -/
def halfway (b : Breakdown) : Report :=
  ⟨Demo.users.length, Demo.accounts.length, 0, 0, 0, 0, false, some b⟩

/-- The report of a run that inserts all. -/
def full : Report :=
  ⟨Demo.users.length, Demo.accounts.length, companies.length, activityCount, companies.length,
    Demo.templates.length, false, none⟩

end Report

/-- What the rows are made with: the time at every reading of the clock, and identifiers that
nothing else has. -/
structure Source where
  now : Nat → DateTime
  fresh : Nat → String

/-- The number of the first row of a table. The rows of a run are numbered through all tables. -/
def firstRow : Table → Nat
  | .users => 0
  | .accounts => 5
  | .leads => 15
  | .activities => 27
  | .tasks => 35
  | .emailTemplates => 47
  | .payments | .emailTriggers => 50

namespace Source

/-- The time at a reading of the clock for a row. There are two for its dates and a third one for
the statement that inserts it. -/
def time (s : Source) (row reading : Nat) : DateTime := s.now (3 * row + reading)

/-- The time some days from a reading of the clock for a row. -/
def days (s : Source) (row reading : Nat) (n : Int) : Value :=
  .string ((s.time row reading).plusDays n).stamp

/-- The time stamp of the statement that inserts a row. -/
def stamp (s : Source) (row : Nat) : String := (s.time row 2).stamp

/-- The identifier of a row. -/
def id (s : Source) (row : Nat) : Value := .string (s.fresh row)

/-- The identifier of a lead. -/
def leadId (s : Source) (k : Nat) : Value := s.id (firstRow .leads + k)

end Source

/-- The item that a list going around has at a position. -/
def around (xs : List String) (k : Nat) : Value := .string (xs.getD (k % xs.length) "")

def userRows (s : Source) : List (Entries Value) :=
  users.mapIdx fun k (name, email, role) =>
    [("id", s.id (firstRow .users + k)), ("name", .string name), ("email", .string email),
      ("role", .string role)]

def accountRows (s : Source) : List (Entries Value) :=
  accounts.mapIdx fun k a =>
    [("id", s.id (firstRow .accounts + k)), ("account", .string a.name),
      ("sector", .string a.sector), ("year_established", .int a.founded),
      ("revenue", .float (Binary64.ofDecimal false a.revenue (-2))),
      ("employees", .int a.employees), ("office_location", .string a.location),
      ("subsidiary_of", a.parent.elim .null .string)]

/-- The leads, each assigned to one of the agents in turn. The day of a lead is read before the day
on which to follow it up. -/
def leadRows (s : Source) (agent : Nat → Value) : List (Entries Value) :=
  companies.mapIdx fun k company =>
    let n := k + 1
    let row := firstRow .leads + k
    let created := s.days row 0 (-9 * k)
    [("id", s.leadId k), ("name", .string s!"Customer {n}"),
      ("email", .string s!"customer{n}@example.com"), ("phone", .string s!"920000000{100 + n}"),
      ("company", .string s!"Company {company}"), ("source", around sources k),
      ("status", around leadStatuses k), ("priority", around priorities k),
      ("estimated_value", .count (50000 + n * 37500 % 900000)),
      ("currency", .string (if k < 10 then "PKR" else "USD")), ("assigned_to", agent k),
      ("follow_up", s.days row 1 (k % 7 + 1)), ("created_at", created), ("updated_at", created)]

def activityRows (s : Source) (agent : Nat → Value) : List (Entries Value) :=
  (List.range activityCount).map fun k =>
    let row := firstRow .activities + k
    [("id", s.id row), ("lead_id", s.leadId k), ("type", around activityTypes k),
      ("subject", around subjects k), ("outcome", around outcomes k),
      ("duration", durations.getD (k % durations.length) .null), ("performed_by", agent k),
      ("date", s.days row 0 (-2 * k))]

def taskRows (s : Source) (agent : Nat → Value) : List (Entries Value) :=
  (List.range companies.length).map fun k =>
    let row := firstRow .tasks + k
    [("id", s.id row), ("lead_id", s.leadId k), ("title", around taskTitles k),
      ("status", around taskStatuses k), ("priority", around priorities k),
      ("due_date", s.days row 0 (if k % 3 = 0 then -2 else k)), ("assigned_to", agent k)]

def templateRows (s : Source) (admin : Value) : List (Entries Value) :=
  templates.mapIdx fun k (name, subject, body) =>
    [("id", s.id (firstRow .emailTemplates + k)), ("name", .string name),
      ("subject", .string subject), ("body", .string body), ("created_by", admin)]

/-- The identifier of a row, null if it has none. -/
def idOf (r : Record) : Value := (r.get? "id").getD .null

/-- Has a user the address of the administrator? -/
def isAdmin (r : Record) : Bool := (r.get? "email").any (·.text == adminEmail)

/-- Can leads be assigned to a user? Everyone with a role can have them but administrators. -/
def isAgent (r : Record) : Bool := (r.get? "role").any (·.text != "admin")

/-- The users, oldest first; none if their order is found to contradict itself. -/
def byAge? (users : List Record) : Option (List Record) :=
  Query.sortRows? ⟨"created_at", .ascending⟩ users

def adminOf (users : List Record) : Value := ((users.find? isAdmin).map idOf).getD .null

/-- The agents in turn; where there are none, the administrator. -/
def agentOf (users : List Record) (k : Nat) : Value :=
  let agents := (users.filter isAgent).map idOf
  agents.getD (k % agents.length) (adminOf users)

end Demo

namespace Database

/-- Inserts a row unless its identifier is known. -/
def addRow (db : Database) (t : Table) (stamp : String) (fields : Entries Value) : Database :=
  (db.document.insert? t true (Statement.stamped stamp (Record.ofFields fields))).elim db db.replace

/-- Inserts rows that are numbered from some number on, each at its own time. -/
def addRows (db : Database) (t : Table) (s : Demo.Source) (first : Nat)
    (rows : List (Entries Value)) : Database :=
  (rows.zipIdx first).foldl (fun db (fields, row) => db.addRow t (s.stamp row) fields) db

/-- Inserts the rows of a table. -/
def fill (db : Database) (t : Table) (s : Demo.Source) (rows : List (Entries Value)) : Database :=
  db.addRows t s (Demo.firstRow t) rows

/-- Inserts the users and the accounts. -/
def fillPeople (db : Database) (s : Demo.Source) : Database :=
  (db.fill .users s (Demo.userRows s)).fill .accounts s (Demo.accountRows s)

/-- Inserts the leads, their activities and tasks, and the templates of messages, for some users. -/
def fillWork (db : Database) (s : Demo.Source) (users : List Record) : Database :=
  let agent := Demo.agentOf users
  let db := db.fill .leads s (Demo.leadRows s agent)
  let db := db.fill .activities s (Demo.activityRows s agent)
  let db := db.fill .tasks s (Demo.taskRows s agent)
  db.fill .emailTemplates s (Demo.templateRows s (Demo.adminOf users))

/-- Inserts the demonstration data unless an administrator is there. -/
def seed (db : Database) (s : Demo.Source) : Demo.Report × Database :=
  if (db.document.rowsOf .users).any Demo.isAdmin then (.present, db)
  else
    let db := db.fillPeople s
    match Demo.byAge? (db.document.rowsOf .users) with
    | some users => (.full, db.fillWork s users)
    | none => (.halfway .noOrder, db)

end Database
end ClientRecords
