import ClientRecords.Database
/-!
Statements carried out on a database, step by step. A step that fails takes nothing back, so what
was changed before it stays changed. The table of a write is looked up before anything is changed:
a statement does to the database what it does to the document (`Database.execute_eq`), and one that
fails changes nothing.
-/

namespace ClientRecords

/-- Steps on a database. Where one fails they end, and the database is as the steps left it. -/
abbrev Action := ExceptT Failure (StateM Database)

namespace Action

/-- The table of a name. -/
def table (name : String) : Action Table :=
  match Table.ofName? name with
  | some t => pure t
  | none => throw (.refused (.unknownTable name))

def document : Action Document := return (← get).document

/-- Changes the document, which is not saved by that alone. -/
def change (f : Document → Document) : Action Unit :=
  modify fun db => { db with document := f db.document }

/-- Schedules a save of the document. -/
def save : Action Unit := modify fun db => { db with keeper := db.keeper.save db.document }

/-- Adds a row to the table of a name. A row that is ignored is not saved. -/
def insert (name : String) (orIgnore : Bool) (r : Record) : Action Unit := do
  let t ← table name
  let d ← document
  if orIgnore && d.hasIdOf t r then
    return
  change (·.append t r)
  save

/-- Writes fields into the rows of a table that satisfy the conditions. -/
def update (name : String) (overlay : Record) (cs : List Condition) : Action Unit := do
  let t ← table name
  change (·.update t overlay cs)
  save

/-- Removes the rows of a table that satisfy the conditions. -/
def delete (name : String) (cs : List Condition) : Action Unit := do
  let t ← table name
  change (·.delete t cs)
  save

/-- The rows that a query gives. -/
def select (now text : String) (params : List Value) : Action (List Record) := do
  let db ← get
  match db.evaluate now text params with
  | .ok rows => return rows
  | .error e => throw e

/-- Carries out a statement at the time of a stamp. A write gives no rows. -/
def perform (now : String) : Statement → Action (List Record)
  | .insert name orIgnore r => do
    insert name orIgnore r
    return []
  | .update name overlay cs => do
    update name overlay cs
    return []
  | .delete name cs => do
    delete name cs
    return []
  | .select text params => select now text params

/-- Reads a statement and carries it out. -/
def execute (now text : String) (params : List Value) : Action (List Record) := do
  let db ← get
  match Statement.ofText text db.mode params now with
  | .error e => throw (.refused e)
  | .ok s => perform now s

end Action

namespace Database

/-- The rows that a statement gives or why it fails, and the database that it leaves. -/
def execute (db : Database) (now text : String) (params : List Value) :
    Except Failure (List Record) × Database :=
  (Action.execute now text params).run.run db

end Database
end ClientRecords
