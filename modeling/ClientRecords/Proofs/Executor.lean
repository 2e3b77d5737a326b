import ClientRecords.Executor
import ClientRecords.Proofs.Statement.Execution
/-!
What the steps of a statement come to. Every write looks its table up before it changes anything, so
a statement that fails has changed nothing, and one that succeeds leaves the document that it makes
of the one before (`Database.execute_eq`).
-/

namespace ClientRecords

/-- The database after an outcome. -/
def Database.settle (db : Database) (o : Outcome) : Database := o.written.elim db db.replace

namespace Action

variable {α β : Type} {x : Action α} {f : α → Action β} {a : α} {e : Failure}
  {db next : Database} {name : String} {t : Table}

theorem run_bind_of_ok (h : x.run.run db = (.ok a, next)) :
    (x >>= f).run.run db = (f a).run.run next := by
  rw [ExceptT.run_bind, StateT.run_bind, h]
  rfl

theorem run_bind_of_error (h : x.run.run db = (.error e, next)) :
    (x >>= f).run.run db = (.error e, next) := by
  rw [ExceptT.run_bind, StateT.run_bind, h]
  rfl

theorem run_table_of_some (h : Table.ofName? name = some t) (db : Database) :
    (table name).run.run db = (.ok t, db) := by
  rw [table, h]
  rfl

theorem run_table_of_none (h : Table.ofName? name = none) (db : Database) :
    (table name).run.run db = (.error (.refused (.unknownTable name)), db) := by
  rw [table, h]
  rfl

theorem run_document (db : Database) : document.run.run db = (.ok db.document, db) := rfl

theorem run_get (db : Database) : (get : Action Database).run.run db = (.ok db, db) := rfl

/-! ### One statement -/

theorem run_insert (h : Table.ofName? name = some t) (orIgnore : Bool) (r : Record)
    (db : Database) : (insert name orIgnore r).run.run db =
      (.ok (), db.settle ⟨[], db.document.insert? t orIgnore r⟩) := by
  rw [insert, run_bind_of_ok (run_table_of_some h db), run_bind_of_ok (run_document db),
    Document.insert?]
  cases orIgnore && db.document.hasIdOf t r <;> rfl

theorem run_update (h : Table.ofName? name = some t) (overlay : Record) (cs : List Condition)
    (db : Database) : (update name overlay cs).run.run db =
      (.ok (), db.replace (db.document.update t overlay cs)) :=
  run_bind_of_ok (run_table_of_some h db)

theorem run_delete (h : Table.ofName? name = some t) (cs : List Condition) (db : Database) :
    (delete name cs).run.run db = (.ok (), db.replace (db.document.delete t cs)) :=
  run_bind_of_ok (run_table_of_some h db)

theorem run_select (now text : String) (params : List Value) (db : Database) :
    (select now text params).run.run db = (db.evaluate now text params, db) := by
  rw [select, run_bind_of_ok (run_get db)]
  cases db.evaluate now text params <;> rfl

end Action

namespace Database

variable {db : Database} {now text : String} {params : List Value} {o : Outcome} {e : Failure}

/-- The rows of an outcome and the database that it leaves. Without one nothing is changed. -/
def conclude (db : Database) : Except Failure Outcome → Except Failure (List Record) × Database
  | .ok o => (.ok o.rows, db.settle o)
  | .error e => (.error e, db)

/-- A write that is carried out for a table comes to what it makes of the document, and in front of
an unknown table nothing has been done. -/
theorem run_write {name : String} {x : Action Unit} {change : Table → Option Document}
    (hsome : ∀ t, Table.ofName? name = some t → x.run.run db = (.ok (), db.settle ⟨[], change t⟩))
    (hnone : Table.ofName? name = none →
      x.run.run db = (.error (.refused (.unknownTable name)), db)) :
    (do x; return []).run.run db = db.conclude (Document.write name change) := by
  cases h : Table.ofName? name with
  | none =>
    rw [Action.run_bind_of_error (hnone h), Document.write, h]
    rfl
  | some t =>
    rw [Action.run_bind_of_ok (hsome t h), Document.write, h]
    rfl

theorem run_perform (db : Database) (now : String) (s : Statement) :
    (Action.perform now s).run.run db = db.conclude (db.document.perform db.mode now s) := by
  cases s with
  | insert name orIgnore r =>
    exact run_write (fun t h => Action.run_insert h orIgnore r db) fun h =>
      Action.run_bind_of_error (Action.run_table_of_none h db)
  | update name overlay cs =>
    exact run_write (fun t h => Action.run_update h overlay cs db) fun h =>
      Action.run_bind_of_error (Action.run_table_of_none h db)
  | delete name cs =>
    exact run_write (fun t h => Action.run_delete h cs db) fun h =>
      Action.run_bind_of_error (Action.run_table_of_none h db)
  | select text params =>
    rw [Action.perform, Action.run_select, evaluate, Document.perform]
    cases h : db.document.evaluate db.mode now text params with
    | error e => rfl
    | ok o =>
      rw [conclude, settle, Document.written_of_evaluate h]
      rfl

/-- What the steps of a statement come to is what the statement makes of the document: they fail
where it fails, and then the database is as it was. -/
theorem execute_eq (db : Database) (now text : String) (params : List Value) :
    db.execute now text params = db.conclude (db.document.execute db.mode now text params) := by
  rw [execute, Action.execute, Action.run_bind_of_ok (Action.run_get db), Document.execute]
  cases Statement.ofText text db.mode params now with
  | error e => rfl
  | ok s => exact db.run_perform now s

theorem execute_of_ok (h : db.document.execute db.mode now text params = .ok o) :
    db.execute now text params = (.ok o.rows, db.settle o) := by
  rw [execute_eq, h, conclude]

theorem execute_of_error (h : db.document.execute db.mode now text params = .error e) :
    db.execute now text params = (.error e, db) := by
  rw [execute_eq, h, conclude]

/-- What a statement gives is what its text makes of the document. -/
theorem exists_of_execute_eq_ok {rows : List Record} {next : Database}
    (h : db.execute now text params = (.ok rows, next)) :
    ∃ o, db.document.execute db.mode now text params = .ok o ∧ rows = o.rows ∧
      next = db.settle o := by
  cases ho : db.document.execute db.mode now text params with
  | error e =>
    rw [execute_of_error ho] at h
    cases h
  | ok o =>
    rw [execute_of_ok ho] at h
    cases h
    exact ⟨o, rfl, rfl, rfl⟩

end Database
end ClientRecords
