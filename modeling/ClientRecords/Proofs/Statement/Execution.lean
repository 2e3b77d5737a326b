import ClientRecords.Execution
import ClientRecords.Proofs.Catalog
import ClientRecords.Proofs.Statement.Reader
/-!
What a statement makes of a document, as a function (`Document.execute`): it is read, bound to its
parameters and performed. A statement that is refused makes nothing of it, and a read leaves it as
it is. The executor comes to the same step by step (`Database.execute_eq`).
-/

namespace ClientRecords

variable {mode : Mode} {now source : String} {params : List Value}

theorem exists_of_map_eq_ok {ε α β : Type} {x : Except ε α} {f : α → β} {y : β}
    (h : x.map f = .ok y) : ∃ a, x = .ok a ∧ f a = y := by
  cases x with
  | error e => cases h
  | ok a => cases h; exact ⟨a, rfl, rfl⟩

namespace OpenStatement

variable {stamp : String}

/-- What a statement gives under parameters, if its clause binds to conditions. -/
inductive BindsTo (mode : Mode) (params : List Value) (stamp : String) :
    OpenStatement → Statement → Prop
  | insert (table : String) (orIgnore : Bool) (fields : List (String × FieldSource)) :
      BindsTo mode params stamp (.insert table orIgnore fields)
        (.insert table orIgnore (Statement.newRecord params stamp fields))
  | update (table : String) (assignments : List (String × Operand)) {clause : Clause}
      {cs : List Condition} (hb : clause.bind mode params = .ok cs) :
      BindsTo mode params stamp (.update table assignments clause)
        (.update table (Statement.overlay params stamp assignments) cs)
  | delete (table : String) {clause : Clause} {cs : List Condition}
      (hb : clause.bind mode params = .ok cs) :
      BindsTo mode params stamp (.delete table clause) (.delete table cs)
  | select (text : String) : BindsTo mode params stamp (.select text) (.select text params)

theorem bindsTo_of_bind {o : OpenStatement} {s : Statement}
    (h : o.bind mode params stamp = .ok s) : BindsTo mode params stamp o s := by
  cases o with
  | insert table orIgnore fields =>
    cases h
    exact .insert table orIgnore fields
  | update table assignments clause =>
    obtain ⟨cs, hb, rfl⟩ := exists_of_map_eq_ok h
    exact .update table assignments hb
  | delete table clause =>
    obtain ⟨cs, hb, rfl⟩ := exists_of_map_eq_ok h
    exact .delete table hb
  | select text =>
    cases h
    exact .select text

end OpenStatement

/-- A statement is read from its tokens and bound. -/
theorem Statement.exists_of_ofText {stamp : String} {s : Statement}
    (h : ofText source mode params stamp = .ok s) :
    ∃ tokens o, Token.scan? (Text.collapse source) = some tokens ∧
      OpenStatement.Reads (Text.collapse source) (OpenStatement.trimSemicolons tokens) o ∧
      OpenStatement.BindsTo mode params stamp o s := by
  obtain ⟨o, hread, hbind⟩ := exists_of_bind_eq_ok h
  obtain ⟨tokens, hscan, hr⟩ := OpenStatement.exists_of_ofText hread
  exact ⟨tokens, o, hscan, hr, OpenStatement.bindsTo_of_bind hbind⟩

theorem Table.ofName?_name (t : Table) : ofName? t.name = some t := by cases t <;> decide

theorem Table.asciiLowercase_name (t : Table) : Text.asciiLowercase t.name = t.name := by
  cases t <;> decide

theorem Query.ofText_of_read {q : OpenQuery} (h : OpenQuery.ofText source = .ok (some q)) :
    Query.ofText source mode params = (q.bind mode params).map some := by
  have hbind : Query.ofText source mode params
      = (q.bind mode params).bind fun q => .ok (some q) := by
    rw [Query.ofText, h]
    rfl
  rw [hbind]
  cases q.bind mode params <;> rfl

/-- A query is read from its tokens and bound. -/
theorem Query.exists_of_ofText {q : Query} (h : Query.ofText source mode params = .ok (some q)) :
    ∃ tokens o, Token.scan? source = some tokens ∧
      OpenQuery.ofTokens? (OpenStatement.trimSemicolons tokens) = some o ∧
      o.bind mode params = .ok q := by
  obtain ⟨o, hread, hbind⟩ := exists_of_bind_eq_ok h
  rw [OpenQuery.ofText] at hread
  cases hscan : Token.scan? source with
  | none =>
    rw [hscan] at hread
    cases hread
  | some tokens =>
    rw [hscan] at hread
    cases o with
    | none => cases hbind
    | some o =>
      obtain ⟨bound, hbound, hq⟩ := exists_of_bind_eq_ok hbind
      cases hq
      exact ⟨tokens, o, rfl, Except.ok.inj hread, hbound⟩

namespace Document

/-- A write to the table of a name. -/
def write (name : String) (change : Table → Option Document) : Except Failure Outcome :=
  match Table.ofName? name with
  | some t => .ok ⟨[], change t⟩
  | none => .error (.refused (.unknownTable name))

/-- The outcome of a statement at the time of a stamp. -/
def perform (d : Document) (mode : Mode) (now : String) : Statement → Except Failure Outcome
  | .insert name orIgnore r => write name fun t => d.insert? t orIgnore r
  | .update name overlay cs => write name fun t => some (d.update t overlay cs)
  | .delete name cs => write name fun t => some (d.delete t cs)
  | .select text params => d.evaluate mode now text params

/-- The outcome of the statement of a text. -/
def execute (d : Document) (mode : Mode) (now text : String) (params : List Value) :
    Except Failure Outcome :=
  match Statement.ofText text mode params now with
  | .error e => .error (.refused e)
  | .ok s => d.perform mode now s

variable {d : Document}

/-- A table is read by its name. -/
theorem rows_name (d : Document) (t : Table) : d.rows t.name = d.rowsOf t := by
  rw [rows, t.asciiLowercase_name, rowsOf]

theorem rowsOf_setRows (d : Document) (t : Table) (rows : List Record) :
    (d.setRows t rows).rowsOf t = rows := by
  rw [rowsOf, setRows, Catalog.get?_put_self, Option.getD_some]

/-- A removal without conditions takes every row. -/
theorem delete_nil (d : Document) (t : Table) : d.delete t [] = d.setRows t [] :=
  congrArg (d.setRows t) (List.filter_eq_nil_iff.mpr fun _ _ => by simp [Record.satisfies])

theorem execute_of_read {s : OpenStatement} (h : OpenStatement.ofText source = .ok s) :
    d.execute mode now source params = match s.bind mode params now with
      | .error e => .error (.refused e)
      | .ok s => d.perform mode now s := by
  rw [execute, Statement.ofText, h]
  rfl

theorem write_name (t : Table) (change : Table → Option Document) :
    write t.name change = .ok ⟨[], change t⟩ := by
  rw [write, Table.ofName?_name]

/-- A write that succeeds goes to a table of the closed set and gives no rows. -/
theorem eq_of_write {name : String} {change : Table → Option Document} {o : Outcome}
    (h : write name change = .ok o) :
    ∃ t, Table.ofName? name = some t ∧ o = ⟨[], change t⟩ := by
  rw [write] at h
  cases ht : Table.ofName? name with
  | none =>
    rw [ht] at h
    cases h
  | some t =>
    rw [ht] at h
    exact ⟨t, rfl, (Except.ok.inj h).symm⟩

/-- A query writes nothing. -/
theorem written_of_evaluate {o : Outcome} (h : d.evaluate mode now source params = .ok o) :
    o.written = none := by
  rw [evaluate] at h
  cases hq : Query.ofText source mode params with
  | error e =>
    rw [hq] at h
    cases h
  | ok read =>
    rw [hq] at h
    cases read with
    | none =>
      cases h
      rfl
    | some q =>
      simp only at h
      cases hrows : q.rows d now with
      | error b =>
        rw [hrows] at h
        cases h
      | ok rows =>
        rw [hrows] at h
        cases h
        rfl

theorem evaluate_of_read {q : OpenQuery} (h : OpenQuery.ofText source = .ok (some q)) :
    d.evaluate mode now source params = match q.bind mode params with
      | .error e => .error (.refused e)
      | .ok q => match q.rows d now with
        | .ok rows => .ok ⟨rows, none⟩
        | .error b => .error (.brokenOff b) := by
  rw [evaluate, Query.ofText_of_read h]
  cases q.bind mode params <;> rfl

end Document
end ClientRecords
