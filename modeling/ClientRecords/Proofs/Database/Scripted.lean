import ClientRecords.Proofs.Database.Inserted
import ClientRecords.Proofs.Demo
import ClientRecords.Proofs.Query.Rows
import ClientRecords.Proofs.Statement.Quoted
import ClientRecords.Proofs.Statement.RoundTrip
/-!
Seeding as a script of statements: the users with the address of the administrator are counted, each
row is inserted by a statement of its own at its own time, and the users are selected in the order
of their age. The script leaves the database that seeding leaves and has the same report, and it
fails where seeding breaks off (`script_eq_seed`). So all that holds of seeding holds of the
statements.
-/

namespace ClientRecords

/-- A count is truthy where something is counted. -/
theorem Value.isTruthy_count (n : Nat) : (Value.count n).isTruthy = decide (n ≠ 0) := by
  have hmin : Int64.minValue.toInt = -(2 ^ 63 : Int) := by decide
  have hmax : Int64.maxValue.toInt = (2 ^ 63 : Int) - 1 := by decide
  have hzero : clampInt n = 0 ↔ n = 0 := by
    rw [clampInt, if_neg (by omega)]
    split
    · exact iff_of_false (by decide) (by omega)
    · rw [← Int64.toInt_inj, Int64.toInt_ofInt_of_le (by omega) (by omega), Int64.toInt_zero,
        Int.natCast_eq_zero]
  rw [Bool.eq_iff_iff, decide_eq_true_eq, count, isTruthy, bne_iff_ne, Ne, Ne, hzero]

namespace Demo

/-- Different words that are names and no keywords. -/
structure AreColumns (cs : List String) : Prop where
  nonempty : cs ≠ []
  distinct : cs.Nodup
  plain : ∀ c ∈ cs, (Token.word c).isPlain = true
  bare : ∀ c ∈ cs, '.' ∉ c.toList
  free : ∀ c ∈ cs, (Token.word c).isAny Written.keywords = false

instance (cs : List String) : Decidable (AreColumns cs) :=
  decidable_of_iff (cs ≠ [] ∧ cs.Nodup ∧ (∀ c ∈ cs, (Token.word c).isPlain = true) ∧
    (∀ c ∈ cs, '.' ∉ c.toList) ∧ ∀ c ∈ cs, (Token.word c).isAny Written.keywords = false)
    ⟨fun ⟨hne, hdistinct, hplain, hbare, hfree⟩ => ⟨hne, hdistinct, hplain, hbare, hfree⟩,
      fun ⟨hne, hdistinct, hplain, hbare, hfree⟩ => ⟨hne, hdistinct, hplain, hbare, hfree⟩⟩

def AreColumns.name {cs : List String} (h : AreColumns cs) (c : String) (hc : c ∈ cs) :
    Written.Name where
  text := c
  plain := h.plain c hc
  bare := h.bare c hc
  free := h.free c hc

/-- What a statement inserts rows into, each with parameters for its columns. -/
structure Insert where
  table : Table
  columns : List String
  areColumns : AreColumns columns

namespace Insert

def names (i : Insert) : List Written.Name := i.columns.pmap i.areColumns.name fun _ hc => hc

theorem texts_names (i : Insert) : i.names.map (·.text) = i.columns := by
  have htexts : i.names.map (·.text) = i.columns.pmap (fun c _ => c) fun _ hc => hc :=
    List.map_pmap _
  rw [htexts, List.pmap_eq_map, List.map_id']

/-- The statement, which ignores rows that are known. -/
def change (i : Insert) : Written.Change :=
  .insert true ⟨i.table.name, i.table.name, .plain (by cases i.table <;> decide)⟩
    { items := i.names.map (·, .param .null)
      nonempty := by simpa [names] using i.areColumns.nonempty
      distinct := by
        rw [List.map_map]
        exact i.texts_names.symm ▸ i.areColumns.distinct }

def text (i : Insert) : String := i.change.text

/-- Inserts rows that are numbered from some number on, by a statement for each of them at its own
time. Tells how many there are. -/
def run (i : Insert) (s : Source) : Nat → List (Entries Value) → Action Nat
  | _, [] => pure 0
  | row, fields :: rows => do
    let _ ← Action.execute (s.stamp row) i.text (fields.map (·.2))
    let n ← i.run s (row + 1) rows
    return n + 1

/-- Do rows have the columns of the statement? -/
def Fits (i : Insert) (rows : List (Entries Value)) : Prop :=
  ∀ fields ∈ rows, fields.names = i.columns

def users : Insert where
  table := .users
  columns := ["id", "name", "email", "role"]
  areColumns := by decide

def accounts : Insert where
  table := .accounts
  columns := ["id", "account", "sector", "year_established", "revenue", "employees",
    "office_location", "subsidiary_of"]
  areColumns := by decide

def leads : Insert where
  table := .leads
  columns := ["id", "name", "email", "phone", "company", "source", "status", "priority",
    "estimated_value", "currency", "assigned_to", "follow_up", "created_at", "updated_at"]
  areColumns := by decide

def activities : Insert where
  table := .activities
  columns := ["id", "lead_id", "type", "subject", "outcome", "duration", "performed_by", "date"]
  areColumns := by decide

def tasks : Insert where
  table := .tasks
  columns := ["id", "lead_id", "title", "status", "priority", "due_date", "assigned_to"]
  areColumns := by decide

def templates : Insert where
  table := .emailTemplates
  columns := ["id", "name", "subject", "body", "created_by"]
  areColumns := by decide

/-- The statements of seeding. -/
def all : List Insert := [users, accounts, leads, activities, tasks, templates]

example : templates.text = "INSERT OR IGNORE INTO email_templates "
    ++ "(id, name, subject, body, created_by) VALUES (?, ?, ?, ?, ?)" := by decide +kernel

end Insert

def countText : String := "SELECT COUNT(*) as n FROM users WHERE email = ?"

def byAgeText : String := "SELECT * FROM users ORDER BY created_at"

/-- Inserts the rows of the table of a statement. -/
def Insert.fill (i : Insert) (s : Source) (rows : List (Entries Value)) : Action Nat :=
  i.run s (firstRow i.table) rows

/-- Seeding by statements. The time of the two queries does not matter. -/
def script (s : Source) : Action Report := do
  let stamp := (s.now 0).stamp
  let found ← Action.execute stamp countText [.string adminEmail]
  if (found.head?.bind (·.get? "n")).any (·.isTruthy) then
    return .present
  let users ← Insert.users.fill s (userRows s)
  let accounts ← Insert.accounts.fill s (accountRows s)
  let rows ← Action.execute stamp byAgeText []
  let leads ← Insert.leads.fill s (leadRows s (agentOf rows))
  let activities ← Insert.activities.fill s (activityRows s (agentOf rows))
  let tasks ← Insert.tasks.fill s (taskRows s (agentOf rows))
  let templates ← Insert.templates.fill s (templateRows s (adminOf rows))
  return ⟨users, accounts, leads, activities, tasks, templates, false, none⟩

variable {stamp text : String} {params : List Value} {db : Database} {i : Insert}
  {fields : Entries Value} {s : Source}

/-! ### Inserted rows -/

theorem read_params (v : Value) (n : Nat) : ∀ next,
    Written.read Written.Item.source next (List.replicate n (.param v))
      = (List.range' next n).map fun k => .operand (.param k) := by
  induction n with
  | zero => exact fun _ => rfl
  | succ n ih => exact fun next => congrArg (_ :: ·) (ih (next + 1))

theorem Insert.read_text (i : Insert) : OpenStatement.ofText i.text = .ok (.insert i.table.name
    true (i.columns.zip ((List.range' 0 i.columns.length).map fun k => .operand (.param k)))) := by
  have hlength : i.columns.length = i.names.length := by rw [← i.texts_names, List.length_map]
  have hname : Text.lowercase i.table.name = i.table.name := by cases i.table <;> decide
  have hnames : (i.names.map fun n => (n, Written.Item.param .null)).map (·.1.text)
      = i.columns := by
    rw [List.map_map]
    exact i.texts_names
  have hitems : (i.names.map fun n => (n, Written.Item.param .null)).map Prod.snd
      = List.replicate i.columns.length (.param .null) := by
    rw [List.map_map, hlength]
    exact List.map_const'
  have hread := i.change.ofText_openStatement
  rw [change, Written.Change.openStatement, Written.Assignments.names] at hread
  simp only [hname, hnames, hitems, read_params] at hread
  exact hread

/-- A statement adds the row of its parameters unless that is known. -/
theorem Insert.execute_text (h : fields.names = i.columns) :
    db.execute stamp i.text (fields.map (·.2)) = (.ok [], db.addRow i.table stamp fields) := by
  have hzip : i.columns.zip (fields.map (·.2)) = fields := by
    rw [← h, Entries.names, List.zip_map']
    exact List.map_id' fields
  have hlength : (fields.map (·.2)).length = i.columns.length := by
    rw [← h, Entries.names, List.length_map, List.length_map]
  have hperform : db.document.perform db.mode stamp (.insert i.table.name true
      (Statement.stamped stamp (Record.ofFields fields))) = .ok ⟨[], _⟩ :=
    Document.write_name i.table _
  have hexecute : db.document.execute db.mode stamp i.text (fields.map (·.2)) = _ :=
    Document.execute_of_read i.read_text
  rw [OpenStatement.bind, Statement.newRecord_zip stamp hlength, hzip] at hexecute
  exact Database.execute_of_ok (hexecute.trans hperform)

/-- The statements of rows add them all. -/
theorem Insert.run_of_fits (i : Insert) (s : Source) : ∀ {rows : List (Entries Value)},
    i.Fits rows → ∀ (first : Nat) (db : Database),
      (i.run s first rows).run.run db = (.ok rows.length, db.addRows i.table s first rows)
  | [], _, _, _ => rfl
  | fields :: rows, h, first, db => by
    obtain ⟨hfields, hrows⟩ := List.forall_mem_cons.mp h
    have hfirst := @i.execute_text (s.stamp first) db _ hfields
    have hrest := i.run_of_fits s hrows (first + 1) (db.addRow i.table (s.stamp first) fields)
    rw [run, Action.run_bind_of_ok hfirst, Action.run_bind_of_ok hrest]
    rfl

theorem Insert.fill_of_fits (i : Insert) (s : Source) {rows : List (Entries Value)}
    (h : i.Fits rows) (db : Database) :
    (i.fill s rows).run.run db = (.ok rows.length, db.fill i.table s rows) :=
  i.run_of_fits s h (firstRow i.table) db

/-! ### Users that are asked for -/

/-- The query that counts the users with the address of the administrator. -/
def counting : Query :=
  ⟨.count "n", "users", none, [], [⟨"email", .compare .eq (.string adminEmail)⟩], none, none, none⟩

/-- The query for the users in the order of their age. -/
def sorting : Query :=
  ⟨.rows, "users", none, [], [], some ⟨"created_at", .ascending⟩, none, none⟩

theorem ofText_countText (mode : Mode) :
    Query.ofText countText mode [.string adminEmail] = .ok (some counting) := by
  have hscan : Token.scan? countText = some [.word "SELECT", .word "COUNT", .openParen, .star,
      .closeParen, .word "as", .word "n", .word "FROM", .word "users", .word "WHERE", .word "email",
      .comparison .eq, .placeholder] := by decide +kernel
  have hread := @Query.ofText_of_scan countText mode [.string adminEmail] _
    ⟨.count "n", "users", none, [], Clause.ofTokens 0 [.word "email", .comparison .eq,
      .placeholder], none, none, none⟩ hscan (by decide +kernel)
  rw [hread]
  cases mode <;> rfl

theorem ofText_byAgeText (mode : Mode) : Query.ofText byAgeText mode [] = .ok (some sorting) := by
  have hscan : Token.scan? byAgeText = some [.word "SELECT", .star, .word "FROM", .word "users",
      .word "ORDER", .word "BY", .word "created_at"] := by decide +kernel
  have hread := @Query.ofText_of_scan byAgeText mode [] _
    ⟨.rows, "users", none, [], .always, some ⟨"created_at", .ascending⟩, none, none⟩ hscan
    (by decide +kernel)
  rw [hread]
  cases mode <;> rfl

/-- A text that is collapsed already gives the rows of the query that it reads as. -/
theorem execute_of_ofText {q : Query} (hcollapse : Text.collapse text = text)
    (hq : Query.ofText text db.mode params = .ok (some q)) :
    db.execute stamp text params = match q.rows db.document stamp with
      | .ok rows => (.ok rows, db)
      | .error b => (.error (.brokenOff b), db) := by
  rw [Database.execute_eq, Document.execute_of_query (hcollapse.symm ▸ hq)]
  cases q.rows db.document stamp <;> rfl

theorem satisfies_email :
    (Record.satisfies · [⟨"email", .compare .eq (.string adminEmail)⟩]) = isAdmin := by
  funext r
  rw [Statement.satisfies_byName, Statement.hasTextOf, isAdmin]
  cases r.get? "email" with
  | none => decide
  | some v => rfl

/-- The count is truthy where there is an administrator. -/
theorem execute_count (db : Database) (stamp : String) : ∃ r,
    db.execute stamp countText [.string adminEmail] = (.ok [r], db) ∧
      (r.get? "n").any (·.isTruthy) = (db.document.rowsOf .users).any isAdmin := by
  have husers : db.document.rows "users" = db.document.rowsOf .users := db.document.rows_name .users
  have hrows : counting.rows db.document stamp
      = .ok [Query.countRow "n" ((db.document.rowsOf .users).filter isAdmin).length] := by
    simp only [Query.rows, counting, Query.filtered, husers, satisfies_email]
  have hexecute := @execute_of_ofText stamp countText _ db counting (by decide +kernel)
    (ofText_countText db.mode)
  rw [hrows] at hexecute
  refine ⟨_, hexecute, ?_⟩
  have hn : (Query.countRow "n" ((db.document.rowsOf .users).filter isAdmin).length).get? "n"
      = some (.count ((db.document.rowsOf .users).filter isAdmin).length) := by
    rw [Query.countRow, Record.get?_ofFields]
    rfl
  rw [hn, Option.any_some, Value.isTruthy_count, Bool.eq_iff_iff, decide_eq_true_eq, Ne,
    List.length_eq_zero_iff, List.filter_eq_nil_iff, List.any_eq_true]
  simp

/-- The users come in the order of their age, if they have one. -/
theorem execute_byAge (db : Database) (stamp : String) :
    db.execute stamp byAgeText [] = match byAge? (db.document.rowsOf .users) with
      | some rows => (.ok rows, db)
      | none => (.error (.brokenOff .noOrder), db) := by
  have husers : db.document.rows "users" = db.document.rowsOf .users := db.document.rows_name .users
  have hlisted : sorting.listed db.document = db.document.rowsOf .users := by
    simp [Query.listed, sorting, husers, Record.satisfies]
  have hrows : sorting.rows db.document stamp = match byAge? (db.document.rowsOf .users) with
      | some rows => .ok rows
      | none => .error .noOrder := by
    have hplain : sorting.plainRows? db.document = byAge? (db.document.rowsOf .users) := by
      rw [Query.plainRows?_eq, hlisted]
      exact Option.map_id'
    rw [← hplain]
    rfl
  have hexecute := @execute_of_ofText stamp byAgeText _ db sorting (by decide +kernel)
    (ofText_byAgeText db.mode)
  rw [hexecute, hrows]
  cases byAge? (db.document.rowsOf .users) <;> rfl

/-! ### The script -/

theorem fits_mapIdx {α : Type} {xs : List α} {f : Nat → α → Entries Value}
    (h : ∀ k x, (f k x).names = i.columns) : i.Fits (xs.mapIdx f) := by
  intro fields hfields
  obtain ⟨k, hk, rfl⟩ := List.mem_mapIdx.mp hfields
  exact h k _

theorem fits_rowsFor (s : Source) (users : List Record) :
    ∀ i ∈ Insert.all, i.Fits (rowsFor s users i.table) := by
  simp only [Insert.all, List.forall_mem_cons, List.not_mem_nil, false_implies, implies_true,
    and_true]
  refine ⟨fits_mapIdx fun _ _ => rfl, fits_mapIdx fun _ _ => rfl, fits_mapIdx fun _ _ => rfl,
    ?_, ?_, fits_mapIdx fun _ _ => rfl⟩
  · exact List.forall_mem_map.mpr fun _ _ => rfl
  · exact List.forall_mem_map.mpr fun _ _ => rfl

/-- A statement of seeding fills its table. -/
theorem fill_rowsFor (hi : i ∈ Insert.all) (s : Source) (users : List Record) (db : Database) :
    (i.fill s (rowsFor s users i.table)).run.run db =
      (.ok (rowsFor s users i.table).length, db.fill i.table s (rowsFor s users i.table)) :=
  i.fill_of_fits s (fits_rowsFor s users i hi) db

/-- The rows are as many as the report says. -/
theorem full_eq (s : Source) (users : List Record) :
    (⟨(rowsFor s [] .users).length, (rowsFor s [] .accounts).length,
      (rowsFor s users .leads).length, (rowsFor s users .activities).length,
      (rowsFor s users .tasks).length, (rowsFor s users .emailTemplates).length, false, none⟩ :
        Report) = .full := by
  simp [Report.full, rowsFor, userRows, accountRows, leadRows, activityRows, taskRows,
    templateRows]

/-- The script does what seeding does. -/
theorem script_eq_seed (db : Database) (s : Source) : (script s).run.run db =
    (match (db.seed s).1.stopped with
      | none => .ok (db.seed s).1
      | some b => .error (.brokenOff b), (db.seed s).2) := by
  obtain ⟨r, hcount, hadmin⟩ := execute_count db (s.now 0).stamp
  rw [script, Action.run_bind_of_ok hcount, List.head?_cons, Option.bind_some, hadmin,
    Database.seed]
  cases (db.document.rowsOf .users).any isAdmin with
  | true => rfl
  | false =>
    have husers := @fill_rowsFor .users (by simp [Insert.all]) s [] db
    have haccounts : _ = (_, db.fillPeople s) :=
      @fill_rowsFor .accounts (by simp [Insert.all]) s [] _
    have hage := execute_byAge (db.fillPeople s) (s.now 0).stamp
    simp only [Bool.false_eq_true, if_false]
    refine (Action.run_bind_of_ok husers).trans ((Action.run_bind_of_ok haccounts).trans ?_)
    generalize db.fillPeople s = db at hage ⊢
    cases hsorted : byAge? (db.document.rowsOf .users) with
    | none =>
      simp only [hsorted] at hage
      exact Action.run_bind_of_error hage
    | some rows =>
      simp only [hsorted] at hage
      have hleads := @fill_rowsFor .leads (by simp [Insert.all]) s rows
      have hactivities := @fill_rowsFor .activities (by simp [Insert.all]) s rows
      have htasks := @fill_rowsFor .tasks (by simp [Insert.all]) s rows
      have htemplates := @fill_rowsFor .templates (by simp [Insert.all]) s rows
      refine (Action.run_bind_of_ok hage).trans ((Action.run_bind_of_ok (hleads _)).trans
        ((Action.run_bind_of_ok (hactivities _)).trans ((Action.run_bind_of_ok (htasks _)).trans
        ((Action.run_bind_of_ok (htemplates _)).trans ?_))))
      exact congrArg (fun report => (Except.ok report, _)) (full_eq s rows)

end Demo
end ClientRecords
