import ClientRecords.Proofs.Database.Duplicates
import ClientRecords.Proofs.Demo
import ClientRecords.Proofs.Document.Growth
import ClientRecords.Proofs.Query.Breakdown
/-!
Seeding a database. Where someone has the address of the administrator nothing happens. Elsewhere
rows are put behind those that are there, as many as the report says, and each lead, activity and
task belongs to a user who is no administrator, each activity and task to a lead of the same run
(`seed_appends`). Identifiers that nothing else has are all this takes, for then every row is added;
but where the order of the users' age contradicts itself, the run ends after users and accounts, and
as there is an administrator then, no later run makes up for it.
-/

namespace ClientRecords

/-- Does a record refer by a field to one of some rows, which has an id? -/
def Record.RefersTo (r : Record) (field : String) (rows : List Record) : Prop :=
  ∃ row ∈ rows, ∃ id, id ≠ .null ∧ row.get? "id" = some id ∧ r.get? field = some id

theorem Statement.get?_stamped (stamp : String) (r : Record) {name : String}
    (h : name ∉ stampFields) : (stamped stamp r).get? name = r.get? name := by
  have hput : ∀ (r : Record) (field : String), name ≠ field →
      (putStamp stamp r field).get? name = r.get? name := by
    intro r field hne
    rw [putStamp]
    split
    · rfl
    · exact r.get?_put_of_ne _ (Ne.symm hne)
  simp only [stampFields, List.mem_cons, List.not_mem_nil, or_false, not_or] at h
  rw [stamped, stampFields, List.foldl_cons, List.foldl_cons, List.foldl_nil, hput _ _ h.2,
    hput _ _ h.1]

namespace Demo

/-- The row that is made of some fields. -/
def newRow (stamp : String) (fields : Entries Value) : Record :=
  Statement.stamped stamp (Record.ofFields fields)

theorem get?_newRow (stamp : String) (fields : Entries Value) {name : String}
    (h : name ∉ Statement.stampFields) :
    (newRow stamp fields).get? name = Entries.get? fields.reverse name := by
  rw [newRow, Statement.get?_stamped stamp _ h, Record.get?_ofFields]

variable {s : Source} {db : Database} {first : Nat} {rows : List (Entries Value)}
  {fields : Entries Value} {users : List Record} {r : Record}

/-- The number of rows that a report has for a table. -/
def Report.inserted (r : Report) : Table → Nat
  | .users => r.users
  | .accounts => r.accounts
  | .leads => r.leads
  | .activities => r.activities
  | .tasks => r.tasks
  | .emailTemplates => r.templates
  | .payments | .emailTriggers => 0

/-! ### Identifiers -/

/-- Identifiers that no row of a document has, no two of them the same. -/
structure Source.IsNewTo (s : Source) (d : Document) : Prop where
  unknown : ∀ t, ∀ r ∈ d.rowsOf t, ∀ k, r.get? "id" ≠ some (s.id k)
  distinct : ∀ j k, s.id j = s.id k → j = k

/-- Rows that take one identifier after the other. -/
def Source.Numbers (s : Source) (first : Nat) (rows : List (Entries Value)) : Prop :=
  ∀ k (h : k < rows.length), Entries.get? rows[k].reverse "id" = some (s.id (first + k))

theorem numbers_rowsFor (s : Source) (users : List Record) (t : Table) :
    s.Numbers (firstRow t) (rowsFor s users t) := by
  intro k hk
  cases t with
  | payments | emailTriggers => cases hk
  | users | accounts | leads | activities | tasks | emailTemplates =>
    simp [rowsFor, userRows, accountRows, leadRows, activityRows, taskRows, templateRows,
      Entries.get?, Source.leadId]

/-- The records that rows become which are numbered from some number on. -/
def made (s : Source) (first : Nat) (rows : List (Entries Value)) : List Record :=
  (rows.zipIdx first).map fun (fields, row) => newRow (s.stamp row) fields

theorem exists_of_mem_made (h : r ∈ made s first rows) :
    ∃ fields ∈ rows, ∃ stamp, r = newRow stamp fields := by
  obtain ⟨⟨fields, row⟩, hmem, rfl⟩ := List.mem_map.mp h
  exact ⟨fields, List.fst_mem_of_mem_zipIdx hmem, s.stamp row, rfl⟩

theorem exists_mem_made (s : Source) (first : Nat) (h : fields ∈ rows) :
    ∃ stamp, newRow stamp fields ∈ made s first rows := by
  have hfields : fields ∈ (rows.zipIdx first).map Prod.fst := by rwa [List.zipIdx_map_fst]
  obtain ⟨⟨fields, row⟩, hmem, rfl⟩ := List.mem_map.mp hfields
  exact ⟨s.stamp row, List.mem_map.mpr ⟨_, hmem, rfl⟩⟩

/-- What a run adds to a table, for users that it is assigned to. -/
def newRows (s : Source) (users : List Record) (t : Table) : List Record :=
  made s (firstRow t) (rowsFor s users t)

/-- What the first part of a run adds to each table. -/
def newPeople (s : Source) : Table → List Record
  | .users => made s (firstRow .users) (userRows s)
  | .accounts => made s (firstRow .accounts) (accountRows s)
  | _ => []

/-! ### The rows that are added -/

/-- The user that a row is made for. -/
structure IsUser (user : String × String × String) (r : Record) : Prop where
  id : ∃ x, r.get? "id" = some (.string x)
  email : r.get? "email" = some (.string user.2.1)
  role : r.get? "role" = some (.string user.2.2)

theorem isUser_newRow (s : Source) (stamp : String) (row : Nat)
    (user : String × String × String) :
    IsUser user (newRow stamp [("id", s.id row), ("name", .string user.1),
      ("email", .string user.2.1), ("role", .string user.2.2)]) where
  id := ⟨s.fresh row, by rw [get?_newRow _ _ (by decide)]; simp [Entries.get?, Source.id]⟩
  email := by rw [get?_newRow _ _ (by decide)]; simp [Entries.get?]
  role := by rw [get?_newRow _ _ (by decide)]; simp [Entries.get?]

theorem exists_user_of_mem (hr : r ∈ newPeople s .users) : ∃ user ∈ Demo.users, IsUser user r := by
  obtain ⟨fields, hfields, stamp, rfl⟩ := exists_of_mem_made hr
  obtain ⟨k, hk, rfl⟩ := List.mem_mapIdx.mp hfields
  exact ⟨Demo.users[k], List.getElem_mem hk, isUser_newRow s stamp _ _⟩

theorem exists_row_of_user (s : Source) {user : String × String × String}
    (h : user ∈ Demo.users) : ∃ r ∈ newPeople s .users, IsUser user r := by
  obtain ⟨k, hk, rfl⟩ := List.getElem_of_mem h
  have hfields : _ ∈ userRows s := List.mem_mapIdx.mpr ⟨k, hk, rfl⟩
  obtain ⟨stamp, hmem⟩ := exists_mem_made s (firstRow .users) hfields
  exact ⟨_, hmem, isUser_newRow s stamp _ _⟩

theorem IsUser.isAdmin_eq {user : String × String × String} (h : IsUser user r) :
    isAdmin r = (user.2.1 == adminEmail) := by
  rw [isAdmin, h.email]
  rfl

theorem IsUser.isAgent_eq {user : String × String × String} (h : IsUser user r) :
    isAgent r = (user.2.2 != "admin") := by
  rw [isAgent, h.role]
  rfl

theorem assigned_of_mem_leads (hr : r ∈ newRows s users .leads) :
    ∃ k, r.get? "assigned_to" = some (agentOf users k) := by
  obtain ⟨fields, hfields, stamp, rfl⟩ := exists_of_mem_made hr
  obtain ⟨k, hk, rfl⟩ := List.mem_mapIdx.mp hfields
  exact ⟨k, by rw [get?_newRow _ _ (by decide)]; simp [Entries.get?]⟩

theorem exists_lead {k : Nat} (hk : k < companies.length) :
    ∃ r ∈ newRows s users .leads, r.get? "id" = some (s.leadId k) := by
  have hlength : k < (rowsFor s users .leads).length := by simpa [rowsFor, leadRows] using hk
  obtain ⟨stamp, hmem⟩ := exists_mem_made s (firstRow .leads) (List.getElem_mem hlength)
  refine ⟨_, hmem, ?_⟩
  rw [get?_newRow _ _ (by decide), numbers_rowsFor s users .leads k hlength, Source.leadId]

theorem links_of_mem_activities (hr : r ∈ newRows s users .activities) :
    ∃ k < companies.length, r.get? "performed_by" = some (agentOf users k) ∧
      r.get? "lead_id" = some (s.leadId k) := by
  obtain ⟨fields, hfields, stamp, rfl⟩ := exists_of_mem_made hr
  obtain ⟨k, hk, rfl⟩ := List.mem_map.mp hfields
  refine ⟨k, Nat.lt_of_lt_of_le (List.mem_range.mp hk) (by decide), ?_, ?_⟩
  · rw [get?_newRow _ _ (by decide)]; simp [Entries.get?]
  · rw [get?_newRow _ _ (by decide)]; simp [Entries.get?]

theorem links_of_mem_tasks (hr : r ∈ newRows s users .tasks) :
    ∃ k < companies.length, r.get? "assigned_to" = some (agentOf users k) ∧
      r.get? "lead_id" = some (s.leadId k) := by
  obtain ⟨fields, hfields, stamp, rfl⟩ := exists_of_mem_made hr
  obtain ⟨k, hk, rfl⟩ := List.mem_map.mp hfields
  refine ⟨k, List.mem_range.mp hk, ?_, ?_⟩
  · rw [get?_newRow _ _ (by decide)]; simp [Entries.get?]
  · rw [get?_newRow _ _ (by decide)]; simp [Entries.get?]

/-- Where there are agents, each turn is that of one of them. -/
theorem exists_agent (h : ∃ u ∈ users, isAgent u = true) (k : Nat) :
    ∃ u ∈ users, isAgent u = true ∧ agentOf users k = idOf u := by
  have hpos : 0 < ((users.filter isAgent).map idOf).length := by
    obtain ⟨u, hu, hagent⟩ := h
    exact List.length_pos_of_mem (List.mem_map_of_mem (List.mem_filter.mpr ⟨hu, hagent⟩))
  have hturn := Nat.mod_lt k hpos
  have hmem := List.getElem_mem hturn
  obtain ⟨u, hu, hid⟩ := List.mem_map.mp hmem
  obtain ⟨hu, hagent⟩ := List.mem_filter.mp hu
  refine ⟨u, hu, hagent, ?_⟩
  simp only [agentOf, List.getD_eq_getElem?_getD, List.getElem?_eq_getElem hturn,
    Option.getD_some]
  exact hid.symm

end Demo

namespace Database

open Demo

variable {db : Database} {s : Source} {t : Table}

/-! ### Growth -/

theorem document_addRow {stamp x : String} {fields : Entries Value}
    (hid : Entries.get? fields.reverse "id" = some (.string x))
    (hnew : ∀ r ∈ db.document.rowsOf t, r.get? "id" ≠ some (.string x)) :
    (db.addRow t stamp fields).document = db.document.append t (newRow stamp fields) := by
  have hget : (newRow stamp fields).get? "id" = some (.string x) := by
    rw [get?_newRow _ _ (by decide), hid]
  have hunknown : db.document.hasIdOf t (newRow stamp fields) = false := by
    refine Bool.eq_false_iff.mpr fun hhas => ?_
    obtain ⟨-, r, hr, v, hv, hequal⟩ := (Document.hasIdOf_iff hget).mp hhas
    exact hnew r hr (hv.trans (congrArg some (Value.strictEq_string_iff.mp hequal)))
  rw [newRow] at hunknown
  simp [addRow, Document.insert?, hunknown, replace, newRow]

/-- Rows with new identifiers are all added. -/
theorem growsBy_addRows (hdistinct : ∀ j k, s.id j = s.id k → j = k) :
    ∀ {rows : List (Entries Value)} {first : Nat} {db : Database}, s.Numbers first rows →
      (∀ r ∈ db.document.rowsOf t, ∀ k, first ≤ k → r.get? "id" ≠ some (s.id k)) →
        db.document.GrowsBy (db.addRows t s first rows).document fun u =>
          if u = t then made s first rows else []
  | [], first, db, _, _ => by
    have hnone : (fun u => if u = t then made s first [] else []) = fun _ => [] :=
      funext fun u => by simp [made]
    rw [hnone]
    exact .refl _
  | fields :: rows, first, db, hrows, hnew => by
    have hid : Entries.get? fields.reverse "id" = some (s.id first) := hrows 0 (Nat.succ_pos _)
    have hdoc := @document_addRow db t (s.stamp first) _ fields hid fun r hr =>
      hnew r hr first (Nat.le_refl _)
    have hrest : s.Numbers (first + 1) rows := fun k hk => by
      rw [Nat.add_right_comm, Nat.add_assoc]
      exact hrows (k + 1) (Nat.succ_lt_succ hk)
    have hstep := db.document.growsBy_append t (newRow (s.stamp first) fields)
    rw [← hdoc] at hstep
    have hlater : ∀ r ∈ (db.addRow t (s.stamp first) fields).document.rowsOf t, ∀ k,
        first + 1 ≤ k → r.get? "id" ≠ some (s.id k) := by
      intro r hr k hk
      rw [hstep.rows, if_pos rfl] at hr
      rcases List.mem_append.mp hr with hold | hr
      · exact hnew r hold k (Nat.le_of_succ_le hk)
      · rw [List.mem_singleton.mp hr, get?_newRow _ _ (by decide), hid]
        intro heq
        have := hdistinct _ _ (Option.some.inj heq)
        omega
    have hgrows := hstep.trans (growsBy_addRows hdistinct hrest hlater)
    have hboth : (fun u => (if u = t then [newRow (s.stamp first) fields] else [])
          ++ if u = t then made s (first + 1) rows else [])
        = fun u => if u = t then made s first (fields :: rows) else [] := by
      funext u
      by_cases hu : u = t
      · simp only [if_pos hu, made, List.zipIdx_cons, List.map_cons, List.singleton_append]
      · simp only [if_neg hu, List.append_nil]
    rwa [hboth] at hgrows

/-- The rows of a table are added to a document that has only grown in other tables. -/
theorem growsBy_fill {d : Document} {new : Table → List Record} (hs : s.IsNewTo d)
    (hgrown : d.GrowsBy db.document new) (hnone : new t = []) (users : List Record) :
    d.GrowsBy (db.fill t s (rowsFor s users t)).document
      (Function.update new t (newRows s users t)) := by
  have hnew : ∀ r ∈ db.document.rowsOf t, ∀ k, firstRow t ≤ k → r.get? "id" ≠ some (s.id k) := by
    intro r hr k _
    rw [hgrown.rows, hnone, List.append_nil] at hr
    exact hs.unknown t r hr k
  have hadded : (fun u => new u ++ if u = t then newRows s users t else [])
      = Function.update new t (newRows s users t) := by
    funext u
    by_cases hu : u = t
    · subst hu
      rw [if_pos rfl, hnone, List.nil_append, Function.update_self]
    · rw [if_neg hu, List.append_nil, Function.update_of_ne hu]
  rw [← hadded]
  exact hgrown.trans (growsBy_addRows hs.distinct (numbers_rowsFor s users t) hnew)

theorem growsBy_fillPeople (hs : s.IsNewTo db.document) :
    db.document.GrowsBy (db.fillPeople s).document (newPeople s) := by
  have husers : db.document.GrowsBy (db.fill .users s (userRows s)).document _ :=
    growsBy_fill hs (.refl _) rfl []
  have haccounts : db.document.GrowsBy (db.fillPeople s).document _ :=
    growsBy_fill hs husers rfl []
  convert haccounts using 1
  funext t
  cases t <;> rfl

theorem growsBy_fillWork {d : Document} (hs : s.IsNewTo d)
    (hpeople : d.GrowsBy db.document (newPeople s)) (users : List Record) :
    d.GrowsBy (db.fillWork s users).document (newRows s users) := by
  have hleads : d.GrowsBy (db.fill .leads s (leadRows s (agentOf users))).document _ :=
    growsBy_fill hs hpeople rfl users
  have hwork : d.GrowsBy (db.fillWork s users).document _ :=
    growsBy_fill hs (growsBy_fill hs (growsBy_fill hs hleads rfl users) rfl users) rfl users
  convert hwork using 1
  funext t
  cases t <;> rfl

/-! ### What the new rows refer to -/

/-- The users who are no administrators. -/
def agents (d : Document) : List Record :=
  (d.rowsOf .users).filter fun u => isAgent u && !isAdmin u

/-- The new rows refer to users who are no administrators, and to new leads. -/
structure Refers (next : Document) (new : Table → List Record) : Prop where
  leads : ∀ r ∈ new .leads, r.RefersTo "assigned_to" (agents next)
  activities : ∀ r ∈ new .activities,
    r.RefersTo "performed_by" (agents next) ∧ r.RefersTo "lead_id" (new .leads)
  tasks : ∀ r ∈ new .tasks,
    r.RefersTo "assigned_to" (agents next) ∧ r.RefersTo "lead_id" (new .leads)

theorem refers_newPeople (next : Document) (s : Source) : Refers next (newPeople s) where
  leads := nofun
  activities := nofun
  tasks := nofun

section Users

variable {next : Document}
  (hids : ∀ r ∈ db.document.rowsOf .users, ∃ id, id ≠ .null ∧ r.get? "id" = some id)
  (hadmin : (db.document.rowsOf .users).any isAdmin = false)
  (husers : next.rowsOf .users = db.document.rowsOf .users ++ newPeople s .users)

include husers in
/-- The administrator is among the users that are added. -/
theorem any_isAdmin_of_people : (next.rowsOf .users).any isAdmin = true := by
  have hmem : ("Admin User", adminEmail, "admin") ∈ Demo.users := by decide
  obtain ⟨r, hr, huser⟩ := exists_row_of_user s hmem
  rw [husers, List.any_eq_true]
  exact ⟨r, List.mem_append_right _ hr, by rw [huser.isAdmin_eq]; decide⟩

include husers in
/-- So is an agent. -/
theorem exists_agent_of_people : ∃ u ∈ next.rowsOf .users, isAgent u = true := by
  have hmem : ("Manager 1", "manager1@crm.com", "manager") ∈ Demo.users := by decide
  obtain ⟨r, hr, huser⟩ := exists_row_of_user s hmem
  rw [husers]
  exact ⟨r, List.mem_append_right _ hr, by rw [huser.isAgent_eq]; decide⟩

include hids hadmin husers in
/-- A user who is an agent is no administrator and has an id. -/
theorem agent_of_mem_people {u : Record} (hu : u ∈ next.rowsOf .users) (hagent : isAgent u = true) :
    u ∈ agents next ∧ idOf u ≠ .null ∧ u.get? "id" = some (idOf u) := by
  have hfacts : isAdmin u = false ∧ ∃ id, id ≠ .null ∧ u.get? "id" = some id := by
    rw [husers] at hu
    rcases List.mem_append.mp hu with hold | hnew
    · exact ⟨by simpa using List.any_eq_false.mp hadmin u hold, hids u hold⟩
    · obtain ⟨user, huser, hu⟩ := exists_user_of_mem hnew
      have hrole : ∀ user ∈ Demo.users, (user.2.2 != "admin") = true →
          (user.2.1 == adminEmail) = false := by decide
      obtain ⟨x, hx⟩ := hu.id
      exact ⟨hu.isAdmin_eq.trans (hrole user huser (hu.isAgent_eq ▸ hagent)), .string x, nofun, hx⟩
  obtain ⟨hnot, id, hid, hget⟩ := hfacts
  have hidOf : idOf u = id := by rw [idOf, hget, Option.getD_some]
  exact ⟨List.mem_filter.mpr ⟨hu, by simp [hagent, hnot]⟩, hidOf ▸ hid, hidOf ▸ hget⟩

include hids hadmin husers in
theorem refers_newRows {users : List Record} (hperm : users.Perm (next.rowsOf .users)) :
    Refers next (newRows s users) := by
  have hagent : ∀ {r : Record} {field : String} {k : Nat},
      r.get? field = some (agentOf users k) → r.RefersTo field (agents next) := by
    intro r field k hr
    obtain ⟨v, hv, hisAgent⟩ := exists_agent_of_people husers
    obtain ⟨u, hu, hturn, hid⟩ := exists_agent ⟨v, hperm.mem_iff.mpr hv, hisAgent⟩ k
    obtain ⟨hmem, hne, hget⟩ :=
      agent_of_mem_people hids hadmin husers (hperm.mem_iff.mp hu) hturn
    exact ⟨u, hmem, idOf u, hne, hget, hid ▸ hr⟩
  have hlead : ∀ {r : Record} {k : Nat}, k < companies.length →
      r.get? "lead_id" = some (s.leadId k) → r.RefersTo "lead_id" (newRows s users .leads) := by
    intro r k hk hr
    obtain ⟨lead, hmem, hid⟩ := exists_lead hk
    exact ⟨lead, hmem, s.leadId k, nofun, hid, hr⟩
  refine ⟨fun r hr => ?_, fun r hr => ?_, fun r hr => ?_⟩
  · obtain ⟨k, hk⟩ := assigned_of_mem_leads hr
    exact hagent hk
  · obtain ⟨k, hk, hperformed, hof⟩ := links_of_mem_activities hr
    exact ⟨hagent hperformed, hlead hk hof⟩
  · obtain ⟨k, hk, hassigned, hof⟩ := links_of_mem_tasks hr
    exact ⟨hagent hassigned, hlead hk hof⟩

end Users

/-! ### A run -/

theorem length_newPeople (s : Source) (b : Breakdown) (t : Table) :
    (newPeople s t).length = (Report.halfway b).inserted t := by
  cases t <;> simp [newPeople, made, Report.inserted, Report.halfway, userRows, accountRows]

theorem length_newRows (s : Source) (users : List Record) (t : Table) :
    (newRows s users t).length = Report.full.inserted t := by
  cases t <;> simp [newRows, made, rowsFor, Report.inserted, Report.full, userRows, accountRows,
    leadRows, activityRows, taskRows, templateRows]

theorem seed_of_isAdmin (s : Source) (h : (db.document.rowsOf .users).any isAdmin = true) :
    db.seed s = (.present, db) := if_pos h

/-- What a run that inserts rows does: as many rows as it reports are put behind those of each
table, they refer to the right rows, and after it no run inserts any. It breaks off where the users
have no order by age, for which there have to be many of them. -/
structure Seeds (db next : Database) (report : Report) (new : Table → List Record) : Prop where
  grows : db.document.GrowsBy next.document new
  counted : ∀ t, (new t).length = report.inserted t
  totalRows : next.document.totalRows = db.document.totalRows + report.total
  refers : Refers next.document new
  settled : ∀ later, next.seed later = (.present, next)
  ended : report = match byAge? (next.document.rowsOf .users) with
    | some _ => .full
    | none => .halfway .noOrder
  few : (db.document.rowsOf .users).length ≤ 15 → report = .full

theorem totalRows_of_counted {d next : Document} {report : Report} {new : Table → List Record}
    (hgrows : d.GrowsBy next new) (hcounted : ∀ t, (new t).length = report.inserted t) :
    next.totalRows = d.totalRows + report.total := by
  rw [hgrows.totalRows, funext hcounted]
  simp only [Table.all, List.map_cons, List.map_nil, total, Report.inserted, Report.total]
  omega

/-- Twenty users have an order, whatever their dates are. -/
theorem byAge?_ne_none {users : List Record} (h : users.length ≤ 20) : byAge? users ≠ none := by
  intro hnone
  have hmany := length_of_sort?_eq_none (Query.sortRows?_eq_none_iff.mp hnone).2
  omega

/-- A database that has an administrator is left as it is, and any other one is seeded. -/
theorem seed_appends (db : Database) (s : Source)
    (hids : ∀ r ∈ db.document.rowsOf .users, ∃ id, id ≠ .null ∧ r.get? "id" = some id)
    (hs : s.IsNewTo db.document) :
    ((db.document.rowsOf .users).any isAdmin = true → db.seed s = (.present, db)) ∧
    ((db.document.rowsOf .users).any isAdmin = false →
      ∃ report next new, db.seed s = (report, next) ∧ db.Seeds next report new) := by
  refine ⟨seed_of_isAdmin s, fun hadmin => ?_⟩
  have hpeople := growsBy_fillPeople hs
  have husers := hpeople.rows .users
  cases hage : byAge? ((db.fillPeople s).document.rowsOf .users) with
  | none =>
    refine ⟨.halfway .noOrder, db.fillPeople s, newPeople s, ?_, hpeople, length_newPeople s _,
      totalRows_of_counted hpeople (length_newPeople s _), refers_newPeople _ s, ?_, ?_, ?_⟩
    · simp only [seed, hadmin, hage, Bool.false_eq_true, if_false]
    · exact fun later => seed_of_isAdmin later (any_isAdmin_of_people husers)
    · rw [hage]
    · intro hfew
      refine absurd hage (byAge?_ne_none ?_)
      rw [husers, List.length_append]
      exact Nat.add_le_add hfew (Nat.le_of_eq (length_newPeople s .noOrder .users))
  | some users =>
    have hgrows := growsBy_fillWork hs hpeople users
    have hnext := hgrows.rows .users
    refine ⟨.full, (db.fillPeople s).fillWork s users, newRows s users, ?_, hgrows,
      length_newRows s users, totalRows_of_counted hgrows (length_newRows s users), ?_, ?_, ?_,
      fun _ => rfl⟩
    · simp only [seed, hadmin, hage, Bool.false_eq_true, if_false]
    · refine refers_newRows hids hadmin hnext ?_
      rw [hnext]
      exact husers ▸ Query.perm_of_sortRows? hage
    · exact fun later => seed_of_isAdmin later (any_isAdmin_of_people hnext)
    · have hsame : ((db.fillPeople s).fillWork s users).document.rowsOf .users
          = (db.fillPeople s).document.rowsOf .users := hnext.trans husers.symm
      rw [hsame, hage]

/-- Texts of one letter are new where every id has another one. -/
theorem isNewTo_of_letters (now : Nat → DateTime) {d : Document}
    (h : ∀ t ∈ Table.all, ∀ r ∈ d.rowsOf t, (r.get? "id").any (·.text.toList.any (· != 'x'))) :
    (⟨now, fun k => String.ofList (List.replicate (k + 1) 'x')⟩ : Source).IsNewTo d where
  unknown t r hr k hid := by
    have hletter := h t (Table.mem_all t) r hr
    rw [hid] at hletter
    simp [Source.id, Value.text] at hletter
  distinct j k h := by
    have hchars := congrArg String.toList (Value.string.inj h)
    rw [String.toList_ofList, String.toList_ofList] at hchars
    simpa using congrArg List.length hchars

/-- Beside an agent all fifty rows are added. -/
theorem fifty_rows_beside_agent :
    let agent := Record.ofFields [("id", .string "u1"), ("role", .string "agent")]
    let db := inMemory .lenient (Document.new.setRows .users [agent])
    let s : Source :=
      ⟨fun k => ⟨19844, 43200 + k, 0⟩, fun k => String.ofList (List.replicate (k + 1) 'x')⟩
    (∀ r ∈ db.document.rowsOf .users, ∃ id, id ≠ .null ∧ r.get? "id" = some id) ∧
      s.IsNewTo db.document ∧ (db.document.rowsOf .users).any isAdmin = false ∧
      ∃ next new, db.seed s = (.full, next) ∧ db.Seeds next .full new := by
  intro agent db s
  have husers : db.document.rowsOf .users = [agent] := by decide +kernel
  have hids : ∀ r ∈ db.document.rowsOf .users, ∃ id, id ≠ .null ∧ r.get? "id" = some id := by
    intro r hr
    rw [husers] at hr
    rw [List.mem_singleton.mp hr]
    exact ⟨.string "u1", nofun, by decide⟩
  have hnew : s.IsNewTo db.document := isNewTo_of_letters _ (by decide +kernel)
  have hadmin : (db.document.rowsOf .users).any isAdmin = false := by decide +kernel
  obtain ⟨report, next, new, hseed, hruns⟩ := (seed_appends db s hids hnew).2 hadmin
  obtain rfl := hruns.few (by rw [husers]; decide)
  exact ⟨hids, hnew, hadmin, next, new, hseed, hruns⟩

/-- Sixteen users whose dates are numbers and texts have no order with those who are added, so
the run ends before any leads. -/
theorem mixed_ages_break_off :
    let ages : List Value := .int 10 :: .int 9 :: List.replicate 14 (.string "5")
    let rows := ages.mapIdx fun k age =>
      Record.ofFields [("id", .string s!"u{k + 1}"), ("created_at", age)]
    let db := inMemory .lenient (Document.new.setRows .users rows)
    let s : Source :=
      ⟨fun k => ⟨19844, 43200 + k, 0⟩, fun k => String.ofList (List.replicate (k + 1) 'x')⟩
    (∀ r ∈ db.document.rowsOf .users, (r.get? "id").any (!·.isNull)) ∧ s.IsNewTo db.document ∧
      (db.document.rowsOf .users).any isAdmin = false ∧
      (db.seed s).1 = .halfway .noOrder ∧ (db.seed s).2.document.rowsOf .leads = [] := by
  intro ages rows db s
  exact ⟨by decide +kernel, isNewTo_of_letters _ (by decide +kernel), by decide +kernel⟩

end Database
end ClientRecords
