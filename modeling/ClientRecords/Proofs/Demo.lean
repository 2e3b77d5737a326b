import ClientRecords.Demo
import ClientRecords.Proofs.Query.Permuted
import ClientRecords.Proofs.Statement.Finite
/-!
The demonstration data. All rows that are inserted hold finite numbers, whatever users they are
assigned to, and inserting them is nothing but adding row after row. So what is kept by adding a
finite row is kept by seeding (`Database.seed_rel`).
-/

namespace ClientRecords

/-! ### Rows -/

namespace Value

@[simp] theorem isFinite_string (s : String) : (string s).isFinite = true := rfl

@[simp] theorem isFinite_int (i : Int64) : (int i).isFinite = true := rfl

@[simp] theorem isFinite_count (n : Nat) : (count n).isFinite = true := rfl

@[simp] theorem isFinite_float (x : Binary64) : (float x).isFinite = x.isFinite := rfl

end Value

/-- Are all numbers among some fields finite? -/
def Entries.IsFinite (fields : Entries Value) : Prop := ∀ e ∈ fields, e.2.isFinite = true

theorem Record.isFinite_of_get? {r : Record} {name : String} {v : Value} (h : r.IsFinite)
    (hv : r.get? name = some v) : v.isFinite = true := h _ (Entries.mem_of_get? hv)

namespace Demo

/-- The rows of a table, for users that they are assigned to. -/
def rowsFor (s : Source) (users : List Record) : Table → List (Entries Value)
  | .users => userRows s
  | .accounts => accountRows s
  | .leads => leadRows s (agentOf users)
  | .activities => activityRows s (agentOf users)
  | .tasks => taskRows s (agentOf users)
  | .emailTemplates => templateRows s (adminOf users)
  | .payments | .emailTriggers => []

variable {s : Source} {users : List Record} {agent : Nat → Value} {fields : Entries Value}

theorem isFinite_idOf {r : Record} (h : r.IsFinite) : (idOf r).isFinite = true := by
  rw [idOf]
  cases hid : r.get? "id" with
  | none => rfl
  | some v => exact Record.isFinite_of_get? h hid

theorem isFinite_adminOf (h : ∀ r ∈ users, r.IsFinite) : (adminOf users).isFinite = true := by
  rw [adminOf]
  cases hadmin : users.find? isAdmin with
  | none => rfl
  | some r => exact isFinite_idOf (h r (List.mem_of_find?_eq_some hadmin))

theorem isFinite_agentOf (h : ∀ r ∈ users, r.IsFinite) (k : Nat) :
    (agentOf users k).isFinite = true := by
  simp only [agentOf, List.getD_eq_getElem?_getD]
  generalize k % ((users.filter isAgent).map idOf).length = index
  cases hagent : ((users.filter isAgent).map idOf)[index]? with
  | none => exact isFinite_adminOf h
  | some v =>
    obtain ⟨r, hr, rfl⟩ := List.mem_map.mp (List.mem_of_getElem? hagent)
    exact isFinite_idOf (h r (List.mem_filter.mp hr).1)

theorem isFinite_around (xs : List String) (k : Nat) : (around xs k).isFinite = true := rfl

theorem isFinite_leadId (s : Source) (k : Nat) : (s.leadId k).isFinite = true := rfl

theorem isFinite_id (s : Source) (k : Nat) : (s.id k).isFinite = true := rfl

theorem isFinite_days (s : Source) (row reading : Nat) (n : Int) :
    (s.days row reading n).isFinite = true := rfl

theorem isFinite_accountRows (h : fields ∈ accountRows s) : fields.IsFinite := by
  have hrevenue : ∀ a ∈ accounts, (Binary64.ofDecimal false a.revenue (-2)).isFinite = true := by
    decide +kernel
  obtain ⟨k, hk, rfl⟩ := List.mem_mapIdx.mp h
  have hparent : (accounts[k].parent.elim Value.null .string).isFinite = true := by
    cases accounts[k].parent <;> rfl
  simp [Entries.IsFinite, isFinite_id, hrevenue _ (List.getElem_mem hk), hparent]

theorem isFinite_activityRows (ha : ∀ k, (agent k).isFinite = true)
    (h : fields ∈ activityRows s agent) : fields.IsFinite := by
  have hduration : ∀ k, (durations.getD k .null).isFinite = true := by
    intro k
    rw [List.getD_eq_getElem?_getD]
    cases hd : durations[k]? with
    | none => rfl
    | some v =>
      have hall : ∀ v ∈ durations, v.isFinite = true := by decide
      exact hall v (List.mem_of_getElem? hd)
  obtain ⟨k, hk, rfl⟩ := List.mem_map.mp h
  simp only [Entries.IsFinite, List.forall_mem_cons, isFinite_id, isFinite_leadId, isFinite_days,
    isFinite_around, ha, hduration, List.not_mem_nil, false_implies, implies_true, and_self]

/-- The rows of all tables are finite, if the users are that they are assigned to. -/
theorem isFinite_rowsFor (hu : ∀ r ∈ users, r.IsFinite) (t : Table)
    (h : fields ∈ rowsFor s users t) : fields.IsFinite := by
  have hagent := isFinite_agentOf hu
  have hadmin := isFinite_adminOf hu
  cases t with
  | users =>
    obtain ⟨k, hk, rfl⟩ := List.mem_mapIdx.mp h
    simp [Entries.IsFinite, isFinite_id]
  | accounts => exact isFinite_accountRows h
  | leads =>
    obtain ⟨k, hk, rfl⟩ := List.mem_mapIdx.mp h
    simp [Entries.IsFinite, isFinite_leadId, isFinite_days, isFinite_around, hagent]
  | activities => exact isFinite_activityRows hagent h
  | tasks =>
    obtain ⟨k, hk, rfl⟩ := List.mem_map.mp h
    simp [Entries.IsFinite, isFinite_id, isFinite_leadId, isFinite_days, isFinite_around, hagent]
  | emailTemplates =>
    obtain ⟨k, hk, rfl⟩ := List.mem_mapIdx.mp h
    simp [Entries.IsFinite, isFinite_id, hadmin]
  | payments | emailTriggers => cases h

end Demo

/-! ### Databases -/

namespace Database

variable {R : Database → Database → Prop} {db m : Database}

theorem addRows_cons (db : Database) (t : Table) (s : Demo.Source) (first : Nat)
    (fields : Entries Value) (rows : List (Entries Value)) : db.addRows t s first (fields :: rows) =
      (db.addRow t (s.stamp first) fields).addRows t s (first + 1) rows := rfl

/-- Two databases stay in a relation that adding a finite row to both keeps. -/
theorem addRows_rel
    (hadd : ∀ {db m : Database} (t : Table) (stamp : String) (fields : Entries Value), R db m →
      fields.IsFinite → R (db.addRow t stamp fields) (m.addRow t stamp fields))
    (t : Table) (s : Demo.Source) : ∀ {rows : List (Entries Value)} {first : Nat}
      {db m : Database}, R db m → (∀ fields ∈ rows, fields.IsFinite) →
        R (db.addRows t s first rows) (m.addRows t s first rows)
  | [], _, _, _, h, _ => h
  | fields :: rows, first, db, m, h, hrows => by
    obtain ⟨hfirst, hrest⟩ := List.forall_mem_cons.mp hrows
    have hstep := hadd t (s.stamp first) fields h hfirst
    rw [addRows_cons, addRows_cons]
    exact addRows_rel hadd t s hstep hrest

section Seeding

variable
  (hadd : ∀ {db m : Database} (t : Table) (stamp : String) (fields : Entries Value), R db m →
    fields.IsFinite → R (db.addRow t stamp fields) (m.addRow t stamp fields))

include hadd

theorem fill_rel (h : R db m) (s : Demo.Source) {users : List Record}
    (hu : ∀ r ∈ users, r.IsFinite) (t : Table) :
    R (db.fill t s (Demo.rowsFor s users t)) (m.fill t s (Demo.rowsFor s users t)) :=
  addRows_rel hadd t s h fun _ => Demo.isFinite_rowsFor hu t

theorem fillPeople_rel (h : R db m) (s : Demo.Source) : R (db.fillPeople s) (m.fillPeople s) :=
  fill_rel hadd (fill_rel hadd h s (List.forall_mem_nil _) .users) s (List.forall_mem_nil _)
    .accounts

theorem fillWork_rel (h : R db m) (s : Demo.Source) {users : List Record}
    (hu : ∀ r ∈ users, r.IsFinite) : R (db.fillWork s users) (m.fillWork s users) := by
  have hleads := fill_rel hadd h s hu .leads
  have hactivities := fill_rel hadd hleads s hu .activities
  have htasks := fill_rel hadd hactivities s hu .tasks
  exact fill_rel hadd htasks s hu .emailTemplates

/-- Seeding keeps a relation that adding a finite row keeps, if it holds between databases with the
same document only, and only where the users are finite. -/
theorem seed_rel (hdoc : ∀ {db m : Database}, R db m → db.document = m.document)
    (hfin : ∀ {db m : Database}, R db m → ∀ r ∈ m.document.rowsOf .users, r.IsFinite)
    (h : R db m) (s : Demo.Source) : R (db.seed s).2 (m.seed s).2 := by
  rw [seed, seed, hdoc h]
  split
  · exact h
  · have hpeople := fillPeople_rel hadd h s
    simp only [hdoc hpeople]
    cases husers : Demo.byAge? ((m.fillPeople s).document.rowsOf .users) with
    | none =>
      dsimp only
      exact hpeople
    | some users =>
      dsimp only
      exact fillWork_rel hadd hpeople s fun r hr =>
        hfin hpeople r ((Query.perm_of_sortRows? husers).mem_iff.mp hr)

end Seeding

end Database
end ClientRecords
