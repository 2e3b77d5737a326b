import ClientRecords.Proofs.Database.Calls
import ClientRecords.Proofs.Value.Equality
/-!
Rows that are inserted unless their id is there. A record with a truthy id is left out if a row has
the same id, and an id that is not truthy is never looked for (`insert_or_ignore`). Where two
different numbers have the same nearest floating point number, one may stand for the other.
-/

namespace ClientRecords

namespace Document

variable {d : Document} {t : Table} {r : Record} {id : Value}

/-- Has a row of a table an id with a property? -/
def AnyId (d : Document) (t : Table) (p : Value → Prop) : Prop :=
  ∃ row ∈ d.rowsOf t, ∃ v, row.get? "id" = some v ∧ p v

theorem hasIdOf_iff (hid : r.get? "id" = some id) :
    d.hasIdOf t r = true ↔ id.isTruthy = true ∧ d.AnyId t (·.strictEq id = true) := by
  simp [hasIdOf, hid, AnyId, Option.any_eq_true]

end Document

namespace Database

variable {db : Database} {now name : String} {t : Table} {r : Record} {id : Value}

/-- Carries out the insert of a record that is left out if its id is there. -/
def insertNew (db : Database) (now name : String) (r : Record) :
    Except Failure (List Record) × Database :=
  (Action.perform now (.insert name true r)).run.run db

/-- The next database has one more row at the end of a table, and was saved once. -/
structure Appends (db next : Database) (t : Table) (r : Record) : Prop where
  rows : next.document.rowsOf t = db.document.rowsOf t ++ [r]
  saved : db.SavedIn next t

theorem appends_replace (db : Database) (t : Table) (r : Record) :
    db.Appends (db.replace (db.document.append t r)) t r where
  rows := db.document.rowsOf_setRows t _
  saved :=
    { others := fun _ hkey => db.document.get?_setRows_of_ne t _ hkey
      extras := rfl
      saves := db.keeper.saves_save _ }

theorem insertNew_eq (ht : Table.ofName? name = some t) :
    db.insertNew now name r = (.ok [], if db.document.hasIdOf t r then db
      else db.replace (db.document.append t r)) := by
  rw [insertNew, run_perform, Document.perform, Document.write, ht]
  cases h : db.document.hasIdOf t r <;> simp [Document.insert?, h, conclude, settle]

theorem insertNew_of_anyId (ht : Table.ofName? name = some t) (hid : r.get? "id" = some id)
    (htruthy : id.isTruthy = true) (h : db.document.AnyId t (·.strictEq id = true)) :
    db.insertNew now name r = (.ok [], db) := by
  rw [insertNew_eq ht, if_pos ((Document.hasIdOf_iff hid).mpr ⟨htruthy, h⟩)]

theorem insertNew_of_new (ht : Table.ofName? name = some t)
    (h : db.document.hasIdOf t r = false) :
    db.insertNew now name r = (.ok [], db.replace (db.document.append t r)) := by
  rw [insertNew_eq ht, if_neg (by simp [h])]

/-- After a record with a truthy id was added or left out, no record of the same id is added. -/
theorem insertNew_again (ht : Table.ofName? name = some t) (hid : r.get? "id" = some id)
    (htruthy : id.isTruthy = true) : ∃ next, db.insertNew now name r = (.ok [], next) ∧
      (next = db ∨ db.Appends next t r) ∧
      ∀ later other r' id', Table.ofName? other = some t → r'.get? "id" = some id' → id.Same id' →
        next.insertNew later other r' = (.ok [], next) := by
  -- whichever way it goes, a row equal to the id is there afterwards
  by_cases h : db.document.AnyId t (·.strictEq id = true)
  · refine ⟨db, insertNew_of_anyId ht hid htruthy h, .inl rfl, ?_⟩
    intro later other r' id' ht' hid' hsame
    obtain ⟨row, hrow, v, hv, hequal⟩ := h
    exact insertNew_of_anyId ht' hid' (Value.isTruthy_congr hsame ▸ htruthy)
      ⟨row, hrow, v, hv, (Value.strictEq_congr hsame).symm.trans hequal⟩
  · have hnew : db.document.hasIdOf t r = false :=
      Bool.eq_false_iff.mpr fun hany => h ((Document.hasIdOf_iff hid).mp hany).2
    have happends := appends_replace db t r
    refine ⟨_, insertNew_of_new ht hnew, .inr happends, ?_⟩
    intro later other r' id' ht' hid' hsame
    have hrow : r ∈ (db.replace (db.document.append t r)).document.rowsOf t := by
      rw [happends.rows]
      exact List.mem_append_right _ List.mem_cons_self
    exact insertNew_of_anyId ht' hid' (Value.isTruthy_congr hsame ▸ htruthy)
      ⟨r, hrow, id, hid, Value.strictEq_of_same hsame⟩

/-- A record with a truthy id is left out if a row has the same id. It is added at the end and saved
if no row has it, nor a number that only rounding makes equal. A record with an id that is not
truthy is always added. With a truthy id no other record of the same id is added behind it. -/
theorem insert_or_ignore (db : Database) (now : String) (ht : Table.ofName? name = some t)
    (hid : r.get? "id" = some id) (hfinite : ∀ x, id = .float x → x.isFinite = true) :
    (id.isTruthy = true → db.document.AnyId t (·.Same id) →
      db.insertNew now name r = (.ok [], db)) ∧
    (id.isTruthy = true → ¬db.document.AnyId t (fun v => v.Same id ∨ v.Blurred id) →
      ∃ next, db.insertNew now name r = (.ok [], next) ∧ db.Appends next t r) ∧
    (id.isTruthy = false → ∃ next, db.insertNew now name r = (.ok [], next) ∧ db.Appends next t r) ∧
    (id.isTruthy = true → ∃ next, db.insertNew now name r = (.ok [], next) ∧
      (next = db ∨ db.Appends next t r) ∧
      ∀ later other r' id', Table.ofName? other = some t → r'.get? "id" = some id' → id.Same id' →
        next.insertNew later other r' = (.ok [], next)) := by
  have hnew : db.document.hasIdOf t r = false →
      ∃ next, db.insertNew now name r = (.ok [], next) ∧ db.Appends next t r := fun h =>
    ⟨_, insertNew_of_new ht h, appends_replace db t r⟩
  refine ⟨?_, ?_, ?_, insertNew_again ht hid⟩
  · rintro htruthy ⟨row, hrow, v, hv, hsame⟩
    exact insertNew_of_anyId ht hid htruthy ⟨row, hrow, v, hv, Value.strictEq_of_same hsame⟩
  · intro htruthy hnone
    refine hnew (Bool.eq_false_iff.mpr fun hany => hnone ?_)
    obtain ⟨-, row, hrow, v, hv, hequal⟩ := (Document.hasIdOf_iff hid).mp hany
    exact ⟨row, hrow, v, hv, (Value.strictEq_iff htruthy hfinite).mp hequal⟩
  · intro hfalsy
    refine hnew (Bool.eq_false_iff.mpr fun hany => ?_)
    have htruthy := ((Document.hasIdOf_iff hid).mp hany).1
    rw [hfalsy] at htruthy
    cases htruthy

/-- Beside the text `7` and the number 8 the integer 7 is new, and once it is there it is left
out. -/
theorem seven_inserted_once :
    let rows := [Record.ofFields [("id", .string "7")], Record.ofFields [("id", .int 8)]]
    let db : Database := ⟨Document.new.setRows .leads rows, .lenient, .memory 0⟩
    let r := Record.ofFields [("id", .int 7)]
    Table.ofName? "Leads" = some .leads ∧ r.get? "id" = some (.int 7) ∧
      (Value.int 7).isTruthy = true ∧
      ¬db.document.AnyId .leads (fun v => v.Same (.int 7) ∨ v.Blurred (.int 7)) ∧
      ∃ next, db.insertNew "2024-05-01" "Leads" r = (.ok [], next) ∧ db.Appends next .leads r ∧
        next.insertNew "2024-05-02" "Leads" r = (.ok [], next) := by
  intro rows db r
  have ht : Table.ofName? "Leads" = some .leads := by decide
  have hid : r.get? "id" = some (.int 7) := by decide
  have htruthy : (Value.int 7).isTruthy = true := by decide
  have hseven : Value.IsHeld (.int 7) := Value.isHeld_int (by decide)
  have height : Value.IsHeld (.int 8) := Value.isHeld_int (by decide)
  have hnone : ¬db.document.AnyId .leads (fun v => v.Same (.int 7) ∨ v.Blurred (.int 7)) := by
    rintro ⟨row, hrow, v, hv, h⟩
    have hids : v ∈ [Value.string "7", .int 8] := by
      rw [Document.rowsOf_setRows] at hrow
      have hall : ∀ x ∈ rows, ∀ w ∈ x.get? "id", w ∈ [Value.string "7", .int 8] := by decide
      exact hall row hrow v hv
    rcases List.mem_cons.mp hids with rfl | hids
    · rcases h with h | ⟨m, n, hm, -⟩
      · cases h with
        | number hm _ => cases hm
      · cases hm
    · obtain rfl := List.mem_singleton.mp hids
      rcases h with h | h
      · exact absurd (Value.same_int_iff.mp h) (by decide)
      · exact Value.not_blurred_of_isHeld height hseven h
  have hfinite : ∀ x, Value.int 7 = .float x → x.isFinite = true := fun _ h => Value.noConfusion h
  have hfirst := insert_or_ignore db "2024-05-01" ht hid hfinite
  obtain ⟨next, hnext, happends⟩ := hfirst.2.1 htruthy hnone
  have hsame : next.document.AnyId .leads (·.Same (.int 7)) := by
    refine ⟨r, ?_, .int 7, hid, Value.same_int_iff.mpr rfl⟩
    rw [happends.rows]
    exact List.mem_append_right _ List.mem_cons_self
  have hsecond := insert_or_ignore next "2024-05-02" ht hid hfinite
  exact ⟨ht, hid, htruthy, hnone, next, hnext, happends, hsecond.1 htruthy hsame⟩

/-- The id 0 is not truthy, so it is inserted again although a row has it. -/
theorem zero_inserted_again :
    let rows := [Record.ofFields [("id", .int 0)]]
    let db : Database := ⟨Document.new.setRows .leads rows, .lenient, .memory 0⟩
    let r := Record.ofFields [("id", .int 0)]
    r.get? "id" = some (.int 0) ∧ db.document.AnyId .leads (·.Same (.int 0)) ∧
      ∃ next, db.insertNew "2024-05-01" "leads" r = (.ok [], next) ∧
        next.document.rowsOf .leads = rows ++ [r] ∧ next.keeper.saves = db.keeper.saves + 1 := by
  intro rows db r
  have ht : Table.ofName? "leads" = some .leads := by decide
  have hid : r.get? "id" = some (.int 0) := by decide
  have hrow : r ∈ db.document.rowsOf .leads := by decide
  have hnew : db.document.hasIdOf .leads r = false := by decide
  have happends := appends_replace db .leads r
  exact ⟨hid, ⟨r, hrow, .int 0, hid, Value.same_int_iff.mpr rfl⟩, _, insertNew_of_new ht hnew,
    happends.rows, happends.saved.saves⟩

end Database
end ClientRecords
