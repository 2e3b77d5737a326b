import ClientRecords.Proofs.Condition.Binding
import ClientRecords.Proofs.Database.Calls
/-!
The two modes side by side. Strict mode stops a statement at the first part of its clause that is
not recognised; up to there, and in all else, it does what lenient mode does. So the result of a
call in strict mode is that of lenient mode, or refuses that part (`Stricter`). The relation holds
of the parts of a clause by induction and is carried through every step of a call, whose further
steps are the same in both modes.
-/

namespace ClientRecords

/-- How a result in strict mode stands to the one in lenient mode, given the first part that is not
recognised: the two are the same, or strict mode refuses the part. Where there is such a part, only
errors are the same. -/
inductive Stricter {ε α : Type} (refuse : List Token → ε) (first : Option (List Token)) :
    Except ε α → Except ε α → Prop
  | same {x : Except ε α} (h : first = none) : Stricter refuse first x x
  | failed (e : ε) : Stricter refuse first (.error e) (.error e)
  | refused {part : List Token} {x : Except ε α} (h : first = some part) :
      Stricter refuse first (.error (refuse part)) x

/-- The failure of a call at a part that is not recognised. -/
def Failure.refusePart (part : List Token) : Failure := .refused (.unsupportedFragment part)

/-- Goes on with a result; an error refuses the call. -/
def Failure.proceed {α β : Type} (x : Except StoreError α) (g : α → Except Failure β) :
    Except Failure β :=
  match x with
  | .error e => .error (.refused e)
  | .ok a => g a

theorem Failure.proceed_map {α β γ : Type} (x : Except StoreError α) (f : α → β)
    (g : β → Except Failure γ) : proceed (x.map f) g = proceed x fun a => g (f a) := by
  cases x <;> rfl

/-- The tokens of a part that is not recognised. -/
def Fragment.unrecognized? : Fragment → Option (List Token)
  | .unrecognized ts => some ts
  | _ => none

/-- The parts of a clause that are not recognised. -/
def Clause.unrecognized (c : Clause) : List (List Token) :=
  c.fragments.filterMap Fragment.unrecognized?

/-- The clause of a statement. That of a read is in its text. -/
def OpenStatement.clause? : OpenStatement → Option Clause
  | .insert .. => none
  | .update _ _ clause | .delete _ clause => some clause
  | .select text =>
    match OpenQuery.ofText text with
    | .ok (some q) => some q.clause
    | _ => none

/-- The parts of the clause of a text that are not recognised. -/
def Statement.unrecognized (source : String) : List (List Token) :=
  match OpenStatement.ofText source with
  | .ok s => s.clause?.elim [] Clause.unrecognized
  | .error _ => []

namespace Stricter

variable {ε α β : Type} {refuse : List Token → ε} {first : Option (List Token)}

theorem map {x y : Except ε α} (h : Stricter refuse first x y) (f : α → β) :
    Stricter refuse first (x.map f) (y.map f) := by
  cases h with
  | same h => exact .same h
  | failed e => exact .failed e
  | refused h => exact .refused h

/-- What is done with the result afterwards does not depend on the mode. -/
theorem proceed {x y : Except StoreError α} (h : Stricter .unsupportedFragment first x y)
    (g : α → Except Failure β) :
    Stricter Failure.refusePart first (Failure.proceed x g) (Failure.proceed y g) := by
  cases h with
  | same h => exact .same h
  | failed e => exact .failed (Failure.refused e)
  | refused h => exact .refused h

variable {x y : Except ε α} {a : α} {e : ε}

theorem lenient_of_ok (h : Stricter refuse first x y) (hx : x = .ok a) : y = .ok a := by
  cases h with
  | same => exact hx
  | failed | refused => cases hx

theorem strict_of_ok (h : Stricter refuse first x y) (hy : y = .ok a) :
    first = none ∧ x = .ok a ∨ ∃ part, first = some part ∧ x = .error (refuse part) := by
  cases h with
  | same h => exact .inl ⟨h, hy⟩
  | failed => cases hy
  | refused h => exact .inr ⟨_, h, rfl⟩

theorem strict_of_error (h : Stricter refuse first x y) (hy : y = .error e) :
    x = .error e ∨ ∃ part, first = some part ∧ x = .error (refuse part) := by
  cases h with
  | same | failed => exact .inl hy
  | refused h => exact .inr ⟨_, h, rfl⟩

end Stricter

variable {params : List Value} {now source : String}

namespace Clause

theorem stricter_bindFragments (params : List Value) (fs : List Fragment) :
    Stricter .unsupportedFragment (fs.filterMap Fragment.unrecognized?).head?
      (bindFragments .strict params fs) (bindFragments .lenient params fs) := by
  induction fs with
  | nil => exact .same rfl
  | cons f fs ih =>
    cases f with
    | condition field check =>
      cases hb : check.bind params with
      | error e =>
        rw [bindFragments_condition_error hb, bindFragments_condition_error hb]
        exact .failed e
      | ok b =>
        rw [bindFragments_condition hb, bindFragments_condition hb]
        exact ih.map _
    | ignored => exact ih
    | unrecognized part => exact .refused rfl

theorem stricter_bind (c : Clause) (params : List Value) :
    Stricter .unsupportedFragment c.unrecognized.head? (c.bind .strict params)
      (c.bind .lenient params) := stricter_bindFragments params c.fragments

end Clause

namespace OpenQuery

theorem bind_eq_map (q : OpenQuery) (mode : Mode) (params : List Value) : q.bind mode params =
    (q.clause.bind mode params).map fun cs =>
      ⟨q.projection, q.table, q.shortName, q.joins, cs, q.orderBy,
        q.limit.bind (·.rowCount? params), q.offset.bind (·.rowCount? params)⟩ := by
  rw [bind]
  cases q.clause.bind mode params <;> rfl

theorem stricter_bind (q : OpenQuery) (params : List Value) :
    Stricter .unsupportedFragment q.clause.unrecognized.head? (q.bind .strict params)
      (q.bind .lenient params) := by
  rw [bind_eq_map, bind_eq_map]
  exact (q.clause.stricter_bind params).map _

end OpenQuery

namespace Document

variable {d : Document} {mode : Mode}

theorem execute_eq_proceed {s : OpenStatement} (h : OpenStatement.ofText source = .ok s) :
    d.execute mode now source params =
      Failure.proceed (s.bind mode params now) (d.perform mode now) := by
  rw [execute_of_read h]
  cases s.bind mode params now <;> rfl

theorem evaluate_eq_proceed {q : OpenQuery} (h : OpenQuery.ofText source = .ok (some q)) :
    d.evaluate mode now source params = Failure.proceed (q.bind mode params) fun q =>
      match q.rows d now with
      | .ok rows => .ok ⟨rows, none⟩
      | .error b => .error (.brokenOff b) := by
  rw [evaluate_of_read h]
  cases q.bind mode params <;> rfl

theorem stricter_evaluate (d : Document) (now text : String) (params : List Value) :
    Stricter Failure.refusePart
      ((OpenStatement.select text).clause?.elim [] Clause.unrecognized).head?
      (d.evaluate .strict now text params) (d.evaluate .lenient now text params) := by
  cases hq : OpenQuery.ofText text with
  | error e =>
    have hboth : ∀ mode, d.evaluate mode now text params = .error (.refused e) := fun mode => by
      rw [evaluate, Query.ofText, hq]
      rfl
    rw [hboth, hboth]
    exact .failed _
  | ok q =>
    rw [OpenStatement.clause?, hq]
    cases q with
    | none =>
      have hboth : ∀ mode, d.evaluate mode now text params = .ok ⟨[], none⟩ := fun mode => by
        rw [evaluate, Query.ofText, hq]
        rfl
      rw [hboth, hboth]
      exact .same rfl
    | some q =>
      rw [evaluate_eq_proceed hq, evaluate_eq_proceed hq]
      exact (q.stricter_bind params).proceed _

theorem stricter_execute (d : Document) (now source : String) (params : List Value) :
    Stricter Failure.refusePart (Statement.unrecognized source).head?
      (d.execute .strict now source params) (d.execute .lenient now source params) := by
  cases hs : OpenStatement.ofText source with
  | error e =>
    have hboth : ∀ mode, d.execute mode now source params = .error (.refused e) := fun mode => by
      rw [execute, Statement.ofText, hs]
      rfl
    rw [hboth, hboth]
    exact .failed _
  | ok s =>
    rw [Statement.unrecognized, hs, execute_eq_proceed hs, execute_eq_proceed hs]
    cases s with
    | insert table orIgnore fields => exact .same rfl
    | update | delete =>
      rw [OpenStatement.bind, OpenStatement.bind, Failure.proceed_map, Failure.proceed_map]
      exact (Clause.stricter_bind _ params).proceed _
    | select text => exact d.stricter_evaluate now text params

end Document

/-- A call under a mode. -/
def Call.inMode (mode : Mode) (c : Call) : Call := { c with mode := mode }

namespace Database

/-- What a call in strict mode has to do with the same call in lenient mode. -/
structure Tightened (db : Database) (c : Call) : Prop where
  accepted : ∀ rows, (db.call (c.inMode .strict)).1 = .ok rows →
    (db.call (c.inMode .lenient)).1 = .ok rows ∧
      (db.after (c.inMode .strict)).Same (db.after (c.inMode .lenient))
  lenient : ∀ rows, (db.call (c.inMode .lenient)).1 = .ok rows →
    (Statement.unrecognized c.source = [] ∧ (db.call (c.inMode .strict)).1 = .ok rows ∧
      (db.after (c.inMode .lenient)).Same (db.after (c.inMode .strict))) ∨
    ∃ part rest, Statement.unrecognized c.source = part :: rest ∧
      ∃ e, (db.call (c.inMode .strict)).1 = .error (.refused e) ∧ e = .unsupportedFragment part ∧
        e.message = "Unsupported WHERE fragment: " ++ Token.render part ∧
        db.Same (db.after (c.inMode .strict))
  failed : ∀ e, (db.call (c.inMode .lenient)).1 = .error e →
    (db.call (c.inMode .strict)).1 = .error e ∨
    ∃ part rest, Statement.unrecognized c.source = part :: rest ∧
      (db.call (c.inMode .strict)).1 = .error (.refused (.unsupportedFragment part))

/-- A call that refuses a part of its clause leaves the database as it was. -/
theorem refused_part {db : Database} {c : Call} {part : List Token}
    (h : (db.call c).1 = .error (Failure.refusePart part)) :
    ∃ e, (db.call c).1 = .error (.refused e) ∧ e = .unsupportedFragment part ∧
      e.message = "Unsupported WHERE fragment: " ++ Token.render part ∧ db.Same (db.after c) :=
  ⟨_, h, rfl, rfl, (db.kept c).failed _ h⟩

/-- The same outcome leads to the same state in both modes. -/
theorem same_settle (db : Database) (mode other : Mode) (o : Outcome) :
    ({ db with mode := mode }.settle o).Same ({ db with mode := other }.settle o) := by
  cases hw : o.written <;> simp only [settle, hw] <;> exact ⟨rfl, rfl⟩

section

variable {db : Database} {c : Call} {mode : Mode} {o : Outcome} {e : Failure}
  {rows : List Record}

theorem call_of_ok (h : db.document.execute mode c.now c.source c.params = .ok o) :
    db.call (c.inMode mode) = (.ok o.rows, { db with mode := mode }.settle o) :=
  @execute_of_ok { db with mode := mode } _ _ _ _ h

theorem call_of_error (h : db.document.execute mode c.now c.source c.params = .error e) :
    db.call (c.inMode mode) = (.error e, { db with mode := mode }) :=
  @execute_of_error { db with mode := mode } _ _ _ _ h

theorem exists_of_call_ok (h : (db.call (c.inMode mode)).1 = .ok rows) :
    ∃ o, db.document.execute mode c.now c.source c.params = .ok o ∧ rows = o.rows := by
  obtain ⟨o, ho, hrows, -⟩ := exists_of_execute_eq_ok (Prod.ext h rfl)
  exact ⟨o, ho, hrows⟩

theorem execute_of_call_error (h : (db.call (c.inMode mode)).1 = .error e) :
    db.document.execute mode c.now c.source c.params = .error e := by
  cases ho : db.document.execute mode c.now c.source c.params with
  | error f =>
    rw [call_of_error ho] at h
    obtain rfl := Except.error.inj h
    rfl
  | ok o =>
    rw [call_of_ok ho] at h
    cases h

/-- Where a statement has the same outcome in both modes, it has the same rows and leads to the same
state. -/
theorem same_call {other : Mode} (h : db.document.execute mode c.now c.source c.params = .ok o)
    (hother : db.document.execute other c.now c.source c.params = .ok o) :
    (db.call (c.inMode other)).1 = .ok o.rows ∧
      (db.after (c.inMode mode)).Same (db.after (c.inMode other)) := by
  rw [after, after, call_of_ok h, call_of_ok hother]
  exact ⟨rfl, db.same_settle mode other o⟩

end

/-- Strict mode refines lenient mode: what it accepts has the same rows and the same state in
lenient mode, what lenient mode accepts it accepts too or refuses at the first part that is not
recognised, and what fails in lenient mode fails in strict mode. -/
theorem strict_refines_lenient (db : Database) (c : Call) : db.Tightened c where
  accepted rows h := by
    obtain ⟨o, ho, rfl⟩ := exists_of_call_ok h
    exact same_call ho ((db.document.stricter_execute c.now c.source c.params).lenient_of_ok ho)
  lenient rows h := by
    obtain ⟨o, ho, rfl⟩ := exists_of_call_ok h
    rcases (db.document.stricter_execute c.now c.source c.params).strict_of_ok ho with
      ⟨hnone, hs⟩ | ⟨part, hpart, hs⟩
    · exact .inl ⟨List.head?_eq_none_iff.mp hnone, same_call ho hs⟩
    · obtain ⟨rest, hrest⟩ := List.head?_eq_some_iff.mp hpart
      exact .inr ⟨part, rest, hrest, refused_part (congrArg Prod.fst (call_of_error hs))⟩
  failed e h := by
    rcases (db.document.stricter_execute c.now c.source c.params).strict_of_error
      (execute_of_call_error h) with hs | ⟨part, hpart, hs⟩
    · exact .inl (congrArg Prod.fst (call_of_error hs))
    · obtain ⟨rest, hrest⟩ := List.head?_eq_some_iff.mp hpart
      exact .inr ⟨part, rest, hrest, congrArg Prod.fst (call_of_error hs)⟩

end Database
end ClientRecords
