import ClientRecords.Proofs.Catalog
import ClientRecords.Proofs.Executor
import ClientRecords.Proofs.Statement.Reader
/-!
Runs of statements on a database in memory. A call that fails and a call that only reads leave the
database as it is, and a write changes the rows of one table and is saved once (`Kept`). So the
tables of the closed set stay, and whatever lies outside of them stays as it was loaded (`Intact`).
-/

namespace ClientRecords

variable {mode : Mode} {now source : String} {params : List Value}

namespace OpenStatement

/-- The words that open a write. -/
def writeKeywords : List Keyword := [.insert, .update, .delete]

/-- Is the first token of a text a word that opens a write? -/
def opensWrite (source : String) : Bool :=
  (Token.scan? (Text.collapse source)).any fun ts => ts.head?.any (·.isAny writeKeywords)

theorem head?_trimSemicolons {ts : List Token} {t : Token}
    (h : (trimSemicolons ts).head? = some t) : ts.head? = some t := by
  obtain ⟨rest, hr⟩ := exists_append_trimSemicolons ts
  obtain ⟨us, hu⟩ := List.head?_eq_some_iff.mp h
  rw [hr, hu]
  rfl

theorem startsWith_trimSemicolons {ts : List Token} {k : Keyword}
    (h : startsWith k (trimSemicolons ts) = true) : ts.head?.any (·.is k) = true := by
  cases ht : (trimSemicolons ts).head? with
  | none => rw [startsWith, ht] at h; cases h
  | some t =>
    rw [startsWith, ht] at h
    rw [head?_trimSemicolons ht]
    exact h

/-- A text that opens no write is read as a query. -/
theorem eq_select_of_not_opensWrite {s : OpenStatement} (hw : opensWrite source = false)
    (h : ofText source = .ok s) : s = .select (Text.collapse source) := by
  cases hs : Token.scan? (Text.collapse source) with
  | none => rw [ofText, hs] at h; cases h
  | some ts =>
    have hnot : ∀ k ∈ writeKeywords, ¬startsWith k (trimSemicolons ts) = true := by
      intro k hk hstart
      obtain ⟨t, ht, hkt⟩ := (Option.any_eq_true _ _).mp (startsWith_trimSemicolons hstart)
      have hopens : opensWrite source = true := by
        rw [opensWrite, hs, Option.any_some, ht]
        exact List.any_eq_true.mpr ⟨k, hk, hkt⟩
      rw [hw] at hopens
      cases hopens
    rw [ofText_of_scan hs, if_neg (hnot .insert (by decide)), if_neg (hnot .update (by decide)),
      if_neg (hnot .delete (by decide))] at h
    cases h
    rfl

/-- The name of the table that a write goes to. -/
def target? : OpenStatement → Option String
  | .insert name _ _ | .update name _ _ | .delete name _ => some name
  | .select _ => none

theorem isSome_target_of_opensWrite {s : OpenStatement} (hw : opensWrite source = true)
    (h : ofText source = .ok s) : s.target?.isSome = true := by
  obtain ⟨ts, hs, ht⟩ := (Option.any_eq_true _ _).mp hw
  obtain ⟨t, ht, hk⟩ := (Option.any_eq_true _ _).mp ht
  obtain ⟨us, rfl⟩ := List.head?_eq_some_iff.mp ht
  have hne : t ≠ .semicolon := by rintro rfl; exact absurd hk (by decide)
  have htrim : trimSemicolons (t :: us) = t :: trimSemicolons us :=
    trimSemicolons_append (List.cons_ne_nil t []) hne us
  obtain ⟨tokens, htokens, hr⟩ := exists_of_ofText h
  obtain rfl := Option.some.inj (hs.symm.trans htokens)
  rw [htrim] at hr
  cases hr with
  | insert h => cases h; rfl
  | update h => cases h; rfl
  | delete h => cases h <;> rfl
  | select hnone =>
    obtain ⟨k, hmem, hk⟩ := List.any_eq_true.mp hk
    have hnot : t.is k = false := hnone k hmem
    rw [hk] at hnot
    cases hnot

end OpenStatement

namespace Statement

/-- The name of the table that a write goes to. -/
def target? : Statement → Option String
  | .insert name _ _ | .update name _ _ | .delete name _ => some name
  | .select _ _ => none

theorem target?_bind {s : OpenStatement} {st : Statement}
    (h : s.bind mode params now = .ok st) : st.target? = s.target? := by
  cases OpenStatement.bindsTo_of_bind h <;> rfl

end Statement

namespace Document

variable {d : Document} {o : Outcome}

/-- The document after a statement. One that does not succeed has no effect. -/
def after (d : Document) (mode : Mode) (now text : String) (params : List Value) : Document :=
  match d.execute mode now text params with
  | .ok o => o.written.getD d
  | .error _ => d

/-- Is a statement an insert that ignores a row whose id is there? -/
def Ignores (d : Document) (t : Table) : Statement → Prop
  | .insert _ orIgnore r => orIgnore = true ∧ d.hasIdOf t r = true
  | _ => False

theorem exists_of_write {name : String} {change : Table → Option Document}
    (h : write name change = .ok o) : ∃ t, Table.ofName? name = some t ∧ o.written = change t := by
  obtain ⟨t, ht, ho⟩ := eq_of_write h
  exact ⟨t, ht, congrArg Outcome.written ho⟩

/-- A write goes to a table of the closed set, and changes nothing but its rows. -/
theorem exists_of_perform {s : Statement} {name : String} (hs : s.target? = some name)
    (h : d.perform mode now s = .ok o) : ∃ t, Table.ofName? name = some t ∧
      (d.Ignores t s ∧ o.written = none ∨
        ¬d.Ignores t s ∧ ∃ rows, o.written = some (d.setRows t rows)) := by
  cases s with
  | insert table orIgnore r =>
    cases hs
    obtain ⟨t, ht, ho⟩ := exists_of_write h
    refine ⟨t, ht, ?_⟩
    cases hi : orIgnore && d.hasIdOf t r with
    | true => exact .inl ⟨by simpa [Ignores] using hi, by rw [ho, insert?, if_pos hi]⟩
    | false =>
      refine .inr ⟨?_, d.rowsOf t ++ [r], ?_⟩
      · rintro ⟨hignore, hid⟩
        rw [hignore, hid] at hi
        cases hi
      · rw [ho, insert?, hi]
        rfl
  | update table overlay cs =>
    cases hs
    obtain ⟨t, ht, ho⟩ := exists_of_write h
    exact ⟨t, ht, .inr ⟨id, _, ho⟩⟩
  | delete table cs =>
    cases hs
    obtain ⟨t, ht, ho⟩ := exists_of_write h
    exact ⟨t, ht, .inr ⟨id, _, ho⟩⟩
  | select => cases hs

theorem get?_setRows_of_ne (d : Document) (t : Table) (rows : List Record) {key : String}
    (h : key ≠ t.name) : (d.setRows t rows).tables.get? key = d.tables.get? key :=
  Catalog.get?_put_of_ne d.tables rows (Ne.symm h)

theorem ensureTables_of_contains (d : Document) {key : String} (h : d.tables.contains key = true) :
    ∀ ts : List Table, (ts.foldl ensureTable d).tables.contains key = true := by
  intro ts
  induction ts generalizing d with
  | nil => exact h
  | cons t ts ih =>
    refine ih _ ?_
    unfold ensureTable
    split
    · exact h
    · exact Catalog.contains_put_of_contains d.tables [] h

theorem contains_foldl_ensureTable {t : Table} : ∀ {ts : List Table} (d : Document), t ∈ ts →
    (ts.foldl ensureTable d).tables.contains t.name = true
  | u :: ts, d, ht => by
    rcases List.mem_cons.mp ht with rfl | ht
    · refine ensureTables_of_contains (d.ensureTable t) ?_ ts
      unfold ensureTable
      split
      · assumption
      · exact Catalog.contains_put_self d.tables t.name []
    · exact contains_foldl_ensureTable (d.ensureTable u) ht

theorem contains_ensureTables (d : Document) (t : Table) :
    d.ensureTables.tables.contains t.name = true :=
  contains_foldl_ensureTable d (Table.mem_all t)

theorem ne_name_of_not_isTableName {key : String} (h : isTableName key = false) (t : Table) :
    key ≠ t.name := by
  rintro rfl
  have ht : isTableName t.name = true := List.any_eq_true.mpr ⟨t, Table.mem_all t, by simp⟩
  rw [h] at ht
  cases ht

theorem get?_ensureTables (d : Document) {key : String} (h : isTableName key = false) :
    d.ensureTables.tables.get? key = d.tables.get? key := by
  rw [ensureTables]
  generalize Table.all = ts
  induction ts generalizing d with
  | nil => rfl
  | cons t ts ih =>
    rw [List.foldl_cons, ih]
    unfold ensureTable
    split
    · rfl
    · exact Catalog.get?_put_of_ne d.tables [] (Ne.symm (ne_name_of_not_isTableName h t))

theorem extras_ensureTables (d : Document) : d.ensureTables.extras = d.extras := by
  rw [ensureTables]
  generalize Table.all = ts
  induction ts generalizing d with
  | nil => rfl
  | cons t ts ih =>
    rw [List.foldl_cons, ih]
    unfold ensureTable
    split <;> rfl

end Document

theorem Keeper.saves_save (d : Document) (k : Keeper) : (k.save d).saves = k.saves + 1 := by
  cases k <;> rfl

/-- A call: a statement with its parameters, at the time of a stamp and under a mode. -/
structure Call where
  mode : Mode
  now : String
  source : String
  params : List Value

namespace Database

/-- The rows that a call gives or why it fails, and the database that it leaves. -/
def call (db : Database) (c : Call) : Except Failure (List Record) × Database :=
  { db with mode := c.mode }.execute c.now c.source c.params

/-- The database after a call, whether it fails or not. -/
def after (db : Database) (c : Call) : Database := (db.call c).2

/-- A database in memory after some calls. -/
def run (mode : Mode) (d : Document) (calls : List Call) : Database :=
  calls.foldl after (inMemory mode d)

/-- The next database holds the same document, and nothing was saved. -/
def Same (db next : Database) : Prop := next.document = db.document ∧ next.keeper = db.keeper

/-- All but the rows of one table is the same in the next database, and it was saved once. -/
structure SavedIn (db next : Database) (t : Table) : Prop where
  others : ∀ key, key ≠ t.name → next.document.tables.get? key = db.document.tables.get? key
  extras : next.document.extras = db.document.extras
  saves : next.keeper.saves = db.keeper.saves + 1

/-- What a call leaves as it was. -/
structure Kept (db : Database) (c : Call) : Prop where
  failed : ∀ e, (db.call c).1 = .error e → db.Same (db.after c)
  read : OpenStatement.opensWrite c.source = false → db.Same (db.after c)
  written : ∀ rows, (db.call c).1 = .ok rows → OpenStatement.opensWrite c.source = true →
    ∃ s name t, Statement.ofText c.source c.mode c.params c.now = .ok s ∧
      s.target? = some name ∧ Table.ofName? name = some t ∧
      (db.document.Ignores t s ∧ db.Same (db.after c) ∨
        ¬db.document.Ignores t s ∧ db.SavedIn (db.after c) t)

/-- What a database in memory keeps of the document that it was opened with. -/
structure Intact (d : Document) (db : Database) : Prop where
  complete : ∀ t : Table, db.document.tables.contains t.name = true
  outside : ∀ key, Document.isTableName key = false →
    db.document.tables.get? key = d.tables.get? key
  extras : db.document.extras = d.extras

theorem Same.refl (db : Database) : db.Same db := ⟨rfl, rfl⟩

theorem call_eq (db : Database) (c : Call) : db.call c =
    { db with mode := c.mode }.conclude (db.document.execute c.mode c.now c.source c.params) :=
  execute_eq _ c.now c.source c.params

/-- The steps of a call that fails have changed nothing. -/
theorem same_after_of_error {db : Database} {c : Call} {e : Failure}
    (h : (db.call c).1 = .error e) : db.Same (db.after c) := by
  rw [call_eq] at h
  rw [after, call_eq]
  cases ho : db.document.execute c.mode c.now c.source c.params with
  | error f => exact ⟨rfl, rfl⟩
  | ok o =>
    rw [ho] at h
    cases h

/-- All that a call which succeeds can do: nothing, or new rows in the table that it names. -/
theorem cases_of_call {db : Database} {c : Call} {rows : List Record}
    (h : (db.call c).1 = .ok rows) :
    ∃ s, Statement.ofText c.source c.mode c.params c.now = .ok s ∧
      (s.target? = none ∧ db.Same (db.after c) ∨
        ∃ name t, s.target? = some name ∧ Table.ofName? name = some t ∧
          (db.document.Ignores t s ∧ db.Same (db.after c) ∨
            ¬db.document.Ignores t s ∧ ∃ rows, (db.after c).document = db.document.setRows t rows ∧
              (db.after c).keeper = db.keeper.save (db.after c).document)) := by
  obtain ⟨o, ho, -, hafter⟩ := exists_of_execute_eq_ok (Prod.ext h rfl)
  have hnext : db.after c = { db with mode := c.mode }.settle o := hafter
  have hsame : o.written = none → db.Same (db.after c) := fun hw => by
    rw [hnext, settle, hw]
    exact ⟨rfl, rfl⟩
  simp only [Document.execute] at ho
  cases hs : Statement.ofText c.source c.mode c.params c.now with
  | error e =>
    rw [hs] at ho
    cases ho
  | ok s =>
    rw [hs] at ho
    refine ⟨s, rfl, ?_⟩
    cases ht : s.target? with
    | none =>
      cases s with
      | select text params => exact .inl ⟨rfl, hsame (Document.written_of_evaluate ho)⟩
      | insert | update | delete => cases ht
    | some name =>
      obtain ⟨t, hname, hw⟩ := Document.exists_of_perform ht ho
      refine .inr ⟨name, t, rfl, hname, ?_⟩
      rcases hw with ⟨hi, hw⟩ | ⟨hi, rows, hw⟩
      · exact .inl ⟨hi, hsame hw⟩
      · refine .inr ⟨hi, rows, ?_⟩
        rw [hnext, settle, hw]
        exact ⟨rfl, rfl⟩

/-- A statement is a write exactly if its text opens one. -/
theorem isSome_target {c : Call} {s : Statement}
    (h : Statement.ofText c.source c.mode c.params c.now = .ok s) :
    s.target?.isSome = OpenStatement.opensWrite c.source := by
  cases ho : OpenStatement.ofText c.source with
  | error e => rw [Statement.ofText, ho] at h; cases h
  | ok o =>
    rw [Statement.ofText, ho] at h
    rw [Statement.target?_bind h]
    cases hw : OpenStatement.opensWrite c.source with
    | true => exact OpenStatement.isSome_target_of_opensWrite hw ho
    | false =>
      rw [OpenStatement.eq_select_of_not_opensWrite hw ho]
      rfl

theorem kept (db : Database) (c : Call) : db.Kept c where
  failed _ h := same_after_of_error h
  read hw := by
    cases h : (db.call c).1 with
    | error e => exact same_after_of_error h
    | ok rows =>
      obtain ⟨s, hs, ⟨-, hsame⟩ | ⟨name, t, ht, -⟩⟩ := cases_of_call h
      · exact hsame
      · have hsome := isSome_target hs
        rw [ht, hw] at hsome
        cases hsome
  written rows h hw := by
    obtain ⟨s, hs, ⟨ht, -⟩ | ⟨name, t, ht, hname, hdone⟩⟩ := cases_of_call h
    · have hsome := isSome_target hs
      rw [ht, hw] at hsome
      cases hsome
    · refine ⟨s, name, t, hs, ht, hname, hdone.imp_right ?_⟩
      rintro ⟨hi, rows, hd, hk⟩
      refine ⟨hi, fun key hkey => ?_, ?_, ?_⟩
      · rw [hd, Document.get?_setRows_of_ne _ t rows hkey]
      · rw [hd]; rfl
      · rw [hk, Keeper.saves_save]

namespace Intact

theorem inMemory (mode : Mode) (d : Document) : Intact d (inMemory mode d) :=
  ⟨d.contains_ensureTables, fun _ h => d.get?_ensureTables h, d.extras_ensureTables⟩

theorem of_same {d : Document} {db next : Database} (h : Intact d db) (hs : db.Same next) :
    Intact d next := by
  refine ⟨?_, ?_, ?_⟩ <;> rw [hs.1]
  · exact h.complete
  · exact h.outside
  · exact h.extras

theorem after {d : Document} {db : Database} (h : Intact d db) (c : Call) :
    Intact d (db.after c) := by
  cases hc : (db.call c).1 with
  | error e => exact h.of_same (same_after_of_error hc)
  | ok rows =>
    obtain ⟨s, -, ⟨-, hsame⟩ | ⟨name, t, -, -, ⟨-, hsame⟩ | ⟨-, rows, hd, -⟩⟩⟩ := cases_of_call hc
    · exact h.of_same hsame
    · exact h.of_same hsame
    · refine ⟨fun u => ?_, fun key hkey => ?_, ?_⟩ <;> rw [hd]
      · exact Catalog.contains_put_of_contains _ rows (h.complete u)
      · rw [Document.get?_setRows_of_ne _ t rows (Document.ne_name_of_not_isTableName hkey t)]
        exact h.outside key hkey
      · exact h.extras

end Intact

theorem intact_foldl {d : Document} {db : Database} (h : Intact d db) :
    ∀ calls : List Call, Intact d (calls.foldl after db) := by
  intro calls
  induction calls generalizing db with
  | nil => exact h
  | cons c calls ih => exact ih (h.after c)

/-- In every state that calls lead to, what was loaded is intact, and every further call keeps to
its own table. -/
theorem run_kept (mode : Mode) (d : Document) (calls : List Call) :
    Intact d (run mode d calls) ∧ ∀ c, (run mode d calls).Kept c :=
  ⟨intact_foldl (.inMemory mode d) calls, fun c => kept _ c⟩

end Database
end ClientRecords
