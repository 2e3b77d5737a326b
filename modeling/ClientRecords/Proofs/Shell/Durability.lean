import ClientRecords.Proofs.Shell.Lines
import ClientRecords.Shell.Run
/-!
Sessions from their start to their end. Lines are entered, delays end in between, and the session is
left, as in every run that takes lines (`ShellOptions.run_eq_leave`). If no write fails, every file
that was opened holds what the ledger has for it (`ShellOptions.session_keeps_entered`). This is so
only if the file that is open is not opened once more while it has something left to write
(`ShellOptions.reopening_loses_delete`): the new database is read before the old one is written, and
written after it.
-/

namespace ClientRecords

/-- What happens to a session: a line is entered, or the delay after a change ends. -/
inductive ShellEvent where
  | line (source : Demo.Source) (text : String)
  | expiry

namespace Session

/-- The session after an event. Once it has ended, lines are not read any more. -/
def react (s : Session) : ShellEvent → Session
  | .line source text => if s.running then (s.line source text).2 else s
  | .expiry => s.expire

def follow (s : Session) (events : List ShellEvent) : Session := events.foldl react s

/-- What an event asks of the databases. -/
def demandOf (s : Session) : ShellEvent → Demand
  | .line source text => if s.running then s.demand source text else .nothing
  | .expiry => .nothing

/-- Do all writes succeed that come with an event? -/
def writesAt (s : Session) : ShellEvent → Bool
  | .line source text => s.writes (s.demandOf (.line source text))
  | .expiry => s.database.all (·.keeper.expires s.files)

end Session

namespace Ledger

/-- All that is asked for in the course of events is entered. -/
def follow (l : Ledger) (s : Session) : List ShellEvent → Ledger
  | [] => l
  | e :: events => (l.enter s.mode s.files (s.demandOf e)).follow (s.react e) events

/-- A course of events in which no write fails and files are opened as they may be. -/
inductive Smooth : Ledger → Session → List ShellEvent → Prop
  | ended {l : Ledger} {s : Session} : Smooth l s []
  | next {l : Ledger} {s : Session} {e : ShellEvent} {events : List ShellEvent}
      (written : s.writesAt e = true)
      (admitted : ∀ path ∈ (s.demandOf e).path?, l.Admits s.files s.database path)
      (rest : Smooth (l.enter s.mode s.files (s.demandOf e)) (s.react e) events) :
      Smooth l s (e :: events)

theorem smooth_cons {l : Ledger} {s : Session} {e : ShellEvent} {events : List ShellEvent} :
    l.Smooth s (e :: events) ↔ s.writesAt e = true ∧
      (∀ path ∈ (s.demandOf e).path?, l.Admits s.files s.database path) ∧
      (l.enter s.mode s.files (s.demandOf e)).Smooth (s.react e) events := by
  constructor
  · rintro (_ | ⟨hw, ha, hrest⟩)
    exact ⟨hw, ha, hrest⟩
  · rintro ⟨hw, ha, hrest⟩
    exact .next hw ha hrest

instance decidableSmooth : ∀ (l : Ledger) (s : Session) (events : List ShellEvent),
    Decidable (l.Smooth s events)
  | _, _, [] => .isTrue .ended
  | l, s, e :: events =>
    have := decidableSmooth (l.enter s.mode s.files (s.demandOf e)) (s.react e) events
    decidable_of_iff _ smooth_cons.symm

/-- A ledger agrees with a session, whose parameters are all finite. -/
structure Agrees (l : Ledger) (s : Session) : Prop where
  accounts : l.Accounts s.mode s.files s.database
  finite : ∀ v ∈ s.bindings, v.isFinite = true

end Ledger

namespace Session

variable {l : Ledger} {s : Session} {source : Demo.Source}

/-! ### One event -/

/-- A statement is carried out with the parameters that are bound. -/
theorem eq_bindings_of_demand {line now text : String} {params : List Value}
    (h : s.demand source line = .statement now text params) : params = s.bindings := by
  rw [demand] at h
  split at h
  · cases h
  · split at h <;> cases h
  · exact (Demand.statement.inj h).2.2.symm

/-- The history has no part in what is written while lines are entered. -/
theorem writes_of_history (s : Session) (history : History) (demand : Demand) :
    ({ s with history := history } : Session).writes demand = s.writes demand := by
  cases demand with
  | nothing | seed _ | statement _ _ _ => rfl
  | openFile path =>
    simp only [writes, Session.close]
    cases s.database <;> rfl

theorem agrees_line {line : String} (h : l.Agrees s)
    (hw : s.writes (s.demand source line) = true)
    (ha : ∀ path ∈ (s.demand source line).path?, l.Admits s.files s.database path) :
    (l.enter s.mode s.files (s.demand source line)).Agrees (s.line source line).2 := by
  -- the line is recorded first, which changes nothing that counts here
  let recorded : Session := { s with history := s.history.record line }
  have hanswers : recorded.Answers (s.demand source line) (s.line source line).2 :=
    s.answers_line source line
  have hwrites : recorded.writes (s.demand source line) = true :=
    (s.writes_of_history _ _).trans hw
  have haccounts := recorded.accounts_serve h.accounts ?_ hwrites ha
  · refine ⟨?_, hanswers.isFinite h.finite⟩
    rw [hanswers.files, hanswers.database, hanswers.mode]
    exact haccounts
  · rintro now text params hdemand
    rw [eq_bindings_of_demand hdemand]
    exact h.finite

theorem expire_of_none (hdb : s.database = none) : s.expire = s := by
  simp only [expire, hdb]

theorem agrees_expire (h : l.Agrees s) (hw : s.writesAt .expiry = true) : l.Agrees s.expire := by
  cases hdb : s.database with
  | none => rwa [expire_of_none hdb]
  | some db =>
    have haccounts := h.accounts
    rw [writesAt, hdb] at hw
    rw [hdb] at haccounts
    have hnext : s.expire =
        { s with database := some (db.expire s.files).1, files := (db.expire s.files).2 } := by
      simp only [expire, hdb]
    rw [hnext]
    exact ⟨haccounts.moved rfl rfl fun path hk => ⟨hk.expire hw, hk.spares_expire⟩, h.finite⟩

/-- An event is accounted for, if no write fails and a file is opened as it may be. -/
theorem agrees_react {e : ShellEvent} (h : l.Agrees s) (hw : s.writesAt e = true)
    (ha : ∀ path ∈ (s.demandOf e).path?, l.Admits s.files s.database path) :
    (l.enter s.mode s.files (s.demandOf e)).Agrees (s.react e) := by
  cases e with
  | expiry => exact agrees_expire h hw
  | line source text =>
    by_cases hrunning : s.running = true
    · simp only [writesAt, demandOf, react, if_pos hrunning] at hw ha ⊢
      exact agrees_line h hw ha
    · simp only [demandOf, react, if_neg hrunning]
      exact h

/-! ### A course of events -/

/-- The ledger agrees with the session all along a smooth course. -/
theorem agrees_follow {events : List ShellEvent} (h : l.Agrees s) (hrun : l.Smooth s events) :
    (l.follow s events).Agrees (s.follow events) := by
  induction hrun with
  | ended => exact h
  | next written admitted _ ih => exact ih (agrees_react h written admitted)

theorem agrees_greet (h : l.Agrees s) : l.Agrees s.greet.2 := by
  simp only [greet]
  split
  · exact ⟨h.accounts, h.finite⟩
  · exact h

theorem finish_of_code {shown : String} (h : (s.finish shown none).code = 0) :
    s.close.1 = true ∧ (s.finish shown none).files = s.close.2.files := by
  simp only [finish] at h ⊢
  cases hfault : s.database.bind (·.fault? s.files) with
  | none =>
    refine ⟨?_, rfl⟩
    rw [close_fst, hfault, Option.isNone_none]
  | some fault =>
    rw [hfault] at h
    cases h

/-- A run that ends with an error says so by its code. -/
theorem finish_code_ne_zero (s : Session) (shown : String) (e : ShellError) :
    (s.finish shown (some e)).code ≠ 0 := by
  have hfinish : s.finish shown (some e) = .of shown (some e) s.close.2.files := rfl
  rw [hfinish, ShellExit.of]
  cases e.isFatal <;> exact nofun

/-- A session is left without an error only if its history and its database are written. -/
theorem leave_of_code {shown : String} (h : (s.leave shown).code = 0) :
    ∃ files, s.files.write? historyPath s.history.fileText = some files ∧
      ({ s with files := files }).close.1 = true ∧
      (s.leave shown).files = ({ s with files := files }).close.2.files := by
  rcases Option.eq_none_or_eq_some s.broken with hbroken | ⟨e, hbroken⟩
  · cases hwrite : s.files.write? historyPath s.history.fileText with
    | none =>
      simp only [leave, hbroken, saveHistory, hwrite] at h
      exact absurd h (s.finish_code_ne_zero shown _)
    | some files =>
      have hleave : s.leave shown = ({ s with files := files }).finish shown none := by
        simp only [leave, hbroken, saveHistory, hwrite, if_true]
      rw [hleave] at h ⊢
      exact ⟨files, rfl, finish_of_code h⟩
  · simp only [leave, hbroken] at h
    exact absurd h (s.finish_code_ne_zero shown e)

/-- When the session is left, the files hold what the ledger has for them. -/
theorem agrees_leave {shown : String} (h : l.Agrees s) (hexit : (s.leave shown).code = 0) :
    ∀ q d, l.documents q = some d →
      (s.leave shown).files.get? q = some (.file (d.fileText true)) := by
  obtain ⟨files, hwrite, hclosed, hleft⟩ := leave_of_code hexit
  have haccounts : l.Accounts s.mode files s.database := h.accounts.elsewhere fun q d hd =>
    Files.get?_write?_of_ne hwrite (h.accounts.lasting q d hd)
  rw [hleft]
  cases hdb : s.database with
  | none =>
    have hidle : l.current = none := haccounts.idle hdb
    intro q d hd
    simp only [Session.close]
    exact haccounts.closed q d hd (hidle ▸ (Option.some_ne_none q).symm)
  | some db =>
    rw [hdb] at haccounts
    simp only [Session.close, hdb] at hclosed ⊢
    exact haccounts.close hclosed

/-! ### Runs -/

theorem follow_lines_of_not_running (h : s.running = false) : ∀ texts : List String,
    s.follow (texts.map (.line source)) = s
  | [] => rfl
  | text :: texts => by
    have hreact : s.react (.line source text) = s := by simp [react, h]
    rw [List.map_cons, follow, List.foldl_cons, hreact]
    exact follow_lines_of_not_running h texts

/-- The lines of a session are a course of events in which no delay ends. -/
theorem lines_eq_follow : ∀ {texts : List String} {s : Session}, s.running = true →
    (s.lines source texts).2 = s.follow (texts.map (.line source))
  | [], _, _ => rfl
  | text :: texts, s, h => by
    have hreact : s.react (.line source text) = (s.line source text).2 := if_pos h
    rw [List.map_cons, follow, List.foldl_cons, hreact, lines]
    cases hrunning : (s.line source text).2.running with
    | true =>
      simp only [hrunning, if_true]
      exact lines_eq_follow hrunning
    | false =>
      simp only [hrunning, Bool.false_eq_true, if_false]
      exact (follow_lines_of_not_running hrunning texts).symm

end Session

namespace ShellOptions

/-- The ledger at the start of a run. -/
def ledger (o : ShellOptions) (files : Files) : Ledger :=
  match o.database with
  | none => .empty
  | some path => Ledger.empty.openFile files path

/-- A run that takes lines is a session that they are entered in and that is left. -/
theorem run_eq_leave {o : ShellOptions} {terminal : Bool} {source : Demo.Source} {input : String}
    {files : Files} (hlocal : o.server = none) (hlines : o.command = none)
    (hopen : (o.interactive || o.database.isSome) = true) :
    ∃ shown, o.run terminal source input files =
      ((o.session terminal files).greet.2.follow
        ((Text.lines input).map (.line source))).leave shown := by
  have hsession : (o.session terminal files).database.isSome = o.database.isSome ∧
      (o.session terminal files).greet.2.running = true := by
    cases hdb : o.database with
    | none =>
      simp only [session, hdb, Session.greet]
      split <;> exact ⟨rfl, rfl⟩
    | some path =>
      simp only [session, hdb, Session.greet]
      split <;> exact ⟨rfl, rfl⟩
  refine ⟨?_, ?_⟩
  · exact ((o.session terminal files).interact source input).1
  · simp only [run, hlocal, hlines, hsession.1, hopen, if_true, Session.interact,
      Session.lines_eq_follow hsession.2]

variable {o : ShellOptions} {terminal : Bool} {files : Files}

theorem agrees_session (hopen : ∀ path ∈ o.database, Ledger.empty.Admits files none path) :
    (o.ledger files).Agrees (o.session terminal files) := by
  have hempty : Ledger.empty.Accounts o.mode files none := Ledger.accounts_empty o.mode files
  cases hdb : o.database with
  | none =>
    simp only [ledger, session, hdb]
    exact ⟨hempty, List.forall_mem_nil _⟩
  | some path =>
    simp only [ledger, session, hdb]
    exact ⟨Session.accounts_openFile (s := .start files o.mode _ _) hempty rfl (hopen path hdb),
      List.forall_mem_nil _⟩

/-- A session is started, lines are entered, delays end in between, and the session is left. If no
write fails and files are opened as they may be, every file that was opened holds the document that
it held at first, changed by all that succeeded while it was open. -/
theorem session_keeps_entered {events : List ShellEvent} {shown : String}
    (hopen : ∀ path ∈ o.database, Ledger.empty.Admits files none path)
    (hrun : (o.ledger files).Smooth (o.session terminal files).greet.2 events)
    (hexit : (((o.session terminal files).greet.2.follow events).leave shown).code = 0) :
    ∀ p d, ((o.ledger files).follow (o.session terminal files).greet.2 events).documents p =
        some d →
      (((o.session terminal files).greet.2.follow events).leave shown).files.get? p =
        some (.file (d.fileText true)) :=
  Session.agrees_leave
    (Session.agrees_follow (Session.agrees_greet (agrees_session hopen)) hrun) hexit

/-- A file is changed and left for a new one; after the delay the first one is opened again, and
changed further. Both files hold what was entered. -/
theorem session_keeps_entered_twice :
    let source : Demo.Source := ⟨fun _ => ⟨738000, 0, 0⟩, fun _ => ""⟩
    let o : ShellOptions :=
      ⟨0, false, true, false, none, some "a.json", none, none, none⟩
    let files : Files := [(["a.json"], .file "\x7b\"leads\":[\x7b\"id\":\"l1\"\x7d]\x7d")]
    let s := (o.session false files).greet.2
    let events : List ShellEvent := [
      .line source "DELETE FROM leads", .line source ".open b.json",
      .line source "INSERT INTO leads (id) VALUES ('l2')", .expiry,
      .line source ".open a.json", .line source "INSERT INTO users (id) VALUES ('u1')"]
    (∀ path ∈ o.database, Ledger.empty.Admits files none path) ∧ (o.ledger files).Smooth s events ∧
      ((s.follow events).leave "").code = 0 ∧
      ∀ p d, ((o.ledger files).follow s events).documents p = some d →
        ((s.follow events).leave "").files.get? p = some (.file (d.fileText true)) := by
  intro source o files s events
  have hopen : ∀ path ∈ o.database, Ledger.empty.Admits files none path := by decide +kernel
  have hrun : (o.ledger files).Smooth s events := by decide +kernel
  have hexit : ((s.follow events).leave "").code = 0 := by decide +kernel
  exact ⟨hopen, hrun, hexit, session_keeps_entered hopen hrun hexit⟩

/-- A statement is carried out and the file that is open is opened once more. No write fails, but in
the end the file holds what it held before the statement. -/
theorem reopening_loses_delete :
    let source : Demo.Source := ⟨fun _ => ⟨738000, 0, 0⟩, fun _ => ""⟩
    let o : ShellOptions :=
      ⟨0, false, true, false, none, some "db.json", none, none, none⟩
    let files : Files := [(["db.json"], .file "\x7b\"leads\":[\x7b\"id\":\"l1\"\x7d]\x7d")]
    let s := (o.session false files).greet.2
    let events : List ShellEvent := [
      .line source "DELETE FROM leads", .line source ".open db.json"]
    let exit := (s.follow events).leave ""
    (∀ path ∈ o.database, Ledger.empty.Admits files none path) ∧
      s.writesAt (.line source "DELETE FROM leads") = true ∧
      (s.react (.line source "DELETE FROM leads")).writesAt (.line source ".open db.json") = true ∧
      exit.code = 0 ∧
      (∀ d ∈ ((o.ledger files).follow s events).documents ["db.json"], d.rowsOf .leads = []) ∧
      (Document.lyingAt exit.files ["db.json"]).rowsOf .leads =
        [Record.ofFields [("id", .string "l1")]] ∧
      ¬∀ p d, ((o.ledger files).follow s events).documents p = some d →
        exit.files.get? p = some (.file (d.fileText true)) := by
  intro source o files s events exit
  let documents := ((o.ledger files).follow s events).documents
  have hknown : (documents ["db.json"]).isSome = true := by decide +kernel
  have hlost : ∀ d ∈ documents ["db.json"],
      exit.files.get? ["db.json"] ≠ some (.file (d.fileText true)) := by decide +kernel
  refine ⟨by decide +kernel, by decide +kernel, by decide +kernel, by decide +kernel,
    by decide +kernel, by decide +kernel, fun hkept => ?_⟩
  obtain ⟨d, hd⟩ := Option.isSome_iff_exists.mp hknown
  exact hlost d hd (hkept _ d hd)

end ShellOptions
end ClientRecords
