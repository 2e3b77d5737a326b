import ClientRecords.Proofs.Shell.Durability
/-!
Opening a file while another database is open. It fails if the new database does not start or the
last write of the old one fails. In the first case the session stays as it was. In the second case
it has no database any more, and what the old one had left to write is given up
(`Session.failed_open_keeps_iff`): the old one is taken out of the session before it is written.
-/

namespace ClientRecords

namespace ShellEvent

/-- Does an event open a file, if lines are still read? -/
def opens : ShellEvent → Bool
  | .line _ text =>
    match (Text.trim text).toList with
    | '.' :: cs =>
      match (Text.words cs).map String.ofList with
      | ["open", _] => true
      | _ => false
    | _ => false
  | .expiry => false

end ShellEvent

namespace Session

variable {s : Session} {db : Database} {files : Files}

/-! ### Sessions without a database -/

/-- No database is open in a session, and its files are these. -/
structure Detached (files : Files) (s : Session) : Prop where
  database : s.database = none
  files : s.files = files

namespace Detached

theorem execute (h : s.Detached files) (now text : String) (params : List Value) :
    s.execute now text params = (.error .notConnected, s) := by
  simp only [Session.execute, h.database]

theorem close (h : s.Detached files) : s.close = (true, s) := by
  simp only [Session.close, h.database]

/-- Nothing but the opening of a file has an effect. -/
theorem serve (h : s.Detached files) {demand : Demand} (hd : demand.path? = none) :
    s.serve demand = s := by
  cases demand with
  | nothing => rfl
  | openFile path => cases hd
  | seed source => simp only [Session.serve, h.database]
  | statement now text params => simp only [Session.serve, h.execute]

end Detached

theorem path?_demandOf {e : ShellEvent} (h : e.opens = false) : (s.demandOf e).path? = none := by
  cases e with
  | expiry => rfl
  | line source text =>
    rw [demandOf]
    cases s.running with
    | false => rfl
    | true =>
      rw [if_pos rfl]
      -- of all commands only the one that opens a file asks for a path
      fun_cases demand s source text with
      | case2 cs hline path hwords =>
        simp only [ShellEvent.opens, hline, hwords] at h
        cases h
      | case1 | case3 | case4 | case5 => rfl

/-- An event that opens no file leaves a session without a database, and the files as they are. -/
theorem Detached.react (h : s.Detached files) {e : ShellEvent} (he : e.opens = false) :
    (s.react e).Detached files := by
  cases e with
  | expiry => rwa [Session.react, expire_of_none h.database]
  | line source text =>
    by_cases hrunning : s.running = true
    · let recorded : Session := { s with history := s.history.record text }
      have hrecorded : recorded.Detached files := ⟨h.database, h.files⟩
      have hpath : (s.demand source text).path? = none := by
        simpa only [demandOf, if_pos hrunning] using s.path?_demandOf he
      have hanswers : recorded.Answers (s.demand source text) (s.line source text).2 :=
        s.answers_line source text
      rw [Session.react, if_pos hrunning]
      refine ⟨?_, ?_⟩
      · rw [hanswers.database, hrecorded.serve hpath, hrecorded.database]
      · rw [hanswers.files, hrecorded.serve hpath, hrecorded.files]
    · rwa [Session.react, if_neg hrunning]

theorem Detached.follow {events : List ShellEvent} (h : s.Detached files)
    (hstay : ∀ e ∈ events, e.opens = false) : (s.follow events).Detached files := by
  induction events generalizing s with
  | nil => exact h
  | cons e events ih =>
    obtain ⟨he, hrest⟩ := List.forall_mem_cons.mp hstay
    exact ih (h.react he) hrest

/-! ### Opening a file -/

/-- How the opening of a file ends where a database is open. -/
inductive Opening (s : Session) (db : Database) (path : String) : Option String → Reply → Prop
  | notStarted (reason : String) : Opening s db path (some reason) (.error (.notStarted reason), s)
  | unwritten (fault : FileFault) (met : db.fault? s.files = some fault) :
      Opening s db path none (.error (.unwritten fault), { s with
        database := none
        files := (Database.openFile s.mode true s.files path).release (db.close s.files).2 })
  | opened (free : db.fault? s.files = none) :
      Opening s db path none (.ok "", { s with
        database := some (Database.openFile s.mode true s.files path)
        files := (db.close s.files).2 })

theorem opening_openStarting (hdb : s.database = some db) (refusal : Option String)
    (path : String) : s.Opening db path refusal (s.openStarting refusal path) := by
  cases refusal with
  | some reason => exact .notStarted reason
  | none =>
    simp only [openStarting, openFile, hdb]
    cases hfault : db.fault? s.files with
    | none => exact .opened hfault
    | some fault => exact .unwritten fault hfault

namespace Opening

variable {path : String} {refusal : Option String} {reply : Reply}

theorem failed_iff (h : s.Opening db path refusal reply) :
    (∃ e, reply.1 = .error e) ↔ refusal.isSome = true ∨ (db.close s.files).1 = false := by
  rw [← db.fault?_isNone]
  cases h with
  | notStarted reason => simp
  | unwritten fault met => simp [met]
  | opened free => simp [free]

/-- A session whose last write failed is not the one before, which had a database. -/
theorem kept_iff (h : s.Opening db path refusal reply) (hdb : s.database = some db)
    {e : ShellError} (he : reply.1 = .error e) : reply.2 = s ↔ refusal.isSome = true := by
  cases h with
  | notStarted reason => simp
  | unwritten fault met =>
    refine iff_of_false (fun hsame => ?_) Bool.false_ne_true
    rw [← hsame] at hdb
    cases hdb
  | opened free => cases he

theorem unwritten_of_close (h : s.Opening db path none reply)
    (hclose : (db.close s.files).1 = false) :
    (∃ fault, db.fault? s.files = some fault ∧ reply.1 = .error (.unwritten fault)) ∧
      reply.2 = { s with database := none, files := reply.2.files } := by
  cases h with
  | unwritten fault met => exact ⟨⟨fault, met, rfl⟩, rfl⟩
  | opened free =>
    rw [← db.fault?_isNone, free] at hclose
    cases hclose

end Opening

/-- Opening a file fails exactly if the new database does not start or the last write of the open
one fails. If it fails, the session is as it was exactly if the new database did not start. If it is
the last write that failed, the session has no database any more, and keeps all else: whatever comes
then, as long as no line opens a file, every statement is refused, no file is touched, and there is
nothing to write when the session is closed. -/
theorem failed_open_keeps_iff (hdb : s.database = some db) (refusal : Option String)
    (path : String) {events : List ShellEvent} (hstay : ∀ e ∈ events, e.opens = false) :
    let reply := s.openStarting refusal path
    let last := reply.2.follow events
    ((∃ e, reply.1 = .error e) ↔ refusal.isSome = true ∨ (db.close s.files).1 = false) ∧
      (∀ e, reply.1 = .error e → (reply.2 = s ↔ refusal.isSome = true)) ∧
      (refusal = none → (db.close s.files).1 = false →
        (∃ fault, db.fault? s.files = some fault ∧ reply.1 = .error (.unwritten fault)) ∧
          reply.2 = { s with database := none, files := reply.2.files } ∧
          last.Detached reply.2.files ∧
          (∀ now text params, last.execute now text params = (.error .notConnected, last)) ∧
          last.close = (true, last)) := by
  have hopening := s.opening_openStarting hdb refusal path
  refine ⟨hopening.failed_iff, fun e he => hopening.kept_iff hdb he, ?_⟩
  rintro rfl hclose
  obtain ⟨hfault, hleft⟩ := hopening.unwritten_of_close hclose
  have hdetached : (s.openStarting none path).2.Detached (s.openStarting none path).2.files :=
    ⟨congrArg database hleft, rfl⟩
  have hlast := hdetached.follow hstay
  exact ⟨hfault, hleft, hlast, hlast.execute, hlast.close⟩

/-- A database under a path that leads through a file is left for another one. Afterwards a delay
ends, a statement is entered, and the tables are asked for. -/
theorem failed_open_keeps_iff_through_file :
    let source : Demo.Source := ⟨fun _ => ⟨738000, 0, 0⟩, fun _ => ""⟩
    let files : Files := [(["db.json"], .file "\x7b\x7d")]
    let db := Database.openFile .lenient true files "db.json/x.json"
    let s := { Session.start files .lenient ⟨.text, .words⟩ false with database := some db }
    let events : List ShellEvent :=
      [.expiry, .line source "SELECT * FROM leads", .line source ".tables"]
    let reply := s.openStarting none "b.json"
    let last := reply.2.follow events
    s.database = some db ∧ (∀ e ∈ events, e.opens = false) ∧ (db.close s.files).1 = false ∧
      (∃ fault, db.fault? s.files = some fault ∧ reply.1 = .error (.unwritten fault)) ∧
      reply.2 ≠ s ∧ last.Detached reply.2.files ∧ last.close = (true, last) := by
  intro source files db s events reply last
  have hstay : ∀ e ∈ events, e.opens = false := by decide +kernel
  have hclose : (db.close s.files).1 = false := by decide +kernel
  obtain ⟨-, hkept, hlost⟩ := failed_open_keeps_iff (s := s) rfl none "b.json" hstay
  obtain ⟨⟨fault, hmet, hreply⟩, -, hdetached, -, hclosed⟩ := hlost rfl hclose
  refine ⟨rfl, hstay, hclose, ⟨fault, hmet, hreply⟩, fun hsame => ?_, hdetached, hclosed⟩
  exact Bool.false_ne_true ((hkept _ hreply).mp hsame)

/-- A lead is inserted into such a database. The attempt to open another one fails, as the lead
cannot be written, and then the lead that was there before is found nowhere. -/
theorem failed_open_loses_lead :
    let source : Demo.Source := ⟨fun _ => ⟨738000, 0, 0⟩, fun _ => ""⟩
    let files : Files := [(["db.json"], .file "\x7b\x7d")]
    let db := Database.openFile .lenient true files "db.json/x.json"
    let s := { Session.start files .lenient ⟨.text, .words⟩ false with database := some db }
    let before := s.react (.line source "INSERT INTO leads (id) VALUES ('l1')")
    let reply := before.openStarting none "b.json"
    let query := "SELECT COUNT(*) AS n FROM leads"
    reply.1 = .error (.unwritten .taken) ∧
      (before.execute "" query []).1 = .ok "[1]\n  n: 1\n  c: 1\n  total: 1\n(1 ligne(s))\n" ∧
      (reply.2.execute "" query []).1 = .error .notConnected ∧
      ¬∀ (t : Session) (refusal : Option String) (path : String) (e : ShellError),
        (t.openStarting refusal path).1 = .error e →
          (t.openStarting refusal path).2.database.map (·.document) =
            t.database.map (·.document) := by
  intro source files db s before reply query
  have hfailed : reply.1 = .error (.unwritten .taken) := by decide +kernel
  have hopen : before.database.isSome = true := by decide +kernel
  have hgone : reply.2.database.isNone = true := by decide +kernel
  refine ⟨hfailed, by decide +kernel, by decide +kernel, fun hkept => ?_⟩
  have hsame : reply.2.database.map (·.document) = before.database.map (·.document) :=
    hkept before none "b.json" _ hfailed
  rw [Option.isNone_iff_eq_none.mp hgone, Option.map_none] at hsame
  rw [Option.map_eq_none_iff.mp hsame.symm] at hopen
  cases hopen

end Session
end ClientRecords
