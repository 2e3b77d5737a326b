import ClientRecords.Proofs.Shell.Ledger
/-!
The lines of a session. Whatever a line is, its effect on the files and on the database that is
open is that of what it asks for (`Session.demand`, `answers_line`), and a ledger in which that is
entered accounts for them afterwards (`accounts_serve`).
-/

namespace ClientRecords

/-! ### The demonstration data -/

namespace Database

variable {path : String} {files : Files} {db m : Database}

/-- A database in a file and one in memory with the same document. -/
structure Mirrors (path : String) (files : Files) (mode : Mode) (db m : Database) : Prop where
  document : db.document = m.document
  storable : m.document.Storable
  mode : db.mode = mode
  keeper : db.keeper.Tracks path db.document files

theorem Mirrors.addRow {mode : Mode} (h : Mirrors path files mode db m) (t : Table)
    (stamp : String) (fields : Entries Value) (hf : fields.IsFinite) :
    Mirrors path files mode (db.addRow t stamp fields) (m.addRow t stamp fields) := by
  rw [Database.addRow, Database.addRow, h.document]
  cases hinsert : m.document.insert? t true
      (Statement.stamped stamp (Record.ofFields fields)) with
  | none => exact h
  | some d =>
    refine ⟨rfl, ?_, h.mode, h.keeper.save d⟩
    rw [Document.insert?] at hinsert
    split at hinsert
    · cases hinsert
    · obtain rfl := Option.some.inj hinsert
      refine h.storable.setRows t fun r hr => ?_
      rcases List.mem_append.mp hr with hr | hr
      · exact h.storable.isFinite_rowsOf t r hr
      · rw [List.mem_singleton.mp hr]
        exact Statement.isFinite_stamped stamp (Record.isFinite_ofFields hf)

/-- Seeding a database in a file is seeding its document. -/
theorem mirrors_seed (hs : db.document.Storable) (hk : db.keeper.Tracks path db.document files)
    (source : Demo.Source) : Mirrors path files db.mode (db.seed source).2
      (seed ⟨db.document, .lenient, .memory 0⟩ source).2 := by
  refine seed_rel ?_ ?_ ?_ ⟨rfl, hs, rfl, hk⟩ source
  · exact fun t stamp fields h hf => Mirrors.addRow h t stamp fields hf
  · exact fun h => h.document
  · exact fun h => h.storable.isFinite_rowsOf .users

end Database

/-! ### What is asked for -/

namespace Session

/-- What a line asks of the databases. -/
def demand (s : Session) (source : Demo.Source) (line : String) : Demand :=
  match (Text.trim line).toList with
  | [] => .nothing
  | '.' :: cs =>
    match (Text.words cs).map String.ofList with
    | ["open", path] => .openFile path
    | ["seed"] => .seed { source with fresh := fun k => source.fresh (s.used + k) }
    | _ => .nothing
  | cs => .statement (source.now 0).stamp (String.ofList cs) s.bindings

/-- The session after something was asked for. -/
def serve (s : Session) : Demand → Session
  | .nothing => s
  | .openFile path => (s.openFile path).2
  | .seed source =>
    match s.database with
    | none => s
    | some db =>
      let (_, db, files) := (db.seed source).2.flush s.files
      { s with database := some db, files := files }
  | .statement now text params => (s.execute now text params).2

/-- A session after a line that asks for something: its files and its database are as asked for,
its mode stays, and parameters are bound from words or stay. -/
structure Answers (s : Session) (demand : Demand) (next : Session) : Prop where
  files : next.files = (s.serve demand).files
  database : next.database = (s.serve demand).database
  mode : next.mode = s.mode
  bindings : next.bindings = s.bindings ∨ ∃ words : List String, next.bindings = words.map param

variable {s : Session} {source : Demo.Source}

theorem Answers.refl (s : Session) : s.Answers .nothing s := ⟨rfl, rfl, rfl, .inl rfl⟩

theorem answers_openNamed (s : Session) (path : String) :
    s.Answers (.openFile path) (s.openNamed path).2 := by
  have hfields : (s.openFile path).2.mode = s.mode ∧
      (s.openFile path).2.bindings = s.bindings := by
    simp only [openFile]
    cases s.database with
    | none => exact ⟨rfl, rfl⟩
    | some old => cases hfault : old.fault? s.files <;> simp [hfault]
  exact ⟨rfl, rfl, hfields.1, .inl hfields.2⟩

theorem answers_seed (s : Session) (source : Demo.Source) :
    s.Answers (.seed { source with fresh := fun k => source.fresh (s.used + k) })
      (s.seed source).2 := by
  simp only [seed]
  cases hdb : s.database with
  | none => exact ⟨by simp [serve, hdb], by simp [serve, hdb], rfl, .inl rfl⟩
  | some db => exact ⟨by simp [serve, hdb], by simp [serve, hdb], rfl, .inl rfl⟩

/-- A statement changes nothing of a session but its database. -/
theorem execute_snd {db : Database} (h : s.database = some db) (now text : String)
    (params : List Value) : (s.execute now text params).2 =
      { s with database := some (db.execute now text params).2 } := by
  simp only [execute, h]
  generalize db.execute now text params = out
  obtain ⟨result, next⟩ := out
  cases result <;> rfl

theorem answers_execute (s : Session) (now text : String) (params : List Value) :
    s.Answers (.statement now text params) (s.execute now text params).2 := by
  have hfields : (s.execute now text params).2.mode = s.mode ∧
      (s.execute now text params).2.bindings = s.bindings := by
    cases hdb : s.database with
    | none => simp only [execute, hdb, and_self]
    | some db =>
      rw [execute_snd hdb]
      exact ⟨rfl, rfl⟩
  exact ⟨rfl, rfl, hfields.1, .inl hfields.2⟩

/-- All commands but two leave the databases alone. -/
theorem demand_of_words (words : List String) (seeding : Demand) :
    (∀ path, words ≠ ["open", path]) → words ≠ ["seed"] →
      (match words with
        | ["open", path] => .openFile path
        | ["seed"] => seeding
        | _ => .nothing) = Demand.nothing := by
  intro hopen hseed
  split
  · exact absurd rfl (hopen _)
  · exact absurd rfl hseed
  · rfl

theorem answers_command (s : Session) (source : Demo.Source) (cs : List Char) :
    s.Answers (match (Text.words cs).map String.ofList with
      | ["open", path] => .openFile path
      | ["seed"] => .seed { source with fresh := fun k => source.fresh (s.used + k) }
      | _ => .nothing) (s.command source (String.ofList cs)).2 := by
  rw [command, String.toList_ofList]
  generalize (Text.words cs).map String.ofList = words
  by_cases hopen : ∃ path, words = ["open", path]
  · obtain ⟨path, rfl⟩ := hopen
    exact s.answers_openNamed path
  by_cases hseed : words = ["seed"]
  · rw [hseed]
    exact s.answers_seed source
  have hnot : ∀ path, words ≠ ["open", path] := fun path h => hopen ⟨path, h⟩
  rw [demand_of_words words _ hnot hseed]
  split
  · exact .refl s
  · exact ⟨rfl, rfl, rfl, .inl rfl⟩
  · exact ⟨rfl, rfl, rfl, .inl rfl⟩
  · exact .refl s
  · exact absurd rfl (hnot _)
  · cases hdb : s.database <;> simp only [showTables, hdb] <;> exact .refl s
  · exact absurd rfl hseed
  · exact ⟨rfl, rfl, rfl, .inr ⟨_, rfl⟩⟩
  · simp only [showing, setFormat]
    cases ReportFormat.ofName? _ with
    | none => exact .refl s
    | some format => exact ⟨rfl, rfl, rfl, .inl rfl⟩
  · exact .refl s
  · exact .refl s

theorem answers_answer (s : Session) (source : Demo.Source) (line : String) :
    s.Answers (s.demand source line) (s.answer source line).2 := by
  cases hline : (Text.trim line).toList with
  | nil =>
    rw [demand, answer, hline]
    exact .refl s
  | cons c cs =>
    by_cases hpoint : c = '.'
    · subst hpoint
      rw [demand, answer, hline]
      exact s.answers_command source cs
    · have hdemand : s.demand source line =
          .statement (source.now 0).stamp (String.ofList (c :: cs)) s.bindings := by
        simp [demand, hline, hpoint]
      have hanswer : s.answer source line =
          s.execute (source.now 0).stamp (String.ofList (c :: cs)) s.bindings := by
        simp [answer, hline, hpoint]
      rw [hdemand, hanswer]
      exact s.answers_execute ..

/-- Whether a reply is shown or breaks the session off, it has the same effect. -/
theorem Answers.tell {demand : Demand} {reply : Reply} (h : s.Answers demand reply.2) :
    s.Answers demand (tell reply).2 := by
  obtain ⟨e | shown, next⟩ := reply
  · cases he : e.isFatal with
    | true =>
      simp only [Session.tell, he, if_true]
      exact ⟨h.files, h.database, h.mode, h.bindings⟩
    | false =>
      simp only [Session.tell, he, Bool.false_eq_true, if_false]
      exact h
  · exact h

/-- A line does to the files and to the database what it asks for. It is recorded first. -/
theorem answers_line (s : Session) (source : Demo.Source) (line : String) :
    ({ s with history := s.history.record line } : Session).Answers (s.demand source line)
      (s.line source line).2 := by
  have h := answers_answer { s with history := s.history.record line } source line
  exact h.tell

/-- Parameters are finite, for no JSON text has any other numbers. -/
theorem isFinite_param (word : String) : (param word).isFinite = true := by
  rw [param]
  cases hread : Json.ofText? word with
  | none => rfl
  | some j =>
    have hj := Value.isFinite_ofJson (Json.isFinite_of_ofText? hread)
    cases j with
    | array items | object members => rfl
    | null | bool b | int n | float x | string text => exact hj

theorem Answers.isFinite {demand : Demand} {next : Session} (h : s.Answers demand next)
    (hs : ∀ v ∈ s.bindings, v.isFinite = true) : ∀ v ∈ next.bindings, v.isFinite = true := by
  rcases h.bindings with hsame | ⟨words, hwords⟩
  · rwa [hsame]
  · rw [hwords]
    intro v hv
    obtain ⟨word, -, rfl⟩ := List.mem_map.mp hv
    exact isFinite_param word

/-! ### What the ledger has of it -/

/-- Do all writes succeed that come with what is asked for? -/
def writes (s : Session) : Demand → Bool
  | .nothing | .statement .. => true
  | .openFile _ => s.close.1
  | .seed source =>
    match s.database with
    | none => true
    | some db => ((db.seed source).2.flush s.files).1

/-- A session is closed with all written exactly if nothing stands in the way. -/
theorem close_fst (s : Session) : s.close.1 = (s.database.bind (·.fault? s.files)).isNone := by
  rw [Session.close]
  cases s.database with
  | none => rfl
  | some db => exact (db.fault?_isNone s.files).symm

variable {l : Ledger}

theorem accounts_openFile {path : String} (h : l.Accounts s.mode s.files s.database)
    (hw : s.close.1 = true) (ha : l.Admits s.files s.database path) :
    (l.openFile s.files path).Accounts s.mode (s.openFile path).2.files
      (s.openFile path).2.database := by
  cases hdb : s.database with
  | none =>
    have hopened : (s.openFile path).2 =
        { s with database := some (Database.openFile s.mode true s.files path) } := by
      simp only [openFile, hdb]
    rw [hopened]
    refine h.openFile ha fun q d hd _ => h.closed q d hd ?_
    rw [h.idle hdb]
    exact nofun
  | some old =>
    rw [hdb] at h
    have hfault : (old.fault? s.files).isNone = true := by
      rwa [close_fst, hdb, Option.bind_some] at hw
    have hclose : (old.close s.files).1 = true := (old.fault?_isNone s.files).symm.trans hfault
    have hopened : (s.openFile path).2 =
        { s with
          database := some (Database.openFile s.mode true s.files path)
          files := (old.close s.files).2 } := by
      simp only [openFile, hdb, Option.isNone_iff_eq_none.mp hfault]
    rw [hopened]
    rw [hdb] at ha
    exact h.openFile ha fun q d hd _ => h.close hclose q d hd

theorem accounts_seed {source : Demo.Source} (h : l.Accounts s.mode s.files s.database)
    (hw : s.writes (.seed source) = true) :
    (l.change (·.seeded source)).Accounts s.mode (s.serve (.seed source)).files
      (s.serve (.seed source)).database := by
  cases hdb : s.database with
  | none =>
    rw [Ledger.change_of_none (h.idle hdb)]
    simpa only [serve, hdb] using h
  | some db =>
    rw [hdb] at h
    have hflush : ((db.seed source).2.flush s.files).1 = true := by
      simpa only [writes, hdb] using hw
    obtain ⟨path, hopen⟩ := h.opened db rfl
    have hs : db.document.Storable := h.storable _ _ hopen.document
    have hmirrors : ∀ path, db.keeper.Tracks path db.document s.files →
        Database.Mirrors path s.files db.mode (db.seed source).2
          (Database.seed ⟨db.document, .lenient, .memory 0⟩ source).2 :=
      fun path hk => Database.mirrors_seed hs hk source
    have hmirror := hmirrors path hopen.keeper
    have hseeded : (l.change (·.seeded source)).Accounts s.mode s.files
        (some (db.seed source).2) :=
      h.step hmirror.document hmirror.mode (fun _ => hmirror.storable) fun path hk =>
        ⟨(hmirrors path hk).keeper, .refl path s.files⟩
    simp only [serve, hdb]
    exact hseeded.moved rfl rfl fun path hk => ⟨(hk.flush hflush).1, hk.spares_flush⟩

theorem accounts_statement {now text : String} {params : List Value}
    (h : l.Accounts s.mode s.files s.database) (hp : ∀ v ∈ params, v.isFinite = true) :
    (l.change (·.after s.mode now text params)).Accounts s.mode
      (s.execute now text params).2.files (s.execute now text params).2.database := by
  cases hdb : s.database with
  | none =>
    rw [Ledger.change_of_none (h.idle hdb)]
    simpa only [execute, hdb] using h
  | some db =>
    rw [hdb] at h
    obtain ⟨path, hopen⟩ := h.opened db rfl
    have hmode : s.mode = db.mode := hopen.mode.symm
    rw [execute_snd hdb, Database.execute_eq]
    cases hrun : db.document.execute db.mode now text params with
    | error e =>
      have hafter : db.document.after s.mode now text params = db.document := by
        simp only [Document.after, hmode, hrun]
      exact h.step hafter.symm rfl (fun hs => hs.after hp) fun path hk => ⟨hk, .refl path s.files⟩
    | ok o =>
      have hafter : (db.settle o).document = db.document.after s.mode now text params := by
        simp only [Document.after, hmode, hrun, Database.settle]
        cases o.written <;> rfl
      rw [Database.conclude]
      refine h.step hafter ?_ (fun hs => hs.after hp) fun path hk => ⟨?_, .refl path s.files⟩
      · cases hw : o.written <;> simp [Database.settle, hw, Database.replace]
      · cases hw : o.written with
        | none => simpa [Database.settle, hw] using hk
        | some next => simpa [Database.settle, hw, Database.replace] using hk.save next

/-- What is asked for is accounted for, if no write fails and files are opened as they may be. -/
theorem accounts_serve {demand : Demand} (h : l.Accounts s.mode s.files s.database)
    (hp : ∀ now text params, demand = .statement now text params →
      ∀ v ∈ params, v.isFinite = true)
    (hw : s.writes demand = true)
    (ha : ∀ path ∈ demand.path?, l.Admits s.files s.database path) :
    (l.enter s.mode s.files demand).Accounts s.mode (s.serve demand).files
      (s.serve demand).database := by
  cases demand with
  | nothing => exact h
  | openFile path => exact accounts_openFile h hw (ha path rfl)
  | seed source => exact accounts_seed h hw
  | statement now text params => exact accounts_statement h (hp now text params rfl)

end Session
end ClientRecords
