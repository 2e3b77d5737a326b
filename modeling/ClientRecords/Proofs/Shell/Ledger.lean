import ClientRecords.Proofs.Database.Keeper
import ClientRecords.Proofs.Database.Reload
import ClientRecords.Proofs.Demo
import ClientRecords.Proofs.Json.Equality
import ClientRecords.Shell.Session
/-!
What the files of a session ought to hold. A ledger keeps a document for every file that was opened:
what the file held when it was opened first, changed by all that was asked for and carried out while
it was open. The ledger knows no savers and no delays. Files and the database that is open agree
with it (`Ledger.Accounts`) as long as no write fails and files are opened as `Ledger.Admits` says.
-/

namespace ClientRecords

/-- What a line asks of the databases. -/
inductive Demand where
  | nothing
  | openFile (path : String)
  | seed (source : Demo.Source)
  | statement (now text : String) (params : List Value)

/-- The path of the file that is to be opened. -/
def Demand.path? : Demand → Option String
  | .openFile path => some path
  | _ => none

namespace Document

/-- The document in the file at a place, the new one if there is none to be read. -/
def lyingAt (files : Files) (p : Place) : Document :=
  match files.get? p with
  | some (.file text) => (ofText? text).getD new
  | _ => new

/-- The document with the demonstration data. -/
def seeded (d : Document) (source : Demo.Source) : Document :=
  (Database.seed ⟨d, .lenient, .memory 0⟩ source).2.document

variable {files : Files} {p : Place} {d : Document}

theorem storable_lyingAt (files : Files) (p : Place) : (lyingAt files p).Storable := by
  fun_cases lyingAt files p with
  | case1 text _ =>
    cases hd : ofText? text with
    | none =>
      rw [Option.getD_none]
      exact storable_new
    | some d =>
      rw [Option.getD_some]
      exact storable_of_ofText? hd
  | case2 => exact storable_new

/-- A file that holds the text of a document holds the document, if its text is read as the JSON
that it was written from. -/
theorem Storable.lyingAt_eq (h : d.Storable) (hj : Json.ofText? (d.fileText true) = some d.toJson)
    (hf : files.get? p = some (.file (d.fileText true))) : lyingAt files p = d := by
  simp only [lyingAt, hf, ofText?, hj]
  rw [Option.bind_some, h.ofJson?_toJson]
  rfl

/-- A file is loaded as the document that its text is read as. -/
theorem load_of_file {path text : String} (h : files.at? path = some (.file text)) :
    load files path = (ofText? text).getD new := by
  simp only [load, read, h]
  cases ofText? text <;> simp only [Option.getD_none, Option.getD_some]

/-- Where there is no file, the new document is loaded. -/
theorem load_of_no_file {path : String} (h : ∀ text, files.at? path ≠ some (.file text)) :
    load files path = new := by
  rw [load, read]
  cases hnode : files.at? path with
  | none => rfl
  | some node =>
    cases node with
    | folder => rfl
    | file text => exact absurd hnode (h text)

/-- A path that reaches what lies at its place, if anything does, loads what lies there. -/
theorem load_eq_lyingAt {path : String}
    (h : files.get? (Place.ofPath path) ≠ none → files.place? path = some (Place.ofPath path)) :
    load files path = lyingAt files (Place.ofPath path) := by
  cases hnode : files.get? (Place.ofPath path) with
  | none =>
    have hno : files.at? path = none := by
      rw [Files.at?]
      cases hplace : files.place? path with
      | none => rfl
      | some p => rw [Option.bind_some, Files.eq_ofPath_of_place? hplace, hnode]
    rw [load_of_no_file (by simp [hno]), lyingAt, hnode]
  | some node =>
    have hat : files.at? path = some node := by
      rw [Files.at?, h (hnode ▸ Option.some_ne_none node), Option.bind_some, hnode]
    cases node with
    | folder => rw [load_of_no_file (by simp [hat]), lyingAt, hnode]
    | file text => rw [load_of_file hat, lyingAt, hnode]

theorem Storable.after (h : d.Storable) {mode : Mode} {now text : String} {params : List Value}
    (hp : ∀ v ∈ params, v.isFinite = true) : (d.after mode now text params).Storable := by
  rw [Document.after]
  cases ho : d.execute mode now text params with
  | ok o =>
    cases hw : o.written with
    | none =>
      dsimp only
      rwa [hw]
    | some next =>
      dsimp only
      rw [hw]
      exact h.execute hp ho next hw
  | error e => exact h

end Document

/-- For every file that was opened, the document it ought to hold; and the place of the file that is
open. -/
structure Ledger where
  current : Option Place
  documents : Place → Option Document

namespace Ledger

def empty : Ledger := ⟨none, fun _ => none⟩

/-- A file is opened. If it was opened before, its document goes on. -/
def openFile (l : Ledger) (files : Files) (path : String) : Ledger where
  current := some (Place.ofPath path)
  documents q :=
    if q = Place.ofPath path then some ((l.documents q).getD (Document.lyingAt files q))
    else l.documents q

/-- The document of the file that is open changes. -/
def change (l : Ledger) (f : Document → Document) : Ledger where
  current := l.current
  documents q := if l.current = some q then (l.documents q).map f else l.documents q

/-- What is asked for is entered. -/
def enter (l : Ledger) (mode : Mode) (files : Files) : Demand → Ledger
  | .nothing => l
  | .openFile path => l.openFile files path
  | .seed source => l.change (·.seeded source)
  | .statement now text params => l.change (·.after mode now text params)

theorem change_id (l : Ledger) : l.change id = l := by
  have hdocuments : (l.change id).documents = l.documents := by
    funext q
    simp [change]
  rw [change] at hdocuments ⊢
  cases l
  simp_all

/-- While no file is open there is nothing to change. -/
theorem change_of_none {l : Ledger} (h : l.current = none) (f : Document → Document) :
    l.change f = l := by
  cases l
  simp only at h
  simp [change, h]

/-- The database is that of the file that is open, and its saver writes to no other file that the
ledger knows. -/
structure IsCurrent (l : Ledger) (mode : Mode) (files : Files) (db : Database) (path : String) :
    Prop where
  current : l.current = some (Place.ofPath path)
  document : l.documents (Place.ofPath path) = some db.document
  mode : db.mode = mode
  apart : ∀ q d, l.documents q = some d → q ≠ Place.ofPath path → q ≠ Place.draftOf path
  keeper : db.keeper.Tracks path db.document files

/-- The ledger accounts for the files and for the database that is open. -/
structure Accounts (l : Ledger) (mode : Mode) (files : Files) (database : Option Database) :
    Prop where
  storable : ∀ q d, l.documents q = some d → d.Storable
  lasting : ∀ q d, l.documents q = some d → q ≠ Place.ofPath Session.historyPath
  closed : ∀ q d, l.documents q = some d → l.current ≠ some q →
    files.get? q = some (.file (d.fileText true))
  idle : database = none → l.current = none
  opened : ∀ db ∈ database, ∃ path, l.IsCurrent mode files db path

/-- How files are to be opened, lest a write be lost. A path has to reach the file that lies at its
place. The file that is open may be opened again only when nothing is left to write. The draft of a
file must not be another file of the ledger, the file of the history none at all. And a file that
was opened before has to be read as the JSON that was written to it. -/
structure Admits (l : Ledger) (files : Files) (database : Option Database) (path : String) :
    Prop where
  reached : files.get? (Place.ofPath path) ≠ none → files.place? path = some (Place.ofPath path)
  settled : l.current = some (Place.ofPath path) → ∀ db ∈ database, db.keeper.isWritten = true
  apart : l.documents (Place.draftOf path) = none
  lasting : Place.ofPath path ≠ Place.ofPath Session.historyPath
  reread : ∀ d ∈ l.documents (Place.ofPath path),
    Json.ofText? (d.fileText true) = some d.toJson

instance (l : Ledger) (files : Files) (database : Option Database) (path : String) :
    Decidable (l.Admits files database path) :=
  decidable_of_iff
    ((files.get? (Place.ofPath path) ≠ none → files.place? path = some (Place.ofPath path)) ∧
      (l.current = some (Place.ofPath path) → ∀ db ∈ database, db.keeper.isWritten = true) ∧
      (l.documents (Place.draftOf path)).isNone = true ∧
      Place.ofPath path ≠ Place.ofPath Session.historyPath ∧
      ∀ d ∈ l.documents (Place.ofPath path), Json.ofText? (d.fileText true) = some d.toJson)
    ⟨fun ⟨hreached, hsettled, hapart, hlasting, hreread⟩ =>
        ⟨hreached, hsettled, Option.isNone_iff_eq_none.mp hapart, hlasting, hreread⟩,
      fun h => ⟨h.reached, h.settled, Option.isNone_iff_eq_none.mpr h.apart, h.lasting, h.reread⟩⟩

theorem accounts_empty (mode : Mode) (files : Files) : empty.Accounts mode files none where
  storable := nofun
  lasting := nofun
  closed := nofun
  idle _ := rfl
  opened := nofun

namespace Accounts

variable {l : Ledger} {mode : Mode} {files after : Files} {database : Option Database}
  {db next : Database}

/-- The database that is open goes on to another document, or writes. -/
theorem step (h : l.Accounts mode files (some db)) {f : Document → Document}
    (hdocument : next.document = f db.document) (hmode : next.mode = db.mode)
    (hstorable : db.document.Storable → (f db.document).Storable)
    (hkeeper : ∀ path, db.keeper.Tracks path db.document files →
      next.keeper.Tracks path next.document after ∧ files.Spares path after) :
    (l.change f).Accounts mode after (some next) := by
  obtain ⟨path, hopen⟩ := h.opened db rfl
  obtain ⟨htracks, hspares⟩ := hkeeper path hopen.keeper
  have hself : (l.change f).documents (Place.ofPath path) = some next.document := by
    simp [change, hopen.current, hopen.document, hdocument]
  have hother : ∀ q, q ≠ Place.ofPath path → (l.change f).documents q = l.documents q := by
    intro q hq
    simp [change, hopen.current, Ne.symm hq]
  -- every document of the ledger after the step is the one that is open or was there before
  have hcases : ∀ q d, (l.change f).documents q = some d →
      q = Place.ofPath path ∧ d = f db.document ∨
        q ≠ Place.ofPath path ∧ l.documents q = some d := by
    intro q d hd
    by_cases hq : q = Place.ofPath path
    · subst hq
      rw [hself, hdocument] at hd
      exact .inl ⟨rfl, (Option.some.inj hd).symm⟩
    · exact .inr ⟨hq, hother q hq ▸ hd⟩
  refine ⟨?_, ?_, ?_, nofun, ?_⟩
  · intro q d hd
    rcases hcases q d hd with ⟨-, rfl⟩ | ⟨-, hold⟩
    · exact hstorable (h.storable _ _ hopen.document)
    · exact h.storable q d hold
  · intro q d hd
    rcases hcases q d hd with ⟨rfl, -⟩ | ⟨-, hold⟩
    · exact h.lasting _ _ hopen.document
    · exact h.lasting q d hold
  · intro q d hd hq
    rcases hcases q d hd with ⟨rfl, -⟩ | ⟨hne, hold⟩
    · exact absurd hopen.current hq
    · exact hspares q _ hne (hopen.apart q d hold hne) (h.closed q d hold hq)
  · intro db' hdb
    obtain rfl := Option.some.inj hdb
    refine ⟨path, hopen.current, hself, hmode.trans hopen.mode, ?_, htracks⟩
    intro q d hd hne
    exact hopen.apart q d (hother q hne ▸ hd) hne

/-- Writing leaves the documents as they are. -/
theorem moved (h : l.Accounts mode files (some db)) (hdocument : next.document = db.document)
    (hmode : next.mode = db.mode)
    (hkeeper : ∀ path, db.keeper.Tracks path db.document files →
      next.keeper.Tracks path db.document after ∧ files.Spares path after) :
    l.Accounts mode after (some next) := by
  have hstep := h.step (f := id) hdocument hmode (fun hs => hs) fun path ht => by
    rw [hdocument]
    exact hkeeper path ht
  rwa [change_id] at hstep

/-- Files that the ledger does not know may change. -/
theorem elsewhere (h : l.Accounts mode files database)
    (hsame : ∀ q d, l.documents q = some d → after.get? q = files.get? q) :
    l.Accounts mode after database where
  storable := h.storable
  lasting := h.lasting
  closed q d hd hq := (hsame q d hd).trans (h.closed q d hd hq)
  idle := h.idle
  opened db hdb := by
    obtain ⟨path, hopen⟩ := h.opened db hdb
    exact ⟨path, hopen.current, hopen.document, hopen.mode, hopen.apart,
      hopen.keeper.of_get?_eq (hsame _ _ hopen.document)⟩

/-- What a database is loaded with is what the ledger has for its file. -/
theorem load_eq {path : String} (h : l.Accounts mode files database)
    (ha : l.Admits files database path) : Document.load files path =
      (l.documents (Place.ofPath path)).getD (Document.lyingAt files (Place.ofPath path)) := by
  rw [Document.load_eq_lyingAt ha.reached]
  cases hd : l.documents (Place.ofPath path) with
  | none => rfl
  | some d =>
    have hfile : files.get? (Place.ofPath path) = some (.file (d.fileText true)) := by
      by_cases hcurrent : l.current = some (Place.ofPath path)
      · cases database with
        | none =>
          rw [h.idle rfl] at hcurrent
          cases hcurrent
        | some db =>
          obtain ⟨other, hopen⟩ := h.opened db rfl
          have hplace : Place.ofPath other = Place.ofPath path :=
            Option.some.inj (hopen.current.symm.trans hcurrent)
          have hdocument : d = db.document := by
            rw [← hplace, hopen.document] at hd
            exact (Option.some.inj hd).symm
          rw [hdocument, ← hplace]
          exact hopen.keeper.get?_of_isWritten (ha.settled hcurrent db rfl)
      · exact h.closed _ d hd hcurrent
    rw [(h.storable _ d hd).lyingAt_eq (ha.reread d hd) hfile]
    rfl

/-- A file is opened when the database that was open is closed without a write that fails. -/
theorem openFile {path : String} (h : l.Accounts mode files database)
    (ha : l.Admits files database path)
    (hclosed : ∀ q d, l.documents q = some d → q ≠ Place.ofPath path →
      after.get? q = some (.file (d.fileText true))) :
    (l.openFile files path).Accounts mode after
      (some (Database.openFile mode true files path)) := by
  have hself : (l.openFile files path).documents (Place.ofPath path) =
      some (Document.load files path) := by
    simp [Ledger.openFile, h.load_eq ha]
  have hother : ∀ q, q ≠ Place.ofPath path →
      (l.openFile files path).documents q = l.documents q := by
    intro q hq
    simp [Ledger.openFile, hq]
  refine ⟨?_, ?_, ?_, nofun, ?_⟩
  · intro q d hd
    by_cases hq : q = Place.ofPath path
    · subst hq
      rw [hself, Document.load_eq_lyingAt ha.reached] at hd
      obtain rfl := Option.some.inj hd
      exact Document.storable_lyingAt files _
    · exact h.storable q d (hother q hq ▸ hd)
  · intro q d hd
    by_cases hq : q = Place.ofPath path
    · exact hq ▸ ha.lasting
    · exact h.lasting q d (hother q hq ▸ hd)
  · intro q d hd hq
    have hne : q ≠ Place.ofPath path := fun heq => hq (congrArg some heq.symm)
    exact hclosed q d (hother q hne ▸ hd) hne
  · intro db hdb
    obtain rfl := Option.some.inj hdb
    refine ⟨path, rfl, hself, rfl, ?_, Database.tracks_openFile mode files after path⟩
    rintro q d hd hne rfl
    rw [hother _ hne, ha.apart] at hd
    cases hd

/-- After the database that is open is closed, all files hold what they ought to. -/
theorem close (h : l.Accounts mode files (some db)) (hd : (db.close files).1 = true) :
    ∀ q d, l.documents q = some d →
      (db.close files).2.get? q = some (.file (d.fileText true)) := by
  obtain ⟨path, hopen⟩ := h.opened db rfl
  obtain ⟨hheld, hspares⟩ := Database.close_of_tracks hopen.keeper hd
  intro q d hdocument
  by_cases hq : q = Place.ofPath path
  · subst hq
    rw [hopen.document] at hdocument
    obtain rfl := Option.some.inj hdocument
    exact hheld
  · have hcurrent : l.current ≠ some q := by
      rw [hopen.current]
      exact fun heq => hq (Option.some.inj heq).symm
    exact hspares q _ hq (hopen.apart q d hdocument hq) (h.closed q d hdocument hcurrent)

end Accounts
end Ledger
end ClientRecords
