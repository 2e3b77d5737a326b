import ClientRecords.Demo
import ClientRecords.Executor
import ClientRecords.Json.Reader
import ClientRecords.Report.Basic
import ClientRecords.Shell.History
/-!
Sessions of the shell: lines that are commands of the shell or statements for the database that is
open. Every line gives a text that is shown and the session after it.
-/

namespace ClientRecords

/-- Why a line has no effect. -/
inductive ShellError where
  | failed (e : Failure)
  | unwritten (fault : FileFault)
  | historyUnwritten (path : String) (fault : FileFault)
  | notStarted (reason : String)
  | notConnected
  | unreachable (server : String)
  | unknownCommand (text : String)
  | notMeasured
  deriving DecidableEq

namespace ShellError

def message : ShellError → String
  | .failed (.refused e) => e.message
  | .failed (.brokenOff .noZone) => "a date format asks for a zone"
  | .failed (.brokenOff .noOrder) => "the order of the rows contradicts itself"
  | .unwritten fault => "I/O error: " ++ fault.text
  | .historyUnwritten path _ => "Écriture de \"" ++ path ++ "\""
  | .notStarted reason => "Internal error: Failed to create save runtime: " ++ reason
  | .notConnected => "Aucune base ouverte (utilisez --db ou --server)"
  | .unreachable server => s!"Erreur du serveur: {server} ne répond pas"
  | .unknownCommand text => "Commande inconnue: " ++ text
  | .notMeasured => "a text hides more columns than it takes"

/-- The error that an error comes from, if it comes from one. -/
def cause? : ShellError → Option String
  | .unwritten fault | .historyUnwritten _ fault => some fault.text
  | _ => none

/-- Does an error break the whole run off? -/
def isFatal : ShellError → Bool
  | .failed (.brokenOff _) | .notMeasured => true
  | _ => false

end ShellError

/-- The state of a session. The number of identifiers used so far keeps new ones new. A session that
is broken off has the error that did it. -/
structure Session where
  files : Files
  database : Option Database
  mode : Mode
  style : ReportStyle
  verbose : Bool
  bindings : List Value
  history : History
  running : Bool
  used : Nat
  broken : Option ShellError

namespace Session

/-- A session before a database is open. -/
def start (files : Files) (mode : Mode) (style : ReportStyle) (verbose : Bool) : Session :=
  ⟨files, none, mode, style, verbose, [], History.empty 1000, true, 0, none⟩

def say (s : Session) (kind : NoteKind) (message : String) : String :=
  s.style.note kind message ++ "\n"

/-- A parameter as it is entered: a JSON value that holds no others, else a string. -/
def param (s : String) : Value :=
  match Json.ofText? s with
  | some (.array _) | some (.object _) | none => .string s
  | some j => .ofJson j

/-- What a command shows or why it has no effect, and the session after it. -/
abbrev Reply := Except ShellError String × Session

/-- Opens the database in a file, and closes the one that is open. The new one is read before the
other is written; if that fails, none is open any more. -/
def openFile (s : Session) (path : String) : Reply :=
  let new := Database.openFile s.mode true s.files path
  match s.database with
  | none => (.ok "", { s with database := some new })
  | some old =>
    let files := (old.close s.files).2
    match old.fault? s.files with
    | none => (.ok "", { s with database := some new, files := files })
    | some fault =>
      (.error (.unwritten fault), { s with database := none, files := new.release files })

/-- Opens the database in a file where its saver may not start, for a reason that the system
gives. -/
def openStarting (s : Session) (refusal : Option String) (path : String) : Reply :=
  match refusal with
  | some reason => (.error (.notStarted reason), s)
  | none => s.openFile path

/-- Closes the database that is open, if there is one. Tells whether all is written. -/
def close (s : Session) : Bool × Session :=
  match s.database with
  | none => (true, s)
  | some db =>
    let (done, files) := db.close s.files
    (done, { s with database := none, files := files })

/-- The end of the delay after a change. -/
def expire (s : Session) : Session :=
  match s.database with
  | none => s
  | some db =>
    let (db, files) := db.expire s.files
    { s with database := some db, files := files }

/-- Is a statement shown as a read? -/
def isRead (text : String) : Bool :=
  Text.asciiLowercase (String.ofList ((Text.trimLeft text.toList).take 6)) == "select"

/-- The rows of a statement, or a note that it is carried out. -/
def shown? (s : Session) (text : String) (rows : List Record) : Option String :=
  if isRead text then
    (s.style.rows? rows).map fun report => report ++ "\n"
      ++ if s.verbose then s.say .info (ReportStyle.rowCount rows.length) else ""
  else some (s.say .success "Instruction exécutée")

/-- A reply that shows a text, if it can be shown. -/
def replying (shown : Option String) (s : Session) : Reply :=
  (shown.elim (.error .notMeasured) .ok, s)

/-- Carries out a statement. -/
def execute (s : Session) (now text : String) (params : List Value) : Reply :=
  match s.database with
  | none => (.error .notConnected, s)
  | some db =>
    match db.execute now text params with
    | (.error e, db) => (.error (.failed e), { s with database := some db })
    | (.ok rows, db) => replying (s.shown? text rows) { s with database := some db }

/-- Shows the numbers of rows of the tables. -/
def showTables (s : Session) : Reply :=
  match s.database with
  | none => (.error .notConnected, s)
  | some db => replying ((s.style.tables? db.document.counts).map (· ++ "\n")) s

/-- The note that follows the seeding. -/
def seedNote (r : Demo.Report) : String :=
  if r.skipped then "Données de démonstration déjà présentes"
  else s!"{r.total} lignes insérées: " ++ r.text

/-- What is shown after the seeding, if it came to its end and its rows are written. -/
def seedAnswer (s : Session) (r : Demo.Report) (fault : Option FileFault) :
    Except ShellError String :=
  match r.stopped, fault with
  | some b, _ => .error (.failed (.brokenOff b))
  | none, some fault => .error (.unwritten fault)
  | none, none => .ok (s.say .success (seedNote r))

/-- Inserts the demonstration data and writes them. -/
def seed (s : Session) (source : Demo.Source) : Reply :=
  match s.database with
  | none => (.error .notConnected, s)
  | some db =>
    let used := s.used
    let (report, db) := db.seed { source with fresh := fun k => source.fresh (used + k) }
    let fault := db.fault? s.files
    let (_, db, files) := db.flush s.files
    (s.seedAnswer report fault,
      { s with database := some db, files := files, used := used + report.total })

/-- The help of a session. -/
def helpText : String :=
  "Commandes disponibles:\n"
    ++ "  .help                     Affiche cette aide\n"
    ++ "  .exit, .quit              Quitte le CLI\n"
    ++ "  .open <fichier>           Ouvre une base locale\n"
    ++ "  .connect <url>            Se connecte à un serveur crmql\n"
    ++ "  .tables                   Nombre de lignes par table\n"
    ++ "  .seed                     Insère les données de démonstration (base locale)\n"
    ++ "  .bind [params...]         Lie les paramètres des instructions suivantes\n"
    ++ "  .format <text|json|table> Définit le format de sortie\n"
    ++ "  .history [motif]          Affiche l'historique des commandes\n"
    ++ "\n"
    ++ "Toute autre entrée est exécutée comme une instruction, avec les paramètres liés.\n"

/-- Binds parameters for the statements that follow. -/
def bind (s : Session) (words : List String) : String × Session :=
  let bindings := words.map param
  let message :=
    if bindings.isEmpty then "Paramètres effacés"
    else "Paramètres liés: " ++ ", ".intercalate (bindings.map Value.display)
  (s.say .success message, { s with bindings := bindings })

/-- Sets the format of reports. -/
def setFormat (s : Session) (name : String) : String × Session :=
  match ReportFormat.ofName? name with
  | none => (s.say .error "Format inconnu", s)
  | some format =>
    let s := { s with style := { s.style with format := format } }
    (s.say .success ("Format défini à " ++ name), s)

/-- The entries of the history, or those with a pattern. -/
def showHistory (s : Session) (pattern : Option String) : String :=
  let entries := pattern.elim s.history.entries s.history.containing
  if entries.isEmpty then "Aucune commande dans l'historique.\n"
  else String.join (entries.mapIdx fun k entry => s!"{k + 1}: {entry}\n")

/-- Opens the database in a file and says so. -/
def openNamed (s : Session) (path : String) : Reply :=
  let (outcome, s) := s.openStarting none path
  (outcome.map fun _ => s.say .success ("Base ouverte: " ++ path), s)

/-- A reply that shows a text. -/
def showing (r : String × Session) : Reply := (.ok r.1, r.2)

/-- Carries out a command of the shell, which is given without its point. -/
def command (s : Session) (source : Demo.Source) (text : String) : Reply :=
  match (Text.words text.toList).map String.ofList with
  | ["help"] => (.ok helpText, s)
  | ["exit"] | ["quit"] => (.ok "Au revoir !\n", { s with running := false })
  | ["connect", url] => (.error (.unreachable url), s)
  | ["open", path] => s.openNamed path
  | ["tables"] => s.showTables
  | ["seed"] => s.seed source
  | "bind" :: words => showing (s.bind words)
  | ["format", name] => showing (s.setFormat name)
  | "history" :: patterns => (.ok (s.showHistory patterns.head?), s)
  | _ => (.error (.unknownCommand text), s)

/-- Carries out a line: a command of the shell if it starts with a point, else a statement with the
parameters that are bound. -/
def answer (s : Session) (source : Demo.Source) (line : String) : Reply :=
  match (Text.trim line).toList with
  | [] => (.ok "", s)
  | '.' :: cs => s.command source (String.ofList cs)
  | cs => s.execute (source.now 0).stamp (String.ofList cs) s.bindings

/-- What is shown of a reply. An error is shown as a note, unless it breaks the session off. -/
def tell : Reply → String × Session
  | (.ok shown, s) => (shown, s)
  | (.error e, s) =>
    if e.isFatal then ("", { s with running := false, broken := some e })
    else (s.say .error e.message, s)

/-- Records a line and carries it out. -/
def line (s : Session) (source : Demo.Source) (text : String) : String × Session :=
  tell ({ s with history := s.history.record text }.answer source text)

/-- What is shown before a line is entered. -/
def prompt (s : Session) : String :=
  if s.database.isSome then "crmql [local]> " else "crmql (déconnecté)> "

/-- Carries out lines until one ends the session or there are no more. -/
def lines (s : Session) (source : Demo.Source) : List String → String × Session
  | [] => (s.prompt ++ "Fin de l'entrée (Ctrl-D)\n", s)
  | text :: rest =>
    let (shown, after) := s.line source text
    if after.running then
      let (more, last) := lines after source rest
      (s.prompt ++ shown ++ more, last)
    else (s.prompt ++ shown, after)

/-- The file of the history. -/
def historyPath : String := "crmql_history.txt"

/-- Takes up the history of earlier sessions and greets. -/
def greet (s : Session) : String × Session :=
  let s := match s.files.text? historyPath with
    | some file => { s with history := s.history.load file }
    | none => s
  (s.say .info "crmql CLI - Mode interactif"
    ++ s.say .info "Tapez .help pour l'aide ou .exit pour quitter", s)

/-- Writes the history to its file. Tells whether it could be written. -/
def saveHistory (s : Session) : Bool × Session :=
  match s.files.write? historyPath s.history.fileText with
  | some files => (true, { s with files := files })
  | none => (false, s)

/-- The lines of a whole session, given as one text. -/
def interact (s : Session) (source : Demo.Source) (input : String) : String × Session :=
  let (greeting, s) := s.greet
  let (shown, s) := s.lines source (Text.lines input)
  (greeting ++ shown, s)

end Session
end ClientRecords
