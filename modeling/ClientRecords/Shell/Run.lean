import ClientRecords.Shell.Options
import ClientRecords.Shell.Session
/-!
A run of the shell, as a function of its arguments, its input and the files there are.
-/

namespace ClientRecords

/-- What a run leaves behind. -/
structure ShellExit where
  code : Nat
  output : String
  errors : String
  files : Files

namespace ShellExit

/-- The text that reports an error at the end of a run. -/
def report (e : ShellError) : String :=
  "Error: " ++ e.message ++ "\n" ++ e.cause?.elim "" fun cause => s!"\nCaused by:\n    {cause}\n"

/-- The end of a run: the text of an error stands among the errors and makes the run fail. A run
that is broken off reports nothing. -/
def of (output : String) (error : Option ShellError) (files : Files) : ShellExit :=
  match error with
  | none => ⟨0, output, "", files⟩
  | some e => if e.isFatal then ⟨101, output, "", files⟩ else ⟨1, output, report e, files⟩

end ShellExit

namespace ShellOptions

/-- How reports are made; colours are shown only on a terminal. -/
def style (o : ShellOptions) (terminal : Bool) : ReportStyle :=
  ⟨o.format.getD .text, if o.noColor then .words else if terminal then .colors else .nothing⟩

def mode (o : ShellOptions) : Mode := if o.strict then .strict else .lenient

/-- The session that a run starts with, its database being open. -/
def session (o : ShellOptions) (terminal : Bool) (files : Files) : Session :=
  let s := Session.start files o.mode (o.style terminal) (0 < o.verbosity)
  match o.database with
  | none => s
  | some path => (s.openFile path).2

end ShellOptions

namespace Session

/-- Closes a session at the end of a run. An error of its last command comes before one of
closing. -/
def finish (s : Session) (output : String) (error : Option ShellError) : ShellExit :=
  let unwritten := (s.database.bind (·.fault? s.files)).map ShellError.unwritten
  .of output (error.orElse fun _ => unwritten) s.close.2.files

/-- The end of a run that took lines, which leaves its history behind unless it was broken off. -/
def leave (s : Session) (output : String) : ShellExit :=
  match s.broken with
  | some e => s.finish output (some e)
  | none =>
    let fault := s.files.placeFault historyPath
    let (done, s) := s.saveHistory
    s.finish output (if done then none else some (.historyUnwritten historyPath fault))

/-- The end of a run after a command. -/
def conclude : Reply → ShellExit
  | (.ok shown, s) => s.finish shown none
  | (.error e, s) => s.finish "" (some e)

/-- Carries out the command of a run. -/
def perform (s : Session) (source : Demo.Source) : ShellCommand → ShellExit
  | .exec text params => conclude (s.execute (source.now 0).stamp text (params.map param))
  | .tables => conclude s.showTables
  | .seed => conclude (s.seed source)

end Session

/-- What is shown where there is nothing to do. -/
def nothingToDo : String :=
  "Erreur : Aucune commande spécifiée et aucune base ouverte.\n"
    ++ "Utilisez --help pour voir les options disponibles.\n"

/-- The help of the shell. -/
def usage : String :=
  "CLI pour les bases crmql\n\nUsage: crmql [OPTIONS] [COMMAND]\n\n"
    ++ "Commands: exec, tables, seed, help\n\n"
    ++ "Options: --verbose, --format, --no-color, --interactive, --db, --server, --strict-where, "
    ++ "--debounce-ms, --help\n"

/-- A run with options. -/
def ShellOptions.run (o : ShellOptions) (terminal : Bool) (source : Demo.Source) (input : String)
    (files : Files) : ShellExit :=
  let s := o.session terminal files
  match o.server with
  | some url => .of "" (some (.unreachable url)) files
  | none =>
    match o.command with
    | some c => s.perform source c
    | none =>
      if o.interactive || s.database.isSome then
        let (shown, s) := s.interact source input
        s.leave shown
      else .of nothingToDo none files

/-- A run of the shell. -/
def runShell (args : List String) (terminal : Bool) (source : Demo.Source) (input : String)
    (files : Files) : ShellExit :=
  match ShellRequest.ofArguments args with
  | .run o => o.run terminal source input files
  | .help => .of usage none files
  | .refused => ⟨2, "", "", files⟩

end ClientRecords
