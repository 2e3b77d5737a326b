import ClientRecords.Arithmetic
import ClientRecords.Report.Basic
/-!
The arguments of the shell: options in long and short form, of which all but the verbosity may be
given once, and then a command with arguments of its own. Among the parameters of a statement
nothing is an option any more.
-/

namespace ClientRecords

inductive ShellCommand where
  | exec (text : String) (params : List String)
  | tables
  | seed
  deriving DecidableEq

/-- Options without a value. -/
inductive ShellFlag where
  | verbose
  | noColor
  | interactive
  | strict
  | help
  deriving DecidableEq

/-- Options with a value. -/
inductive ShellSetting where
  | format
  | database
  | server
  | delay
  deriving DecidableEq

structure ShellOptions where
  verbosity : Nat
  noColor : Bool
  interactive : Bool
  strict : Bool
  format : Option ReportFormat
  database : Option String
  server : Option String
  delay : Option Nat
  command : Option ShellCommand
  deriving DecidableEq

/-- What the arguments come to: options to run with, a wish for help, or nothing that is right. -/
inductive ShellRequest where
  | run (o : ShellOptions)
  | help
  | refused
  deriving DecidableEq

namespace ShellFlag

def ofLong? (s : String) : Option ShellFlag :=
  if s = "verbose" then some .verbose
  else if s = "no-color" then some .noColor
  else if s = "interactive" then some .interactive
  else if s = "strict-where" then some .strict
  else if s = "help" then some .help
  else none

def ofShort? : Char → Option ShellFlag
  | 'v' => some .verbose
  | 'i' => some .interactive
  | 'h' => some .help
  | _ => none

end ShellFlag

namespace ShellSetting

def ofLong? (s : String) : Option ShellSetting :=
  if s = "format" then some .format
  else if s = "db" then some .database
  else if s = "server" then some .server
  else if s = "debounce-ms" then some .delay
  else none

def ofShort? : Char → Option ShellSetting
  | 'f' => some .format
  | 'd' => some .database
  | 's' => some .server
  | _ => none

end ShellSetting

namespace ShellOptions

def default : ShellOptions := ⟨0, false, false, false, none, none, none, none, none⟩

instance : Inhabited ShellOptions := ⟨default⟩

/-- A number of milliseconds: digits with an optional plus sign, within 64 bits. -/
def delay? (s : String) : Option Nat :=
  let ds := match s.toList with
    | '+' :: cs => cs
    | cs => cs
  let n := Text.digitsValue 10 ds
  if !ds.isEmpty && ds.all Char.isDigit && n < pow2 64 then some n else none

/-- Sets a flag, unless it is set and may be given once. -/
def setFlag? (o : ShellOptions) : ShellFlag → Option ShellOptions
  | .verbose => some { o with verbosity := o.verbosity + 1 }
  | .noColor => if o.noColor then none else some { o with noColor := true }
  | .interactive => if o.interactive then none else some { o with interactive := true }
  | .strict => if o.strict then none else some { o with strict := true }
  | .help => none

/-- Gives an option its value, unless it has one or the value does not fit. -/
def set? (o : ShellOptions) (value : String) : ShellSetting → Option ShellOptions
  | .format =>
    if o.format.isSome then none
    else (ReportFormat.ofName? value).map fun f => { o with format := some f }
  | .database =>
    if o.database.isSome || value = "" then none else some { o with database := some value }
  | .server => if o.server.isSome then none else some { o with server := some value }
  | .delay =>
    if o.delay.isSome then none else (delay? value).map fun n => { o with delay := some n }

end ShellOptions

namespace ShellRequest

/-- What reading one argument comes to: options, perhaps with one that still waits for its value. -/
inductive Reading where
  | options (o : ShellOptions) (waiting : Option ShellSetting)
  | help
  | refused

/-- Reads a cluster of short options. The rest of the cluster is the value of an option that takes
one, with or without an equals sign. -/
def readShort (o : ShellOptions) : List Char → Reading
  | [] => .options o none
  | c :: cs =>
    match ShellFlag.ofShort? c with
    | some .help => .help
    | some f =>
      match o.setFlag? f with
      | some o => readShort o cs
      | none => .refused
    | none =>
      match ShellSetting.ofShort? c with
      | none => .refused
      | some x =>
        match cs with
        | [] => .options o (some x)
        | '=' :: value => given o x value
        | value => given o x value
where
  /-- An option with its value. -/
  given (o : ShellOptions) (x : ShellSetting) (value : List Char) : Reading :=
    match o.set? (String.ofList value) x with
    | some o => .options o none
    | none => .refused

/-- Reads a long option, whose value may follow an equals sign. -/
def readLong (o : ShellOptions) (cs : List Char) : Reading :=
  let name := String.ofList (cs.takeWhile (· != '='))
  match cs.dropWhile (· != '='), ShellFlag.ofLong? name, ShellSetting.ofLong? name with
  | [], some .help, _ => .help
  | [], some f, _ => ((o.setFlag? f).map (Reading.options · none)).getD .refused
  | [], none, some x => .options o (some x)
  | _ :: value, none, some x => readShort.given o x value
  | _, _, _ => .refused

/-- Does an argument stand for options? A single hyphen does not. -/
def isOption (cs : List Char) : Bool :=
  match cs with
  | '-' :: _ :: _ => true
  | _ => false

/-- The parameters of a statement. Up to the first of them, a double hyphen makes all that follows
parameters and help can be asked for; after it, nothing has a meaning of its own. -/
def readParams (o : ShellOptions) (text : String) : List String → ShellRequest
  | [] => finish []
  | arg :: rest =>
    if arg = "--" then finish rest
    else match arg.toList with
      | '-' :: '-' :: cs =>
        let name := String.ofList (cs.takeWhile (· != '='))
        if name != "help" then finish (arg :: rest)
        else if cs.contains '=' then .refused
        else .help
      | '-' :: c :: cs => if (c :: cs).all (· == 'h') then .help else finish (arg :: rest)
      | _ => finish (arg :: rest)
where
  /-- The request to carry out a statement. -/
  finish (params : List String) : ShellRequest :=
    .run { o with command := some (.exec text params) }

/-- The statement and its parameters. -/
def readExec (o : ShellOptions) : List String → ShellRequest
  | [] => .refused
  | arg :: rest =>
    if arg = "--" then
      match rest with
      | [] => .refused
      | text :: params => readParams.finish o text params
    else if arg = "--help" then .help
    else match arg.toList with
      | '-' :: c :: _ => if c = 'h' then .help else .refused
      | _ => readParams o arg rest

/-- A command that takes no arguments. -/
def readBare (o : ShellOptions) (command : ShellCommand) : List String → ShellRequest
  | [] | ["--"] => .run { o with command := some command }
  | arg :: _ => if arg = "--help" || arg.toList.take 2 = ['-', 'h'] then .help else .refused

/-- What may be asked for help about. -/
def helpTopics : List (List String) := [[], ["exec"], ["tables"], ["seed"], ["help"]]

/-- A command with its arguments. -/
def readCommand (o : ShellOptions) (name : String) (rest : List String) : ShellRequest :=
  if name = "exec" then readExec o rest
  else if name = "tables" then readBare o .tables rest
  else if name = "seed" then readBare o .seed rest
  else if name = "help" && rest ∈ helpTopics then .help
  else .refused

/-- Reads the arguments after options, one of which may wait for its value. -/
def read (o : ShellOptions) : Option ShellSetting → List String → ShellRequest
  | none, [] => .run o
  | some _, [] => .refused
  | some x, arg :: rest =>
    if isOption arg.toList then .refused
    else match o.set? arg x with
      | some o => read o none rest
      | none => .refused
  | none, arg :: rest =>
    if arg = "--" then (if rest.isEmpty then .run o else .refused)
    else
      let reading := match arg.toList with
        | '-' :: '-' :: cs => some (readLong o cs)
        | '-' :: c :: cs => some (readShort o (c :: cs))
        | _ => none
      match reading with
      | some (.options o waiting) => read o waiting rest
      | some .help => .help
      | some .refused => .refused
      | none => readCommand o arg rest

/-- The request of arguments. A database and a server cannot both be asked for. -/
def ofArguments (args : List String) : ShellRequest :=
  match read .default none args with
  | .run o => if o.database.isSome && o.server.isSome then .refused else .run o
  | request => request

end ShellRequest
end ClientRecords
