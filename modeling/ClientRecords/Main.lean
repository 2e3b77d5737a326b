import ClientRecords.Identifier
import ClientRecords.Shell.Run
import Std.Time.DateTime.Timestamp
/-!
The shell as a program. It reads files before they are asked for, carries out lines as they come in,
and writes the files that have changed.
-/

namespace ClientRecords.Program

/-- What lies under a path, if it can be read. -/
def nodeAt? (path : String) : IO (Option FileNode) := do
  try
    if ← (← IO.FS.realPath path).isDir then return some .folder
    return some (.file (← IO.FS.readFile path))
  catch _ => return none

/-- Adds what lies on the way of some steps to the files that are known. -/
def fetchAlong (files : Files) (p : Place) (before : String) : List String → IO Files
  | [] => return files
  | name :: names => do
    match p.step? name with
    | none => return files
    | some next =>
      let path := before ++ name
      let files ← match files.get? next with
        | some _ => pure files
        | none =>
          match ← nodeAt? path with
          | some node => pure (files.put next node)
          | none => pure files
      fetchAlong files next (path ++ "/") names

/-- Adds what lies on the way of a path, and its draft, to the files that are known. -/
def fetch (files : Files) (path : String) : IO Files := do
  let files ← fetchAlong files (Place.start path) "" (Place.steps path)
  let draft := path ++ ".tmp"
  fetchAlong files (Place.start draft) "" (Place.steps draft)

/-- A path to a place. -/
def pathTo (p : Place) : String :=
  match p.reverse with
  | "/" :: names => "/" ++ "/".intercalate names
  | names => "/".intercalate names

/-- Makes the folders and writes the files that are new or differ from those before, and removes the
files that are there no more. -/
def writeChanges (before after : Files) : IO Unit := do
  for (p, node) in after.reverse do
    if before.get? p != some node then
      match node with
      | .folder => IO.FS.createDirAll (pathTo p)
      | .file text => IO.FS.writeFile (pathTo p) text
  for (p, _) in before do
    if (after.get? p).isNone then IO.FS.removeFile (pathTo p)

/-- The current time. -/
def now : IO DateTime := do
  let millis : Int := (← Std.Time.Timestamp.now).toMillisecondsSinceUnixEpoch.val
  let inDay := (millis % 86400000).toNat
  return ⟨millis / 86400000, inDay / 1000, inDay % 1000 * 1000000⟩

/-- The time at every reading of the clock for the rows of a run, read in advance, and new
identifiers. -/
def source : IO Demo.Source := do
  let times ← (List.range (3 * Demo.Report.full.total)).mapM fun _ => now
  let last ← now
  let bytes ← IO.getRandomBytes 16
  let n := bytes.toList.foldl (fun n b => n * 256 + b.toNat) 0
  return ⟨fun k => times.getD k last, fun k => Identifier.ofNumber (n + k)⟩

/-- The file that a line opens. -/
def openedBy (line : String) : Option String :=
  match (Text.words (Text.trim line).toList).map String.ofList with
  | [".open", path] => some path
  | _ => none

/-- A line without its end. -/
def withoutEnd (line : String) : String := (Text.lines line).headD ""

/-- Carries out lines until one ends the session or there are no more. -/
partial def converse (s : Session) (input : IO.FS.Stream) : IO Session := do
  IO.print s.prompt
  (← IO.getStdout).flush
  let line ← input.getLine
  if line.isEmpty then
    IO.println "Fin de l'entrée (Ctrl-D)"
    return s
  let files ← match openedBy line with
    | some path => fetch s.files path
    | none => pure s.files
  let (shown, next) := { s with files := files }.line (← source) (withoutEnd line)
  let next := next.expire
  IO.print shown
  writeChanges files next.files
  if next.running then converse next input else return next

/-- Carries out a run that ends by itself. -/
def finish (files : Files) (exit : ShellExit) : IO UInt32 := do
  writeChanges files exit.files
  IO.print exit.output
  IO.eprint exit.errors
  return exit.code.toUInt32

/-- Does a run take lines? -/
def takesLines (o : ShellOptions) : Bool :=
  o.server.isNone && o.command.isNone && (o.interactive || o.database.isSome)

end ClientRecords.Program

open ClientRecords ClientRecords.Program in
def main (args : List String) : IO UInt32 := do
  let terminal ← (← IO.getStdout).isTty
  match ShellRequest.ofArguments args with
  | .run o =>
    let files ← fetch .empty Session.historyPath
    let files ← match o.database with
      | some path => fetch files path
      | none => pure files
    if takesLines o then
      let (greeting, s) := (o.session terminal files).greet
      IO.print greeting
      let s ← converse s (← IO.getStdin)
      finish s.files (s.leave "")
    else finish files (o.run terminal (← source) "" files)
  | .help =>
    IO.print usage
    return 0
  | .refused =>
    IO.eprint usage
    return 2
