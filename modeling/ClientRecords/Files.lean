/-!
Folders and text files. A path is followed step by step from the working folder, or from the root,
and names a place there; every step but the last has to end in a folder. A document is written whole
beside its place first and put into its place afterwards.
-/

namespace ClientRecords

/-- A place among the folders: the names on the way to it from the working folder, the last one
first. A place above the working folder begins with steps up, one from the root with a slash. -/
abbrev Place := List String

namespace Place

def working : Place := []

/-- The places that are folders whatever is written: the working folder, those above it and the
root. -/
def isFixed (p : Place) : Bool := p.all fun name => name == ".." || name == "/"

/-- The place that a path is followed from. -/
def start (path : String) : Place := if path.toList.head? = some '/' then ["/"] else working

/-- The folder that a place lies in. -/
def up (p : Place) : Place :=
  if p = ["/"] then p else if p.isFixed then ".." :: p else p.tail

/-- No name is longer than 255 bytes. -/
def nameLimit : Nat := 255

/-- One step from a folder. -/
def step? (p : Place) (name : String) : Option Place :=
  if name = "" || name = "." then some p
  else if name = ".." then some p.up
  else if name.utf8ByteSize ≤ nameLimit then some (name :: p)
  else none

/-- The steps of a path. -/
def steps (path : String) : List String := (path.toList.splitOn '/').map String.ofList

/-- The steps of a path to the folder of its last name. -/
def folderSteps (path : String) : List String :=
  ((steps path).filter fun name => name != "" && name != ".").dropLast

/-- Can a path be followed at all? It is neither empty nor longer than 4095 bytes and holds no
NUL. -/
def isPath (path : String) : Bool :=
  path != "" && path.utf8ByteSize < 4096 && !path.toList.contains '\x00'

end Place

/-- What lies at a place. -/
inductive FileNode where
  | folder
  | file (text : String)
  deriving DecidableEq

/-- What lies at places other than the fixed ones, the newest first. -/
abbrev Files := List (Place × FileNode)

namespace Files

def empty : Files := []

/-- What lies at a place, if anything does. -/
def get? (files : Files) (p : Place) : Option FileNode :=
  if p.isFixed then some .folder else (files.find? (·.1 = p)).map (·.2)

def erase (files : Files) (p : Place) : Files := files.filter (·.1 ≠ p)

def put (files : Files) (p : Place) (node : FileNode) : Files := (p, node) :: files.erase p

theorem get?_put_self (files : Files) {p : Place} (node : FileNode) (h : p.isFixed = false) :
    (files.put p node).get? p = some node := by
  simp [get?, put, h]

theorem find?_erase_of_ne (files : Files) {p q : Place} (h : p ≠ q) :
    (files.erase p).find? (·.1 = q) = files.find? (·.1 = q) := by
  induction files with
  | nil => rfl
  | cons e files ih =>
    by_cases hp : e.1 = p
    · have hq : e.1 ≠ q := fun hq => h (hp ▸ hq)
      simpa [erase, hp, h] using ih
    · by_cases hq : e.1 = q
      · simp [erase, hq, Ne.symm h]
      · simpa [erase, hp, hq] using ih

theorem get?_erase_of_ne (files : Files) {p q : Place} (h : p ≠ q) :
    (files.erase p).get? q = files.get? q := by
  simp [get?, find?_erase_of_ne files h]

theorem get?_put_of_ne (files : Files) {p q : Place} (node : FileNode) (h : p ≠ q) :
    (files.put p node).get? q = files.get? q := by
  have := find?_erase_of_ne files h
  simp [get?, put, h, this]

/-- The place that steps from a place lead to, if all of them start in folders. -/
def follow? (files : Files) : Place → List String → Option Place
  | p, [] => some p
  | p, name :: names =>
    if files.get? p = some .folder then
      (p.step? name).bind fun next => files.follow? next names
    else none

/-- The place of a path, if its folder is there. -/
def place? (files : Files) (path : String) : Option Place :=
  if Place.isPath path then files.follow? (Place.start path) (Place.steps path) else none

/-- What lies under a path. -/
def at? (files : Files) (path : String) : Option FileNode := (files.place? path).bind files.get?

/-- The text of the file under a path. -/
def text? (files : Files) (path : String) : Option String :=
  match files.at? path with
  | some (.file text) => some text
  | _ => none

/-- The place where a file can be written under a path: its folder is there, and it is none
itself. -/
def filePlace? (files : Files) (path : String) : Option Place :=
  (files.place? path).filter fun p => files.get? p ≠ some .folder

/-- Writes a file in a folder that is there. -/
def write? (files : Files) (path text : String) : Option Files :=
  (files.filePlace? path).map fun p => files.put p (.file text)

/-- Makes the folders that some steps from a folder lead through. Tells whether all are there
then. -/
def makeAlong (files : Files) : Place → List String → Bool × Files
  | _, [] => (true, files)
  | p, name :: names =>
    match p.step? name with
    | none => (false, files)
    | some next =>
      match files.get? next with
      | some .folder => files.makeAlong next names
      | some (.file _) => (false, files)
      | none => makeAlong (files.put next .folder) next names

/-- Makes the folder of the last name of a path. Tells whether it is there then. -/
def makeFolder (files : Files) (path : String) : Bool × Files :=
  let names := Place.folderSteps path
  if names.isEmpty then (true, files)
  else if Place.isPath ("/".intercalate names) then files.makeAlong (Place.start path) names
  else (false, files)

/-- Writes a file whole, making its folder: first to a draft beside it, which then takes its place.
Tells whether it did; if not, the draft and new folders stay, and the file is as before. -/
def replace (files : Files) (path text : String) : Bool × Files :=
  match files.makeFolder path with
  | (false, files) => (false, files)
  | (true, files) =>
    match files.filePlace? (path ++ ".tmp") with
    | none => (false, files)
    | some draft =>
      let drafted := files.put draft (.file text)
      match drafted.filePlace? path with
      | none => (false, drafted)
      | some p => (true, (drafted.erase draft).put p (.file text))

end Files
end ClientRecords
