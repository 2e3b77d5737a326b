import ClientRecords.Files
/-!
Why a file cannot be written: the first fault that is met on the way, with the text that the
operating system has for it. A file is not written whole exactly if there is such a fault
(`Files.replaceFault?_isNone`).
-/

namespace ClientRecords

/-- What stands in the way of a file. -/
inductive FileFault where
  | missing
  | busy
  | taken
  | notFolder
  | isFolder
  | longName
  | hasNul
  deriving DecidableEq

namespace FileFault

def text : FileFault → String
  | .missing => "No such file or directory (os error 2)"
  | .busy => "Device or resource busy (os error 16)"
  | .taken => "File exists (os error 17)"
  | .notFolder => "Not a directory (os error 20)"
  | .isFolder => "Is a directory (os error 21)"
  | .longName => "File name too long (os error 36)"
  | .hasNul => "file name contained an unexpected NUL byte"

/-- Why a path cannot be followed at all. -/
def ofPath (path : String) : FileFault :=
  if path = "" then .missing else if path.toList.contains '\x00' then .hasNul else .longName

/-- Why a draft cannot take its place, which is a folder. A path that ends in a slash or in a step
that is no name is refused before it is seen what lies there. -/
def ofMove (path : String) : FileFault :=
  match (Place.steps path).reverse.dropWhile (· = "") with
  | [] => if path = "" then .missing else .busy
  | last :: _ =>
    if last = "." || last = ".." then .busy
    else if path.toList.getLast? = some '/' then .notFolder
    else .isFolder

end FileFault

namespace Files

/-- Why steps from a place do not lead to a place for a file. -/
def followFault (files : Files) : Place → List String → FileFault
  | _, [] => .isFolder
  | p, name :: names =>
    match files.get? p with
    | none => .missing
    | some (.file _) => .notFolder
    | some .folder =>
      match p.step? name with
      | none => .longName
      | some next => files.followFault next names

/-- Why there is no place for a file under a path. -/
def placeFault (files : Files) (path : String) : FileFault :=
  if Place.isPath path then files.followFault (Place.start path) (Place.steps path)
  else .ofPath path

/-- Why the folders that some steps from a folder lead through cannot all be made. They are asked
for from the last one back; once one is made, the others are made one by one from there. -/
def makeFault (files : Files) (made : Bool) : Place → List String → FileFault
  | _, [] => .taken
  | p, name :: names =>
    match p.step? name with
    | none => .longName
    | some next =>
      match files.get? next with
      | some .folder => files.makeFault made next names
      | some (.file _) => if made || names.isEmpty then .taken else .notFolder
      | none => makeFault (files.put next .folder) true next names

/-- Why the folder of the last name of a path cannot be made. -/
def folderFault (files : Files) (path : String) : FileFault :=
  let names := Place.folderSteps path
  let folder := "/".intercalate names
  if Place.isPath folder then files.makeFault false (Place.start path) names else .ofPath folder

/-- Why a file cannot be written whole, if it cannot. -/
def replaceFault? (files : Files) (path text : String) : Option FileFault :=
  match files.makeFolder path with
  | (false, _) => some (files.folderFault path)
  | (true, files) =>
    match files.filePlace? (path ++ ".tmp") with
    | none => some (files.placeFault (path ++ ".tmp"))
    | some draft =>
      match (files.put draft (.file text)).filePlace? path with
      | none => some (.ofMove path)
      | some _ => none

theorem replaceFault?_isNone (files : Files) (path text : String) :
    (files.replaceFault? path text).isNone = (files.replace path text).1 := by
  rw [replaceFault?, replace]
  rcases files.makeFolder path with ⟨_ | _, made⟩
  · rfl
  · cases hdraft : made.filePlace? (path ++ ".tmp") with
    | none => simp only [hdraft, Option.isNone_some]
    | some draft =>
      cases hplace : (made.put draft (.file text)).filePlace? path with
      | none => simp only [hdraft, hplace, Option.isNone_some]
      | some p => simp only [hdraft, hplace, Option.isNone_none]

end Files
end ClientRecords
