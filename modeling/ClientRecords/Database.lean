import ClientRecords.Execution
import ClientRecords.Files.Fault
import ClientRecords.Saver
/-!
Databases: a document that statements are carried out on, held in memory or saved in a file. A file
that is missing or cannot be read stands for the new document, and a database in a file schedules a
first save as soon as it is opened.
-/

namespace ClientRecords

namespace Document

/-- The text of a document in a file. -/
def fileText (pretty : Bool) (d : Document) : String :=
  if pretty then d.toJson.pretty else d.toJson.compact

/-- The document in a file, if there is anything under its path. -/
def read (files : Files) (path : String) : Except StoreError (Option Document) :=
  match files.at? path with
  | none => .ok none
  | some .folder => .error .fileAccess
  | some (.file text) =>
    match ofText? text with
    | some d => .ok (some d)
    | none => .error .malformedDocument

/-- The document in a file, the new one if there is none to be read. -/
def load (files : Files) (path : String) : Document :=
  match read files path with
  | .ok (some d) => d
  | _ => new

/-- Writes a document to a file. Tells whether it did. -/
def store (path : String) (pretty : Bool) (d : Document) (files : Files) : Bool × Files :=
  files.replace path (d.fileText pretty)

end Document

/-- Where the states of a document go: nowhere, the requests to save being counted, or to a file. -/
inductive Keeper where
  | memory (saves : Nat)
  | file (path : String) (pretty : Bool) (saver : Saver Document)

namespace Keeper

/-- Takes a state to be saved. -/
def save (d : Document) : Keeper → Keeper
  | .memory saves => .memory (saves + 1)
  | .file path pretty saver => .file path pretty (saver.schedule d)

/-- Writes what is not written yet. Tells whether all is written. -/
def flush (files : Files) : Keeper → Bool × Keeper × Files
  | .memory saves => (true, .memory saves, files)
  | .file path pretty saver =>
    let (done, saver, files) := saver.flush (Document.store path pretty) files
    (done, .file path pretty saver, files)

/-- Why what is not written yet cannot be written, if it cannot. -/
def fault? (files : Files) : Keeper → Option FileFault
  | .memory _ => none
  | .file path pretty saver =>
    saver.dirty.bind fun d => files.replaceFault? path (d.fileText pretty)

/-- Writes at the end of the delay. -/
def expire (files : Files) : Keeper → Keeper × Files
  | .memory saves => (.memory saves, files)
  | .file path pretty saver =>
    let (saver, files) := saver.expire (Document.store path pretty) files
    (.file path pretty saver, files)

/-- Writes a last time. -/
def release (files : Files) : Keeper → Files
  | .memory _ => files
  | .file path pretty saver => (saver.stop (Document.store path pretty) files).2.2

def stats? : Keeper → Option SaveStats
  | .memory _ => none
  | .file _ _ saver => some saver.stats

/-- How often saving was asked for. -/
def saves : Keeper → Nat
  | .memory n => n
  | .file _ _ saver => saver.stats.snapshots

end Keeper

structure Database where
  document : Document
  mode : Mode
  keeper : Keeper

namespace Database

/-- A database in memory. -/
def inMemory (mode : Mode) (d : Document) : Database := ⟨d.ensureTables, mode, .memory 0⟩

/-- The database in a file. -/
def openFile (mode : Mode) (pretty : Bool) (files : Files) (path : String) : Database :=
  let d := Document.load files path
  ⟨d, mode, .file path pretty (Saver.idle.schedule d)⟩

/-- Puts a new document in place and schedules its save. -/
def replace (db : Database) (d : Document) : Database :=
  { db with document := d, keeper := db.keeper.save d }

/-- The rows that a query gives, its text being taken as it is. -/
def evaluate (db : Database) (now text : String) (params : List Value) :
    Except Failure (List Record) :=
  (db.document.evaluate db.mode now text params).map (·.rows)

/-- Accepts a script that declares tables. The tables are given, so this only schedules a save. -/
def declare (db : Database) : Database := { db with keeper := db.keeper.save db.document }

/-- Writes what is not written yet. Tells whether all is written. -/
def flush (db : Database) (files : Files) : Bool × Database × Files :=
  let (done, keeper, files) := db.keeper.flush files
  (done, { db with keeper := keeper }, files)

/-- Why what is not written yet cannot be written, if it cannot. -/
def fault? (db : Database) (files : Files) : Option FileFault := db.keeper.fault? files

/-- The end of the delay after a change. -/
def expire (db : Database) (files : Files) : Database × Files :=
  let (keeper, files) := db.keeper.expire files
  ({ db with keeper := keeper }, files)

/-- Lets a database go, which writes what is not written yet. -/
def release (db : Database) (files : Files) : Files := db.keeper.release files

/-- Writes what is not written yet and lets the database go. Tells whether all was written. -/
def close (db : Database) (files : Files) : Bool × Files :=
  let (done, db, files) := db.flush files
  (done, db.release files)

end Database
end ClientRecords
