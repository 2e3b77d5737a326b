import ClientRecords.Database
import ClientRecords.Proofs.Files.Places
/-!
A database in a file. As long as no write fails, the file holds the document or the saver has the
document still to write (`Keeper.Tracks`), and nothing is touched but the file and its draft. So the
file holds the document when the database is closed.
-/

namespace ClientRecords

variable {path : String} {files : Files} {d : Document}

/-- Apart from the file of a path and its draft all files are as before. -/
def Files.Spares (path : String) (files after : Files) : Prop :=
  ∀ q t, q ≠ Place.ofPath path → q ≠ Place.draftOf path →
    files.get? q = some (.file t) → after.get? q = some (.file t)

theorem Files.Spares.refl (path : String) (files : Files) : files.Spares path files :=
  fun _ _ _ _ h => h

theorem Document.spares_store (path : String) (pretty : Bool) (d : Document) (files : Files) :
    files.Spares path (store path pretty d files).2 :=
  fun _ _ hp hd h => Files.get?_replace_of_ne hp hd h

namespace Keeper

variable {k : Keeper}

/-- The file of a path holds a document, or the saver has it still to write. -/
inductive Tracks (path : String) (d : Document) (files : Files) : Keeper → Prop
  | mk {saver : Saver Document} (waiting : ∀ x ∈ saver.dirty, x = d)
      (written : saver.dirty = none →
        files.get? (Place.ofPath path) = some (.file (d.fileText true))) :
      Tracks path d files (.file path true saver)

/-- All is written exactly if nothing stands in the way. -/
theorem fault?_isNone (k : Keeper) (files : Files) :
    (k.fault? files).isNone = (k.flush files).1 := by
  cases k with
  | memory saves => rfl
  | file path pretty saver =>
    simp only [fault?, flush, Saver.flush, Saver.write]
    cases saver.dirty with
    | none => rfl
    | some d =>
      have hreplace : (files.replaceFault? path (d.fileText pretty)).isNone =
          (Document.store path pretty d files).1 := files.replaceFault?_isNone path _
      rcases hput : Document.store path pretty d files with ⟨_ | _, after⟩ <;>
        simpa only [hput, Option.bind_some] using hreplace

/-- Is there nothing left to write? -/
def isWritten : Keeper → Bool
  | .memory _ => true
  | .file _ _ saver => saver.dirty.isNone

/-- Does the end of the delay pass without a write that fails? -/
def expires (files : Files) : Keeper → Bool
  | .memory _ => true
  | .file path pretty saver =>
    !saver.armed || (saver.flush (Document.store path pretty) files).1

namespace Tracks

theorem save (h : Tracks path d files k) (next : Document) :
    Tracks path next files (k.save next) := by
  cases h
  refine .mk ?_ nofun
  intro x hx
  exact (Option.some.inj hx).symm

theorem get?_of_isWritten (h : Tracks path d files k) (hw : k.isWritten = true) :
    files.get? (Place.ofPath path) = some (.file (d.fileText true)) := by
  cases h with
  | mk _ written => exact written (Option.isNone_iff_eq_none.mp hw)

/-- What is known of the file as long as it is the same one. -/
theorem of_get?_eq {after : Files} (h : Tracks path d files k)
    (hf : after.get? (Place.ofPath path) = files.get? (Place.ofPath path)) :
    Tracks path d after k := by
  cases h with
  | mk waiting written => exact .mk waiting fun hn => hf.trans (written hn)

/-- A write that does not fail leaves nothing to write. -/
theorem write {saver : Saver Document} (h : Tracks path d files (.file path true saver))
    (hd : (saver.write (Document.store path true) files).1 = true) :
    Tracks path d (saver.write (Document.store path true) files).2.2
        (.file path true (saver.write (Document.store path true) files).2.1) ∧
      (saver.write (Document.store path true) files).2.1.dirty = none := by
  cases h with
  | mk waiting written =>
    rw [Saver.write] at hd ⊢
    cases hdirty : saver.dirty with
    | none => exact ⟨.mk waiting written, hdirty⟩
    | some x =>
      obtain rfl := waiting x hdirty
      rw [hdirty] at hd
      rcases hput : Document.store path true x files with ⟨_ | _, after⟩
      · simp only [hput] at hd
        cases hd
      · simp only [hput]
        have hok : (files.replace path (x.fileText true)).1 = true := congrArg Prod.fst hput
        have hheld := Files.get?_replace_self hok
        rw [show files.replace path (x.fileText true) = (true, after) from hput] at hheld
        exact ⟨.mk nofun fun _ => hheld, trivial⟩

end Tracks

theorem spares_write (saver : Saver Document) (path : String) (pretty : Bool) (files : Files) :
    files.Spares path (saver.write (Document.store path pretty) files).2.2 := by
  rw [Saver.write]
  cases saver.dirty with
  | none => exact .refl path files
  | some x =>
    have hspares := Document.spares_store path pretty x files
    rcases hput : Document.store path pretty x files with ⟨_ | _, after⟩ <;>
      simpa only [hput] using hspares

namespace Tracks

theorem flush (h : Tracks path d files k) (hd : (k.flush files).1 = true) :
    Tracks path d (k.flush files).2.2 (k.flush files).2.1 ∧
      (k.flush files).2.1.isWritten = true := by
  cases h with
  | @mk saver waiting written =>
    have hcalm : Tracks path d files (.file path true { saver with armed := false }) :=
      .mk waiting written
    obtain ⟨htracks, hdirty⟩ := hcalm.write hd
    exact ⟨htracks, Option.isNone_iff_eq_none.mpr hdirty⟩

theorem spares_flush (h : Tracks path d files k) : files.Spares path (k.flush files).2.2 := by
  cases h with
  | @mk saver waiting written => exact spares_write { saver with armed := false } path true files

theorem expire (h : Tracks path d files k) (he : k.expires files = true) :
    Tracks path d (k.expire files).2 (k.expire files).1 := by
  cases h with
  | @mk saver waiting written =>
    have hself : Tracks path d files (.file path true saver) := .mk waiting written
    rw [expires] at he
    simp only [Keeper.expire, Saver.expire]
    cases harmed : saver.armed with
    | false => exact hself
    | true =>
      rw [harmed, Bool.not_true, Bool.false_or] at he
      exact (hself.flush he).1

theorem spares_expire (h : Tracks path d files k) : files.Spares path (k.expire files).2 := by
  cases h with
  | @mk saver waiting written =>
    simp only [Keeper.expire, Saver.expire]
    split
    · exact spares_write { saver with armed := false } path true files
    · exact .refl path files

/-- Letting a database go writes nothing more once all is written. -/
theorem release (h : Tracks path d files k) (hw : k.isWritten = true) :
    k.release files = files := by
  cases h with
  | @mk saver waiting written =>
    have hdirty : saver.dirty = none := Option.isNone_iff_eq_none.mp hw
    simp only [Keeper.release, Saver.stop, Saver.write, hdirty]

end Tracks
end Keeper

namespace Database

variable {db : Database}

theorem fault?_isNone (db : Database) (files : Files) :
    (db.fault? files).isNone = (db.close files).1 := db.keeper.fault?_isNone files

/-- A database that is closed without a write that fails has its document in its file. -/
theorem close_of_tracks (h : db.keeper.Tracks path d files) (hd : (db.close files).1 = true) :
    (db.close files).2.get? (Place.ofPath path) = some (.file (d.fileText true)) ∧
      files.Spares path (db.close files).2 := by
  obtain ⟨htracks, hwritten⟩ := h.flush hd
  have hfiles : (db.close files).2 = (db.keeper.flush files).2.2 := htracks.release hwritten
  rw [hfiles]
  exact ⟨htracks.get?_of_isWritten hwritten, h.spares_flush⟩

/-- A database that was just opened has its document still to write, whatever the files become. -/
theorem tracks_openFile (mode : Mode) (files after : Files) (path : String) :
    (openFile mode true files path).keeper.Tracks path (openFile mode true files path).document
      after := by
  refine .mk ?_ nofun
  intro x hx
  exact (Option.some.inj hx).symm

end Database
end ClientRecords
