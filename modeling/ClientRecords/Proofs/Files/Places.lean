import ClientRecords.Files
/-!
The place that a path stands for (`Place.ofPath`), whatever lies on the way. A path that can be
followed leads there, so a file that is replaced lies there afterwards; all other files stay, apart
from the draft.
-/

namespace ClientRecords

namespace Place

/-- One step from a place, whatever lies there. -/
def step (p : Place) (name : String) : Place :=
  if name = "" || name = "." then p else if name = ".." then p.up else name :: p

/-- The place that a path stands for. -/
def ofPath (path : String) : Place := (steps path).foldl step (start path)

/-- The place of the draft of a file. -/
def draftOf (path : String) : Place := ofPath (path ++ ".tmp")

theorem eq_step_of_step? {p q : Place} {name : String} (h : p.step? name = some q) :
    q = p.step name := by
  unfold step? at h
  unfold step
  by_cases hstay : (name = "" || name = ".") = true
  · rw [if_pos hstay] at h ⊢
    exact (Option.some.inj h).symm
  by_cases hup : name = ".."
  · rw [if_neg hstay, if_pos hup] at h ⊢
    exact (Option.some.inj h).symm
  rw [if_neg hstay, if_neg hup] at h ⊢
  exact (Option.some.inj (Option.ite_none_right_eq_some.mp h).2).symm

end Place

namespace Files

variable {files : Files} {path text : String} {p q : Place}

theorem eq_foldl_of_follow? : ∀ {names : List String} {p : Place},
    files.follow? p names = some q → q = names.foldl Place.step p
  | [], p, h => (Option.some.inj h).symm
  | name :: names, p, h => by
    rw [follow?] at h
    split at h
    · obtain ⟨next, hnext, hrest⟩ := Option.bind_eq_some_iff.mp h
      rw [List.foldl_cons, ← Place.eq_step_of_step? hnext]
      exact eq_foldl_of_follow? hrest
    · cases h

theorem eq_ofPath_of_place? (h : files.place? path = some p) : p = Place.ofPath path := by
  rw [place?] at h
  split at h
  · exact eq_foldl_of_follow? h
  · cases h

/-- A file can only be written at the place of its path, and that is none of the fixed ones. -/
theorem of_filePlace? (h : files.filePlace? path = some p) :
    p = Place.ofPath path ∧ p.isFixed = false := by
  obtain ⟨hplace, hfile⟩ := Option.filter_eq_some_iff.mp h
  refine ⟨eq_ofPath_of_place? hplace, ?_⟩
  cases hfixed : p.isFixed with
  | false => rfl
  | true =>
    rw [decide_eq_true_eq, get?, if_pos hfixed] at hfile
    exact absurd rfl hfile

/-- Making folders leaves in place what is there. -/
theorem get?_makeAlong {node : FileNode} : ∀ {names : List String} {p : Place} {files : Files},
    files.get? q = some node → (files.makeAlong p names).2.get? q = some node
  | [], _, _, h => h
  | name :: names, p, files, h => by
    rw [makeAlong]
    cases hstep : p.step? name with
    | none => exact h
    | some next =>
      cases hnode : files.get? next with
      | none =>
        have hne : next ≠ q := by
          rintro rfl
          rw [hnode] at h
          cases h
        simp only [hnode]
        exact get?_makeAlong (by rw [get?_put_of_ne files _ hne, h])
      | some there =>
        cases there with
        | folder =>
          simp only [hnode]
          exact get?_makeAlong h
        | file t =>
          simp only [hnode]
          exact h

theorem get?_makeFolder {node : FileNode} (h : files.get? q = some node) :
    (files.makeFolder path).2.get? q = some node := by
  simp only [makeFolder]
  split
  · exact h
  split
  · exact get?_makeAlong h
  · exact h

/-- The ways that replacing a file can go: the folder, the draft or the file cannot be made, or the
draft is written and takes the place of the file. -/
inductive Replaces (files : Files) (path text : String) : Bool × Files → Prop
  | noFolder : Replaces files path text (false, (files.makeFolder path).2)
  | noFile {draft : Place} (hd : draft = Place.draftOf path) :
      Replaces files path text (false, (files.makeFolder path).2.put draft (.file text))
  | done {draft p : Place} (hd : draft = Place.draftOf path) (hp : p = Place.ofPath path)
      (hf : p.isFixed = false) : Replaces files path text
        (true, (((files.makeFolder path).2.put draft (.file text)).erase draft).put p (.file text))

theorem replaces_replace (files : Files) (path text : String) :
    Replaces files path text (files.replace path text) := by
  rw [replace]
  rcases hmade : files.makeFolder path with ⟨_ | _, made⟩
  · rw [show made = (files.makeFolder path).2 by rw [hmade]]
    exact .noFolder
  · have heq : made = (files.makeFolder path).2 := by rw [hmade]
    simp only [heq]
    cases hdraft : (files.makeFolder path).2.filePlace? (path ++ ".tmp") with
    | none => exact .noFolder
    | some draft =>
      have hd : draft = Place.draftOf path := (of_filePlace? hdraft).1
      cases hfile : ((files.makeFolder path).2.put draft (.file text)).filePlace? path with
      | none =>
        simp only [hfile]
        exact .noFile hd
      | some p =>
        obtain ⟨hp, hfixed⟩ := of_filePlace? hfile
        simp only [hfile]
        exact .done hd hp hfixed

/-- A file that is replaced lies at the place of its path. -/
theorem get?_replace_self (h : (files.replace path text).1 = true) :
    (files.replace path text).2.get? (Place.ofPath path) = some (.file text) := by
  generalize hr : files.replace path text = r at h ⊢
  cases hr ▸ replaces_replace files path text with
  | noFolder | noFile => cases h
  | done hd hp hf =>
    rw [← hp]
    exact get?_put_self _ _ hf

/-- Other files stay, apart from the draft, whether the file could be replaced or not. -/
theorem get?_replace_of_ne {t : String} (hp : q ≠ Place.ofPath path) (hd : q ≠ Place.draftOf path)
    (h : files.get? q = some (.file t)) :
    (files.replace path text).2.get? q = some (.file t) := by
  have hmade : (files.makeFolder path).2.get? q = some (.file t) := get?_makeFolder h
  generalize hr : files.replace path text = r
  cases hr ▸ replaces_replace files path text with
  | noFolder => exact hmade
  | noFile hdraft => rwa [get?_put_of_ne _ _ (hdraft ▸ hd.symm)]
  | done hdraft hplace _ =>
    rwa [get?_put_of_ne _ _ (hplace ▸ hp.symm), get?_erase_of_ne _ (hdraft ▸ hd.symm),
      get?_put_of_ne _ _ (hdraft ▸ hd.symm)]

/-- Writing a file leaves the other files. -/
theorem get?_write?_of_ne {after : Files} (hw : files.write? path text = some after)
    (hq : q ≠ Place.ofPath path) : after.get? q = files.get? q := by
  obtain ⟨p, hp, rfl⟩ := Option.map_eq_some_iff.mp hw
  rw [get?_put_of_ne files _ ((of_filePlace? hp).1 ▸ hq.symm)]

/-- A path is followed through folders, so a file that is put where none is changes no way. -/
theorem follow?_put (hfixed : q.isFixed = false) (hq : files.get? q ≠ some .folder) :
    ∀ {names : List String} {p : Place},
      (files.put q (.file text)).follow? p names = files.follow? p names
  | [], _ => rfl
  | name :: names, p => by
    have hfolder : (files.put q (.file text)).get? p = some .folder ↔
        files.get? p = some .folder := by
      by_cases hp : q = p
      · subst hp
        rw [get?_put_self files _ hfixed]
        exact iff_of_false nofun hq
      · rw [get?_put_of_ne files _ hp]
    rw [follow?, follow?]
    simp only [hfolder, follow?_put hfixed hq]

/-- A file that is written is read under its path. -/
theorem text?_write? {after : Files} (hw : files.write? path text = some after) :
    after.text? path = some text := by
  obtain ⟨p, hp, rfl⟩ := Option.map_eq_some_iff.mp hw
  have hfixed : p.isFixed = false := (of_filePlace? hp).2
  obtain ⟨hplace, hfile⟩ := Option.filter_eq_some_iff.mp hp
  rw [decide_eq_true_eq] at hfile
  have hsame : (files.put p (.file text)).place? path = some p := by
    rw [place?] at hplace ⊢
    rw [follow?_put hfixed hfile, hplace]
  rw [text?, at?, hsame, Option.bind_some, get?_put_self files _ hfixed]

end Files
end ClientRecords
