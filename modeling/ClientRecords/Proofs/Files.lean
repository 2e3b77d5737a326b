import ClientRecords.Files
/-!
Files in the working folder. A file whose path is one plain name is replaced as a whole or stays as
it is, whatever lies in the folders.
-/

namespace ClientRecords

namespace Place

/-- A path without slashes is a single step. -/
theorem steps_of_not_mem {path : String} (h : '/' ∉ path.toList) : steps path = [path] := by
  rw [steps, List.splitOn_eq_singleton h, List.map_singleton, String.ofList_toList]

/-- Is a path a plain name in the working folder? -/
structure IsName (path : String) : Prop where
  isPath : isPath path = true
  single : '/' ∉ path.toList
  plain : path ∉ ["", ".", ".."]
  fits : path.utf8ByteSize ≤ nameLimit

/-- A plain name is followed from the working folder. -/
theorem IsName.start {path : String} (h : IsName path) : Place.start path = working :=
  if_neg fun hhead => h.single (List.mem_of_head? hhead)

/-- A plain name stands for no fixed place. -/
theorem IsName.isFixed {path : String} (h : IsName path) : Place.isFixed [path] = false := by
  have hup : path ≠ ".." := fun hup => h.plain (by simp [hup])
  have hslash : path ≠ "/" := by
    rintro rfl
    exact h.single (by decide)
  simp [Place.isFixed, hup, hslash]

/-- A plain name has no folder to be made. -/
theorem IsName.folderSteps {path : String} (h : IsName path) : Place.folderSteps path = [] := by
  rw [Place.folderSteps, steps_of_not_mem h.single]
  by_cases hp : (path != "" && path != ".") = true <;> simp [hp]

end Place

namespace Files

variable {path : String} {p : Place}

theorem place?_of_isName (h : Place.IsName path) (files : Files) :
    files.place? path = some [path] := by
  obtain ⟨hempty, hdot, hup⟩ : path ≠ "" ∧ path ≠ "." ∧ path ≠ ".." := by simpa using h.plain
  have hstep : Place.step? Place.working path = some [path] := by
    simp [Place.step?, Place.working, hempty, hdot, hup, h.fits]
  have hfolder : files.get? Place.working = some .folder := rfl
  rw [place?, if_pos h.isPath, h.start, Place.steps_of_not_mem h.single, follow?,
    if_pos hfolder, hstep]
  rfl

theorem filePlace?_of_isName (h : Place.IsName path) (files : Files) :
    files.filePlace? path = if files.get? [path] = some .folder then none else some [path] := by
  rw [filePlace?, place?_of_isName h, Option.filter_some]
  split <;> simp_all

theorem text?_of_isName (h : Place.IsName path) (files : Files) :
    files.text? path = match files.get? [path] with
      | some (.file text) => some text
      | _ => none := by
  rw [text?, at?, place?_of_isName h]
  rfl

/-- A file keeps its text when something is put at another place. -/
theorem text?_put_of_ne (h : Place.IsName path) (hne : p ≠ [path]) (files : Files)
    (node : FileNode) :
    (files.put p node).text? path = files.text? path := by
  rw [text?_of_isName h, text?_of_isName h, get?_put_of_ne files node hne]

theorem makeFolder_of_isName (h : Place.IsName path) (files : Files) :
    files.makeFolder path = (true, files) := by
  simp only [makeFolder, h.folderSteps, List.isEmpty_nil, if_true]

/-- Replacing a file with a plain name writes it whole or leaves it as it is. -/
theorem text?_replace (h : Place.IsName path) (hd : Place.IsName (path ++ ".tmp"))
    (files : Files) (text : String) :
    (files.replace path text).2.text? path =
      if (files.replace path text).1 then some text else files.text? path := by
  have hfixed : Place.isFixed [path] = false := h.isFixed
  have hne : [path ++ ".tmp"] ≠ [path] := by
    intro heq
    have hlen := congrArg String.length (List.cons.inj heq).1
    simp [String.length_append] at hlen
  rw [replace, makeFolder_of_isName h]
  simp only [filePlace?_of_isName hd, filePlace?_of_isName h]
  by_cases hdraft : files.get? [path ++ ".tmp"] = some .folder
  · simp only [if_pos hdraft, Bool.false_eq_true, if_false]
  simp only [if_neg hdraft, get?_put_of_ne files _ hne]
  by_cases hfolder : files.get? [path] = some .folder
  · simp only [if_pos hfolder, Bool.false_eq_true, if_false]
    exact text?_put_of_ne h hne files _
  simp only [if_neg hfolder, if_true]
  rw [text?_of_isName h, get?_put_self _ _ hfixed]

end Files
end ClientRecords
