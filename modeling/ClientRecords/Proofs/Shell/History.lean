import Mathlib.Data.List.Destutter
import Mathlib.Data.List.DropRight
import ClientRecords.Proofs.Files.Places
import ClientRecords.Shell.History
/-!
The history as the end of what was entered. Lines are trimmed, empty ones are dropped, and of equal
neighbours one is kept; the history holds the newest of the lines that are left, as many as it has
room for (`entries_foldl_record`). Its entries fill one line each, so the file that they are saved
to is loaded as the same history (`holds_newest`).
-/

namespace ClientRecords

/-! ### Trimmed texts -/

namespace Text

variable {c : Char} {cs l rest : List Char} {s : String}

/-- A text that is not empty and has no blank at its ends. -/
structure IsTrimmed (s : String) : Prop where
  nonempty : s ≠ ""
  first : ∀ c ∈ s.toList.head?, isBlank c = false
  last : ∀ c ∈ s.toList.getLast?, isBlank c = false

theorem trimLeft_eq_self (h : ∀ c ∈ cs.head?, isBlank c = false) : trimLeft cs = cs := by
  cases cs with
  | nil => rfl
  | cons c cs =>
    have hc : isBlank c = false := h c rfl
    rw [trimLeft, List.dropWhile_cons_of_neg (by simp [hc])]

theorem isBlank_head?_trimLeft : ∀ {cs : List Char}, ∀ c ∈ (trimLeft cs).head?, isBlank c = false
  | [], _, h => by cases h
  | d :: cs, c, h => by
    cases hd : isBlank d with
    | true =>
      rw [trimLeft, List.dropWhile_cons_of_pos hd] at h
      exact isBlank_head?_trimLeft c h
    | false =>
      rw [trimLeft, List.dropWhile_cons_of_neg (by simp [hd])] at h
      obtain rfl : d = c := Option.some.inj h
      exact hd

theorem isBlank_getLast?_trimChars : ∀ c ∈ (trimChars cs).getLast?, isBlank c = false := by
  rw [trimChars, List.getLast?_reverse]
  exact isBlank_head?_trimLeft

/-- What is cut off behind does not change the first character that is left. -/
theorem isBlank_head?_trimChars : ∀ c ∈ (trimChars cs).head?, isBlank c = false := by
  intro c hc
  have hprefix : trimChars cs <+: trimLeft cs := by
    have hsuffix : trimLeft (trimLeft cs).reverse <:+ (trimLeft cs).reverse :=
      List.dropWhile_suffix _
    have hreverse := List.reverse_prefix.mpr hsuffix
    rwa [List.reverse_reverse] at hreverse
  obtain ⟨r, hr⟩ := List.head?_eq_some_iff.mp hc
  obtain ⟨more, hmore⟩ := hr ▸ hprefix
  exact isBlank_head?_trimLeft c (by rw [← hmore]; rfl)

theorem isTrimmed_trim (h : trim s ≠ "") : IsTrimmed (trim s) := by
  refine ⟨h, ?_, ?_⟩ <;> rw [trim, String.toList_ofList]
  · exact isBlank_head?_trimChars
  · exact isBlank_getLast?_trimChars

theorem IsTrimmed.trim_eq (h : IsTrimmed s) : trim s = s := by
  have hlast : ∀ c ∈ s.toList.reverse.head?, isBlank c = false := by
    rw [List.head?_reverse]
    exact h.last
  rw [trim, trimChars, trimLeft_eq_self h.first, trimLeft_eq_self hlast, List.reverse_reverse,
    String.ofList_toList]

theorem mem_of_mem_trim (h : c ∈ (trim s).toList) : c ∈ s.toList := by
  rw [trim, String.toList_ofList, trimChars, List.mem_reverse] at h
  have hmem : c ∈ (trimLeft s.toList).reverse := (List.dropWhile_suffix _).mem h
  exact (List.dropWhile_suffix _).mem (List.mem_reverse.mp hmem)

/-! ### Lines -/

/-- A text fills a line if it has no line feed in it and no carriage return at its end. -/
theorem linesOf_append (hl : '\n' ∉ l) (hlast : l.getLast? ≠ some '\r') :
    linesOf (l ++ '\n' :: rest) = l :: linesOf rest := by
  induction l with
  | nil => rw [List.nil_append, linesOf, if_pos rfl]; rintro _ ⟨⟩
  | cons c l ih =>
    obtain ⟨hc, hl⟩ := List.ne_and_not_mem_of_not_mem_cons hl
    have hrest : linesOf (l ++ '\n' :: rest) = l :: linesOf rest := by
      refine ih hl fun hlast' => hlast ?_
      rw [List.getLast?_cons, hlast', Option.getD_some]
    rw [List.cons_append, linesOf, if_neg (Ne.symm hc), hrest, consLine]
    -- a carriage return with a line feed behind it would be the last character of the text
    rintro cs rfl hcs
    cases l with
    | nil => exact hlast rfl
    | cons d l =>
      obtain rfl : d = '\n' := (List.cons.inj hcs).1
      exact hl (List.mem_cons_of_mem _ List.mem_cons_self)

end Text

/-! ### Runs of equal neighbours -/

section Runs

variable {α : Type} [DecidableEq α]

theorem destutter'_concat (a x : α) (xs : List α) :
    (xs ++ [x]).destutter' (· ≠ ·) a = if (xs.destutter' (· ≠ ·) a).getLast? = some x
      then xs.destutter' (· ≠ ·) a else xs.destutter' (· ≠ ·) a ++ [x] := by
  induction xs generalizing a with
  | nil => by_cases h : a = x <;> simp [h]
  | cons b xs ih =>
    rw [List.cons_append]
    by_cases h : a ≠ b
    · rw [List.destutter'_cons_pos _ h, List.destutter'_cons_pos _ h, ih b]
      obtain ⟨c, ds, hrun⟩ :=
        List.exists_cons_of_ne_nil (List.destutter'_ne_nil xs (· ≠ ·) (a := b))
      rw [hrun, List.getLast?_cons_cons]
      split <;> rfl
    · rw [List.destutter'_cons_neg _ h, List.destutter'_cons_neg _ h, ih a]

/-- Of equal neighbours one is kept, so one more element is kept unless it repeats the last. -/
theorem destutter_concat (xs : List α) (x : α) :
    (xs ++ [x]).destutter (· ≠ ·) = if (xs.destutter (· ≠ ·)).getLast? = some x
      then xs.destutter (· ≠ ·) else xs.destutter (· ≠ ·) ++ [x] := by
  cases xs with
  | nil => rfl
  | cons a xs => exact destutter'_concat a x xs

end Runs

/-! ### The end of a list -/

section Ends

variable {α : Type} {n : Nat}

theorem length_rtake_le (n : Nat) (xs : List α) : (xs.rtake n).length ≤ n := by
  rw [List.rtake, List.length_drop]
  omega

theorem rtake_eq_self {xs : List α} (h : xs.length ≤ n) : xs.rtake n = xs := by
  rw [List.rtake, Nat.sub_eq_zero_of_le h, List.drop_zero]

theorem getLast?_rtake (h : 0 < n) (xs : List α) : (xs.rtake n).getLast? = xs.getLast? := by
  obtain ⟨k, rfl⟩ := Nat.exists_eq_succ_of_ne_zero (Nat.ne_of_gt h)
  cases xs using List.reverseRecOn with
  | nil => rw [List.rtake_nil]
  | append_singleton ys y =>
    rw [List.rtake_concat_succ, List.getLast?_concat, List.getLast?_concat]

/-- An end that is full makes room for one element by its first. -/
theorem rtake_of_room (xs : List α) :
    (if (xs.rtake (n + 1)).length = n + 1 then (xs.rtake (n + 1)).tail else xs.rtake (n + 1))
      = xs.rtake n := by
  simp only [List.rtake, List.length_drop, List.tail_drop]
  by_cases hfull : n + 1 ≤ xs.length
  · rw [if_pos (by omega)]
    congr 1
    omega
  · rw [if_neg (by omega)]
    congr 1
    omega

end Ends

/-! ### What is recorded -/

namespace History

open Text (IsTrimmed)

variable {h : History} {lines : List String} {line : String} {es : List String}

/-- What a history with room for everything keeps of lines: each is trimmed, empty ones are dropped,
and of equal neighbours one is kept. -/
def traces (lines : List String) : List String :=
  ((lines.map Text.trim).filter (· ≠ "")).destutter (· ≠ ·)

theorem traces_concat (lines : List String) (line : String) :
    traces (lines ++ [line]) =
      if Text.trim line = "" ∨ (traces lines).getLast? = some (Text.trim line) then traces lines
      else traces lines ++ [Text.trim line] := by
  by_cases hblank : Text.trim line = ""
  · rw [if_pos (.inl hblank)]
    simp [traces, hblank]
  · have hkept : traces (lines ++ [line])
        = ((lines.map Text.trim).filter (· ≠ "") ++ [Text.trim line]).destutter (· ≠ ·) := by
      simp [traces, hblank]
    rw [hkept, destutter_concat]
    simp only [hblank, false_or]
    rfl

theorem exists_of_mem_traces {e : String} (he : e ∈ traces lines) :
    IsTrimmed e ∧ ∃ line ∈ lines, Text.trim line = e := by
  have hmem := (List.destutter_sublist (· ≠ ·) _).mem he
  obtain ⟨htrim, hne⟩ := List.mem_filter.mp hmem
  obtain ⟨line, hline, rfl⟩ := List.mem_map.mp htrim
  exact ⟨Text.isTrimmed_trim (of_decide_eq_true hne), line, hline, rfl⟩

/-- Lines that are trimmed and not equal to their neighbours are kept as they are. -/
theorem traces_eq_self (hes : ∀ e ∈ es, IsTrimmed e) (hchain : es.IsChain (· ≠ ·)) :
    traces es = es := by
  have htrim : es.map Text.trim = es := by
    rw [List.map_congr_left fun e he => (hes e he).trim_eq, List.map_id']
  have hfilter : es.filter (· ≠ "") = es :=
    List.filter_eq_self.mpr fun e he => decide_eq_true (hes e he).nonempty
  rw [traces, htrim, hfilter, List.destutter_of_isChain _ _ hchain]

theorem capacity_record (h : History) (line : String) :
    (h.record line).capacity = h.capacity := by
  simp only [record]
  split <;> rfl

/-- One more line is recorded: the newest entry is the last line that was kept, so the repetition is
seen, and the oldest entry makes room. -/
theorem entries_record (hroom : 0 < h.capacity)
    (hentries : h.entries = (traces lines).rtake h.capacity) :
    (h.record line).entries = (traces (lines ++ [line])).rtake h.capacity := by
  have hlast : h.entries.getLast? = (traces lines).getLast? := by
    rw [hentries, getLast?_rtake hroom]
  rw [traces_concat]
  simp only [record, hlast]
  split
  · exact hentries
  · obtain ⟨n, hn⟩ := Nat.exists_eq_succ_of_ne_zero (Nat.ne_of_gt hroom)
    rw [push, hn, List.rtake_concat_succ, hentries, hn, rtake_of_room]

theorem capacity_foldl_record : ∀ (lines : List String) (h : History),
    (lines.foldl record h).capacity = h.capacity
  | [], _ => rfl
  | line :: lines, h => (capacity_foldl_record lines _).trans (capacity_record h line)

/-- After any lines the history is the end of what is kept of them. -/
theorem entries_foldl_record {capacity : Nat} (hroom : 0 < capacity) (lines : List String) :
    (lines.foldl record (empty capacity)).entries = (traces lines).rtake capacity := by
  have hcapacity : ∀ lines : List String,
      (lines.foldl record (empty capacity)).capacity = capacity :=
    fun lines => capacity_foldl_record lines _
  induction lines using List.reverseRecOn with
  | nil => exact (List.rtake_nil capacity).symm
  | append_singleton lines line ih =>
    rw [List.foldl_concat, entries_record, hcapacity]
    · rwa [hcapacity]
    · rwa [hcapacity]

/-! ### Saving and loading -/

/-- What a file is loaded as hangs on its lines and on the capacity alone. -/
theorem entries_load (hroom : 0 < h.capacity) (file : String) :
    (h.load file).entries = (traces (Text.lines file)).rtake h.capacity :=
  entries_foldl_record hroom (Text.lines file)

theorem linesOf_ended : ∀ {es : List String}, es ≠ [] →
    (∀ e ∈ es, IsTrimmed e ∧ '\n' ∉ e.toList) →
      Text.linesOf (['\n'].intercalate (es.map String.toList) ++ ['\n']) = es.map String.toList
  | [], hne, _ => absurd rfl hne
  | e :: es, _, hes => by
    obtain ⟨⟨htrimmed, hline⟩, hrest⟩ := List.forall_mem_cons.mp hes
    have hlast : e.toList.getLast? ≠ some '\r' := fun hlast =>
      absurd (htrimmed.last '\r' hlast) (by decide)
    cases es with
    | nil =>
      rw [List.map_singleton, List.intercalate_singleton, Text.linesOf_append hline hlast]
      rfl
    | cons e' es =>
      rw [List.map_cons, List.map_cons, List.intercalate_cons_cons, List.append_assoc,
        List.append_assoc, List.singleton_append, Text.linesOf_append hline hlast, ← List.map_cons,
        linesOf_ended (List.cons_ne_nil e' es) hrest]

/-- Each entry fills a line of the file; of no entries there is one empty line. -/
theorem traces_lines_fileText (hes : ∀ e ∈ h.entries, IsTrimmed e ∧ '\n' ∉ e.toList)
    (hchain : h.entries.IsChain (· ≠ ·)) : traces (Text.lines h.fileText) = h.entries := by
  cases hentries : h.entries with
  | nil =>
    have hfile : h.fileText = "\n" := by rw [fileText, hentries]; rfl
    rw [hfile]
    decide +kernel
  | cons e es =>
    have hfile : h.fileText.toList
        = ['\n'].intercalate (h.entries.map String.toList) ++ ['\n'] := by
      rw [fileText, String.toList_append, String.toList_intercalate]
      rfl
    have hlines : Text.lines h.fileText = h.entries := by
      rw [Text.lines, hfile, linesOf_ended (by simp [hentries]) hes, List.map_map]
      exact (List.map_congr_left fun e _ => String.ofList_toList).trans (List.map_id' _)
    rw [hlines, ← hentries]
    exact traces_eq_self (fun e he => (hes e he).1) hchain

/-- The history never holds more than it has room for, its entries are trimmed, none of them repeats
the one before, and they are the newest of what is kept of all lines. A file that they are saved to
is loaded as the same entries. -/
theorem holds_newest {capacity : Nat} (hroom : 0 < capacity) (lines : List String) :
    let h := lines.foldl record (empty capacity)
    h.entries.length ≤ capacity ∧ (∀ e ∈ h.entries, IsTrimmed e) ∧ h.entries.IsChain (· ≠ ·) ∧
      h.entries = (traces lines).rtake capacity ∧
      ((∀ line ∈ lines, '\n' ∉ line.toList) → ∀ (other : History) (files after : Files)
        (path : String), other.capacity = capacity → files.write? path h.fileText = some after →
          (after.text? path).map (fun file => (other.load file).entries) = some h.entries) := by
  intro h
  have hentries : h.entries = (traces lines).rtake capacity := entries_foldl_record hroom lines
  have hlength : h.entries.length ≤ capacity := hentries ▸ length_rtake_le capacity _
  have hsuffix : h.entries <:+ traces lines := hentries ▸ List.drop_suffix _ _
  have hchain : h.entries.IsChain (· ≠ ·) := (List.isChain_destutter _ _).suffix hsuffix
  have htrimmed : ∀ e ∈ h.entries, IsTrimmed e := fun e he =>
    (exists_of_mem_traces (hsuffix.mem he)).1
  refine ⟨hlength, htrimmed, hchain, hentries, ?_⟩
  intro hlines other files after path hcapacity hw
  have hes : ∀ e ∈ h.entries, IsTrimmed e ∧ '\n' ∉ e.toList := by
    intro e he
    obtain ⟨ht, line, hline, rfl⟩ := exists_of_mem_traces (hsuffix.mem he)
    exact ⟨ht, fun hmem => hlines line hline (Text.mem_of_mem_trim hmem)⟩
  rw [Files.text?_write? hw, Option.map_some, entries_load (hcapacity ▸ hroom),
    traces_lines_fileText hes hchain, hcapacity, rtake_eq_self hlength]

/-- A history with room for two entries, after lines that are blank or repeat the one before. -/
theorem holds_newest_two :
    let lines := ["SELECT 1", " SELECT 1", "  ", ".tables", "SELECT * FROM leads"]
    let h := lines.foldl record (empty 2)
    let after : Files := [(["history"], .file ".tables\nSELECT * FROM leads\n")]
    0 < 2 ∧ (∀ line ∈ lines, '\n' ∉ line.toList) ∧
      h.entries = [".tables", "SELECT * FROM leads"] ∧
      Files.empty.write? "history" h.fileText = some after ∧
      h.entries = (traces lines).rtake 2 ∧
      (after.text? "history").map (fun file => ((empty 2).load file).entries) = some h.entries := by
  intro lines h after
  have hlines : ∀ line ∈ lines, '\n' ∉ line.toList := by decide +kernel
  have hw : Files.empty.write? "history" h.fileText = some after := by decide +kernel
  obtain ⟨-, -, -, hentries, hload⟩ := holds_newest Nat.two_pos lines
  exact ⟨by decide, hlines, by decide +kernel, hw, hentries,
    hload hlines (empty 2) _ after _ rfl hw⟩

end History
end ClientRecords
