import ClientRecords.Proofs.Document.Carried
import ClientRecords.Proofs.Query.Names
import ClientRecords.Proofs.Query.Rows
import ClientRecords.Proofs.Query.Reader
import ClientRecords.Proofs.Text.Tidy
/-!
The tables that a document lists, and reading them by their names. A table is listed under the key
it was loaded from, and looked up by its name in lower case. So a table is read by the name it is
listed under exactly if the lower case name is listed with the same number of rows
(`Document.readable_iff`). No statement adds a key with a capital letter, so the tables that are
lost behind their names are those of the loaded object (`Database.run_readable`).
-/

namespace ClientRecords

open Token

/-! ### Lower case -/

/-- No letter is a capital once its case is lowered. -/
theorem Text.isUpper_toLower (c : Char) : c.toLower.isUpper = false := by
  cases h : c.isUpper with
  | false => rw [toLower_of_not_isUpper h, h]
  | true =>
    unfold Char.isUpper at h
    rw [decide_eq_true_eq] at h
    have hval : c.toLower.val = c.val + 32 := by
      unfold Char.toLower
      rw [dif_pos h]
      rfl
    have hlow : 65 ≤ c.val.toNat := UInt32.le_iff_toNat_le.mp h.1
    have hhigh : c.val.toNat ≤ 90 := UInt32.le_iff_toNat_le.mp h.2
    have hsum : (c.val + 32).toNat = c.val.toNat + 32 := by
      rw [UInt32.toNat_add]
      exact Nat.mod_eq_of_lt (Nat.lt_of_le_of_lt (Nat.add_le_add_right hhigh 32) (by decide))
    unfold Char.isUpper
    rw [hval, decide_eq_false_iff_not]
    rintro ⟨-, habove⟩
    have hle : c.val.toNat + 32 ≤ 90 := hsum ▸ UInt32.le_iff_toNat_le.mp habove
    omega

theorem Text.asciiLowercase_asciiLowercase (s : String) :
    asciiLowercase (asciiLowercase s) = asciiLowercase s := by
  simp only [asciiLowercase, String.toList_ofList, List.map_map]
  refine congrArg String.ofList (List.map_congr_left fun c _ => ?_)
  exact toLower_of_not_isUpper (isUpper_toLower c)

theorem Text.lowerChars_of_ascii {cs : List Char} (h : ∀ c ∈ cs, c.toNat < 128) :
    ∀ before : List Char, lowerChars before cs = cs.map Char.toLower := by
  induction cs with
  | nil => exact fun _ => rfl
  | cons c cs ih =>
    intro before
    rw [lowerChars, lowerChar, if_pos (h c List.mem_cons_self),
      ih fun d hd => h d (List.mem_cons_of_mem _ hd)]
    rfl

/-- Both ways of lowering the case of a plain name agree. -/
theorem Token.lowercase_of_isPlain {w : String} (h : (Token.word w).isPlain = true) :
    Text.lowercase w = Text.asciiLowercase w := by
  obtain ⟨_, _, _, _, hw⟩ := isPlain_word_iff.mp h
  have hascii : ∀ c ∈ w.toList, c.toNat < 128 := fun c hc => by
    have := toNat_of_isInner (isInner_of_wordChar (hw c hc))
    omega
  rw [Text.lowercase, Text.lowerChars_of_ascii hascii, Text.asciiLowercase]

/-! ### Counting the rows of a table by its name -/

namespace OpenQuery

/-- The text that counts the rows of a table. -/
def countOf (name : String) : String := "SELECT COUNT(*) AS c FROM " ++ name

/-- The tokens in front of the name. -/
def countLead : List Token :=
  [.word "SELECT", .word "COUNT", .openParen, .star, .closeParen, .word "AS", .word "c",
    .word "FROM"]

theorem toList_append_of_spell {lead name : String} {ts : List Token}
    (h : lead.toList = spell ts ++ [' ']) :
    (lead ++ name).toList = spell ts ++ ' ' :: name.toList := by
  rw [String.toList_append, h, List.append_assoc, List.singleton_append]

theorem scan?_countOf {name : String} (h : (Token.word name).isPlain = true) :
    scan? (Text.collapse (countOf name)) = some (countLead ++ [.word name]) := by
  have hplain : ∀ t ∈ countLead, t.isPlain = true := by decide
  have htext : (countOf name).toList = spell countLead ++ ' ' :: name.toList :=
    toList_append_of_spell (by decide)
  have hname : Text.IsNeat name.toList := isNeat_text (.inl h : IsWritable true _) nofun
  have hlead : Text.IsNeat (spell countLead) := by
    refine isNeat_spell (List.cons_ne_nil _ _) fun t ht =>
      isNeat_text (.inl (hplain t ht) : IsWritable true t) ?_
    rintro s rfl
    simp [countLead] at ht
  have hneat : Text.IsNeat (countOf name).toList := htext ▸ hlead.spaced hname
  have hscan : scanFrom false name.toList = some [.word name] := by
    have hword := scanFrom_text (b := false) h (.inl breaks_nil)
    rw [List.append_nil] at hword
    exact hword.trans (congrArg _ (scanFrom_of_skip_nil rfl))
  rw [Text.collapse_of_isNeat hneat, scan?, htext, scanFrom_spell (breaks_cons (.inl rfl)) hplain,
    scanFrom_separator (by decide)]
  exact congrArg _ hscan

theorem ofTokens?_countOf {name : String} (h : (Token.word name).isAny reserved = false) :
    ofTokens? (countLead ++ [.word name]) =
      some ⟨.count "c", Text.lowercase name, none, [], .always, none, none, none⟩ := by
  have hclosed : Closed (·.is .from) countLead.tail.dropLast := ⟨by decide, by decide⟩
  have hselect : (Token.word "SELECT").is .select = true := by decide
  have hshown : breakTopLevel (·.is .from)
      (countLead.tail.dropLast ++ Token.word "FROM" :: [Token.word name]) =
      (countLead.tail.dropLast, [.word "FROM", .word name]) :=
    breakTopLevel_append_cons hclosed (by decide)
  exact ofTokens?_of_parts hselect hshown h rfl rfl

end OpenQuery

/-- A count over a table gives the number of rows that are found under its name. -/
theorem Document.execute_countOf (d : Document) {mode : Mode} {now name : String}
    {params : List Value} (hp : (Token.word name).isPlain = true)
    (hr : (Token.word name).isAny OpenQuery.reserved = false) :
    d.execute mode now (OpenQuery.countOf name) params =
      .ok ⟨[Query.countRow "c" (d.rows name).length], none⟩ := by
  have htrim : OpenStatement.trimSemicolons (OpenQuery.countLead ++ [.word name]) =
      OpenQuery.countLead ++ [.word name] :=
    OpenStatement.trimSemicolons_append (List.cons_ne_nil _ _) (by decide) [.word name]
  have hread := OpenQuery.ofTokens?_countOf hr
  rw [← htrim] at hread
  have hrows : d.rows (Text.lowercase name) = d.rows name := by
    rw [rows, lowercase_of_isPlain hp, Text.asciiLowercase_asciiLowercase, ← rows]
  have hq : Query.ofText (Text.collapse (OpenQuery.countOf name)) mode params =
      .ok (some ⟨.count "c", Text.lowercase name, none, [], [], none, none, none⟩) :=
    Query.ofText_of_scan (OpenQuery.scan?_countOf hp) hread
  have hall : ∀ rs : List Record, rs.filter (·.satisfies []) = rs := fun rs =>
    List.filter_eq_self.mpr fun _ _ => rfl
  rw [execute_of_query hq]
  simp only [Query.rows, Query.filtered, hrows, hall]

/-! ### Listed tables -/

namespace Document

variable {d : Document} {name : String} {n : Nat}

theorem mem_counts_iff :
    (name, n) ∈ d.counts ↔ ∃ rows, d.tables.get? name = some rows ∧ rows.length = n := by
  simp only [counts, List.mem_map, Prod.mk.injEq, ← Catalog.mem_entries_iff, Prod.exists]
  constructor
  · rintro ⟨_, rows, hmem, rfl, hlength⟩
    exact ⟨rows, hmem, hlength⟩
  · rintro ⟨rows, hmem, hlength⟩
    exact ⟨name, rows, hmem, rfl, hlength⟩

/-- Can a table of so many rows be read by a name? -/
structure Readable (d : Document) (name : String) (n : Nat) : Prop where
  there : d.hasTable name = true
  rows : (d.rows name).length = n
  counted : (Token.word name).isPlain = true → (Token.word name).isAny OpenQuery.reserved = false →
    ∀ mode now params, d.execute mode now ("SELECT COUNT(*) AS c FROM " ++ name) params =
      .ok ⟨[Query.countRow "c" n], none⟩

/-- A table is looked up in lower case: a name finds the one listed under the lower case name. -/
theorem readable_iff : d.Readable name n ↔ (Text.asciiLowercase name, n) ∈ d.counts := by
  have hthere : d.hasTable name = (d.tables.get? (Text.asciiLowercase name)).isSome :=
    d.tables.contains_eq_isSome _
  rw [mem_counts_iff]
  constructor
  · intro h
    obtain ⟨rows, hrows⟩ := Option.isSome_iff_exists.mp (hthere.symm.trans h.there)
    have hlength := h.rows
    rw [Document.rows, hrows] at hlength
    exact ⟨rows, hrows, hlength⟩
  · rintro ⟨rows, hrows, hlength⟩
    have hfound : d.rows name = rows := by rw [Document.rows, hrows, Option.getD_some]
    refine ⟨by rw [hthere, hrows]; rfl, by rw [hfound, hlength], fun hp hr mode now params => ?_⟩
    rw [← hlength, ← hfound]
    exact d.execute_countOf hp hr

/-- The tables beyond the closed set are arrays of objects of the loaded object. -/
theorem exists_member_of_get? (hname : isTableName name = false) {rows : List Record} :
    ∀ {members : List (String × Json)} {d : Document},
      (members.foldl addMember d).tables.get? name = some rows →
      d.tables.get? name = some rows ∨
        ∃ value, (name, value) ∈ members ∧ allRows? value = some rows
  | [], _, h => .inl h
  | m :: ms, d, h => by
    rw [List.foldl_cons] at h
    rcases exists_member_of_get? hname h with h | ⟨value, hmem, hvalue⟩
    · by_cases hm : m.1 = name
      · subst hm
        cases hrows : allRows? m.2 with
        | some found =>
          rw [addMember, hrows, Catalog.get?_put_self] at h
          exact .inr ⟨m.2, List.mem_cons_self, hrows.trans h⟩
        | none =>
          rw [addMember, hrows, hname] at h
          exact .inl h
      · exact .inl ((congrArg Prod.fst (under_addMember_of_ne hm)).symm.trans h)
    · exact .inr ⟨value, List.mem_cons_of_mem m hmem, hvalue⟩

theorem isTableName_of_capital (h : Text.asciiLowercase name ≠ name) :
    isTableName name = false := by
  refine List.any_eq_false.mpr fun t _ heq => h ?_
  rw [← eq_of_beq heq, t.asciiLowercase_name]

end Document

namespace Database

/-- An object is loaded and calls are made. A listed table is read by its name exactly if its lower
case name is listed with as many rows, so by every name without a capital letter. Under a name with
a capital letter there are the rows that were loaded, whatever calls were made. -/
theorem run_readable {members : List (String × Json)} {d : Document}
    (hd : Document.ofJson? (.object members) = some d) {mode : Mode} {calls : List Call}
    {name : String} {n : Nat} (h : (name, n) ∈ (run mode d calls).document.counts) :
    let after := (run mode d calls).document
    (after.Readable name n ↔ (Text.asciiLowercase name, n) ∈ after.counts) ∧
      (Text.asciiLowercase name = name → after.Readable name n) ∧
      (Text.asciiLowercase name ≠ name → ∃ value rows, (name, value) ∈ members ∧
        Document.allRows? value = some rows ∧ rows.length = n) := by
  intro after
  refine ⟨Document.readable_iff, fun hlow => Document.readable_iff.mpr (hlow.symm ▸ h), ?_⟩
  intro hcapital
  have hname := Document.isTableName_of_capital hcapital
  obtain ⟨rows, hrows, hlength⟩ := Document.mem_counts_iff.mp h
  have hintact := intact_foldl (Intact.inMemory mode d) calls
  have hloaded := (hintact.outside name hname).symm.trans hrows
  obtain rfl := Option.some.inj hd
  rw [Document.get?_ensureTables _ hname] at hloaded
  obtain hblank | ⟨value, hmem, hvalue⟩ := Document.exists_member_of_get? hname hloaded
  · cases hblank
  · exact ⟨value, rows, hmem, hvalue, hlength⟩

/-- An archive beside the tables is read by its name after a statement has emptied a table. -/
theorem run_readable_archive :
    let members : List (String × Json) :=
      [("leads", .array [.object [("id", .string "l1")]]),
        ("archive_2023", .array [.object [("id", .string "a1")], .object []])]
    let calls : List Call := [⟨.lenient, "2024-05-01", "DELETE FROM leads", []⟩]
    ∃ d, Document.ofJson? (.object members) = some d ∧
      ("archive_2023", 2) ∈ (run .lenient d calls).document.counts ∧
      (run .lenient d calls).document.Readable "archive_2023" 2 := by
  intro members calls
  let d := (members.foldl Document.addMember .blank).ensureTables
  have hd : Document.ofJson? (.object members) = some d := rfl
  have hlisted : ("archive_2023", 2) ∈ (run .lenient d calls).document.counts := by
    decide +kernel
  exact ⟨d, hd, hlisted, (run_readable hd hlisted).2.1 (by decide)⟩

/-- A table under a key with a capital letter is listed, and not found by its name. -/
theorem capital_not_found :
    ∃ d, Document.ofJson? (.object [("Invoices", .array [.object [("id", .string "i1")]])])
        = some d ∧
      let after := (run .lenient d []).document
      ("Invoices", 1) ∈ after.counts ∧ after.hasTable "Invoices" = false ∧
        after.rows "Invoices" = [] ∧
        after.execute .lenient "2024-05-01" "SELECT COUNT(*) AS c FROM Invoices" [] =
          .ok ⟨[Query.countRow "c" 0], none⟩ := by
  refine ⟨_, rfl, ?_⟩
  intro after
  have hrows : after.rows "Invoices" = [] := by decide +kernel
  have hcount : after.execute .lenient "2024-05-01" (OpenQuery.countOf "Invoices") [] =
      .ok ⟨[Query.countRow "c" (after.rows "Invoices").length], none⟩ :=
    after.execute_countOf (by decide) (by decide)
  rw [hrows] at hcount
  exact ⟨by decide +kernel, by decide +kernel, hrows, hcount⟩

end Database
end ClientRecords
