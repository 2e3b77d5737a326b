import ClientRecords.Proofs.Query.Written
/-!
Written names are scanned as single words, stand for no keyword, and come back without their
qualifier.
-/

namespace ClientRecords

open Token

/-- The spelling of a keyword has no point in it. -/
theorem Token.is_of_point {w : String} (h : '.' ∈ w.toList) (k : Keyword) :
    (Token.word w).is k = false := by
  refine Bool.eq_false_iff.mpr fun hk => ?_
  have hw : Text.asciiLowercase w = k.spelling := by simpa [Token.is] using hk
  have hmem : '.' ∈ (Text.asciiLowercase w).toList := by
    rw [Text.asciiLowercase, String.toList_ofList]
    exact List.mem_map.mpr ⟨'.', h, by decide⟩
  rw [hw] at hmem
  revert hmem
  cases k <;> decide

theorem Token.isAny_eq_false {ks : List Keyword} {t : Token} :
    t.isAny ks = false ↔ ∀ k ∈ ks, t.is k = false := by
  rw [isAny, List.any_eq_false]
  simp

/-- What stands behind the last point of a word. -/
theorem Token.bareField_of_append {w : String} {pre cs : List Char} (hw : w.toList = pre ++ cs)
    (hc : '.' ∉ cs) (hp : pre = [] ∨ ∃ q, pre = q ++ ['.']) : bareField w = String.ofList cs := by
  have hall : ∀ c ∈ cs.reverse, (c != '.') = true := by
    intro c hmem
    have hne : c ≠ '.' := by rintro rfl; exact hc (List.mem_reverse.mp hmem)
    simpa using hne
  have htake : pre.reverse.takeWhile (· != '.') = [] := by
    rcases hp with rfl | ⟨q, rfl⟩
    · rfl
    · rw [List.reverse_append, List.reverse_singleton, List.singleton_append,
        List.takeWhile_cons_of_neg (by simp)]
  rw [bareField, hw, List.reverse_append, List.takeWhile_append_of_pos hall, htake, List.append_nil,
    List.reverse_reverse]

theorem Text.toLower_of_not_isUpper {c : Char} (h : c.isUpper = false) : c.toLower = c := by
  unfold Char.isUpper at h
  unfold Char.toLower
  rw [dif_neg (by simpa using h)]

theorem Text.lowerChars_of_lower {cs : List Char}
    (h : ∀ c ∈ cs, c.toNat < 128 ∧ c.isUpper = false) :
    ∀ before : List Char, lowerChars before cs = cs := by
  induction cs with
  | nil => exact fun _ => rfl
  | cons c cs ih =>
    intro before
    obtain ⟨hn, hu⟩ := h c List.mem_cons_self
    rw [lowerChars, lowerChar, if_pos hn, toLower_of_not_isUpper hu,
      ih fun d hd => h d (List.mem_cons_of_mem _ hd)]
    rfl

namespace Written

variable {k : Keyword}

theorem Name.is_eq_false (n : Name) (h : k ∈ keywords) : n.token.is k = false :=
  isAny_eq_false.mp n.free k h

theorem Name.isWordChar (n : Name) : ∀ c ∈ n.text.toList, isWordChar c = true := by
  obtain ⟨_, _, _, _, h⟩ := isPlain_word_iff.mp n.plain
  exact h

theorem Field.is_eq_false (f : Field) (h : k ∈ keywords) : f.token.is k = false := by
  obtain ⟨qualifier, name⟩ := f
  cases qualifier with
  | none => exact name.is_eq_false h
  | some q => exact is_of_point (by simp [word]) k

theorem Field.isPlain (f : Field) : f.token.isPlain = true := by
  obtain ⟨qualifier, name⟩ := f
  cases qualifier with
  | none => exact name.plain
  | some q =>
    obtain ⟨c, cs, he, hd, _⟩ := isPlain_word_iff.mp q.plain
    have hw : (q.text ++ "." ++ name.text).toList = q.text.toList ++ '.' :: name.text.toList := by
      simp
    refine isPlain_word_iff.mpr ⟨c, cs ++ '.' :: name.text.toList, ?_, hd, ?_⟩
    · rw [word, hw, he]
      rfl
    · intro d hmem
      rw [word, hw] at hmem
      rcases List.mem_append.mp hmem with hmem | hmem
      · exact q.isWordChar d hmem
      · rcases List.mem_cons.mp hmem with rfl | hmem
        · decide
        · exact name.isWordChar d hmem

theorem Field.bareField_word (f : Field) : bareField f.word = f.name.text := by
  obtain ⟨qualifier, name⟩ := f
  cases qualifier with
  | none => exact (bareField_of_append rfl name.bare (.inl rfl)).trans String.ofList_toList
  | some q =>
    have hw : (q.text ++ "." ++ name.text).toList
        = (q.text.toList ++ ['.']) ++ name.text.toList := by simp
    exact (bareField_of_append hw name.bare (.inr ⟨_, rfl⟩)).trans String.ofList_toList

theorem Field.field? (f : Field) : f.token.field? = some f.name.text := by
  have hnone : f.token.literal? = none := by
    have hword : f.token.literal? = if f.token.is .null then some .null
        else if f.token.is .true then some (.bool Bool.true)
        else if f.token.is .false then some (.bool Bool.false) else none := rfl
    rw [hword, f.is_eq_false (by decide), f.is_eq_false (by decide), f.is_eq_false (by decide)]
    rfl
  rw [token, Token.field?, ← token, hnone, f.bareField_word]
  rfl

theorem TableName.lowercase (t : TableName) : Text.lowercase t.name.text = t.name.text := by
  have hchars : ∀ c ∈ t.name.text.toList, c.toNat < 128 ∧ c.isUpper = false := fun c hc =>
    ⟨by have := toNat_of_isInner (isInner_of_wordChar (t.name.isWordChar c hc)); omega,
      Bool.eq_false_iff.mpr (List.any_eq_false.mp t.lower c hc)⟩
  rw [Text.lowercase, Text.lowerChars_of_lower hchars, String.ofList_toList]

end Written
end ClientRecords
