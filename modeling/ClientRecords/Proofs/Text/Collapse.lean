import ClientRecords.Text.Blank
/-!
The collapsing of blanks as one pass over a text: a run of blanks is remembered, and one space is
written for it as soon as a character follows that is no blank (`toList_collapse`).
-/

namespace ClientRecords.Text

variable {c d : Char} {cs ds : List Char} {pending : Bool}

/-- Blanks collapsed to single spaces; the first argument tells whether a space is owed for blanks
before the text. -/
def squeeze : Bool → List Char → List Char
  | _, [] => []
  | pending, c :: cs =>
    if isBlank c then squeeze true cs
    else (if pending then [' '] else []) ++ c :: squeeze false cs

/-- The words of a text that is going on, a space before each. -/
def spaced (ws : List (List Char)) : List Char := (ws.filter (!·.isEmpty)).flatMap (' ' :: ·)

theorem squeeze_blank (h : isBlank c = true) : squeeze pending (c :: cs) = squeeze true cs := by
  rw [squeeze, if_pos h]

theorem squeeze_false_cons (h : isBlank c = false) :
    squeeze false (c :: cs) = c :: squeeze false cs := by
  rw [squeeze, if_neg (by simp [h])]
  rfl

theorem squeeze_true_cons (h : isBlank c = false) :
    squeeze true (c :: cs) = ' ' :: c :: squeeze false cs := by
  rw [squeeze, if_neg (by simp [h])]
  rfl

/-- A space that is owed is written unless only blanks follow. -/
theorem squeeze_true_eq (cs : List Char) : squeeze true cs = [] ∧ trimLeft cs = [] ∨
    squeeze true cs = ' ' :: squeeze false (trimLeft cs) ∧ trimLeft cs ≠ [] := by
  induction cs with
  | nil => exact .inl ⟨rfl, rfl⟩
  | cons c cs ih =>
    cases h : isBlank c with
    | true => rwa [squeeze_blank h, trimLeft, List.dropWhile_cons_of_pos h]
    | false =>
      rw [squeeze_true_cons h, trimLeft, List.dropWhile_cons_of_neg (by simp [h]),
        squeeze_false_cons h]
      exact .inr ⟨rfl, List.cons_ne_nil _ _⟩

/-- What is left starts as the text does, or both stop at a blank or at their end. -/
theorem squeeze_false_cases (cs : List Char) :
    (∀ d ∈ cs.head?, isBlank d = true) ∧ (∀ d ∈ (squeeze false cs).head?, d = ' ') ∨
    ∃ d ds, cs = d :: ds ∧ isBlank d = false ∧ squeeze false cs = d :: squeeze false ds := by
  cases cs with
  | nil => exact .inl ⟨by simp, by simp [squeeze]⟩
  | cons c cs =>
    cases h : isBlank c with
    | true =>
      refine .inl ⟨by simp [h], ?_⟩
      rw [squeeze_blank h]
      rcases squeeze_true_eq cs with ⟨he, _⟩ | ⟨he, _⟩ <;> rw [he] <;> simp
    | false => exact .inr ⟨c, cs, rfl, h, squeeze_false_cons h⟩

theorem head?_squeeze_ne (hd : d ≠ ' ') (h : cs.head? ≠ some d) :
    (squeeze false cs).head? ≠ some d := by
  rcases squeeze_false_cases cs with ⟨_, hs⟩ | ⟨e, ds, rfl, _, he⟩
  · exact fun hc => hd (hs d hc)
  · rwa [he]

theorem eq_space_or_not_blank : ∀ {pending : Bool} {cs : List Char},
    c ∈ squeeze pending cs → c = ' ' ∨ isBlank c = false
  | _, [], h => by cases h
  | pending, d :: cs, h => by
    cases hd : isBlank d with
    | true => rw [squeeze_blank hd] at h; exact eq_space_or_not_blank h
    | false =>
      rw [squeeze, if_neg (by simp [hd])] at h
      rcases List.mem_append.mp h with h | h
      · cases pending with
        | true => exact .inl (List.mem_singleton.mp h)
        | false => cases h
      · rcases List.mem_cons.mp h with rfl | h
        · exact .inr hd
        · exact eq_space_or_not_blank h

/-! ### Blanks before a character that is none -/

/-- Blanks collapsed in a text that goes on behind its end. -/
def within : Bool → List Char → List Char
  | pending, [] => if pending then [' '] else []
  | pending, c :: cs =>
    if isBlank c then within true cs
    else (if pending then [' '] else []) ++ c :: within false cs

theorem within_blank (h : isBlank c = true) : within pending (c :: cs) = within true cs := by
  rw [within, if_pos h]

theorem within_of_not_blank (h : isBlank c = false) :
    within pending (c :: cs) = (if pending then [' '] else []) ++ c :: within false cs := by
  rw [within, if_neg (by simp [h])]

theorem squeeze_append_cons (hd : isBlank d = false) : ∀ {pending : Bool} {cs : List Char},
    squeeze pending (cs ++ d :: ds) = within pending cs ++ d :: squeeze false ds
  | pending, [] => by rw [List.nil_append, squeeze, if_neg (by simp [hd]), within]
  | pending, c :: cs => by
    cases hc : isBlank c with
    | true => rw [List.cons_append, squeeze_blank hc, squeeze_append_cons hd, within_blank hc]
    | false =>
      rw [List.cons_append, squeeze, if_neg (by simp [hc]), squeeze_append_cons hd,
        within_of_not_blank hc]
      simp

theorem length_within_le : ∀ {pending : Bool} {cs : List Char},
    (within pending cs).length ≤ cs.length + pending.toNat
  | false, [] => Nat.le_refl _
  | true, [] => Nat.le_refl _
  | pending, c :: cs => by
    cases hc : isBlank c with
    | true =>
      have hl : (within true cs).length ≤ cs.length + 1 := length_within_le
      rw [within_blank hc, List.length_cons]
      omega
    | false =>
      have hl : (within false cs).length ≤ cs.length := length_within_le
      rw [within_of_not_blank hc]
      cases pending <;> simp <;> omega

theorem mem_within : ∀ {pending : Bool} {cs : List Char},
    c ∈ within pending cs → c = ' ' ∨ c ∈ cs
  | false, [], h => by cases h
  | true, [], h => .inl (List.mem_singleton.mp h)
  | pending, d :: cs, h => by
    cases hd : isBlank d with
    | true =>
      rw [within_blank hd] at h
      exact (mem_within h).imp_right (List.mem_cons_of_mem _)
    | false =>
      rw [within_of_not_blank hd] at h
      rcases List.mem_append.mp h with h | h
      · cases pending with
        | true => exact .inl (List.mem_singleton.mp h)
        | false => cases h
      · rcases List.mem_cons.mp h with rfl | h
        · exact .inr List.mem_cons_self
        · exact (mem_within h).imp_right (List.mem_cons_of_mem _)

/-- Are the blanks of a text that goes on with a character of its own single spaces? -/
def isTidy : List Char → Bool
  | [] => true
  | c :: cs => isTidy cs && (!isBlank c || c == ' ' && !cs.head?.any isBlank)

/-- A quoted text is kept only if its blanks are single spaces. -/
theorem within_eq_self_iff : ∀ {cs : List Char}, within false cs = cs ↔ isTidy cs = true
  | [] => by simp [within, isTidy]
  | c :: cs => by
    cases hc : isBlank c with
    | false => simpa [within_of_not_blank hc, isTidy, hc] using within_eq_self_iff
    | true =>
      rw [within_blank hc, isTidy]
      cases cs with
      | nil =>
        have hw : within true [] = [' '] := rfl
        rw [hw]
        simp [isTidy, hc, eq_comm (a := ' ')]
      | cons d ds =>
        cases hd : isBlank d with
        | true =>
          have hl : (within true ds).length ≤ ds.length + 1 := length_within_le
          have hne : within true ds ≠ c :: d :: ds := fun he => by
            rw [he] at hl
            exact absurd hl (by simp)
          simp [within_blank hd, hc, hd, hne]
        | false =>
          have ih : within false (d :: ds) = d :: ds ↔ isTidy (d :: ds) = true := within_eq_self_iff
          rw [within_of_not_blank hd] at ih ⊢
          simp only [isTidy, hc, hd] at ih ⊢
          simp at ih ⊢
          simp [ih, hd, eq_comm (a := ' '), and_comm]

theorem squeeze_spaced (cs : List Char) : ∃ w ws, pieces cs = w :: ws ∧
    squeeze false cs = w ++ spaced ws ∧ squeeze true cs = spaced (w :: ws) := by
  induction cs with
  | nil => exact ⟨[], [], rfl, rfl, rfl⟩
  | cons c cs ih =>
    obtain ⟨w, ws, hp, hf, ht⟩ := ih
    cases h : isBlank c with
    | true =>
      refine ⟨[], w :: ws, by rw [pieces, if_pos h, hp], ?_, ?_⟩ <;> rw [squeeze_blank h, ht]
      · rfl
      · simp [spaced]
    | false =>
      refine ⟨c :: w, ws, by rw [pieces, if_neg (by simp [h]), hp]; rfl, ?_, ?_⟩
      · rw [squeeze_false_cons h, hf]; rfl
      · rw [squeeze_true_cons h, hf]; simp [spaced]

theorem words_trimLeft (cs : List Char) : words (trimLeft cs) = words cs := by
  induction cs with
  | nil => rfl
  | cons c cs ih =>
    cases h : isBlank c with
    | true =>
      rw [trimLeft, List.dropWhile_cons_of_pos h, words, words, pieces, if_pos h]
      exact ih
    | false => rw [trimLeft, List.dropWhile_cons_of_neg (by simp [h])]

theorem intercalate_space (w : List Char) (ws : List (List Char)) :
    List.intercalate [' '] (w :: ws) = w ++ ws.flatMap (' ' :: ·) := by
  induction ws generalizing w with
  | nil => simp [List.intercalate]
  | cons v ws ih =>
    have hj : List.intercalate [' '] (w :: v :: ws)
        = w ++ ' ' :: List.intercalate [' '] (v :: ws) := by simp
    rw [hj, ih, List.flatMap_cons]
    rfl

/-- Collapsing is one pass over the text without the blanks at its start. -/
theorem toList_collapse (s : String) : (collapse s).toList = squeeze false (trimLeft s.toList) := by
  rw [collapse, String.toList_ofList, ← words_trimLeft]
  cases h : trimLeft s.toList with
  | nil => rfl
  | cons c cs =>
    have hc : isBlank c = false := by
      have := List.head?_dropWhile_not isBlank s.toList
      rw [trimLeft] at h
      rw [h] at this
      simpa using this
    obtain ⟨w, ws, hp, hf, _⟩ := squeeze_spaced cs
    rw [words, pieces, if_neg (by simp [hc]), hp, consWord, squeeze_false_cons hc, hf,
      List.filter_cons_of_pos (by simp), intercalate_space]
    rfl

/-! ### Texts with a blank between them -/

theorem pieces_ne_nil (cs : List Char) : pieces cs ≠ [] := by
  cases cs with
  | nil => exact List.cons_ne_nil _ _
  | cons c cs =>
    rw [pieces]
    split
    · exact List.cons_ne_nil _ _
    · cases pieces cs <;> exact List.cons_ne_nil _ _

theorem pieces_append (h : isBlank c = true) : ∀ cs : List Char,
    pieces (cs ++ c :: ds) = pieces cs ++ pieces ds
  | [] => if_pos h
  | d :: cs => by
    rw [List.cons_append, pieces, pieces, pieces_append h cs]
    split
    · rfl
    · cases hp : pieces cs with
      | nil => exact absurd hp (pieces_ne_nil cs)
      | cons => rfl

theorem words_append (h : isBlank c = true) (cs ds : List Char) :
    words (cs ++ c :: ds) = words cs ++ words ds := by
  rw [words, pieces_append h, List.filter_append]
  rfl

/-- Texts that are more than blanks are collapsed each for itself. -/
theorem collapse_append {s t : String} (hs : collapse s ≠ "") (ht : collapse t ≠ "") :
    collapse (s ++ " " ++ t) = collapse s ++ " " ++ collapse t := by
  have hwords : ∀ {r : String}, collapse r ≠ "" → words r.toList ≠ [] := by
    intro r hr hw
    exact hr (by rw [collapse, hw]; rfl)
  obtain ⟨v, vs, hv⟩ := List.exists_cons_of_ne_nil (hwords hs)
  obtain ⟨w, ws, hw⟩ := List.exists_cons_of_ne_nil (hwords ht)
  have hlist : (s ++ " " ++ t).toList = s.toList ++ ' ' :: t.toList := by simp
  rw [← String.toList_inj, collapse, hlist, words_append (by decide), hv, hw, List.cons_append,
    collapse, collapse, hv, hw, intercalate_space]
  simp [intercalate_space]

end ClientRecords.Text
