import ClientRecords.Proofs.Token.Collapsed
import ClientRecords.Proofs.Token.Spelling
/-!
Texts that collapsing leaves alone: no blank stands at their ends, and the blanks within them are
single spaces. Texts of this kind put together, with or without a space between them, are of this
kind again.
-/

namespace ClientRecords.Text

variable {c : Char} {as bs cs : List Char}

theorem isTidy_append
    (h : (∀ c ∈ as.getLast?, isBlank c = false) ∨ ∀ c ∈ bs.head?, isBlank c = false) :
    isTidy (as ++ bs) = (isTidy as && isTidy bs) := by
  induction as with
  | nil => simp [isTidy]
  | cons c as ih =>
    cases as with
    | nil =>
      rcases h with h | h
      · simp [isTidy, h c rfl]
      · cases bs with
        | nil => simp [isTidy]
        | cons d bs => simp [isTidy, h d rfl, Bool.and_comm]
    | cons d as =>
      have hrest := ih (h.imp_left fun h e he => h e (by simpa using he))
      simp only [List.cons_append, isTidy, List.head?_cons] at hrest ⊢
      rw [hrest]
      simp only [Bool.and_left_comm, Bool.and_comm]

/-- Neither end of a text is blank, and the blanks within it are single spaces. -/
structure IsNeat (cs : List Char) : Prop where
  tidy : isTidy cs = true
  first : ∃ c ∈ cs.head?, isBlank c = false
  last : ∃ c ∈ cs.getLast?, isBlank c = false

namespace IsNeat

theorem not_blank_of_head? (h : IsNeat cs) : ∀ c ∈ cs.head?, isBlank c = false := by
  obtain ⟨d, hd, hb⟩ := h.first
  intro c hc
  rw [Option.mem_unique hc hd]
  exact hb

theorem not_blank_of_getLast? (h : IsNeat cs) : ∀ c ∈ cs.getLast?, isBlank c = false := by
  obtain ⟨d, hd, hb⟩ := h.last
  intro c hc
  rw [Option.mem_unique hc hd]
  exact hb

theorem append (ha : IsNeat as) (hb : IsNeat bs) : IsNeat (as ++ bs) := by
  obtain ⟨c, hc, hcb⟩ := ha.first
  obtain ⟨d, hd, hdb⟩ := hb.last
  refine ⟨?_, ⟨c, ?_, hcb⟩, ⟨d, ?_, hdb⟩⟩
  · rw [isTidy_append (.inl ha.not_blank_of_getLast?), ha.tidy, hb.tidy, Bool.and_self]
  · rw [List.head?_append, Option.mem_def.mp hc]
    rfl
  · rw [List.getLast?_append, Option.mem_def.mp hd]
    rfl

theorem spaced (ha : IsNeat as) (hb : IsNeat bs) : IsNeat (as ++ ' ' :: bs) := by
  obtain ⟨c, hc, hcb⟩ := ha.first
  obtain ⟨d, hd, hdb⟩ := hb.last
  have hspace : isTidy (' ' :: bs) = true := by
    have hhead : bs.head?.any isBlank = false := by
      rw [Option.any_eq_false]
      simpa using hb.not_blank_of_head?
    rw [isTidy, hb.tidy, hhead]
    decide
  refine ⟨?_, ⟨c, ?_, hcb⟩, ⟨d, ?_, hdb⟩⟩
  · rw [isTidy_append (.inl ha.not_blank_of_getLast?), ha.tidy, hspace, Bool.and_self]
  · rw [List.head?_append, Option.mem_def.mp hc]
    rfl
  · rw [List.getLast?_append, List.getLast?_cons, Option.mem_def.mp hd]
    rfl

/-- A text without blanks is neat. -/
theorem of_not_blank (hne : cs ≠ []) (h : cs.any isBlank = false) : IsNeat cs := by
  replace h : ∀ c ∈ cs, isBlank c = false := fun c hc => by
    simpa using List.any_eq_false.mp h c hc
  refine ⟨?_, ⟨cs.head hne, List.head?_eq_some_head hne, h _ (List.head_mem hne)⟩,
    ⟨cs.getLast hne, List.getLast?_eq_some_getLast hne, h _ (List.getLast_mem hne)⟩⟩
  clear hne
  induction cs with
  | nil => rfl
  | cons c cs ih =>
    rw [isTidy, ih fun d hd => h d (List.mem_cons_of_mem c hd), h c List.mem_cons_self]
    rfl

/-- A text between two marks needs no care at its ends. -/
theorem between (hc : isBlank c = false) (h : isTidy cs = true) : IsNeat (c :: (cs ++ [c])) := by
  have hmark : isTidy [c] = true := by simp [isTidy, hc]
  refine ⟨?_, ⟨c, rfl, hc⟩, ⟨c, by rw [← List.cons_append, List.getLast?_concat]; rfl, hc⟩⟩
  rw [isTidy, isTidy_append (.inr (by simpa using hc)), h, hmark, hc]
  rfl

end IsNeat

/-- A neat text is collapsed already. -/
theorem collapse_of_isNeat {s : String} (h : IsNeat s.toList) : collapse s = s := by
  obtain ⟨d, hd, hb⟩ := h.last
  obtain ⟨init, hinit⟩ := List.getLast?_eq_some_iff.mp hd
  have htrim : trimLeft s.toList = s.toList := by
    cases hs : s.toList with
    | nil => rfl
    | cons c cs =>
      have hc : isBlank c = false := h.not_blank_of_head? c (by rw [hs]; rfl)
      rw [trimLeft, List.dropWhile_cons_of_neg (by simp [hc])]
  have htidy : within false init = init := by
    have ht := h.tidy
    rw [hinit, isTidy_append (.inr (by simpa using hb)), Bool.and_eq_true_iff] at ht
    exact within_eq_self_iff.mpr ht.1
  have hsqueeze : squeeze false s.toList = s.toList := by
    rw [hinit, squeeze_append_cons hb, htidy]
    rfl
  rw [← String.toList_inj, toList_collapse, htrim, hsqueeze]

/-- Behind a neat text the blanks collapse as they do behind a blank. -/
theorem squeeze_append_of_isNeat (h : IsNeat as) :
    squeeze true (as ++ ' ' :: cs) = ' ' :: (as ++ squeeze true cs) := by
  obtain ⟨d, hd, hb⟩ := h.last
  obtain ⟨init, rfl⟩ := List.getLast?_eq_some_iff.mp hd
  have htidy : isTidy init = true := by
    have ht := h.tidy
    rw [isTidy_append (.inr (by simpa using hb)), Bool.and_eq_true_iff] at ht
    exact ht.1
  have hwithin : within true init = ' ' :: init := by
    cases init with
    | nil => rfl
    | cons c cs =>
      have hc : isBlank c = false := h.not_blank_of_head? c rfl
      have hrest := within_eq_self_iff.mpr htidy
      rw [within_of_not_blank hc] at hrest ⊢
      exact congrArg _ hrest
  rw [List.append_assoc, List.singleton_append, squeeze_append_cons hb, hwithin,
    squeeze_blank (by decide)]
  simp

end ClientRecords.Text

/-! ### Tokens -/

namespace ClientRecords.Token

open Text

variable {b : Bool} {t : Token} {ts : List Token}

theorem isNeat_quoted {s : String} (h : isTidy s.toList = true) : IsNeat (quoted s).toList := by
  have hdoubled : isTidy (doubled s.toList) = true := by
    rw [← within_eq_self_iff] at h ⊢
    rw [within_doubled, h]
  rw [toList_quoted]
  exact .between (by decide) hdoubled

/-- The text of a token is neat, if it is no string with other blanks than single spaces. -/
theorem isNeat_text (ht : IsWritable b t) (hs : ∀ s, t = .string s → isTidy s.toList = true) :
    IsNeat t.text.toList := by
  rcases ht with ht | ⟨-, ds, rfl, -, hd⟩
  · cases t with
    | word w =>
      obtain ⟨c, cs, he, -, hw⟩ := isPlain_word_iff.mp ht
      exact .of_not_blank (by rw [text, he]; simp) (List.any_eq_false.mpr fun d hd => by
        rw [not_blank_of_wordChar (hw d hd)]
        decide)
    | number n =>
      obtain ⟨hne, hall⟩ := Bool.and_eq_true_iff.mp ht
      exact .of_not_blank (by simpa [text] using hne) (List.any_eq_false.mpr fun d hd => by
        rw [not_blank_of_digit (List.all_eq_true.mp hall d hd)]
        decide)
    | string s => exact isNeat_quoted (hs s rfl)
    | comparison op => cases op <;> exact .of_not_blank (by decide) (by decide)
    | placeholder | openParen | closeParen | comma | star | semicolon =>
      exact .of_not_blank (by decide) (by decide)
    | other c => cases ht
  · rw [text, String.toList_ofList]
    refine .of_not_blank (List.cons_ne_nil _ _) (List.any_eq_false.mpr fun d hmem => ?_)
    rcases List.mem_cons.mp hmem with rfl | hmem
    · decide
    · rw [not_blank_of_digit (hd d hmem)]
      decide

theorem isNeat_append_spellAfter : ∀ {ts : List Token} {cs : List Char} (before : Token),
    IsNeat cs → (∀ t ∈ ts, IsNeat t.text.toList) → IsNeat (cs ++ spellAfter before ts)
  | [], cs, _, h, _ => by rwa [spellAfter_nil, List.append_nil]
  | t :: ts, cs, before, h, ht => by
    have hrest : IsNeat (t.text.toList ++ spellAfter t ts) :=
      isNeat_append_spellAfter t (ht t List.mem_cons_self) fun u hu =>
        ht u (List.mem_cons_of_mem t hu)
    rw [spellAfter_cons]
    split
    · exact h.append hrest
    · exact h.spaced hrest

theorem isNeat_spell (hne : ts ≠ []) (h : ∀ t ∈ ts, IsNeat t.text.toList) : IsNeat (spell ts) := by
  obtain ⟨t, ts, rfl⟩ := List.exists_cons_of_ne_nil hne
  exact isNeat_append_spellAfter t (h t List.mem_cons_self) fun u hu =>
    h u (List.mem_cons_of_mem t hu)

/-- A text that is spelled from plain tokens, strings apart, is collapsed already. -/
theorem collapse_of_spell {s : String} (hs : s.toList = spell ts) (hne : ts ≠ [])
    (hp : ∀ t ∈ ts, t.isPlain = true) (hq : ∀ t ∈ ts, ∀ w, t ≠ .string w) : collapse s = s := by
  refine collapse_of_isNeat (hs ▸ isNeat_spell hne fun t ht => ?_)
  exact isNeat_text (.inl (hp t ht) : IsWritable true t) fun w hw => absurd hw (hq t ht w)

/-- Plain words in front of a text are scanned as they stand, and what follows them as it is behind
a blank. -/
theorem scan?_collapse_spell {s : String} {rest : List Char}
    (hs : s.toList = spell ts ++ ' ' :: rest) (hp : ∀ t ∈ ts, t.isPlain = true)
    (hn : IsNeat (spell ts)) : scan? (collapse s) =
      (scanFrom (operandAfter true ts) (squeeze true rest)).map (ts ++ ·) := by
  have hbreaks : Breaks (squeeze true rest) := by
    rcases squeeze_true_eq rest with ⟨he, _⟩ | ⟨he, _⟩ <;> rw [he]
    · exact breaks_nil
    · exact breaks_cons (.inl rfl)
  rw [scan?, scanFrom_collapse, hs, squeeze_append_of_isNeat hn, scanFrom_separator (by decide),
    scanFrom_spell hbreaks hp]

end ClientRecords.Token
