import ClientRecords.Proofs.Token.Scan
/-!
What a token without quotes can see of the text behind it. It goes on over its own characters only
(`isInner`), so it stays the same when the text behind it is changed in a way that keeps these
characters and puts none of them where none stood (`KeepsInner`, `take?_of_keepsInner`).
-/

namespace ClientRecords.Token

variable {f : List Char → List Char} {p : Char → Bool} {b : Bool} {c : Char} {cs : List Char}

/-! ### Texts that a token stops at -/

theorem takeWord_of_stop (h : ∀ c ∈ cs.head?, isWordChar c = false) : takeWord cs = ([], cs) := by
  cases cs with
  | nil => rfl
  | cons c cs => exact takeWord_of_not (h c rfl)

theorem takeWhile_of_stop (h : ∀ c ∈ cs.head?, p c = false) :
    cs.takeWhile p = [] ∧ cs.dropWhile p = cs := by
  cases cs with
  | nil => exact ⟨rfl, rfl⟩
  | cons c cs =>
    have hc : ¬p c = true := by simp [h c rfl]
    exact ⟨List.takeWhile_cons_of_neg hc, List.dropWhile_cons_of_neg hc⟩

theorem startsDigit_of_stop (h : ∀ c ∈ cs.head?, c.isDigit = false) : startsDigit cs = false := by
  cases cs with
  | nil => rfl
  | cons c cs => exact h c rfl

/-! ### Changes that are not noticed -/

/-- A way to change a text from any place on that tokens without quotes do not notice. -/
structure KeepsInner (f : List Char → List Char) : Prop where
  cons : ∀ {c cs}, isInner c = true → f (c :: cs) = c :: f cs
  stop : ∀ {cs}, (∀ c ∈ cs.head?, isInner c = false) → ∀ c ∈ (f cs).head?, isInner c = false

namespace KeepsInner

/-- No character of a token starts the changed text unless it starts the text. -/
theorem head? (hf : KeepsInner f) (hp : ∀ {c}, p c = true → isInner c = true)
    (h : ∀ c ∈ cs.head?, p c = false) : ∀ c ∈ (f cs).head?, p c = false := by
  have hnot : ∀ {c}, isInner c = false → p c = false := fun hi =>
    Bool.eq_false_iff.mpr fun hpc => by
      rw [hp hpc] at hi
      cases hi
  cases cs with
  | nil =>
    have hstop : ∀ c ∈ (f []).head?, isInner c = false := hf.stop nofun
    exact fun c hc => hnot (hstop c hc)
  | cons d cs =>
    cases hd : isInner d with
    | true =>
      rw [hf.cons hd]
      exact h
    | false => exact fun c hc => hnot (hf.stop (by simpa using hd) c hc)

theorem head?_ne (hf : KeepsInner f) (hc : isInner c = true) (h : cs.head? ≠ some c) :
    (f cs).head? ≠ some c := by
  have hp : ∀ {d}, (d == c) = true → isInner d = true := fun hd => beq_iff_eq.mp hd ▸ hc
  have hcs : ∀ d ∈ cs.head?, (d == c) = false := fun d hd =>
    beq_false_of_ne fun he => h (he ▸ hd)
  intro hd
  exact absurd (hf.head? hp hcs c hd) (by simp)

theorem ne_cons (hf : KeepsInner f) (hc : isInner c = true) (h : ∀ r, cs = c :: r → False) :
    ∀ r, f cs = c :: r → False :=
  fun _ hr => hf.head?_ne hc (head?_ne_of_ne_cons h) (hr ▸ rfl)

theorem startsDigit_eq (hf : KeepsInner f) (cs : List Char) :
    startsDigit (f cs) = startsDigit cs := by
  cases cs with
  | nil => exact startsDigit_of_stop (hf.head? isInner_of_digit nofun)
  | cons c cs =>
    cases hd : c.isDigit with
    | true =>
      rw [hf.cons (isInner_of_digit hd)]
      rfl
    | false =>
      have hstop : ∀ d ∈ (c :: cs).head?, d.isDigit = false := by simpa using hd
      rw [startsDigit_of_stop hstop, startsDigit_of_stop (hf.head? isInner_of_digit hstop)]

theorem takeWord_eq (hf : KeepsInner f) (cs : List Char) :
    takeWord (f cs) = ((takeWord cs).1, f (takeWord cs).2) := by
  fun_induction takeWord cs with
  | case1 cs => rw [hf.cons (by decide), hf.cons (by decide), takeWord]
  | case2 c cs hd hw w rest he ih =>
    rw [hf.cons (isInner_of_wordChar hw), takeWord_cons hw, ih, he]
    exact fun hc => hf.head?_ne (by decide) (head?_ne_of_ne_cons fun r hr => hd r hc hr)
  | case3 c cs _ hw => exact takeWord_of_stop (hf.head? isInner_of_wordChar (by simpa using hw))
  | case4 => exact takeWord_of_stop (hf.head? isInner_of_wordChar (by simp))

theorem takeWhile_digit (hf : KeepsInner f) (cs : List Char) :
    (f cs).takeWhile Char.isDigit = cs.takeWhile Char.isDigit ∧
      (f cs).dropWhile Char.isDigit = f (cs.dropWhile Char.isDigit) := by
  induction cs with
  | nil => exact takeWhile_of_stop (hf.head? isInner_of_digit (by simp))
  | cons c cs ih =>
    cases hd : c.isDigit with
    | true =>
      rw [hf.cons (isInner_of_digit hd), List.takeWhile_cons_of_pos hd,
        List.takeWhile_cons_of_pos hd, List.dropWhile_cons_of_pos hd,
        List.dropWhile_cons_of_pos hd, ih.1]
      exact ⟨rfl, ih.2⟩
    | false =>
      have hn : ¬c.isDigit = true := by simp [hd]
      rw [List.takeWhile_cons_of_neg hn, List.dropWhile_cons_of_neg hn]
      exact takeWhile_of_stop (hf.head? isInner_of_digit (by simpa using hd))

theorem takeNumber_eq (hf : KeepsInner f) (cs : List Char) :
    takeNumber (f cs) = ((takeNumber cs).1, f (takeNumber cs).2) := by
  obtain ⟨ht, hd⟩ := hf.takeWhile_digit cs
  by_cases hp : (cs.dropWhile Char.isDigit).head? = some '.'
  · obtain ⟨rest, hr⟩ := List.head?_eq_some_iff.mp hp
    obtain ⟨hrt, hrd⟩ := hf.takeWhile_digit rest
    rw [hr, hf.cons (by decide)] at hd
    rw [takeNumber_of_point hr, takeNumber_of_point hd, hf.startsDigit_eq, ht, hrt, hrd]
    split
    · rfl
    · rw [hf.cons (by decide)]
  · rw [takeNumber_of_no_point hp, takeNumber_of_no_point, ht, hd]
    rw [hd]
    exact hf.head?_ne (by decide) hp

theorem takePlain_eq (hf : KeepsInner f) (c : Char) (cs : List Char) :
    takePlain (c :: f cs) = (takePlain (c :: cs)).map fun (t, rest) => (t, f rest) := by
  generalize hx : c :: cs = x
  fun_cases takePlain x with
  | case1 => cases hx
  | case2 cs =>
    cases hx
    rw [hf.cons (by decide), takePlain, ← hf.cons (by decide)]
    rfl
  | case3 c cs hp hd n rest hn =>
    cases hx
    rw [takePlain, if_pos hd, ← hf.cons (isInner_of_digit hd), hf.takeNumber_eq, hn]
    · rfl
    · exact fun r hc hr => hf.ne_cons (by decide) (fun r => hp r hc) r hr
  | case4 c cs hp hd hw w rest hn =>
    cases hx
    rw [takePlain, if_neg hd, if_pos hw, hf.takeWord_eq, hn]
    · rfl
    · exact fun r hc hr => hf.ne_cons (by decide) (fun r => hp r hc) r hr
  | case5 c cs hp hd hw =>
    cases hx
    rw [takePlain, if_neg hd, if_neg hw]
    · rfl
    · exact fun r hc hr => hf.ne_cons (by decide) (fun r => hp r hc) r hr

end KeepsInner

/-- A token without quotes is the same when the text behind it is changed without notice. -/
theorem take?_of_keepsInner (hf : KeepsInner f) (hq : isQuote c = false) (cs : List Char) :
    take? b (c :: f cs) = (take? b (c :: cs)).map fun (t, rest) => (t, f rest) := by
  generalize hx : c :: cs = x
  fun_cases take? b x
  case case1 | case2 | case3 => cases hx; exact absurd hq (by decide)
  case case5 | case6 | case7 | case9 | case11 =>
    cases hx
    rw [hf.cons (by decide), take?]
    rfl
  case case8 cs hle hne =>
    cases hx
    rw [take?]
    · rfl
    · exact hf.ne_cons (by decide) hle
    · exact hf.ne_cons (by decide) hne
  case case10 cs he | case12 cs he =>
    cases hx
    rw [take?]
    · rfl
    · exact hf.ne_cons (by decide) he
  case case18 cs hs n rest hn =>
    cases hx
    rw [take?, hf.startsDigit_eq, if_pos hs, hf.takeNumber_eq, hn]
    rfl
  case case19 cs hs =>
    cases hx
    rw [take?, hf.startsDigit_eq, if_neg hs]
    rfl
  case case20 hbang _ _ _ _ _ _ _ _ _ _ _ =>
    subst hx
    by_cases hc : c = '!'
    · subst hc
      have hne : cs.head? ≠ some '=' := head?_ne_of_ne_cons fun r hr => hbang r (hr ▸ rfl)
      rw [take?_exclamation (hf.head?_ne (by decide) hne)]
      rfl
    · -- every other sign has a case of its own
      have hm : c ∉ marks := fun hm => by
        simp only [marks, List.mem_cons, List.not_mem_nil, or_false] at hm
        rcases hm with rfl | rfl | rfl | rfl | rfl | rfl | rfl | rfl | rfl | rfl | rfl | rfl |
          rfl | rfl <;> solve_by_elim
      rw [take?_of_not_mark hm, hf.takePlain_eq]
  all_goals cases hx; rfl

end ClientRecords.Token
