import ClientRecords.Proofs.Text.Collapse
import ClientRecords.Proofs.Token.Context
import ClientRecords.Proofs.Token.Lookahead
/-!
The tokens of a text whose blanks are collapsed. A token without quotes is the same before and after
collapsing (`keepsInner_squeeze`), but the content of a quoted text is collapsed with everything
else, a comment loses the end of line that would end it, and a blank that separates no tokens is
lost.
-/

namespace ClientRecords.Token

open Text

variable {b pending : Bool} {c q : Char} {t : Token} {s cs rest : List Char} {ts : List Token}

/-! ### Tokens without quotes -/

theorem not_blank_of_wordChar (h : isWordChar c = true) : isBlank c = false :=
  not_blank_of_isInner (by simp [isInner, h])

theorem not_blank_of_digit (h : c.isDigit = true) : isBlank c = false :=
  not_blank_of_isInner (isInner_of_digit h)

/-- Collapsing the blanks behind a token is not noticed by it. -/
theorem keepsInner_squeeze : KeepsInner (squeeze false) where
  cons hc := squeeze_false_cons (not_blank_of_isInner hc)
  stop := by
    intro cs h d hd
    rcases squeeze_false_cases cs with ⟨_, hs⟩ | ⟨c, rest, rfl, _, he⟩
    · rw [hs d hd]
      decide
    · rw [he] at hd
      exact h d hd

/-! ### Quoted texts -/

theorem within_doubled : ∀ {pending : Bool} {s : List Char},
    within pending (doubled s) = doubled (within pending s)
  | false, [] | true, [] => rfl
  | pending, c :: s => by
    have hp : doubled (if pending then [' '] else []) = if pending then [' '] else [] := by
      cases pending <;> rfl
    by_cases hc : c = '\''
    · subst hc
      have hq : isBlank '\'' = false := by decide
      rw [doubled_cons_quote, within_of_not_blank hq, within_of_not_blank hq, within_doubled,
        within_of_not_blank hq, doubled_append, hp, doubled_cons_quote]
      rfl
    · rw [doubled_cons_of_ne hc]
      cases hb : isBlank c with
      | true => rw [within_blank hb, within_blank hb, within_doubled]
      | false =>
        rw [within_of_not_blank hb, within_of_not_blank hb, within_doubled, doubled_append, hp,
          doubled_cons_of_ne hc]

/-! ### Texts that collapsing keeps -/

theorem blank_of_separator (hs : isSeparator c = true) : isBlank c = true :=
  of_isSeparator (by decide) hs

theorem not_blank_of_isQuote (hq : isQuote c = true) : isBlank c = false := by
  simp only [isQuote, Bool.or_eq_true, beq_iff_eq] at hq
  rcases hq with (rfl | rfl) | rfl <;> decide

namespace Context

/-- Does a line end within a comment of a text that starts in a context? -/
def endsComment : Context → List Char → Bool
  | _, [] => false
  | .plain, '-' :: '-' :: cs => endsComment .comment cs
  | .plain, c :: cs => endsComment (step c) cs
  | .comment, c :: cs => c == '\n' || endsComment .comment cs
  | .quoted q, c :: cs => endsComment (if c = q then .plain else .quoted q) cs

/-- Outside of quotes every blank separates tokens, within quotes every blank is a single space, and
behind a comment no token follows. -/
def isCalm : Context → List Char → Bool
  | _, [] => true
  | .plain, '-' :: '-' :: cs => (skip true cs).isEmpty
  | .plain, c :: cs => isCalm (step c) cs && (!isBlank c || isSeparator c)
  | .comment, c :: cs => (skip true (c :: cs)).isEmpty
  | .quoted q, c :: cs =>
    isCalm (if c = q then .plain else .quoted q) cs
      && (!isBlank c || c == ' ' && !cs.head?.any isBlank)

theorem isCalm_plain_cons (hc : c = '-' → cs.head? ≠ some '-') :
    isCalm .plain (c :: cs) = (isCalm (step c) cs && (!isBlank c || isSeparator c)) := by
  rw [isCalm]
  rintro _ rfl rfl
  exact hc rfl rfl

theorem isCalm_plain_quote (hq : isQuote c = true) (cs : List Char) :
    isCalm .plain (c :: cs) = isCalm (.quoted c) cs := by
  have hm : c ≠ '-' := by rintro rfl; exact absurd hq (by decide)
  rw [isCalm_plain_cons fun h => absurd h hm, step, if_pos hq, not_blank_of_isQuote hq]
  exact Bool.and_true _

theorem isCalm_plain_inner : ∀ {p : List Char}, (∀ d ∈ p, isInner d = true) →
    isCalm .plain (p ++ rest) = isCalm .plain rest
  | [], _ => rfl
  | d :: p, h => by
    have hd := h d List.mem_cons_self
    have hq : isQuote d = false := by
      refine Bool.eq_false_iff.mpr fun hq => ?_
      simp only [isQuote, Bool.or_eq_true, beq_iff_eq] at hq
      rcases hq with (rfl | rfl) | rfl <;> exact absurd hd (by decide)
    have hm : d ≠ '-' := by rintro rfl; exact absurd hd (by decide)
    rw [List.cons_append, isCalm_plain_cons fun h => absurd h hm, not_blank_of_isInner hd, step,
      if_neg (by simp [hq]), Bool.not_false, Bool.true_or, Bool.and_true]
    exact isCalm_plain_inner fun e he => h e (List.mem_cons_of_mem _ he)

/-- The character behind a text that goes on with one that is no blank. -/
theorem any_head?_append (hq : isBlank q = false) (s rest : List Char) :
    (s ++ q :: rest).head?.any isBlank = s.head?.any isBlank := by
  cases s with
  | nil => exact hq
  | cons => rfl

theorem isCalm_quoted_append (hb : isBlank q = false) (hq : q ∉ s) :
    isCalm (.quoted q) (s ++ q :: rest) = (isTidy s && isCalm .plain rest) := by
  induction s with
  | nil => simp [isCalm, isTidy, hb]
  | cons c s ih =>
    have hc : c ≠ q := by rintro rfl; exact hq List.mem_cons_self
    rw [List.cons_append, isCalm, if_neg hc, any_head?_append hb,
      ih fun h => hq (List.mem_cons_of_mem _ h), isTidy, Bool.and_right_comm]

theorem isCalm_doubled (s : List Char) :
    isCalm (.quoted '\'') (doubled s ++ '\'' :: rest) = (isTidy s && isCalm .plain rest) := by
  have hb : isBlank '\'' = false := by decide
  induction s with
  | nil => simp [doubled, isCalm, isTidy, hb]
  | cons c s ih =>
    by_cases hc : c = '\''
    · subst hc
      rw [doubled_cons_quote, List.cons_append, List.cons_append, isCalm, if_pos rfl,
        isCalm_plain_quote (by decide), ih, isTidy, hb]
      simp
    · rw [doubled_cons_of_ne hc, List.cons_append, isCalm, if_neg hc, any_head?_append hb,
        head?_doubled, ih, isTidy, Bool.and_right_comm]

end Context

/-- A quoted text is the same token after collapsing if its blanks are single spaces. -/
theorem take?_squeeze_quote (hq : isQuote c = true) (h : take? b (c :: cs) = some (t, rest)) :
    ∃ t' s, take? b (c :: squeeze false cs) = some (t', squeeze false rest) ∧
      t'.endsOperand = t.endsOperand ∧ (t' = t ↔ isTidy s = true) ∧
      Context.isCalm .plain (c :: cs) = (isTidy s && Context.isCalm .plain rest) := by
  rw [Context.isCalm_plain_quote hq]
  have hofList : ∀ s r : List Char, String.ofList s = String.ofList r ↔ s = r := fun s r =>
    ⟨fun he => by simpa using congrArg String.toList he, fun he => he ▸ rfl⟩
  simp only [isQuote, Bool.or_eq_true, beq_iff_eq] at hq
  rcases hq with (rfl | rfl) | rfl
  · obtain ⟨⟨s, r⟩, hs, he⟩ := Option.map_eq_some_iff.mp h
    cases he
    obtain ⟨rfl, hr⟩ := takeString_eq_some_iff.mp hs
    refine ⟨.string (String.ofList (within false s)), s, ?_, rfl, ?_, Context.isCalm_doubled s⟩
    · rw [squeeze_append_cons (by decide), within_doubled, take?,
        takeString_doubled (head?_squeeze_ne (by decide) hr)]
      rfl
    · rw [Token.string.injEq, hofList, within_eq_self_iff]
  all_goals
    obtain ⟨⟨s, r⟩, hs, he⟩ := Option.map_eq_some_iff.mp h
    cases he
    obtain ⟨rfl, hn⟩ := takeQuoted_eq_some_iff.mp hs
    refine ⟨.word (String.ofList (within false s)), s, ?_, rfl, ?_,
      Context.isCalm_quoted_append (by decide) hn⟩
    · have hw : _ ∉ within false s := fun hm => (mem_within hm).elim (by decide) hn
      rw [squeeze_append_cons (by decide), take?, takeQuoted_eq_some_iff.mpr ⟨rfl, hw⟩]
      rfl
    · rw [Token.word.injEq, hofList, within_eq_self_iff]

/-! ### Blanks that separate no tokens -/

theorem skip_suffix (b : Bool) (cs : List Char) : skip b cs <:+ cs := by
  fun_induction skip b cs with
  | case1 c cs _ ih | case2 c cs _ ih | case4 c cs _ _ ih => exact ih.trans (List.suffix_cons c cs)
  | case3 cs ih => exact ih.trans ((List.suffix_cons _ _).trans (List.suffix_cons _ _))
  | case5 | case6 => exact List.suffix_rfl

theorem suffix_of_take (h : take? b (c :: cs) = some (t, rest)) : rest <:+ cs := by
  cases hq : isQuote c with
  | false =>
    obtain ⟨t', p, rest', ht, rfl, _⟩ := take?_of_not_quote b hq cs
    rw [ht] at h
    cases h
    exact List.suffix_append p rest
  | true =>
    simp only [isQuote, Bool.or_eq_true, beq_iff_eq] at hq
    rcases hq with (rfl | rfl) | rfl
    · obtain ⟨⟨s, r⟩, hs, he⟩ := Option.map_eq_some_iff.mp h
      cases he
      rw [(takeString_eq_some_iff.mp hs).1]
      exact (List.suffix_cons _ _).trans (List.suffix_append _ _)
    all_goals
      obtain ⟨⟨s, r⟩, hs, he⟩ := Option.map_eq_some_iff.mp h
      cases he
      rw [(takeQuoted_eq_some_iff.mp hs).1]
      exact (List.suffix_cons _ _).trans (List.suffix_append _ _)

theorem takePlain_other (h : takePlain (c :: cs) = some (.other q, rest)) : q = c := by
  generalize hx : c :: cs = x at h
  revert h
  fun_cases takePlain x with
  | case2 | case5 =>
    rintro ⟨⟩
    cases hx
    rfl
  | case1 | case3 | case4 =>
    intro h
    cases h

/-- A character that stands for itself is the one that its token was read at. -/
theorem other_eq_of_take (h : take? b (c :: cs) = some (.other q, rest)) : q = c := by
  generalize hx : c :: cs = x at h
  unfold take? at h
  split at h
  case h_1 | h_2 | h_3 =>
    obtain ⟨_, _, he⟩ := Option.map_eq_some_iff.mp h
    cases he
  case h_18 =>
    split at h
    · cases h
    · cases hx; cases h; rfl
  case h_19 => subst hx; exact takePlain_other h
  all_goals cases h

theorem mem_of_other_mem (h : scanFrom b cs = some ts) (hc : Token.other c ∈ ts) : c ∈ cs := by
  fun_induction scanFrom b cs generalizing ts with
  | case1 => cases h; cases hc
  | case2 => cases h
  | case3 b cs d rest hs t after ht ih =>
    obtain ⟨us, hu, rfl⟩ := Option.map_eq_some_iff.mp h
    refine (hs ▸ skip_suffix false cs).subset ?_
    rcases List.mem_cons.mp hc with rfl | hc
    · rw [other_eq_of_take ht]
      exact List.mem_cons_self
    · exact List.mem_cons_of_mem _ ((suffix_of_take ht).subset (ih hu hc))

/-! ### The tokens of a collapsed text -/

/-- A space that is owed separates tokens only. -/
theorem scanFrom_squeeze_cons (hb : isBlank c = false) (pending : Bool) (cs : List Char) :
    scanFrom b (squeeze pending (c :: cs)) = scanFrom b (c :: squeeze false cs) := by
  cases pending with
  | true => rw [squeeze_true_cons hb, scanFrom_separator (by decide)]
  | false => rw [squeeze_false_cons hb]

theorem scanFrom_eq_some_nil_iff : scanFrom b cs = some [] ↔ skip false cs = [] := by
  refine ⟨fun h => ?_, scanFrom_of_skip_nil⟩
  cases hs : skip false cs with
  | nil => rfl
  | cons c rest =>
    cases ht : take? b (c :: rest) with
    | none => rw [scanFrom_of_take_none hs ht] at h; cases h
    | some r =>
      rw [scanFrom_of_take hs ht] at h
      obtain ⟨_, _, he⟩ := Option.map_eq_some_iff.mp h
      cases he

theorem not_newline_mem_squeeze : '\n' ∉ squeeze pending cs := fun h =>
  (eq_space_or_not_blank h).elim (by decide) (by decide)

/-- Collapsing removes the blanks that separate no tokens, which are tokens before. -/
theorem scanFrom_squeeze_ne (hb : isBlank c = true) (hs : isSeparator c = false)
    (h : scanFrom b (c :: cs) = some ts) : scanFrom b (squeeze pending (c :: cs)) ≠ some ts := by
  intro he
  have hq : c ∉ marks := fun hm => by
    have hmarks : marks.any isBlank = false := by decide
    exact List.any_eq_false.mp hmarks c hm hb
  have hm : c = '-' → cs.head? ≠ some '-' := by rintro rfl; exact absurd hb (by decide)
  have ht : take? b (c :: cs) = some (.other c, cs) := by
    have hd : c.isDigit = false := Bool.eq_false_iff.mpr fun hd =>
      absurd hb (by simp [not_blank_of_digit hd])
    have hw : isWordChar c = false := Bool.eq_false_iff.mpr fun hw =>
      absurd hb (by simp [not_blank_of_wordChar hw])
    rw [take?_of_not_mark hq, takePlain, if_neg (by simp [hd]), if_neg (by simp [hw])]
    rintro _ rfl
    exact absurd hb (by decide)
  rw [scanFrom_of_take (skip_of_not_separator hs hm) ht] at h
  obtain ⟨us, _, rfl⟩ := Option.map_eq_some_iff.mp h
  -- the blank would have to stand in the collapsed text
  rcases eq_space_or_not_blank (mem_of_other_mem he List.mem_cons_self) with rfl | hc
  · exact absurd hs (by decide)
  · rw [hb] at hc; cases hc

theorem map_cons_eq_some_iff {t' : Token} {us : Option (List Token)} :
    us.map (t' :: ·) = some (t :: ts) ↔ t' = t ∧ us = some ts := by
  rw [Option.map_eq_some_iff]
  constructor
  · rintro ⟨_, rfl, he⟩
    cases he
    exact ⟨rfl, rfl⟩
  · rintro ⟨rfl, rfl⟩
    exact ⟨ts, rfl, rfl⟩

/-- The tokens of a text are those of the collapsed text exactly if the text is calm. -/
theorem scanFrom_squeeze : ∀ {b pending : Bool} {cs : List Char} {ts : List Token},
    scanFrom b cs = some ts →
      (scanFrom b (squeeze pending cs) = some ts ↔ Context.isCalm .plain cs = true)
  | b, pending, [], ts, h => by
    rw [squeeze, h]
    exact iff_of_true rfl rfl
  | b, pending, c :: cs, ts, h => by
    by_cases hm : c = '-' ∧ cs.head? = some '-'
    · obtain ⟨rfl, hd⟩ := hm
      obtain ⟨cs, rfl⟩ := List.head?_eq_some_iff.mp hd
      have hb : isBlank '-' = false := by decide
      rw [scanFrom_squeeze_cons hb, squeeze_false_cons hb, scanFrom_comment,
        skip_true_of_no_newline not_newline_mem_squeeze, Context.isCalm, List.isEmpty_iff]
      rw [scanFrom_comment] at h
      rw [scanFrom_of_skip_nil rfl, Option.some.injEq, ← skip_skip,
        ← scanFrom_eq_some_nil_iff (b := b), h, Option.some.injEq, eq_comm]
    have hc : c = '-' → cs.head? ≠ some '-' := fun hc hd => hm ⟨hc, hd⟩
    cases hb : isBlank c with
    | true =>
      cases hs : isSeparator c with
      | true =>
        have hq : isQuote c = false := Bool.eq_false_iff.mpr fun hq =>
          absurd hb (by simp [not_blank_of_isQuote hq])
        rw [squeeze_blank hb, Context.isCalm_plain_cons hc, Context.step, if_neg (by simp [hq]), hs,
          Bool.or_true, Bool.and_true]
        exact scanFrom_squeeze ((scanFrom_separator hs).symm.trans h)
      | false =>
        rw [Context.isCalm_plain_cons hc, hb, hs]
        exact iff_of_false (scanFrom_squeeze_ne hb hs h) (by simp)
    | false =>
      have hs : isSeparator c = false := Bool.eq_false_iff.mpr fun hs =>
        absurd (blank_of_separator hs) (by simp [hb])
      have hskip := skip_of_not_separator hs hc
      have hskip' := skip_of_not_separator hs fun he => head?_squeeze_ne (by decide) (hc he)
      rw [scanFrom_squeeze_cons hb]
      cases ht : take? b (c :: cs) with
      | none => rw [scanFrom_of_take_none hskip ht] at h; cases h
      | some r =>
        obtain ⟨t, rest⟩ := r
        rw [scanFrom_of_take hskip ht] at h
        obtain ⟨us, hu, rfl⟩ := Option.map_eq_some_iff.mp h
        have hl : rest.length ≤ cs.length := Nat.le_of_lt_succ (length_take ht)
        have ih : scanFrom (!t.endsOperand) (squeeze false rest) = some us ↔
            Context.isCalm .plain rest = true := scanFrom_squeeze hu
        cases hq : isQuote c with
        | true =>
          obtain ⟨t', s, ht', he, heq, hcalm⟩ := take?_squeeze_quote hq ht
          rw [scanFrom_of_take hskip' ht', he, hcalm, Bool.and_eq_true, ← heq, ← ih]
          exact map_cons_eq_some_iff
        | false =>
          obtain ⟨t', p, rest', ht', rfl, hp⟩ := take?_of_not_quote b hq cs
          rw [ht] at ht'
          cases ht'
          have hsq := take?_of_keepsInner (b := b) keepsInner_squeeze hq (p ++ rest)
          rw [ht] at hsq
          rw [scanFrom_of_take hskip' hsq, map_cons_eq_some_iff, ih, Context.isCalm_plain_cons hc,
            Context.step, if_neg (by simp [hq]), Context.isCalm_plain_inner hp, hb]
          simp
termination_by _ _ cs _ _ => cs.length

/-! ### Collapsed texts that are refused -/

namespace Context

theorem after_comment_of_no_newline : ∀ {cs : List Char}, '\n' ∉ cs → after .comment cs = .comment
  | [], _ => rfl
  | c :: cs, h => by
    have hc : c ≠ '\n' := by rintro rfl; exact h List.mem_cons_self
    rw [after, if_neg hc]
    exact after_comment_of_no_newline fun hm => h (List.mem_cons_of_mem _ hm)

theorem isOpen_comment : ∀ cs : List Char,
    ((after .comment cs).isOpen && !endsComment .comment cs) = false
  | [] => rfl
  | c :: cs => by
    by_cases hc : c = '\n'
    · subst hc
      simp [endsComment]
    · rw [after, if_neg hc, endsComment]
      simpa [hc] using isOpen_comment cs

theorem after_squeeze_cons {ctx : Context} (hctx : ctx ≠ .comment) (hb : isBlank c = false)
    (hq : ctx ≠ .quoted ' ') (pending : Bool) (cs : List Char) :
    after ctx (squeeze pending (c :: cs)) = after ctx (c :: squeeze false cs) := by
  cases pending with
  | false => rw [squeeze_false_cons hb]
  | true =>
    rw [squeeze_true_cons hb]
    cases ctx with
    | plain => rfl
    | comment => exact absurd rfl hctx
    | quoted q =>
      have hs : ' ' ≠ q := fun he => hq (congrArg quoted he.symm)
      rw [after, if_neg hs]

theorem endsComment_plain_cons (hc : c = '-' → cs.head? ≠ some '-') :
    endsComment .plain (c :: cs) = endsComment (step c) cs := by
  rw [endsComment]
  rintro _ rfl rfl
  exact hc rfl rfl

theorem isQuote_of_step : step c = .quoted q → isQuote q = true := by
  intro h
  rw [step] at h
  split at h
  · cases h; assumption
  · cases h

/-- Which quotes stay open after collapsing: those that no end of a comment comes before. -/
theorem isOpen_after_squeeze {cs : List Char} : ∀ {pending : Bool} {ctx : Context},
    (∀ q, ctx = .quoted q → isQuote q = true) →
    (after ctx (squeeze pending cs)).isOpen = ((after ctx cs).isOpen && !endsComment ctx cs) := by
  induction cs with
  | nil =>
    intro pending ctx _
    cases ctx <;> rfl
  | cons c cs ih =>
    intro pending ctx hctx
    cases ctx with
    | comment =>
      rw [after_comment_of_no_newline not_newline_mem_squeeze, isOpen_comment]
      rfl
    | plain =>
      by_cases hm : c = '-' ∧ cs.head? = some '-'
      · obtain ⟨rfl, hd⟩ := hm
        obtain ⟨cs, rfl⟩ := List.head?_eq_some_iff.mp hd
        rw [after_squeeze_cons (by decide) (by decide) (by decide), squeeze_false_cons (by decide),
          after, after, endsComment, after_comment_of_no_newline not_newline_mem_squeeze,
          isOpen_comment]
        rfl
      have hc : c = '-' → cs.head? ≠ some '-' := fun hc hd => hm ⟨hc, hd⟩
      rw [after_plain_cons hc, endsComment_plain_cons hc]
      cases hb : isBlank c with
      | true =>
        have hq : isQuote c = false := Bool.eq_false_iff.mpr fun hq =>
          absurd hb (by simp [not_blank_of_isQuote hq])
        rw [squeeze_blank hb, step, if_neg (by simp [hq])]
        exact ih (by simp)
      | false =>
        rw [after_squeeze_cons (by decide) hb (by decide),
          after_plain_cons fun he => head?_squeeze_ne (by decide) (hc he)]
        exact ih fun _ h => isQuote_of_step h
    | quoted q =>
      have hq := hctx q rfl
      rw [after, endsComment]
      cases hb : isBlank c with
      | true =>
        have hc : c ≠ q := by rintro rfl; rw [not_blank_of_isQuote hq] at hb; cases hb
        rw [squeeze_blank hb, if_neg hc]
        exact ih hctx
      | false =>
        have hs : Context.quoted q ≠ .quoted ' ' := by rintro ⟨⟩; exact absurd hq (by decide)
        rw [after_squeeze_cons (by simp) hb hs, after]
        split
        · exact ih (by simp)
        · exact ih hctx

end Context

/-- The blanks at the start of a text make no difference. -/
theorem scanFrom_collapse (b : Bool) (s : String) :
    scanFrom b (collapse s).toList = scanFrom b (squeeze true s.toList) := by
  rw [toList_collapse]
  rcases squeeze_true_eq s.toList with ⟨he, ht⟩ | ⟨he, _⟩
  · rw [he, ht]; rfl
  · rw [he, scanFrom_separator (by decide)]

/-- Collapsing the blanks of a text keeps its tokens exactly if no quote is left open and the text
is calm, or a quote is left open and no comment ends before. -/
theorem scan?_collapse_iff (s : String) : scan? (collapse s) = scan? s ↔
    if (Context.after .plain s.toList).isOpen then Context.endsComment .plain s.toList = false
    else Context.isCalm .plain s.toList = true := by
  rw [scan?, scanFrom_collapse, scan?]
  cases h : scanFrom true s.toList with
  | none =>
    have ho := (scanFrom_eq_none_iff true s.toList).mp h
    have hp : ∀ q, Context.plain = .quoted q → isQuote q = true := by rintro _ ⟨⟩
    rw [if_pos ho, scanFrom_eq_none_iff, Context.isOpen_after_squeeze hp, ho, Bool.true_and,
      Bool.not_eq_true']
  | some ts =>
    have ho : ¬(Context.after .plain s.toList).isOpen = true := fun ho => by
      rw [(scanFrom_eq_none_iff true s.toList).mpr ho] at h
      cases h
    rw [if_neg ho]
    exact scanFrom_squeeze h

example : scan? "a = 'b  c' -- d\n;" =
    some [.word "a", .comparison .eq, .string "b  c", .semicolon] := by cbv

example : scan? (collapse "a = 'b  c' -- d\n;") =
    some [.word "a", .comparison .eq, .string "b c"] := by cbv

end ClientRecords.Token
