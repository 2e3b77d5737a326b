import ClientRecords.Proofs.Token.Scan
/-!
What the characters of a text belong to, told by a walk over the text that builds no tokens: a quote
opens a context which the same quote closes, and two hyphens open a comment which the end of the
line closes. The scanner refuses a text exactly when the walk ends within quotes, which are of one
of three kinds (`scan?_eq_none_iff`).
-/

namespace ClientRecords.Token

variable {b : Bool} {c q : Char} {s cs ds rest : List Char}

/-- What the next character of a text belongs to. -/
inductive Context where
  | plain
  | comment
  | quoted (quote : Char)
  deriving DecidableEq

namespace Context

/-- Is it a quoted text? -/
def isOpen : Context → Bool
  | .quoted _ => true
  | _ => false

/-- The context after one character, comments apart. -/
def step (c : Char) : Context := if isQuote c then .quoted c else .plain

/-- The context after a text that starts in a given one. -/
def after : Context → List Char → Context
  | ctx, [] => ctx
  | .plain, '-' :: '-' :: cs => after .comment cs
  | .plain, c :: cs => after (step c) cs
  | .comment, c :: cs => after (if c = '\n' then .plain else .comment) cs
  | .quoted q, c :: cs => after (if c = q then .plain else .quoted q) cs

theorem after_plain_cons (hc : c = '-' → cs.head? ≠ some '-') :
    after .plain (c :: cs) = after (step c) cs := by
  rw [after]
  rintro _ rfl rfl
  exact hc rfl rfl

theorem after_plain_of_not_quote (hq : isQuote c = false) (hc : c = '-' → cs.head? ≠ some '-') :
    after .plain (c :: cs) = after .plain cs := by
  rw [after_plain_cons hc, step, if_neg (by simp [hq])]

theorem after_plain_inner : ∀ {p : List Char}, (∀ d ∈ p, isInner d = true) →
    after .plain (p ++ rest) = after .plain rest
  | [], _ => rfl
  | d :: p, h => by
    have hd := h d List.mem_cons_self
    have hq : isQuote d = false := by
      refine Bool.eq_false_iff.mpr fun hq => ?_
      simp only [isQuote, Bool.or_eq_true, beq_iff_eq] at hq
      rcases hq with (rfl | rfl) | rfl <;> exact absurd hd (by decide)
    have hm : d ≠ '-' := by rintro rfl; exact absurd hd (by decide)
    rw [List.cons_append, after_plain_of_not_quote hq fun h => absurd h hm]
    exact after_plain_inner fun e he => h e (List.mem_cons_of_mem _ he)

theorem after_quoted_append (hq : q ∉ s) :
    after (.quoted q) (s ++ q :: rest) = after .plain rest := by
  induction s with
  | nil => rw [List.nil_append, after, if_pos rfl]
  | cons c s ih =>
    have hc : c ≠ q := by rintro rfl; exact hq List.mem_cons_self
    rw [List.cons_append, after, if_neg hc]
    exact ih fun h => hq (List.mem_cons_of_mem _ h)

/-- A doubled quote closes the string and opens it again. -/
theorem after_doubled (s : List Char) :
    after (.quoted '\'') (doubled s ++ '\'' :: rest) = after .plain rest := by
  induction s with
  | nil => rfl
  | cons c s ih =>
    by_cases hc : c = '\''
    · subst hc
      exact ih
    · rw [doubled_cons_of_ne hc, List.cons_append, after, if_neg hc]
      exact ih

theorem isOpen_after_quoted : ∀ {cs : List Char}, takeQuoted q cs = none →
    (after (.quoted q) cs).isOpen = true
  | [], _ => rfl
  | c :: cs, h => by
    by_cases hc : c = q
    · rw [takeQuoted, if_pos hc] at h; cases h
    · rw [takeQuoted, if_neg hc, Option.map_eq_none_iff] at h
      rw [after, if_neg hc]
      exact isOpen_after_quoted h

theorem isOpen_after_string : takeString cs = none → (after (.quoted '\'') cs).isOpen = true := by
  intro h
  fun_induction takeString cs with
  | case1 cs ih => exact ih (Option.map_eq_none_iff.mp h)
  | case2 cs => cases h
  | case3 c cs _ hq ih =>
    rw [after, if_neg hq]
    exact ih (Option.map_eq_none_iff.mp h)
  | case4 => rfl

theorem isOpen_after_skip (b : Bool) (cs : List Char) :
    (after .plain (skip b cs)).isOpen = (after (if b then .comment else .plain) cs).isOpen := by
  fun_induction skip b cs with
  | case1 c cs hc ih =>
    obtain rfl : c = '\n' := by simpa using hc
    exact ih
  | case2 c cs hc ih =>
    have hstep : after .comment (c :: cs) = after .comment cs := by
      rw [after, if_neg (by simpa using hc)]
    exact ih.trans (congrArg isOpen hstep.symm)
  | case3 cs ih => exact ih
  | case4 c cs hn hs ih =>
    have hm : c ≠ '-' := by rintro rfl; exact absurd hs (by decide)
    have hq : isQuote c = false := not_isQuote_of_separator hs
    exact ih.trans (congrArg isOpen (after_plain_of_not_quote hq fun h => absurd h hm).symm)
  | case5 => rfl
  | case6 b => cases b <;> rfl

/-- Only a quote opens a context of its own. -/
theorem isQuote_of_after {ctx : Context} (h : ∀ q, ctx = .quoted q → isQuote q = true) :
    ∀ q, after ctx cs = .quoted q → isQuote q = true := by
  fun_induction after ctx cs with
  | case1 ctx => exact h
  | case2 cs ih => exact ih nofun
  | case3 c cs _ ih =>
    refine ih fun q hq => ?_
    cases hc : isQuote c with
    | true =>
      rw [step, if_pos hc] at hq
      obtain rfl := Context.quoted.inj hq
      exact hc
    | false =>
      rw [step, if_neg (by simp [hc])] at hq
      cases hq
  | case4 c cs ih =>
    refine ih fun q hq => ?_
    split at hq <;> cases hq
  | case5 quote c cs ih =>
    refine ih fun q hq => ?_
    split at hq
    · cases hq
    · exact h q hq

end Context

/-- What a quoted text leaves over starts in the plain context. -/
theorem isOpen_after_quote (b : Bool) (hq : isQuote c = true) (cs : List Char) :
    (take? b (c :: cs) = none ∧ (Context.after .plain (c :: cs)).isOpen = true) ∨
    ∃ t rest, take? b (c :: cs) = some (t, rest) ∧
      Context.after .plain (c :: cs) = Context.after .plain rest := by
  simp only [isQuote, Bool.or_eq_true, beq_iff_eq] at hq
  rcases hq with (rfl | rfl) | rfl
  · cases h : takeString cs with
    | none => exact .inl ⟨by rw [take?, h]; rfl, Context.isOpen_after_string h⟩
    | some r =>
      refine .inr ⟨.string (String.ofList r.1), r.2, by rw [take?, h]; rfl, ?_⟩
      rw [(takeString_eq_some_iff.mp h).1]
      exact Context.after_doubled _
  all_goals
    cases h : takeQuoted _ cs with
    | none => exact .inl ⟨by rw [take?, h]; rfl, Context.isOpen_after_quoted h⟩
    | some r =>
      refine .inr ⟨.word (String.ofList r.1), r.2, by rw [take?, h]; rfl, ?_⟩
      obtain ⟨rfl, hs⟩ := takeQuoted_eq_some_iff.mp h
      exact Context.after_quoted_append hs

/-- The walk goes on behind the token that a text starts with, if it starts with one. -/
theorem isOpen_after_take (b : Bool) (hs : skip false (c :: cs) = c :: cs) :
    (take? b (c :: cs) = none ∧ (Context.after .plain (c :: cs)).isOpen = true) ∨
    ∃ t rest, take? b (c :: cs) = some (t, rest) ∧
      Context.after .plain (c :: cs) = Context.after .plain rest := by
  cases hq : isQuote c with
  | true => exact isOpen_after_quote b hq cs
  | false =>
    obtain ⟨t, p, rest, ht, rfl, hp⟩ := take?_of_not_quote b hq cs
    have hc : c = '-' → (p ++ rest).head? ≠ some '-' := by
      rintro rfl
      exact head?_ne_of_skip hs
    exact .inr ⟨t, rest, ht, by
      rw [Context.after_plain_of_not_quote hq hc, Context.after_plain_inner hp]⟩

/-- A text is refused exactly when it ends within quotes. -/
theorem scanFrom_eq_none_iff (b : Bool) (cs : List Char) :
    scanFrom b cs = none ↔ (Context.after .plain cs).isOpen = true := by
  have hskip : (Context.after .plain (skip false cs)).isOpen = (Context.after .plain cs).isOpen :=
    Context.isOpen_after_skip false cs
  rw [← hskip]
  fun_induction scanFrom b cs with
  | case1 b cs hs => simp [hs, Context.after, Context.isOpen]
  | case2 b cs c rest hs ht =>
    rcases isOpen_after_take b (hs ▸ skip_skip false cs) with ⟨_, ho⟩ | ⟨t, after, ht', _⟩
    · simp [hs, ho]
    · rw [ht] at ht'; cases ht'
  | case3 b cs c rest hs t after ht ih =>
    rcases isOpen_after_take b (hs ▸ skip_skip false cs) with ⟨hn, _⟩ | ⟨t', after', ht', ho⟩
    · rw [ht] at hn; cases hn
    · rw [ht] at ht'
      cases ht'
      have hafter := Context.isOpen_after_skip false after
      rw [Option.map_eq_none_iff, hs, ho]
      exact (ih hafter).trans (iff_of_eq (congrArg (· = true) hafter))

/-- A text is refused exactly when the walk over it, which starts outside of quotes and comments,
ends within one of the three kinds of quotes. -/
theorem scan?_eq_none_iff (s : String) : scan? s = none ↔
    ∃ q ∈ ['\'', '"', '\x60'], Context.after .plain s.toList = .quoted q := by
  rw [scan?, scanFrom_eq_none_iff]
  constructor
  · intro hopen
    cases hc : Context.after .plain s.toList with
    | plain | comment =>
      rw [hc] at hopen
      cases hopen
    | quoted q =>
      have hstart : ∀ q, Context.plain = .quoted q → isQuote q = true := nofun
      have hq : isQuote q = true := Context.isQuote_of_after hstart q hc
      refine ⟨q, ?_, rfl⟩
      simpa [isQuote, or_assoc] using hq
  · rintro ⟨q, -, hq⟩
    rw [hq]
    rfl

-- a quote within a comment opens nothing, and neither does a comment within quotes
example : Context.after .plain "a -- it's".toList = .comment := by decide
example : Context.after .plain "'a -- it''s'".toList = .plain := by decide

end ClientRecords.Token
