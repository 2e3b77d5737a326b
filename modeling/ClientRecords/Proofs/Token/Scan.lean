import ClientRecords.Text.Blank
import ClientRecords.Token.Scanner
/-!
The scanner one step at a time. `scanFrom_of_take` reads one token off a text that starts with it,
and the lemmas after it say which texts start with which token: a quoted text is its content with
the quotes in it doubled (`takeString_eq_some_iff`), a name or a number goes on to the first
character that cannot belong to it.
-/

namespace ClientRecords.Token

variable {b : Bool} {c q : Char} {t : Token} {s cs rest after : List Char}

theorem head?_ne_of_ne_cons (h : ∀ r, cs = c :: r → False) : cs.head? ≠ some c := by
  intro hc
  obtain ⟨r, rfl⟩ := List.head?_eq_some_iff.mp hc
  exact h r rfl

/-! ### What stands between tokens -/

/-- What holds of each of the four separators holds of a character that is one. -/
theorem of_isSeparator {p : Char → Bool} (hp : [' ', '\t', '\r', '\n'].all p = true)
    (h : isSeparator c = true) : p c = true := by
  refine List.all_eq_true.mp hp c ?_
  simpa [isSeparator, or_assoc] using h

theorem skip_separator (h : isSeparator c = true) : skip false (c :: cs) = skip false cs := by
  have hc : c ≠ '-' := by rintro rfl; exact absurd h (by decide)
  rw [skip, if_pos h]
  rintro _ rfl
  exact absurd rfl hc

theorem skip_of_not_separator (h : isSeparator c = false) (hc : c = '-' → cs.head? ≠ some '-') :
    skip false (c :: cs) = c :: cs := by
  rw [skip, if_neg (by simp [h])]
  rintro _ rfl rfl
  exact hc rfl rfl

/-- Two hyphens would be a comment, which is skipped. -/
theorem head?_ne_of_skip (h : skip false ('-' :: cs) = '-' :: cs) : cs.head? ≠ some '-' := by
  intro hdash
  obtain ⟨rest, rfl⟩ := List.head?_eq_some_iff.mp hdash
  have hl := length_skip true rest
  rw [skip] at h
  exact absurd (congrArg List.length h) (by simp; omega)

theorem not_separator_of_skip (h : skip false (c :: cs) = c :: cs) : isSeparator c = false := by
  refine Bool.eq_false_iff.mpr fun hs => ?_
  have hl := length_skip false cs
  rw [skip_separator hs] at h
  exact absurd (congrArg List.length h) (by simp; omega)

theorem skip_skip (b : Bool) (cs : List Char) : skip false (skip b cs) = skip b cs := by
  fun_induction skip b cs with
  | case1 | case2 | case3 | case4 => assumption
  | case5 c cs hd hs =>
    exact skip_of_not_separator (by simpa using hs) fun hc => head?_ne_of_ne_cons fun r => hd r hc
  | case6 => rfl

/-- Without an end of line a comment goes on to the end of the text. -/
theorem skip_true_of_no_newline : ∀ {cs : List Char}, '\n' ∉ cs → skip true cs = []
  | [], _ => rfl
  | c :: cs, h => by
    have hc : c ≠ '\n' := by rintro rfl; exact h List.mem_cons_self
    rw [skip, if_neg (by simpa using hc)]
    exact skip_true_of_no_newline fun hm => h (List.mem_cons_of_mem _ hm)

/-! ### One step of the scanner -/

theorem scanFrom_of_skip_nil (h : skip false cs = []) : scanFrom b cs = some [] := by
  fun_cases scanFrom b cs with
  | case1 => rfl
  | case2 c rest hs | case3 c rest hs => cases h.symm.trans hs

theorem scanFrom_of_take (h : skip false cs = c :: rest)
    (ht : take? b (c :: rest) = some (t, after)) :
    scanFrom b cs = (scanFrom (!t.endsOperand) after).map (t :: ·) := by
  fun_cases scanFrom b cs with
  | case1 hs => cases h.symm.trans hs
  | case2 c' rest' hs hn =>
    cases h.symm.trans hs
    cases ht.symm.trans hn
  | case3 c' rest' hs t' after' hn =>
    cases h.symm.trans hs
    cases ht.symm.trans hn
    rfl

theorem scanFrom_of_take_none (h : skip false cs = c :: rest) (ht : take? b (c :: rest) = none) :
    scanFrom b cs = none := by
  fun_cases scanFrom b cs with
  | case1 hs => cases h.symm.trans hs
  | case2 => rfl
  | case3 c' rest' hs t' after' hn =>
    cases h.symm.trans hs
    cases ht.symm.trans hn

/-- Only what is left after skipping counts. -/
theorem scanFrom_skip (b : Bool) (cs : List Char) : scanFrom b (skip false cs) = scanFrom b cs := by
  cases h : skip false cs with
  | nil => rw [scanFrom_of_skip_nil h, scanFrom_of_skip_nil rfl]
  | cons c rest =>
    have hs : skip false (c :: rest) = c :: rest := h ▸ skip_skip false cs
    cases ht : take? b (c :: rest) with
    | none => rw [scanFrom_of_take_none h ht, scanFrom_of_take_none hs ht]
    | some r => rw [scanFrom_of_take h ht, scanFrom_of_take hs ht]

theorem scanFrom_separator (h : isSeparator c = true) : scanFrom b (c :: cs) = scanFrom b cs := by
  rw [← scanFrom_skip, skip_separator h, scanFrom_skip]

theorem scanFrom_comment (b : Bool) (cs : List Char) :
    scanFrom b ('-' :: '-' :: cs) = scanFrom b (skip true cs) := by
  rw [← scanFrom_skip, skip, ← scanFrom_skip b (skip true cs), skip_skip]

/-! ### Quoted texts -/

/-- The content of a string as it stands between its quotes. -/
def doubled (cs : List Char) : List Char :=
  cs.flatMap fun c => if c = '\'' then ['\'', '\''] else [c]

theorem toList_quoted (s : String) : (quoted s).toList = '\'' :: (doubled s.toList ++ ['\'']) := by
  simp [quoted, doubled]

theorem doubled_cons_quote (cs : List Char) :
    doubled ('\'' :: cs) = '\'' :: '\'' :: doubled cs := rfl

theorem doubled_cons_of_ne (h : c ≠ '\'') : doubled (c :: cs) = c :: doubled cs := by
  simp [doubled, h]

theorem doubled_append (s cs : List Char) : doubled (s ++ cs) = doubled s ++ doubled cs :=
  List.flatMap_append

theorem head?_doubled : ∀ s : List Char, (doubled s).head? = s.head?
  | [] => rfl
  | c :: s => by
    by_cases hc : c = '\''
    · subst hc; rfl
    · rw [doubled_cons_of_ne hc]; rfl

theorem takeString_cons_of_ne (h : c ≠ '\'') :
    takeString (c :: cs) = (takeString cs).map fun (s, rest) => (c :: s, rest) := by
  rw [takeString]
  · rintro _ rfl; exact absurd rfl h
  · exact h

theorem takeString_doubled (hr : rest.head? ≠ some '\'') : ∀ s : List Char,
    takeString (doubled s ++ '\'' :: rest) = some (s, rest)
  | [] => by
    rw [doubled, List.flatMap_nil, List.nil_append, takeString]
    rintro _ rfl
    exact hr rfl
  | c :: s => by
    by_cases hc : c = '\''
    · subst hc
      rw [doubled_cons_quote, List.cons_append, List.cons_append, takeString,
        takeString_doubled hr s]
      rfl
    · rw [doubled_cons_of_ne hc, List.cons_append, takeString_cons_of_ne hc,
        takeString_doubled hr s]
      rfl

theorem takeString_eq_some_iff : takeString cs = some (s, rest) ↔
    cs = doubled s ++ '\'' :: rest ∧ rest.head? ≠ some '\'' := by
  refine ⟨fun h => ?_, fun ⟨hc, hr⟩ => hc ▸ takeString_doubled hr s⟩
  fun_induction takeString cs generalizing s with
  | case1 cs ih =>
    obtain ⟨⟨s', _⟩, he, heq⟩ := Option.map_eq_some_iff.mp h
    cases heq
    obtain ⟨rfl, hr⟩ := ih he
    exact ⟨rfl, hr⟩
  | case2 cs hn =>
    cases h
    exact ⟨rfl, head?_ne_of_ne_cons hn⟩
  | case3 c cs hn hq ih =>
    obtain ⟨⟨s', _⟩, he, heq⟩ := Option.map_eq_some_iff.mp h
    cases heq
    obtain ⟨rfl, hr⟩ := ih he
    exact ⟨by rw [doubled_cons_of_ne hq]; rfl, hr⟩
  | case4 => cases h

theorem takeQuoted_eq_some_iff : ∀ {cs s : List Char}, takeQuoted q cs = some (s, rest) ↔
    cs = s ++ q :: rest ∧ q ∉ s
  | [], s => by cases s <;> simp [takeQuoted]
  | c :: cs, s => by
    by_cases hc : c = q
    · subst hc
      rw [takeQuoted, if_pos rfl]
      cases s with
      | nil => simp [eq_comm]
      | cons d s => simp; rintro rfl _ h; exact absurd rfl h
    · rw [takeQuoted, if_neg hc, Option.map_eq_some_iff]
      cases s with
      | nil => simp [hc]
      | cons d s =>
        constructor
        · rintro ⟨⟨s', r'⟩, h, heq⟩
          cases heq
          obtain ⟨rfl, hq⟩ := takeQuoted_eq_some_iff.mp h
          exact ⟨rfl, by simp [hq, Ne.symm hc]⟩
        · rintro ⟨heq, hq⟩
          cases heq
          exact ⟨(s, rest),
            takeQuoted_eq_some_iff.mpr ⟨rfl, fun h => hq (List.mem_cons_of_mem _ h)⟩, rfl⟩

/-! ### Tokens without quotes -/

/-- The characters that open a quoted text and close it again. -/
def isQuote (c : Char) : Bool := c == '\'' || c == '"' || c == '\x60'

theorem not_isQuote_of_separator (h : isSeparator c = true) : isQuote c = false := by
  simpa using of_isSeparator (p := (!isQuote ·)) (by decide) h

/-- The characters that a token without quotes may go on with. -/
def isInner (c : Char) : Bool := isWordChar c || c == '=' || c == '>' || c == '*'

theorem not_isInner_of_separator (h : isSeparator c = true) : isInner c = false := by
  simpa using of_isSeparator (p := (!isInner ·)) (by decide) h

theorem isInner_of_digit (h : c.isDigit = true) : isInner c = true := by
  simp [isInner, isWordChar, Char.isAlphanum, h]

theorem isInner_of_mem_takeWhile (h : c ∈ cs.takeWhile Char.isDigit) : isInner c = true :=
  isInner_of_digit (List.all_eq_true.mp List.all_takeWhile c h)

/-- The characters of a token lie between the space and the end of the seven bit characters. -/
theorem toNat_of_isInner (h : isInner c = true) : 33 ≤ c.toNat ∧ c.toNat ≤ 126 := by
  unfold isInner isWordChar Char.isAlphanum Char.isAlpha Char.isUpper Char.isLower Char.isDigit at h
  simp only [Bool.or_eq_true, Bool.and_eq_true, decide_eq_true_eq, beq_iff_eq,
    UInt32.le_iff_toNat_le] at h
  have hv : c.val.toNat = c.toNat := rfl
  rcases h with (((((((h | h) | h) | rfl) | rfl) | rfl) | rfl) | rfl) | rfl
  · have hA : 'A'.val.toNat = 65 := rfl
    have hZ : 'Z'.val.toNat = 90 := rfl
    omega
  · have ha : 'a'.val.toNat = 97 := rfl
    have hz : 'z'.val.toNat = 122 := rfl
    omega
  · have h0 : '0'.val.toNat = 48 := rfl
    have h9 : '9'.val.toNat = 57 := rfl
    omega
  all_goals decide

theorem not_blank_of_isInner (h : isInner c = true) : Text.isBlank c = false := by
  have hi := toNat_of_isInner h
  refine Bool.eq_false_iff.mpr fun hb => ?_
  simp only [Text.isBlank, Bool.or_eq_true, Bool.and_eq_true, decide_eq_true_eq, beq_iff_eq] at hb
  omega

theorem isInner_of_wordChar (h : isWordChar c = true) : isInner c = true := by simp [isInner, h]

/-- The characters that a token is told by, whatever stands behind them. -/
def marks : List Char :=
  ['\'', '"', '\x60', '?', '!', '<', '>', '=', '(', ')', ',', '*', ';', '-']

theorem take?_of_not_mark (h : c ∉ marks) : take? b (c :: cs) = takePlain (c :: cs) := by
  generalize hx : c :: cs = x
  fun_cases take? b x
  case case20 => rfl
  all_goals cases hx; exact absurd (by decide) h

theorem take?_exclamation (h : cs.head? ≠ some '=') :
    take? b ('!' :: cs) = some (.other '!', cs) := by
  generalize hx : '!' :: cs = x
  fun_cases take? b x
  case case7 => cases hx; exact absurd rfl h
  case case20 => subst hx; rfl
  all_goals cases hx

theorem take?_wordChar (h : isWordChar c = true) : take? b (c :: cs) = takePlain (c :: cs) := by
  refine take?_of_not_mark fun hm => ?_
  have hmarks : marks.any isWordChar = false := by decide
  exact List.any_eq_false.mp hmarks c hm h

theorem not_separator_of_wordChar (h : isWordChar c = true) : isSeparator c = false ∧ c ≠ '-' := by
  refine ⟨Bool.eq_false_iff.mpr fun hs => ?_, by rintro rfl; exact absurd h (by decide)⟩
  have hword : (!isWordChar c) = true := of_isSeparator (p := (!isWordChar ·)) (by decide) hs
  rw [h] at hword
  cases hword

theorem isWordChar_of_digit (h : c.isDigit = true) : isWordChar c = true := by
  simp [isWordChar, Char.isAlphanum, h]

theorem take?_digit (h : c.isDigit = true) : take? b (c :: cs) =
    some (.number (String.ofList (takeNumber (c :: cs)).1), (takeNumber (c :: cs)).2) := by
  rw [take?_wordChar (isWordChar_of_digit h), takePlain, if_pos h]
  rintro _ rfl
  exact absurd h (by decide)

theorem takeWord_cons (hw : isWordChar c = true) (hc : c = '.' → cs.head? ≠ some '*') :
    takeWord (c :: cs) = (c :: (takeWord cs).1, (takeWord cs).2) := by
  rw [takeWord, if_pos hw]
  rintro _ rfl rfl
  exact hc rfl rfl

theorem takeWord_of_not (hw : isWordChar c = false) : takeWord (c :: cs) = ([], c :: cs) := by
  rw [takeWord, if_neg (by simp [hw])]
  rintro _ rfl
  exact absurd hw (by decide)

theorem takeNumber_of_no_point (h : (cs.dropWhile Char.isDigit).head? ≠ some '.') :
    takeNumber cs = (cs.takeWhile Char.isDigit, cs.dropWhile Char.isDigit) := by
  fun_cases takeNumber cs with
  | case1 _ _ he | case2 _ _ he =>
    rw [he] at h
    exact absurd rfl h
  | case3 => rfl

theorem takeNumber_of_point (h : cs.dropWhile Char.isDigit = '.' :: rest) : takeNumber cs =
    if startsDigit rest then
      (cs.takeWhile Char.isDigit ++ '.' :: rest.takeWhile Char.isDigit,
        rest.dropWhile Char.isDigit)
    else (cs.takeWhile Char.isDigit, '.' :: rest) := by
  unfold takeNumber
  rw [h]
  rfl

theorem takeWord_eq_append (cs : List Char) :
    ∃ p, cs = p ++ (takeWord cs).2 ∧ ∀ d ∈ p, isInner d = true := by
  fun_induction takeWord cs with
  | case1 cs => exact ⟨['.', '*'], rfl, List.all_eq_true.mp rfl⟩
  | case2 c cs _ hw w rest he ih =>
    obtain ⟨p, hp, hi⟩ := ih
    rw [he] at hp
    exact ⟨c :: p, by rw [hp]; rfl, List.forall_mem_cons.mpr ⟨by simp [isInner, hw], hi⟩⟩
  | case3 | case4 => exact ⟨[], rfl, by simp⟩

theorem takeNumber_eq_append (cs : List Char) :
    ∃ p, cs = p ++ (takeNumber cs).2 ∧ ∀ d ∈ p, isInner d = true := by
  have hsplit : cs.takeWhile Char.isDigit ++ cs.dropWhile Char.isDigit = cs :=
    List.takeWhile_append_dropWhile
  fun_cases takeNumber cs with
  | case1 whole after he =>
    rw [he] at hsplit
    refine ⟨cs.takeWhile Char.isDigit ++ '.' :: after.takeWhile Char.isDigit, ?_, ?_⟩
    · simpa using hsplit.symm
    · rintro d hd
      rcases List.mem_append.mp hd with hd | hd
      · exact isInner_of_mem_takeWhile hd
      · rcases List.mem_cons.mp hd with rfl | hd
        · decide
        · exact isInner_of_mem_takeWhile hd
  | case2 whole after he =>
    rw [he] at hsplit
    exact ⟨_, hsplit.symm, fun d => isInner_of_mem_takeWhile⟩
  | case3 => exact ⟨_, hsplit.symm, fun d => isInner_of_mem_takeWhile⟩

theorem takePlain_cons (c : Char) (cs : List Char) : ∃ t p rest,
    takePlain (c :: cs) = some (t, rest) ∧ cs = p ++ rest ∧ ∀ d ∈ p, isInner d = true := by
  generalize hx : c :: cs = x
  fun_cases takePlain x with
  | case1 => cases hx
  | case2 => cases hx; exact ⟨_, [], _, rfl, rfl, by simp⟩
  | case3 c cs _ hd n rest hn =>
    cases hx
    obtain ⟨p, hp, hi⟩ := takeNumber_eq_append (c :: cs)
    -- the digit that was seen is the first character of the number
    cases p with
    | nil =>
      have hl : (takeNumber (c :: cs)).2.length < (c :: cs).length := length_takeNumber hd
      rw [List.nil_append] at hp
      exact absurd (congrArg List.length hp) (by omega)
    | cons d p =>
      obtain ⟨-, hp⟩ := List.cons.inj hp
      rw [hn] at hp
      exact ⟨_, p, _, rfl, hp, (List.forall_mem_cons.mp hi).2⟩
  | case4 c cs _ _ _ w rest hw =>
    cases hx
    obtain ⟨p, hp, hi⟩ := takeWord_eq_append cs
    rw [hw] at hp
    exact ⟨_, p, _, rfl, hp, hi⟩
  | case5 => cases hx; exact ⟨_, [], _, rfl, rfl, by simp⟩

/-- A text that does not start with a quote has a first token, and the token goes on with characters
of its own only. -/
theorem take?_of_not_quote (b : Bool) (hq : isQuote c = false) (cs : List Char) : ∃ t p rest,
    take? b (c :: cs) = some (t, rest) ∧ cs = p ++ rest ∧ ∀ d ∈ p, isInner d = true := by
  generalize hx : c :: cs = x
  fun_cases take? b x
  case case1 | case2 | case3 => cases hx; exact absurd hq (by decide)
  case case18 cs' _ n rest hn =>
    cases hx
    obtain ⟨p, hp, hi⟩ := takeNumber_eq_append cs
    exact ⟨_, p, _, rfl, by rw [hn] at hp; exact hp, hi⟩
  case case20 => subst hx; exact takePlain_cons c cs
  case case5 | case7 | case9 | case11 =>
    cases hx
    exact ⟨_, ['='], _, rfl, rfl, List.all_eq_true.mp rfl⟩
  case case6 => cases hx; exact ⟨_, ['>'], _, rfl, rfl, List.all_eq_true.mp rfl⟩
  all_goals cases hx; exact ⟨_, [], _, rfl, rfl, by simp⟩

end ClientRecords.Token
