import ClientRecords.Token.Basic
/-!
Texts cut into tokens. Spaces and comments stand between tokens; every other character belongs to
exactly one. A text is refused only where a quote is left open.
-/

namespace ClientRecords.Token

/-- The characters that separate tokens. -/
def isSeparator (c : Char) : Bool := c == ' ' || c == '\t' || c == '\r' || c == '\n'

/-- Drops the separators and comments at the start of a text. A comment starts with two hyphens
and ends with its line; the first argument tells whether the text starts within one. -/
def skip : Bool → List Char → List Char
  | true, c :: cs => if c == '\n' then skip false cs else skip true cs
  | false, '-' :: '-' :: cs => skip true cs
  | false, c :: cs => if isSeparator c then skip false cs else c :: cs
  | _, [] => []

/-- The rest of a string after its opening quote, a doubled quote standing for one. -/
def takeString : List Char → Option (List Char × List Char)
  | '\'' :: '\'' :: cs => (takeString cs).map fun (s, rest) => ('\'' :: s, rest)
  | '\'' :: cs => some ([], cs)
  | c :: cs => (takeString cs).map fun (s, rest) => (c :: s, rest)
  | [] => none

/-- The rest of a quoted name after its opening quote. -/
def takeQuoted (quote : Char) : List Char → Option (List Char × List Char)
  | c :: cs =>
    if c = quote then some ([], cs)
    else (takeQuoted quote cs).map fun (s, rest) => (c :: s, rest)
  | [] => none

/-- The characters of plain names. -/
def isWordChar (c : Char) : Bool := c.isAlphanum || c == '_' || c == '.' || c == '$'

/-- The rest of a plain name; a point with a star ends it. -/
def takeWord : List Char → List Char × List Char
  | '.' :: '*' :: cs => (['.', '*'], cs)
  | c :: cs =>
    if isWordChar c then
      let (w, rest) := takeWord cs
      (c :: w, rest)
    else ([], c :: cs)
  | [] => ([], [])

/-- Does a text start with a digit? -/
def startsDigit : List Char → Bool
  | c :: _ => c.isDigit
  | [] => false

/-- Digits with an optional fraction. -/
def takeNumber (cs : List Char) : List Char × List Char :=
  let whole := cs.takeWhile Char.isDigit
  match cs.dropWhile Char.isDigit with
  | '.' :: after =>
    if startsDigit after then
      (whole ++ '.' :: after.takeWhile Char.isDigit, after.dropWhile Char.isDigit)
    else (whole, '.' :: after)
  | rest => (whole, rest)

/-- A number, a plain name or a single character at the start of a text. -/
def takePlain : List Char → Option (Token × List Char)
  | [] => none
  | '.' :: '*' :: cs => some (.other '.', '*' :: cs)
  | c :: cs =>
    if c.isDigit then
      let (n, rest) := takeNumber (c :: cs)
      some (.number (String.ofList n), rest)
    else if isWordChar c then
      let (w, rest) := takeWord cs
      some (.word (String.ofList (c :: w)), rest)
    else some (.other c, cs)

/-- The token at the start of a text. A hyphen belongs to a number right after it only where an
operand may start. -/
def take? (operand : Bool) : List Char → Option (Token × List Char)
  | '\'' :: cs => (takeString cs).map fun (s, rest) => (.string (String.ofList s), rest)
  | '"' :: cs => (takeQuoted '"' cs).map fun (s, rest) => (.word (String.ofList s), rest)
  | '\x60' :: cs => (takeQuoted '\x60' cs).map fun (s, rest) => (.word (String.ofList s), rest)
  | '?' :: cs => some (.placeholder, cs)
  | '<' :: '=' :: cs => some (.comparison .le, cs)
  | '<' :: '>' :: cs => some (.comparison .ne, cs)
  | '!' :: '=' :: cs => some (.comparison .ne, cs)
  | '<' :: cs => some (.comparison .lt, cs)
  | '>' :: '=' :: cs => some (.comparison .ge, cs)
  | '>' :: cs => some (.comparison .gt, cs)
  | '=' :: '=' :: cs => some (.comparison .eq, cs)
  | '=' :: cs => some (.comparison .eq, cs)
  | '(' :: cs => some (.openParen, cs)
  | ')' :: cs => some (.closeParen, cs)
  | ',' :: cs => some (.comma, cs)
  | '*' :: cs => some (.star, cs)
  | ';' :: cs => some (.semicolon, cs)
  | '-' :: cs =>
    if operand && startsDigit cs then
      let (n, rest) := takeNumber cs
      some (.number (String.ofList ('-' :: n)), rest)
    else some (.other '-', cs)
  | cs => takePlain cs

/-- After these tokens no operand starts, so a hyphen stands for itself. -/
def endsOperand : Token → Bool
  | .word _ | .number _ | .string _ | .closeParen | .placeholder => true
  | _ => false

theorem length_skip (b : Bool) (cs : List Char) : (skip b cs).length ≤ cs.length := by
  fun_induction skip b cs <;> simp_all <;> omega

theorem length_takeString {cs s rest : List Char} (h : takeString cs = some (s, rest)) :
    rest.length < cs.length := by
  fun_induction takeString cs generalizing s rest with
  | case1 cs ih =>
    obtain ⟨⟨s', r'⟩, he, heq⟩ := Option.map_eq_some_iff.mp h
    cases heq; have := ih he; simp; omega
  | case2 cs => cases h; simp
  | case3 c cs _ _ ih =>
    obtain ⟨⟨s', r'⟩, he, heq⟩ := Option.map_eq_some_iff.mp h
    cases heq; have := ih he; simp; omega
  | case4 => cases h

theorem length_takeQuoted {q : Char} {cs s rest : List Char}
    (h : takeQuoted q cs = some (s, rest)) : rest.length < cs.length := by
  induction cs generalizing s rest with
  | nil => cases h
  | cons c cs ih =>
    unfold takeQuoted at h
    split at h
    · cases h; simp
    · obtain ⟨⟨s', r'⟩, he, heq⟩ := Option.map_eq_some_iff.mp h
      cases heq; have := ih he; simp; omega

theorem length_takeWord (cs : List Char) : (takeWord cs).2.length ≤ cs.length := by
  fun_induction takeWord cs <;> simp_all <;> omega

theorem length_dropWhile_le (p : Char → Bool) (cs : List Char) :
    (cs.dropWhile p).length ≤ cs.length := (List.dropWhile_suffix p).length_le

theorem length_takeNumber {cs : List Char} (h : startsDigit cs = true) :
    (takeNumber cs).2.length < cs.length := by
  match cs, h with
  | c :: cs, h =>
    have hd : c.isDigit = true := h
    have h1 := length_dropWhile_le Char.isDigit cs
    rw [← List.dropWhile_cons_of_pos hd (l := cs)] at h1
    fun_cases takeNumber (c :: cs) with
    | case1 whole after heq =>
      have h2 := length_dropWhile_le Char.isDigit after
      rw [heq] at h1
      simp only [List.length_cons] at *
      omega
    | case2 whole after heq =>
      rw [heq] at h1
      simp only [List.length_cons] at *
      omega
    | case3 =>
      simp only [List.length_cons]
      omega

theorem length_takePlain {cs rest : List Char} {t : Token} (h : takePlain cs = some (t, rest)) :
    rest.length < cs.length := by
  revert h
  fun_cases takePlain cs with
  | case1 =>
    intro h
    cases h
  | case2 =>
    rintro ⟨⟩
    simp
  | case3 c cs _ hd n rest hn =>
    rintro ⟨⟩
    have := @length_takeNumber (c :: cs) hd
    rwa [hn] at this
  | case4 c cs _ _ _ w rest hw =>
    rintro ⟨⟩
    have := length_takeWord cs
    rw [hw] at this
    exact Nat.lt_succ_of_le this
  | case5 =>
    rintro ⟨⟩
    simp

/-- Every token takes at least one character. -/
theorem length_take {b : Bool} {cs rest : List Char} {t : Token}
    (h : take? b cs = some (t, rest)) : rest.length < cs.length := by
  unfold take? at h
  split at h
  case h_1 =>
    obtain ⟨⟨s, r⟩, he, heq⟩ := Option.map_eq_some_iff.mp h
    cases heq; have := length_takeString he; simp; omega
  case h_2 | h_3 =>
    obtain ⟨⟨s, r⟩, he, heq⟩ := Option.map_eq_some_iff.mp h
    cases heq; have := length_takeQuoted he; simp; omega
  case h_18 cs =>
    by_cases hd : (b && startsDigit cs) = true
    · rw [if_pos hd] at h
      cases h
      exact Nat.lt_succ_of_lt (length_takeNumber (Bool.and_eq_true_iff.mp hd).2)
    · rw [if_neg hd] at h
      cases h
      simp
  case h_19 => exact length_takePlain h
  all_goals cases h; simp; try omega

/-- The tokens of a text; `operand` tells whether an operand may start it. -/
def scanFrom (operand : Bool) (cs : List Char) : Option (List Token) :=
  match _hs : skip false cs with
  | [] => some []
  | c :: rest =>
    match _ht : take? operand (c :: rest) with
    | none => none
    | some (t, after) => (scanFrom (!t.endsOperand) after).map (t :: ·)
termination_by cs.length
decreasing_by
  have h1 := length_take _ht
  have h2 := length_skip false cs
  rw [_hs] at h2
  omega

/-- The tokens of a text, unless a quote is left open. -/
def scan? (s : String) : Option (List Token) := scanFrom true s.toList

end ClientRecords.Token
