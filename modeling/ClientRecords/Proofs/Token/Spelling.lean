import ClientRecords.Proofs.Token.Scan
/-!
Tokens written out as the text of a statement, and scanned again. A token is followed by a space
unless the two close up, and what follows a written token never goes on with it, so the scanner cuts
the text exactly where it was put together: `scanFrom_spaced`. A number may have a sign where an
operand may start.
-/

namespace ClientRecords.Token

variable {b : Bool} {c : Char} {t : Token} {cs rest : List Char} {ts us : List Token}

/-- Tokens that can be written as they are: plain names, whole numbers, strings and signs. -/
def isPlain : Token → Bool
  | .word w => match w.toList with
    | [] => false
    | c :: cs => !c.isDigit && (c :: cs).all isWordChar
  | .number n => !n.toList.isEmpty && n.toList.all Char.isDigit
  | .other _ => false
  | _ => true

/-- The functions whose name closes up with the parenthesis after it. -/
def calledWords : List Keyword := [.count, .sum, .coalesce, .strftime]

/-- Does no space stand between two tokens? -/
def isTight (before t : Token) : Bool :=
  closeUp before t || (t == .openParen && before.isAny calledWords)

/-- The text of the tokens that follow a token. A space stands between two that are not close. -/
def spaced (close : Token → Token → Bool) : Token → List Token → List Char
  | _, [] => []
  | before, t :: ts =>
    (if close before t then [] else [' ']) ++ (t.text.toList ++ spaced close t ts)

/-- The text of the tokens that follow a token, with the spaces between them. -/
def spellAfter : Token → List Token → List Char := spaced isTight

/-- The text of a list of tokens. -/
def spell : List Token → List Char
  | [] => []
  | t :: ts => t.text.toList ++ spellAfter t ts

/-- May an operand start after a list of tokens? -/
def operandAfter (b : Bool) (ts : List Token) : Bool := ts.foldl (fun _ t => !t.endsOperand) b

@[simp] theorem spellAfter_nil (before : Token) : spellAfter before [] = [] := rfl

theorem spellAfter_cons (before t : Token) (ts : List Token) : spellAfter before (t :: ts) =
    (if isTight before t then [] else [' ']) ++ (t.text.toList ++ spellAfter t ts) := rfl

theorem isPlain_word_iff {w : String} : (Token.word w).isPlain = true ↔
    ∃ c cs, w.toList = c :: cs ∧ c.isDigit = false ∧ ∀ d ∈ w.toList, isWordChar d = true := by
  cases he : w.toList with
  | nil => simp [isPlain, he]
  | cons c cs => simp [isPlain, he, List.all_eq_true]

/-! ### Where a token ends -/

/-- No character at the start of a text goes on with a token before it. -/
def Breaks (cs : List Char) : Prop := ∀ c ∈ cs.head?, c = ' ' ∨ c = '(' ∨ c = ')' ∨ c = ','

theorem breaks_nil : Breaks [] := by rintro _ ⟨⟩

theorem breaks_cons (h : c = ' ' ∨ c = '(' ∨ c = ')' ∨ c = ',') : Breaks (c :: cs) := by
  rintro _ ⟨⟩; exact h

theorem Breaks.head?_ne (h : Breaks rest) (hc : ¬ (c = ' ' ∨ c = '(' ∨ c = ')' ∨ c = ',')) :
    rest.head? ≠ some c := fun he => hc (h c he)

theorem Breaks.takeWhile_eq {p : Char → Bool} (h : Breaks rest)
    (hp : ∀ c, (c = ' ' ∨ c = '(' ∨ c = ')' ∨ c = ',') → p c = false) : rest.takeWhile p = [] := by
  cases rest with
  | nil => rfl
  | cons c rest => rw [List.takeWhile_cons_of_neg (by simp [hp c (h c rfl)])]

theorem Breaks.dropWhile_eq {p : Char → Bool} (h : Breaks rest)
    (hp : ∀ c, (c = ' ' ∨ c = '(' ∨ c = ')' ∨ c = ',') → p c = false) :
    rest.dropWhile p = rest := by
  cases rest with
  | nil => rfl
  | cons c rest => rw [List.dropWhile_cons_of_neg (by simp [hp c (h c rfl)])]

/-! ### Names and numbers -/

theorem takeWord_append (hr : Breaks rest) : ∀ {w : List Char}, (∀ d ∈ w, isWordChar d = true) →
    takeWord (w ++ rest) = (w, rest)
  | [], _ => by
    cases rest with
    | nil => rfl
    | cons c rest =>
      exact takeWord_of_not (by rcases hr c rfl with rfl | rfl | rfl | rfl <;> decide)
  | c :: w, h => by
    have ih := takeWord_append hr fun d hd => h d (List.mem_cons_of_mem _ hd)
    rw [List.cons_append, takeWord_cons (h c List.mem_cons_self), ih]
    -- no star follows the character: neither in the name nor behind it
    rintro - hs
    cases w with
    | nil => exact hr.head?_ne (by decide) (c := '*') hs
    | cons d w =>
      cases hs
      exact absurd (h '*' (by simp)) (by decide)

theorem takeWord_starred (h : ∀ d ∈ cs, isWordChar d = true) :
    takeWord (cs ++ '.' :: '*' :: rest) = (cs ++ ['.', '*'], rest) := by
  induction cs with
  | nil => rfl
  | cons c cs ih =>
    rw [List.cons_append, takeWord_cons (h c List.mem_cons_self),
      ih fun d hd => h d (List.mem_cons_of_mem c hd)]
    · rfl
    · rintro - hs
      cases cs with
      | nil => cases hs
      | cons d cs =>
        cases hs
        exact absurd (h '*' (by simp)) (by decide)

theorem takeNumber_append (hr : Breaks rest) (h : ∀ d ∈ cs, d.isDigit = true) :
    takeNumber (cs ++ rest) = (cs, rest) := by
  have hd : ∀ c, (c = ' ' ∨ c = '(' ∨ c = ')' ∨ c = ',') → c.isDigit = false := by
    rintro c (rfl | rfl | rfl | rfl) <;> decide
  have ht : (cs ++ rest).takeWhile Char.isDigit = cs := by
    rw [List.takeWhile_append_of_pos h, hr.takeWhile_eq hd, List.append_nil]
  have hw : (cs ++ rest).dropWhile Char.isDigit = rest := by
    rw [List.dropWhile_append_of_pos h, hr.dropWhile_eq hd]
  rw [takeNumber_of_no_point (by rw [hw]; exact hr.head?_ne (by decide)), ht, hw]

/-! ### Tokens and their texts -/

theorem take?_word {w : String} (hw : isPlain (.word w) = true) (hr : Breaks rest) :
    take? b (w.toList ++ rest) = some (.word w, rest) := by
  obtain ⟨c, cs, he, hd, hc⟩ := isPlain_word_iff.mp hw
  have hofList : String.ofList (c :: cs) = w := by rw [← he, String.ofList_toList]
  rw [he] at hc
  have hword := takeWord_append hr (w := cs) fun d hd => hc d (List.mem_cons_of_mem _ hd)
  rw [he, List.cons_append, take?_wordChar (hc c List.mem_cons_self), takePlain,
    if_neg (by simp [hd]), if_pos (hc c List.mem_cons_self), hword]
  · exact congrArg (fun w => some (Token.word w, rest)) hofList
  · rintro r rfl hs
    cases cs with
    | nil => exact hr.head?_ne (by decide) (c := '*') (by rw [← List.nil_append rest, hs]; rfl)
    | cons d cs => cases hs; exact absurd (hc '*' (by simp)) (by decide)

theorem take?_starred {w : String} (h : (Token.word w).isPlain = true) :
    take? b (w.toList ++ '.' :: '*' :: rest) = some (.word (w ++ ".*"), rest) := by
  obtain ⟨c, cs, he, hd, hw⟩ := isPlain_word_iff.mp h
  have hc : isWordChar c = true := hw c (by rw [he]; exact List.mem_cons_self)
  have hcs : ∀ d ∈ cs, isWordChar d = true := fun d hd =>
    hw d (by rw [he]; exact List.mem_cons_of_mem c hd)
  have hname : String.ofList (c :: (cs ++ ['.', '*'])) = w ++ ".*" := by
    rw [← List.cons_append, ← he, String.ofList_append, String.ofList_toList]
  rw [he, List.cons_append, take?_wordChar hc, takePlain, if_neg (by simp [hd]), if_pos hc,
    takeWord_starred hcs]
  · exact congrArg (fun w => some (Token.word w, rest)) hname
  · rintro r rfl hs
    cases cs with
    | nil => cases hs
    | cons d cs => cases hs; exact absurd (hcs '*' (by simp)) (by decide)

theorem take?_number {n : String} (hn : isPlain (.number n) = true) (hr : Breaks rest) :
    take? b (n.toList ++ rest) = some (.number n, rest) := by
  obtain ⟨hne, hall⟩ := Bool.and_eq_true_iff.mp hn
  have hdigit : ∀ d ∈ n.toList, d.isDigit = true := List.all_eq_true.mp hall
  have hnum := takeNumber_append hr hdigit
  cases he : n.toList with
  | nil => rw [he] at hne; cases hne
  | cons c cs =>
    have hd : c.isDigit = true := hdigit c (by rw [he]; exact List.mem_cons_self)
    have hw : isWordChar c = true := by simp [isWordChar, Char.isAlphanum, hd]
    rw [he, List.cons_append] at hnum
    rw [List.cons_append, take?_wordChar hw, takePlain, if_pos hd, hnum]
    · exact congrArg (fun n => some (Token.number n, rest)) (by rw [← he, String.ofList_toList])
    · rintro r rfl; exact absurd hd (by decide)

theorem take?_string (s : String) (hr : rest.head? ≠ some '\'') :
    take? b ((quoted s).toList ++ rest) = some (.string s, rest) := by
  rw [toList_quoted, List.cons_append, List.append_assoc, List.singleton_append, take?,
    takeString_doubled hr]
  exact congrArg (fun s => some (Token.string s, rest)) String.ofList_toList

theorem take?_comparison (op : Comparison) (hr : Breaks rest) :
    take? b (op.symbol.toList ++ rest) = some (.comparison op, rest) := by
  have heq : ∀ r, rest ≠ '=' :: r := by rintro r rfl; exact absurd (hr _ rfl) (by decide)
  have hgt : ∀ r, rest ≠ '>' :: r := by rintro r rfl; exact absurd (hr _ rfl) (by decide)
  cases op with
  | ne | ge | le => rfl
  | eq | gt | lt =>
    simp only [Comparison.symbol, String.reduceToList, List.cons_append, List.nil_append]
    unfold take?
    split <;> simp_all

theorem take?_text (ht : t.isPlain = true) (hr : Breaks rest ∨ t = .openParen) :
    take? b (t.text.toList ++ rest) = some (t, rest) := by
  rcases hr with hr | rfl
  · cases t with
    | word w => exact take?_word ht hr
    | number n => exact take?_number ht hr
    | string s => exact take?_string s (hr.head?_ne (by decide))
    | comparison op => exact take?_comparison op hr
    | placeholder | openParen | closeParen | comma | star | semicolon => rfl
    | other c => cases ht
  · rfl

/-! ### Lists of tokens -/

/-- Items within parentheses, with commas between them. Behind a comma a blank stands before the
rest, which is then spelled as behind the parenthesis. -/
theorem spellAfter_list {xs : List Token} (h : ∀ x ∈ xs, isTight .comma x = false) :
    spellAfter .openParen (List.intercalate [.comma] (xs.map fun x => [x]) ++ .closeParen :: ts)
      = List.intercalate [',', ' '] (xs.map fun x => x.text.toList)
        ++ ')' :: spellAfter .closeParen ts := by
  have htight : ∀ x, isTight .openParen x = true := fun x => by simp [isTight, closeUp]
  have hcomma : ∀ x, isTight x .comma = true := fun x => by simp [isTight, closeUp]
  have hclose : ∀ x, isTight x .closeParen = true := fun x => by simp [isTight, closeUp]
  induction xs with
  | nil => rfl
  | cons x xs ih =>
    cases xs with
    | nil =>
      simp only [List.map_cons, List.map_nil, List.intercalate_singleton, List.singleton_append,
        spellAfter_cons, htight, hclose, if_true, List.nil_append]
      rfl
    | cons y ys =>
      obtain ⟨-, hy⟩ := List.forall_mem_cons.mp h
      have hrest := ih hy
      have hblank : isTight .comma y = false := hy y List.mem_cons_self
      obtain ⟨more, hmore⟩ : ∃ more, List.intercalate [.comma] ((y :: ys).map fun x => [x])
          ++ .closeParen :: ts = y :: more := by
        cases ys <;> simp [List.intercalate_cons_cons]
      have hleft : List.intercalate [.comma] ((x :: y :: ys).map fun x => [x]) ++ .closeParen :: ts
          = x :: .comma :: y :: more := by
        rw [← hmore]
        simp [List.intercalate_cons_cons]
      have hright : List.intercalate [',', ' '] ((x :: y :: ys).map fun x => x.text.toList)
          = x.text.toList ++ ',' :: ' ' ::
            List.intercalate [',', ' '] ((y :: ys).map fun x => x.text.toList) := by
        simp [List.intercalate_cons_cons]
      rw [hmore, spellAfter_cons, if_pos (htight y), List.nil_append] at hrest
      rw [hleft, hright, spellAfter_cons, spellAfter_cons, spellAfter_cons, if_pos (htight x),
        if_pos (hcomma x), hblank, hrest]
      simp [text]

/-- A written token starts with a character that is not skipped. -/
theorem text_eq_cons (ht : t.isPlain = true) :
    ∃ c cs, t.text.toList = c :: cs ∧ isSeparator c = false ∧ c ≠ '-' := by
  cases t with
  | word w =>
    obtain ⟨c, cs, he, -, hc⟩ := isPlain_word_iff.mp ht
    exact ⟨c, cs, he, not_separator_of_wordChar (hc c (by rw [he]; exact List.mem_cons_self))⟩
  | number n =>
    obtain ⟨hne, hall⟩ := Bool.and_eq_true_iff.mp ht
    cases he : n.toList with
    | nil => rw [he] at hne; cases hne
    | cons c cs =>
      have hd : c.isDigit = true :=
        List.all_eq_true.mp hall c (by rw [he]; exact List.mem_cons_self)
      exact ⟨c, cs, he, not_separator_of_wordChar (by simp [isWordChar, Char.isAlphanum, hd])⟩
  | string s => exact ⟨'\'', _, toList_quoted s, by decide, by decide⟩
  | comparison op => cases op <;> exact ⟨_, _, rfl, by decide, by decide⟩
  | placeholder | openParen | closeParen | comma | star | semicolon =>
    exact ⟨_, _, rfl, by decide, by decide⟩
  | other c => cases ht

/-- A token is read off the text that starts with it. -/
theorem scanFrom_text (ht : t.isPlain = true) (hr : Breaks rest ∨ t = .openParen) :
    scanFrom b (t.text.toList ++ rest) = (scanFrom (!t.endsOperand) rest).map (t :: ·) := by
  obtain ⟨c, cs, he, hs, hc⟩ := text_eq_cons ht
  have htake := take?_text (b := b) ht hr
  rw [he, List.cons_append] at htake ⊢
  exact scanFrom_of_take (skip_of_not_separator hs fun h => absurd h hc) htake

/-- Can a token be written as it is? One with a sign only where an operand may start. -/
def IsWritable (operand : Bool) (t : Token) : Prop :=
  t.isPlain = true ∨ operand = true ∧ ∃ ds, t = .number (String.ofList ('-' :: ds)) ∧ ds ≠ [] ∧
    ∀ c ∈ ds, c.isDigit = true

/-- Have all tokens of a list a property that depends on whether an operand may start? -/
def Along (P : Bool → Token → Prop) : Bool → List Token → Prop
  | _, [] => True
  | operand, t :: ts => P operand t ∧ Along P (!t.endsOperand) ts

/-- Can a list of tokens be written as it is? -/
def AreWritable : Bool → List Token → Prop := Along IsWritable

theorem along_append {P : Bool → Token → Prop} :
    Along P b (ts ++ us) ↔ Along P b ts ∧ Along P (operandAfter b ts) us := by
  induction ts generalizing b with
  | nil => simp [Along, operandAfter]
  | cons t ts ih =>
    rw [List.cons_append, Along, Along, ih, and_assoc]
    rfl

theorem Along.imp {P Q : Bool → Token → Prop} (hpq : ∀ {b t}, P b t → Q b t) :
    ∀ {b : Bool} {ts : List Token}, Along P b ts → Along Q b ts
  | _, [], _ => trivial
  | _, _ :: _, ⟨ht, hts⟩ => ⟨hpq ht, hts.imp hpq⟩

theorem areWritable_append : AreWritable b (ts ++ us) ↔
    AreWritable b ts ∧ AreWritable (operandAfter b ts) us := along_append

theorem areWritable_of_isPlain (h : ∀ t ∈ ts, t.isPlain = true) : AreWritable b ts := by
  induction ts generalizing b with
  | nil => trivial
  | cons t ts ih =>
    exact ⟨.inl (h t List.mem_cons_self), ih fun u hu => h u (List.mem_cons_of_mem t hu)⟩

/-- Is a token read off every text that starts with it and breaks off behind it? -/
def IsRead (operand : Bool) (t : Token) : Prop :=
  ∀ rest, Breaks rest ∨ t = .openParen →
    scanFrom operand (t.text.toList ++ rest) = (scanFrom (!t.endsOperand) rest).map (t :: ·)

theorem isRead_of_isWritable (ht : IsWritable b t) : IsRead b t := by
  intro rest hr
  rcases ht with ht | ⟨rfl, ds, rfl, hne, hd⟩
  · exact scanFrom_text ht hr
  · obtain ⟨c, cs, rfl⟩ := List.exists_cons_of_ne_nil hne
    have hc : c.isDigit = true := hd c List.mem_cons_self
    have hstart : startsDigit (c :: cs ++ rest) = true := hc
    have htake : take? true ('-' :: (c :: cs ++ rest))
        = some (.number (String.ofList ('-' :: c :: cs)), rest) := by
      rw [take?, Bool.true_and, if_pos hstart, takeNumber_append (hr.resolve_right nofun) hd]
    rw [text, String.toList_ofList]
    refine scanFrom_of_take (skip_of_not_separator (by decide) fun _ hdash => ?_) htake
    cases hdash
    exact absurd hc (by decide)

/-- Do two tokens stand close only where a comma or a parenthesis parts them? -/
def IsParting (close : Token → Token → Bool) : Prop :=
  ∀ before t, close before t = true →
    t = .comma ∨ t = .closeParen ∨ before = .openParen ∨ t = .openParen

theorem isParting_closeUp : IsParting closeUp := by
  intro before t h
  simp only [closeUp, Bool.or_eq_true, beq_iff_eq] at h
  rcases h with (hcomma | hclose) | hopen
  · exact .inl hcomma
  · exact .inr (.inl hclose)
  · exact .inr (.inr (.inl hopen))

theorem isParting_isTight : IsParting isTight := by
  intro before t h
  rcases Bool.or_eq_true_iff.mp h with h | h
  · exact isParting_closeUp before t h
  · exact .inr (.inr (.inr (beq_iff_eq.mp (Bool.and_eq_true_iff.mp h).1)))

section

variable {close : Token → Token → Bool} {before : Token}

theorem breaks_spaced (hclose : IsParting close) (ht : before ≠ .openParen) (hr : Breaks rest) :
    Breaks (spaced close before ts ++ rest) := by
  cases ts with
  | nil => exact hr
  | cons t ts =>
    rw [spaced]
    cases h : close before t with
    | false => exact breaks_cons (.inl rfl)
    | true =>
      rcases hclose before t h with rfl | rfl | hopen | rfl
      · exact breaks_cons (c := ',') (.inr (.inr (.inr rfl)))
      · exact breaks_cons (c := ')') (.inr (.inr (.inl rfl)))
      · exact absurd hopen ht
      · exact breaks_cons (c := '(') (.inr (.inl rfl))

/-- Tokens that are read one by one are read in a row, whatever text breaks off after them. -/
theorem scanFrom_spaced (hclose : IsParting close) (hr : Breaks rest) (h : Along IsRead b ts) :
    scanFrom b (spaced close before ts ++ rest) =
      (scanFrom (operandAfter b ts) rest).map (ts ++ ·) := by
  induction ts generalizing b before with
  | nil => simp [spaced, operandAfter]
  | cons t ts ih =>
    obtain ⟨ht, hts⟩ := h
    have hgap : scanFrom b (spaced close before (t :: ts) ++ rest)
        = scanFrom b (t.text.toList ++ (spaced close t ts ++ rest)) := by
      rw [spaced, List.append_assoc, List.append_assoc]
      cases close before t with
      | true => rfl
      | false => exact scanFrom_separator (by decide)
    have hfollow : Breaks (spaced close t ts ++ rest) ∨ t = .openParen := by
      by_cases hopen : t = .openParen
      · exact .inr hopen
      · exact .inl (breaks_spaced hclose hopen hr)
    rw [hgap, ht _ hfollow, ih hts, Option.map_map]
    rfl

end

/-- What is written out is scanned as it was, whatever text breaks off after it. -/
theorem scanFrom_spell_of_areWritable (hr : Breaks rest) (h : AreWritable b ts) :
    scanFrom b (spell ts ++ rest) = (scanFrom (operandAfter b ts) rest).map (ts ++ ·) := by
  -- the first token stands close to an opening parenthesis that is not there
  have htight : spell ts = spellAfter .openParen ts := by
    cases ts <;> simp [spellAfter_cons, spell, isTight, closeUp]
  rw [htight]
  exact scanFrom_spaced isParting_isTight hr (h.imp isRead_of_isWritable)

theorem scanFrom_spell (hr : Breaks rest) (h : ∀ t ∈ ts, t.isPlain = true) :
    scanFrom b (spell ts ++ rest) = (scanFrom (operandAfter b ts) rest).map (ts ++ ·) :=
  scanFrom_spell_of_areWritable hr (areWritable_of_isPlain h)

/-- A list of plain tokens is scanned from its text. -/
theorem scan?_spell (h : ∀ t ∈ ts, t.isPlain = true) :
    scan? (String.ofList (spell ts)) = some ts := by
  have hscan := scanFrom_spell (b := true) breaks_nil h
  have hnil : scanFrom (operandAfter true ts) [] = some [] := scanFrom_of_skip_nil rfl
  rw [List.append_nil, hnil] at hscan
  simpa [scan?] using hscan

end ClientRecords.Token
