import Mathlib.Data.List.Infix
import ClientRecords.Proofs.Token.Context
import ClientRecords.Proofs.Token.Lookahead
import ClientRecords.Proofs.Token.Spelling
/-!
Scanning a text and rendering its tokens. Rendering spaces the tokens in its own way, so each of
them has to be read again whatever stood behind it before. Those of a text without quoted names can
be (`IsBare`): their texts go on over no character that rendering puts behind them, and a sign is
parted from a number by a space unless it belongs to it. A point in front of a star is the one token
that spacing joins to something else, a name (`scan?_render`).
-/

namespace ClientRecords.Token

variable {b : Bool} {c : Char} {t before : Token} {cs ds rest p : List Char} {ts : List Token}

/-! ### Texts without quoted names -/

/-- Is it a name within double quotes or backticks? -/
def Context.isName : Context → Bool
  | .quoted q => q == '"' || q == '\x60'
  | _ => false

/-- Does the walk over a text get within a quoted name? -/
def hasQuotedName (cs : List Char) : Bool := cs.inits.any fun p => (Context.after .plain p).isName

-- in a comment or a string a quote opens no name
example : hasQuotedName "a = \"b\"".toList = true := by decide
example : hasQuotedName "a = '\"' -- \"b\"".toList = false := by decide

theorem not_hasQuotedName_iff : hasQuotedName cs = false ↔
    ∀ p, p <+: cs → (Context.after .plain p).isName = false := by
  simp [hasQuotedName]

/-- The walk gets to every context within a text behind what is skipped before it. -/
theorem exists_after_of_skip {b : Bool} (hp : p <+: skip b cs)
    (hname : (Context.after .plain p).isName = true) :
    ∃ q, q <+: cs ∧ Context.after (if b then .comment else .plain) q = Context.after .plain p := by
  fun_induction skip b cs with
  | case1 c cs hc ih =>
    obtain rfl : c = '\n' := by simpa using hc
    obtain ⟨q, hq, hafter⟩ := ih hp
    exact ⟨'\n' :: q, List.cons_prefix_cons.mpr ⟨rfl, hq⟩, hafter⟩
  | case2 c cs hc ih =>
    obtain ⟨q, hq, hafter⟩ := ih hp
    refine ⟨c :: q, List.cons_prefix_cons.mpr ⟨rfl, hq⟩, ?_⟩
    rw [if_pos rfl, Context.after, if_neg (by simpa using hc)]
    exact hafter
  | case3 cs ih =>
    obtain ⟨q, hq, hafter⟩ := ih hp
    exact ⟨'-' :: '-' :: q, by simpa using hq, hafter⟩
  | case4 c cs hn hs ih =>
    obtain ⟨q, hq, hafter⟩ := ih hp
    have hm : c ≠ '-' := by rintro rfl; exact absurd hs (by decide)
    refine ⟨c :: q, List.cons_prefix_cons.mpr ⟨rfl, hq⟩, ?_⟩
    exact (Context.after_plain_of_not_quote (not_isQuote_of_separator hs) fun h =>
      absurd h hm).trans hafter
  | case5 => exact ⟨p, hp, rfl⟩
  | case6 =>
    rw [List.prefix_nil.mp hp] at hname
    cases hname

theorem not_hasQuotedName_skip (h : hasQuotedName cs = false) :
    hasQuotedName (skip false cs) = false := by
  rw [not_hasQuotedName_iff] at h ⊢
  intro p hp
  refine Bool.eq_false_iff.mpr fun hname => ?_
  obtain ⟨q, hq, hafter⟩ := exists_after_of_skip hp hname
  have hnot : (Context.after .plain q).isName = false := h q hq
  rw [show Context.after .plain q = Context.after .plain p from hafter, hname] at hnot
  cases hnot

/-- The walk goes on behind the token that a text starts with, which is no quoted name. -/
theorem not_hasQuotedName_take (h : hasQuotedName (c :: cs) = false)
    (hs : skip false (c :: cs) = c :: cs) (ht : take? b (c :: cs) = some (t, rest)) :
    c ≠ '"' ∧ c ≠ '\x60' ∧ hasQuotedName rest = false := by
  rw [not_hasQuotedName_iff] at h
  have hfirst : (Context.after .plain [c]).isName = false := h [c] (by simp)
  rw [Context.after_plain_cons (by simp), Context.after] at hfirst
  refine ⟨(by rintro rfl; cases hfirst), (by rintro rfl; cases hfirst), ?_⟩
  rw [not_hasQuotedName_iff]
  intro p hp
  cases hq : isQuote c with
  | true =>
    obtain rfl : c = '\'' := by
      simp only [Context.step, hq, if_true, Context.isName, Bool.or_eq_false_iff] at hfirst
      simpa [isQuote, hfirst] using hq
    obtain ⟨⟨s, r⟩, htake, he⟩ := Option.map_eq_some_iff.mp ht
    cases he
    obtain ⟨rfl, -⟩ := takeString_eq_some_iff.mp htake
    rw [← Context.after_doubled s]
    exact h ('\'' :: (doubled s ++ '\'' :: p)) (by simpa using hp)
  | false =>
    obtain ⟨t', q, rest', htake, rfl, hinner⟩ := take?_of_not_quote b hq cs
    rw [ht] at htake
    cases htake
    have hprefix : q ++ p <+: q ++ rest := (List.prefix_append_right_inj q).mpr hp
    have hdash : c = '-' → (q ++ p).head? ≠ some '-' := by
      rintro rfl hhead
      obtain ⟨r, hr⟩ := List.head?_eq_some_iff.mp hhead
      obtain ⟨more, hmore⟩ := hr ▸ hprefix
      exact head?_ne_of_skip hs (by rw [← hmore]; rfl)
    have hafter : Context.after .plain (c :: (q ++ p)) = Context.after .plain p := by
      rw [Context.after_plain_of_not_quote hq hdash, Context.after_plain_inner hinner]
    rw [← hafter]
    exact h _ (List.cons_prefix_cons.mpr ⟨rfl, hprefix⟩)

/-! ### The tokens of such texts -/

/-- Digits with an optional fraction. -/
inductive IsDecimal : List Char → Prop
  | whole {ds : List Char} (hne : ds ≠ []) (hd : ∀ c ∈ ds, c.isDigit = true) : IsDecimal ds
  | fraction {ds es : List Char} (hne : ds ≠ []) (hd : ∀ c ∈ ds, c.isDigit = true)
      (hne' : es ≠ []) (he : ∀ c ∈ es, c.isDigit = true) : IsDecimal (ds ++ '.' :: es)

/-- Is a character a token of its own? -/
def standsAlone (c : Char) : Bool :=
  c == '!' || c == '-' || !(marks.contains c || isSeparator c || isWordChar c)

/-- The tokens of texts without quoted names, a point in front of a star apart; a number has a sign
only where an operand may start. -/
inductive IsBare (operand : Bool) : Token → Prop
  | plain {t : Token} (h : t.isPlain = true) : IsBare operand t
  | starred {w : String} (h : (Token.word w).isPlain = true) : IsBare operand (.word (w ++ ".*"))
  | number {ds : List Char} (h : IsDecimal ds) : IsBare operand (.number (String.ofList ds))
  | signed {ds : List Char} (ho : operand = true) (h : IsDecimal ds) :
      IsBare operand (.number (String.ofList ('-' :: ds)))
  | alone {c : Char} (h : standsAlone c = true) : IsBare operand (.other c)

def AreBare : Bool → List Token → Prop := Along IsBare

theorem standsAlone_iff : standsAlone c = true ↔ c = '!' ∨ c = '-' ∨
    c ∉ marks ∧ isSeparator c = false ∧ isWordChar c = false := by
  simp [standsAlone, or_assoc, and_assoc]

theorem takeWhile_digit_ne_nil (h : startsDigit cs = true) : cs.takeWhile Char.isDigit ≠ [] := by
  cases cs with
  | nil => cases h
  | cons c cs =>
    have hd : c.isDigit = true := h
    rw [List.takeWhile_cons_of_pos hd]
    exact List.cons_ne_nil _ _

theorem isDigit_of_mem_takeWhile : ∀ c ∈ cs.takeWhile Char.isDigit, c.isDigit = true :=
  List.all_eq_true.mp List.all_takeWhile

theorem isDecimal_takeNumber (h : startsDigit cs = true) : IsDecimal (takeNumber cs).1 := by
  have hne := takeWhile_digit_ne_nil h
  fun_cases takeNumber cs with
  | case1 whole after hpoint hafter =>
    exact .fraction hne isDigit_of_mem_takeWhile (takeWhile_digit_ne_nil hafter)
      isDigit_of_mem_takeWhile
  | case2 | case3 => exact .whole hne isDigit_of_mem_takeWhile

theorem takeWord_cases (cs : List Char) : (∀ d ∈ (takeWord cs).1, isWordChar d = true) ∨
    ∃ w, (∀ d ∈ w, isWordChar d = true) ∧ (takeWord cs).1 = w ++ ['.', '*'] := by
  fun_induction takeWord cs with
  | case1 cs => exact .inr ⟨[], List.forall_mem_nil _, rfl⟩
  | case2 c cs _ hw w rest he ih =>
    rw [he] at ih
    rcases ih with ih | ⟨v, hv, rfl⟩
    · exact .inl (List.forall_mem_cons.mpr ⟨hw, ih⟩)
    · exact .inr ⟨c :: v, List.forall_mem_cons.mpr ⟨hw, hv⟩, rfl⟩
  | case3 | case4 => exact .inl (List.forall_mem_nil _)

theorem isPlain_of_wordChars (hd : c.isDigit = false) (hc : ∀ d ∈ c :: cs, isWordChar d = true) :
    (Token.word (String.ofList (c :: cs))).isPlain = true :=
  isPlain_word_iff.mpr ⟨c, cs, String.toList_ofList, hd, by rwa [String.toList_ofList]⟩

theorem isBare_of_takePlain (hm : c = '!' ∨ c ∉ marks) (hs : isSeparator c = false)
    (ht : takePlain (c :: cs) = some (t, rest)) (hdot : t ≠ .other '.') : IsBare b t := by
  generalize hx : c :: cs = x at ht
  fun_cases takePlain x with
  | case1 => cases hx
  | case2 =>
    cases ht
    exact absurd rfl hdot
  | case3 d ds hp hd n after hn =>
    cases hx
    rw [takePlain, if_pos hd, hn] at ht
    · cases ht
      have hdecimal : IsDecimal (takeNumber (c :: cs)).1 := isDecimal_takeNumber hd
      rw [hn] at hdecimal
      exact .number hdecimal
    · exact hp
  | case4 d ds hp hd hw w after hn =>
    cases hx
    have hd : c.isDigit = false := by simpa using hd
    rw [takePlain, if_neg (by simp [hd]), if_pos hw, hn] at ht
    · cases ht
      have hcases := takeWord_cases cs
      rw [hn] at hcases
      rcases hcases with hword | ⟨v, hv, rfl⟩
      · exact .plain (isPlain_of_wordChars hd (List.forall_mem_cons.mpr ⟨hw, hword⟩))
      · have hname : String.ofList (c :: (v ++ ['.', '*'])) = String.ofList (c :: v) ++ ".*" := by
          rw [← List.cons_append, String.ofList_append]
        rw [hname]
        exact .starred (isPlain_of_wordChars hd (List.forall_mem_cons.mpr ⟨hw, hv⟩))
    · exact hp
  | case5 d ds hp hd hw =>
    cases hx
    rw [takePlain, if_neg hd, if_neg hw] at ht
    · cases ht
      refine .alone (standsAlone_iff.mpr (hm.imp_right fun hm => .inr ⟨hm, hs, ?_⟩))
      simpa using hw
    · exact hp

theorem isBare_of_take (hq : c ≠ '"') (hb : c ≠ '\x60') (hs : isSeparator c = false)
    (ht : take? b (c :: cs) = some (t, rest)) (hdot : t ≠ .other '.') : IsBare b t := by
  generalize hx : c :: cs = x at ht
  unfold take? at ht
  split at ht
  case h_1 =>
    obtain ⟨_, _, he⟩ := Option.map_eq_some_iff.mp ht
    cases he
    exact .plain rfl
  case h_2 => cases hx; exact absurd rfl hq
  case h_3 => cases hx; exact absurd rfl hb
  case h_18 ds =>
    by_cases hstart : (b && startsDigit ds) = true
    · obtain ⟨rfl, hd⟩ := Bool.and_eq_true_iff.mp hstart
      rw [if_pos hstart] at ht
      cases ht
      exact .signed rfl (isDecimal_takeNumber hd)
    · rw [if_neg hstart] at ht
      cases ht
      exact .alone rfl
  case h_19 =>
    subst hx
    refine isBare_of_takePlain (or_iff_not_imp_left.mpr fun hbang hm => ?_) hs ht hdot
    -- every other sign has a case of its own
    simp only [marks, List.mem_cons, List.not_mem_nil, or_false] at hm
    rcases hm with rfl | rfl | rfl | rfl | rfl | rfl | rfl | rfl | rfl | rfl | rfl | rfl |
      rfl | rfl <;> solve_by_elim
  all_goals cases ht; exact .plain rfl

/-- The tokens of a text without quoted names, and without a point in front of a star. -/
theorem areBare_of_scanFrom (h : scanFrom b cs = some ts) (hname : hasQuotedName cs = false)
    (hdot : Token.other '.' ∉ ts) : AreBare b ts := by
  fun_induction scanFrom b cs generalizing ts with
  | case1 =>
    cases h
    trivial
  | case2 => cases h
  | case3 b cs c rest hs t after ht ih =>
    obtain ⟨us, hus, rfl⟩ := Option.map_eq_some_iff.mp h
    rw [List.mem_cons, not_or] at hdot
    have hskip : skip false (c :: rest) = c :: rest := hs ▸ skip_skip false cs
    have hrest : hasQuotedName (c :: rest) = false := hs ▸ not_hasQuotedName_skip hname
    obtain ⟨hdouble, hback, hafter⟩ := not_hasQuotedName_take hrest hskip ht
    have hbare := isBare_of_take hdouble hback (not_separator_of_skip hskip) ht (Ne.symm hdot.1)
    exact ⟨hbare, ih hus hafter hdot.2⟩

/-! ### Reading them back -/

theorem Breaks.not_digit (hr : Breaks rest) : ∀ c ∈ rest.head?, c.isDigit = false := by
  intro c hc
  rcases hr c hc with rfl | rfl | rfl | rfl <;> decide

theorem IsDecimal.exists_cons (h : IsDecimal ds) :
    ∃ c cs, ds = c :: cs ∧ c.isDigit = true := by
  cases h with
  | whole hne hd =>
    obtain ⟨c, cs, rfl⟩ := List.exists_cons_of_ne_nil hne
    exact ⟨c, cs, rfl, hd c List.mem_cons_self⟩
  | fraction hne hd =>
    obtain ⟨c, cs, rfl⟩ := List.exists_cons_of_ne_nil hne
    exact ⟨c, _, rfl, hd c List.mem_cons_self⟩

theorem IsDecimal.takeNumber_append (h : IsDecimal ds) (hr : Breaks rest) :
    takeNumber (ds ++ rest) = (ds, rest) := by
  cases h with
  | whole hne hd => exact Token.takeNumber_append hr hd
  | @fraction ds es hne hd hne' he =>
    obtain ⟨e, es, rfl⟩ := List.exists_cons_of_ne_nil hne'
    have hpoint : ¬Char.isDigit '.' = true := by decide
    have hstart : startsDigit (e :: es ++ rest) = true := he e List.mem_cons_self
    obtain ⟨htake, hdrop⟩ := takeWhile_of_stop hr.not_digit
    have hwhole : (ds ++ '.' :: (e :: es ++ rest)).dropWhile Char.isDigit
        = '.' :: (e :: es ++ rest) := by
      rw [List.dropWhile_append_of_pos hd, List.dropWhile_cons_of_neg hpoint]
    rw [List.append_assoc, List.cons_append, takeNumber_of_point hwhole, if_pos hstart,
      List.takeWhile_append_of_pos hd, List.takeWhile_cons_of_neg hpoint,
      List.takeWhile_append_of_pos he, List.dropWhile_append_of_pos he, htake, hdrop]
    simp

theorem take?_alone (hc : standsAlone c = true) (hr : Breaks rest) :
    take? b (c :: rest) = some (.other c, rest) := by
  rcases standsAlone_iff.mp hc with rfl | rfl | ⟨hm, -, hw⟩
  · exact take?_exclamation (hr.head?_ne (by decide))
  · rw [take?, startsDigit_of_stop hr.not_digit, Bool.and_false]
    rfl
  · have hd : ¬c.isDigit = true := fun hd => by
      rw [isWordChar_of_digit hd] at hw
      cases hw
    rw [take?_of_not_mark hm, takePlain, if_neg hd, if_neg (by simp [hw])]
    rintro _ rfl
    exact absurd hw (by decide)

/-- A token is taken from its text again. -/
theorem IsBare.take?_text (h : IsBare b t) (hr : Breaks rest ∨ t = .openParen) :
    take? b (t.text.toList ++ rest) = some (t, rest) := by
  cases h with
  | plain h => exact Token.take?_text h hr
  | @starred w h =>
    rw [text, String.toList_append, List.append_assoc]
    exact take?_starred h
  | number h =>
    have hr := hr.resolve_right (by simp)
    have hnumber := h.takeNumber_append hr
    obtain ⟨c, cs, rfl, hc⟩ := h.exists_cons
    rw [text, String.toList_ofList, List.cons_append, take?_digit hc]
    rw [List.cons_append] at hnumber
    rw [hnumber]
  | signed ho h =>
    have hr := hr.resolve_right (by simp)
    have hnumber := h.takeNumber_append hr
    obtain ⟨c, cs, rfl, hc⟩ := h.exists_cons
    have hstart : startsDigit (c :: cs ++ rest) = true := hc
    rw [text, String.toList_ofList, List.cons_append, take?, ho, Bool.true_and, if_pos hstart,
      hnumber]
  | @alone c h =>
    rw [text, String.toList_singleton]
    exact take?_alone h (hr.resolve_right (by simp))

/-- Nothing of the text of a token is skipped. -/
theorem IsBare.exists_cons (h : IsBare b t) (hr : Breaks rest ∨ t = .openParen) :
    ∃ c cs, t.text.toList ++ rest = c :: cs ∧ skip false (c :: cs) = c :: cs := by
  cases h with
  | plain h =>
    obtain ⟨c, cs, he, hs, hc⟩ := text_eq_cons h
    exact ⟨c, cs ++ rest, by rw [he]; rfl, skip_of_not_separator hs fun h => absurd h hc⟩
  | @starred w h =>
    obtain ⟨c, cs, he, hs, hc⟩ := text_eq_cons h
    rw [text] at he
    refine ⟨c, cs ++ (['.', '*'] ++ rest), ?_, skip_of_not_separator hs fun h => absurd h hc⟩
    rw [text, String.toList_append, he]
    simp
  | number h =>
    obtain ⟨c, cs, rfl, hc⟩ := h.exists_cons
    obtain ⟨hs, hm⟩ := not_separator_of_wordChar (isWordChar_of_digit hc)
    refine ⟨c, cs ++ rest, ?_, skip_of_not_separator hs fun h => absurd h hm⟩
    rw [text, String.toList_ofList]
    rfl
  | signed ho h =>
    obtain ⟨c, cs, rfl, hc⟩ := h.exists_cons
    refine ⟨'-', c :: cs ++ rest, ?_, skip_of_not_separator (by decide) fun _ hdash => ?_⟩
    · rw [text, String.toList_ofList]
      rfl
    · cases hdash
      exact absurd hc (by decide)
  | @alone c h =>
    have hr := hr.resolve_right (by simp)
    refine ⟨c, rest, by rw [text, String.toList_singleton]; rfl, ?_⟩
    refine skip_of_not_separator ?_ fun _ => hr.head?_ne (by decide)
    rcases standsAlone_iff.mp h with rfl | rfl | ⟨-, hs, -⟩
    · decide
    · decide
    · exact hs

theorem isRead_of_isBare (h : IsBare b t) : IsRead b t := by
  intro rest hr
  have htake := h.take?_text hr
  obtain ⟨c, cs, he, hs⟩ := h.exists_cons hr
  rw [he] at htake ⊢
  exact scanFrom_of_take hs htake

/-! ### Rendered lists -/

theorem toList_renderAfter : (renderAfter before ts).toList = spaced closeUp before ts := by
  induction ts generalizing before with
  | nil => rfl
  | cons t ts ih =>
    rw [renderAfter, spaced, String.toList_append, String.toList_append, ih, List.append_assoc]
    cases closeUp before t <;> rfl

theorem scan?_render_of_areBare (h : AreBare true ts) : scan? (render ts) = some ts := by
  -- the first token stands close to an opening parenthesis that is not there
  have htight : (render ts).toList = spaced closeUp .openParen ts := by
    cases ts with
    | nil => rfl
    | cons t ts => simp [render, spaced, closeUp, toList_renderAfter]
  have hscan : scanFrom true (spaced closeUp .openParen ts ++ []) = _ :=
    scanFrom_spaced isParting_closeUp breaks_nil (h.imp isRead_of_isBare)
  have hnil : scanFrom (operandAfter true ts) [] = some [] := scanFrom_of_skip_nil rfl
  rw [List.append_nil, hnil, ← htight] at hscan
  simpa [scan?] using hscan

/-- The tokens of a text are those of the text that shows them, unless one of them is a name within
double quotes or backticks, whose quotes are lost, or a point in front of a star. -/
theorem scan?_render {s : String} (h : scan? s = some ts) (hname : hasQuotedName s.toList = false)
    (hdot : Token.other '.' ∉ ts) : scan? (render ts) = some ts :=
  scan?_render_of_areBare (areBare_of_scanFrom h hname hdot)

/-- Quotes and hyphens within a string and a comment, a sign that belongs to its number and one that
does not, and operators that the text writes otherwise. -/
theorem scan?_render_spaced :
    let s := "et.*,'it''s -- \"x\"'WHERE(a<>-1.5 AND b - 2==?)-- \"d\""
    let ts : List Token := [.word "et.*", .comma, .string "it's -- \"x\"", .word "WHERE",
      .openParen, .word "a", .comparison .ne, .number "-1.5", .word "AND", .word "b", .other '-',
      .number "2", .comparison .eq, .placeholder, .closeParen]
    scan? s = some ts ∧ hasQuotedName s.toList = false ∧ Token.other '.' ∉ ts ∧
      render ts = "et.*, 'it''s -- \"x\"' WHERE (a != -1.5 AND b - 2 = ?)" ∧
      scan? (render ts) = some ts := by
  intro s ts
  have hscan : scan? s = some ts := by decide +kernel
  have hname : hasQuotedName s.toList = false := by decide +kernel
  have hdot : Token.other '.' ∉ ts := by simp [ts]
  exact ⟨hscan, hname, hdot, by decide +kernel, scan?_render hscan hname hdot⟩

end ClientRecords.Token
