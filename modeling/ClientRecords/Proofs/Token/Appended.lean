import ClientRecords.Proofs.Text.Tidy
/-!
Texts put one behind the other with a separator between them. If the separator stands outside of
quotes and comments, the tokens of the first text are followed by those of the second one, which
only sees whether an operand may start there (`scanFrom_append`).
-/

namespace ClientRecords.Token

variable {b : Bool} {c d : Char} {t : Token} {cs ds rest : List Char} {ts : List Token}

theorem ne_of_separator (hs : isSeparator c = true) (hd : isSeparator d = false) : c ≠ d := by
  rintro rfl
  rw [hs] at hd
  cases hd

/-- What stands behind a text with a separator between them starts as the text does. -/
theorem head?_append_ne (hs : isSeparator c = true) (hd : isSeparator d = false)
    (h : cs.head? ≠ some d) : (cs ++ c :: ds).head? ≠ some d := by
  cases cs with
  | nil =>
    rintro ⟨⟩
    exact ne_of_separator hs hd rfl
  | cons e cs => exact h

/-! ### One token -/

theorem keepsInner_append (hs : isSeparator c = true) (ds : List Char) :
    KeepsInner (· ++ c :: ds) where
  cons _ := rfl
  stop := by
    rintro (_ | ⟨e, cs⟩) h
    · rintro _ ⟨⟩
      exact not_isInner_of_separator hs
    · exact h

/-- A token is the same when another text stands behind a separator. -/
theorem take?_append (hs : isSeparator c = true) (h : take? b cs = some (t, rest)) :
    take? b (cs ++ c :: ds) = some (t, rest ++ c :: ds) := by
  cases cs with
  | nil => cases h
  | cons d cs =>
    cases hq : isQuote d with
    | false =>
      have htake := take?_of_keepsInner (b := b) (keepsInner_append hs ds) hq cs
      rw [h] at htake
      exact htake
    | true =>
      simp only [isQuote, Bool.or_eq_true, beq_iff_eq] at hq
      rcases hq with (rfl | rfl) | rfl
      · obtain ⟨⟨s, r⟩, hstring, he⟩ := Option.map_eq_some_iff.mp h
        cases he
        obtain ⟨rfl, hr⟩ := takeString_eq_some_iff.mp hstring
        rw [List.cons_append, List.append_assoc, List.cons_append, take?,
          takeString_doubled (head?_append_ne hs (by decide) hr)]
        rfl
      all_goals
        obtain ⟨⟨s, r⟩, hquoted, he⟩ := Option.map_eq_some_iff.mp h
        cases he
        obtain ⟨rfl, hn⟩ := takeQuoted_eq_some_iff.mp hquoted
        rw [List.cons_append, List.append_assoc, List.cons_append, take?,
          takeQuoted_eq_some_iff.mpr ⟨rfl, hn⟩]
        rfl

/-! ### Between tokens -/

theorem skip_append_of_ne_nil (hs : isSeparator c = true) (h : skip b cs ≠ []) :
    skip b (cs ++ c :: ds) = skip b cs ++ c :: ds := by
  fun_induction skip b cs with
  | case1 d cs hd ih =>
    rw [List.cons_append, skip, if_pos hd]
    exact ih h
  | case2 d cs hd ih =>
    rw [List.cons_append, skip, if_neg hd]
    exact ih h
  | case3 cs ih => exact ih h
  | case4 d cs _ hd ih =>
    rw [List.cons_append, skip_separator hd]
    exact ih h
  | case5 d cs hcomment hd =>
    refine skip_of_not_separator (by simpa using hd) fun he => ?_
    exact head?_append_ne hs (by decide) (head?_ne_of_ne_cons fun r => hcomment r he)
  | case6 => exact absurd rfl h

/-- Where nothing but the separator is left, it is skipped too, unless a comment goes on behind
it. -/
theorem skip_append_of_nil (hs : isSeparator c = true) (h : skip b cs = [])
    (hc : Context.after (if b then .comment else .plain) (cs ++ [c]) = .plain) :
    skip b (cs ++ c :: ds) = skip false ds := by
  fun_induction skip b cs with
  | case1 d cs hd ih =>
    obtain rfl : d = '\n' := by simpa using hd
    exact ih h hc
  | case2 d cs hd ih =>
    have hne : d ≠ '\n' := by simpa using hd
    rw [List.cons_append, skip, if_neg hd]
    rw [if_pos rfl, List.cons_append, Context.after, if_neg hne] at hc
    exact ih h hc
  | case3 cs ih => exact ih h hc
  | case4 d cs _ hd ih =>
    have hm : d ≠ '-' := ne_of_separator hd (by decide)
    rw [List.cons_append, skip_separator hd]
    rw [if_neg Bool.false_ne_true, List.cons_append,
      Context.after_plain_of_not_quote (not_isQuote_of_separator hd) fun he => absurd he hm] at hc
    exact ih h hc
  | case5 => cases h
  | case6 b =>
    cases b with
    | false => exact skip_separator hs
    | true =>
      obtain rfl : c = '\n' := by
        refine Classical.byContradiction fun hne => ?_
        rw [if_pos rfl, List.nil_append, Context.after, if_neg hne] at hc
        cases hc
      rfl

namespace Context

theorem after_skip (h : skip b cs ≠ []) :
    after .plain (skip b cs) = after (if b then .comment else .plain) cs := by
  fun_induction skip b cs with
  | case1 c cs hc ih =>
    obtain rfl : c = '\n' := by simpa using hc
    exact ih h
  | case2 c cs hc ih =>
    have hstep : after .comment (c :: cs) = after .comment cs := by
      rw [after, if_neg (by simpa using hc)]
    exact (ih h).trans hstep.symm
  | case3 cs ih => exact ih h
  | case4 c cs hn hs ih =>
    have hm : c ≠ '-' := ne_of_separator hs (by decide)
    have hq : isQuote c = false := not_isQuote_of_separator hs
    exact (ih h).trans (after_plain_of_not_quote hq fun he => absurd he hm).symm
  | case5 => rfl
  | case6 b => exact absurd rfl h

/-- The walk over two texts is the walk over the one and then over the other, if no comment starts
where they meet. -/
theorem after_append (hc : c ≠ '-') (ctx : Context) (cs ds : List Char) :
    after ctx (cs ++ c :: ds) = after (after ctx cs) (c :: ds) := by
  fun_induction after ctx cs with
  | case1 ctx => rfl
  | case2 cs ih => exact ih
  | case3 d cs hd ih =>
    have hnext : d = '-' → (cs ++ c :: ds).head? ≠ some '-' := by
      rintro rfl hhead
      cases cs with
      | nil => exact hc (Option.some.inj hhead)
      | cons e cs => exact hd cs rfl (by rw [Option.some.inj hhead])
    rw [List.cons_append, after_plain_cons hnext]
    exact ih
  | case4 d cs ih | case5 _ d cs ih =>
    rw [List.cons_append, after]
    exact ih

/-- A separator opens nothing. -/
theorem after_concat (hs : isSeparator c = true) {ctx : Context} (h : after ctx cs = .plain) :
    after ctx (cs ++ [c]) = .plain := by
  have hm : c ≠ '-' := ne_of_separator hs (by decide)
  rw [after_append hm, h]
  exact after_plain_of_not_quote (not_isQuote_of_separator hs) fun he => absurd he hm

/-- The end of a line closes a comment. -/
theorem after_newline {ctx : Context} (h : (after ctx cs).isOpen = false) :
    after ctx (cs ++ ['\n']) = .plain := by
  rw [after_append (by decide)]
  cases hctx : after ctx cs with
  | plain | comment => rfl
  | quoted q =>
    rw [hctx] at h
    cases h

end Context

/-! ### All tokens -/

/-- The tokens of a text behind a separator follow those of the text before it. -/
theorem scanFrom_append (hs : isSeparator c = true) (h : scanFrom b cs = some ts)
    (hc : Context.after .plain (cs ++ [c]) = .plain) :
    scanFrom b (cs ++ c :: ds) = (scanFrom (operandAfter b ts) ds).map (ts ++ ·) := by
  fun_induction scanFrom b cs generalizing ts with
  | case1 b cs hnil =>
    cases h
    rw [← scanFrom_skip, skip_append_of_nil hs hnil hc, scanFrom_skip]
    simp [operandAfter]
  | case2 => cases h
  | case3 b cs d rest hskip t after ht ih =>
    obtain ⟨us, hus, rfl⟩ := Option.map_eq_some_iff.mp h
    have hne : skip false cs ≠ [] := by simp [hskip]
    have hlonger (es : List Char) : skip false (cs ++ c :: es) = d :: (rest ++ c :: es) := by
      rw [skip_append_of_ne_nil hs hne, hskip]
      rfl
    have htake (es : List Char) :
        take? b (d :: (rest ++ c :: es)) = some (t, after ++ c :: es) := take?_append hs ht
    -- the walk up to the separator goes on behind the token
    have hwalk : Context.after .plain (after ++ [c]) = .plain := by
      have hafter : Context.after .plain (skip false (cs ++ [c])) = .plain := by
        rw [Context.after_skip (by simp [hlonger]), if_neg Bool.false_ne_true, hc]
      rw [hlonger] at hafter
      have hstart := hlonger []
      rcases isOpen_after_take b (hstart ▸ skip_skip false _) with ⟨hn, _⟩ | ⟨t', after', ht', ho⟩
      · rw [htake] at hn
        cases hn
      · rw [htake] at ht'
        cases ht'
        rw [← ho, hafter]
    rw [scanFrom_of_take (hlonger ds) (htake ds), ih hus hwalk, Option.map_map]
    rfl

/-- Plain tokens written behind a text are scanned behind the tokens of the text. -/
theorem scan?_append {base : String} {ts us : List Token}
    (hc : Context.after .plain (Text.collapse base).toList = .plain)
    (hscan : scan? (Text.collapse base) = some ts) (hne : Text.collapse base ≠ "")
    (hp : ∀ t ∈ us, t.isPlain = true) (hn : Text.IsNeat (spell us)) :
    scan? (Text.collapse (base ++ " " ++ String.ofList (spell us))) = some (ts ++ us) := by
  have hcollapse : Text.collapse (String.ofList (spell us)) = String.ofList (spell us) :=
    Text.collapse_of_isNeat (by rwa [String.toList_ofList])
  have hspell : Text.collapse (String.ofList (spell us)) ≠ "" := by
    obtain ⟨c, hhead, -⟩ := hn.first
    rw [hcollapse]
    intro he
    rw [← String.toList_inj, String.toList_ofList] at he
    rw [he] at hhead
    cases hhead
  have hlist : (Text.collapse base ++ " " ++ String.ofList (spell us)).toList
      = (Text.collapse base).toList ++ ' ' :: spell us := by simp
  have hrest : scanFrom (operandAfter true ts) (spell us) = some us := by
    have hspelled := scanFrom_spell (b := operandAfter true ts) breaks_nil hp
    have hnil : scanFrom (operandAfter (operandAfter true ts) us) [] = some [] :=
      scanFrom_of_skip_nil rfl
    rw [List.append_nil, hnil] at hspelled
    simpa using hspelled
  have hspace : isSeparator ' ' = true := rfl
  rw [Text.collapse_append hne hspell, hcollapse, scan?, hlist,
    scanFrom_append hspace hscan (Context.after_concat hspace hc), hrest]
  rfl

end ClientRecords.Token
