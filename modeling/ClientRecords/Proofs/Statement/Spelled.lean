import ClientRecords.Proofs.Query.RoundTrip
import ClientRecords.Proofs.Statement.Written
/-!
The texts of written statements. They are collapsed already, and the scanner cuts them into the
tokens that they were put together from (`Change.scan?_text`).
-/

namespace ClientRecords

open Token

namespace Written

/-! ### The words of tables -/

section

variable {b : Bool} {w : String} {cs rest : List Char}

/-- The word of a table is taken as one token. -/
theorem IsWordText.take? (h : IsWordText cs w) (hr : Breaks rest) :
    Token.take? b (cs ++ rest) = some (.word w, rest) := by
  cases h with
  | plain h => exact take?_word h hr
  | starred h => rw [List.append_assoc]; exact take?_starred h
  | @quoted _ q hq ho =>
    have htake : takeQuoted q (w.toList ++ q :: rest) = some (w.toList, rest) :=
      takeQuoted_eq_some_iff.mpr ⟨rfl, ho⟩
    rw [List.cons_append, List.append_assoc, List.singleton_append]
    rcases hq with rfl | rfl
    · rw [Token.take?, htake]
      exact congrArg (fun w => some (Token.word w, rest)) String.ofList_toList
    · rw [Token.take?, htake]
      exact congrArg (fun w => some (Token.word w, rest)) String.ofList_toList

/-- The word of a table starts with a character of a name or a quote. -/
theorem IsWordText.exists_cons (h : IsWordText cs w) :
    ∃ c ds, cs = c :: ds ∧ isSeparator c = false ∧ c ≠ '-' := by
  have hplain : (Token.word w).isPlain = true →
      ∃ c ds, w.toList = c :: ds ∧ isSeparator c = false ∧ c ≠ '-' := text_eq_cons
  cases h with
  | plain h => exact hplain h
  | @starred w h =>
    obtain ⟨c, ds, he, hc⟩ := text_eq_cons h
    exact ⟨c, ds ++ ['.', '*'], congrArg (· ++ ['.', '*']) he, hc⟩
  | quoted hq => rcases hq with rfl | rfl <;> exact ⟨_, _, rfl, by decide, by decide⟩

theorem IsWordText.isNeat (h : IsWordText cs w) : Text.IsNeat cs := by
  cases h with
  | plain h => exact isNeat_text (b := true) (.inl h) nofun
  | @starred w h =>
    have hw : Text.IsNeat w.toList := isNeat_text (b := true) (.inl h) nofun
    exact hw.append (.of_not_blank (by decide) (by decide))
  | @quoted _ q hq ho ht =>
    exact .between (by rcases hq with rfl | rfl <;> decide) ht

end

/-! ### Tokens -/

/-- A token whose text is neat and that ends no statement. -/
def IsInner (t : Token) : Prop := Text.IsNeat t.text.toList ∧ t ≠ .semicolon

theorem isInner_word {w : String} (h : (Token.word w).isPlain = true) : IsInner (.word w) :=
  ⟨isNeat_text (b := true) (.inl h) nofun, nofun⟩

theorem isInner_sign {t : Token} (h : t ∈ [.placeholder, .openParen, .closeParen, .comma]) :
    IsInner t := by
  simp only [List.mem_cons, List.not_mem_nil, or_false] at h
  rcases h with rfl | rfl | rfl | rfl <;> exact ⟨.of_not_blank (by decide) (by decide), nofun⟩

theorem isInner_comparison (op : Comparison) : IsInner (.comparison op) :=
  ⟨isNeat_text (b := true) (.inl rfl) nofun, nofun⟩

theorem isInner_intercalate {seps : List Token} {parts : List (List Token)}
    (hs : ∀ t ∈ seps, IsInner t) (hp : ∀ part ∈ parts, ∀ t ∈ part, IsInner t) :
    ∀ t ∈ List.intercalate seps parts, IsInner t := by
  intro t ht
  rcases mem_intercalate ht with ht | ⟨part, hpart, ht⟩
  · exact hs t ht
  · exact hp part hpart t ht

theorem Item.isWritable_token (i : Item) : IsWritable true i.token := by
  cases i with
  | integer i => exact isWritable_ofInt64 i
  | bool b => cases b <;> exact .inl (by decide)
  | param | string => exact .inl rfl
  | null | now => exact .inl (by decide)

theorem Item.isInner_token (i : Item) : IsInner i.token := by
  refine ⟨isNeat_text i.isWritable_token fun s hs => ?_, ?_⟩
  · cases i with
    | string s tidy => cases hs; exact tidy
    | _ => cases hs
  · cases i <;> exact nofun

theorem isInner_setTokens (more : Nat) : ∀ t ∈ setTokens more, IsInner t := by
  have hitems : ∀ t ∈ [Token.comma, .placeholder], IsInner t := fun t ht =>
    isInner_sign (by revert t; decide)
  rw [setTokens, List.forall_mem_append, List.forall_mem_cons]
  exact ⟨⟨isInner_sign (by decide), fun t ht => hitems t (mem_placeholders ht)⟩,
    by simpa using isInner_sign (by decide)⟩

theorem Condition.isInner_tokens (c : Condition) : ∀ t ∈ c.tokens, IsInner t := by
  have hword : ∀ w ∈ ["LIKE", "IS", "NOT", "NULL", "IN"], IsInner (.word w) := fun w hw =>
    isInner_word (by revert w; decide)
  have hsign : IsInner .placeholder := isInner_sign (by decide)
  refine List.forall_mem_cons.mpr ⟨isInner_word c.field.isPlain, ?_⟩
  cases c.test with
  | compare op v => simp [Test.tokens, isInner_comparison, hsign]
  | like | isNull | isNotNull => simp [Test.tokens, hsign, hword]
  | inSet v vs => simpa [Test.tokens, hword] using isInner_setTokens vs.length
  | notInSet v vs => simpa [Test.tokens, hword] using isInner_setTokens vs.length

/-- The tokens of a clause are plain, and none of them ends the statement. -/
theorem isPlain_whereTokens (cs : List Condition) : ∀ t ∈ whereTokens cs, t.isPlain = true := by
  have hconditions : ∀ t ∈ List.intercalate [.word "AND"] (cs.map Condition.tokens), IsPart t := by
    refine isPart_intercalate (by decide) fun part hp => ?_
    obtain ⟨c, _, rfl⟩ := List.mem_map.mp hp
    exact c.isPart
  rw [whereTokens]
  split
  · exact nofun
  · exact List.forall_mem_cons.mpr ⟨by decide, fun t ht => (hconditions t ht).1⟩

theorem isInner_whereTokens (cs : List Condition) : ∀ t ∈ whereTokens cs, IsInner t := by
  have hconditions : ∀ t ∈ List.intercalate [.word "AND"] (cs.map Condition.tokens), IsInner t := by
    refine isInner_intercalate (by simpa using isInner_word (by decide)) fun part hp => ?_
    obtain ⟨c, _, rfl⟩ := List.mem_map.mp hp
    exact c.isInner_tokens
  rw [whereTokens]
  split
  · exact nofun
  · exact List.forall_mem_cons.mpr ⟨isInner_word (by decide), hconditions⟩

/-- Parts that can be written behind a comma can be written with commas between them. -/
theorem areWritable_intercalate {b : Bool} : ∀ {parts : List (List Token)},
    (∀ part ∈ parts, AreWritable b part ∧ AreWritable true part) →
    AreWritable b (List.intercalate [.comma] parts)
  | [], _ => trivial
  | [part], h => by simpa using (h part List.mem_cons_self).1
  | part :: next :: parts, h => by
    have hrest : AreWritable true (List.intercalate [.comma] (next :: parts)) :=
      areWritable_intercalate fun p hp =>
        have hp := (h p (List.mem_cons_of_mem part hp)).2
        ⟨hp, hp⟩
    rw [List.intercalate_cons_cons, List.append_assoc, areWritable_append]
    exact ⟨(h part List.mem_cons_self).1, .inl rfl, hrest⟩

namespace Assignments

variable (a : Assignments) {f : Name × Item → List Token}

theorem areWritable_list {b : Bool} (h : ∀ e, AreWritable b (f e) ∧ AreWritable true (f e)) :
    AreWritable b (a.list f) := by
  refine areWritable_intercalate fun part hp => ?_
  obtain ⟨e, _, rfl⟩ := List.mem_map.mp hp
  exact h e

theorem isInner_list (h : ∀ e, ∀ t ∈ f e, IsInner t) : ∀ t ∈ a.list f, IsInner t := by
  refine isInner_intercalate (by simpa using isInner_sign (by decide)) fun part hp => ?_
  obtain ⟨e, _, rfl⟩ := List.mem_map.mp hp
  exact h e

end Assignments

/-! ### Statements -/

namespace Change

variable (w : Change)

theorem isPlain_lead : ∀ t ∈ w.lead, t.isPlain = true := by
  cases w with
  | insert orIgnore => cases orIgnore <;> simp +decide [lead]
  | update | delete => simp +decide [lead]

theorem areWritable_rest : AreWritable false w.rest := by
  cases w with
  | insert orIgnore t a =>
    have hcolumns : AreWritable true a.columnTokens := a.areWritable_list fun e =>
      ⟨⟨.inl e.1.plain, trivial⟩, .inl e.1.plain, trivial⟩
    have hitems : AreWritable true a.itemTokens := a.areWritable_list fun e =>
      ⟨⟨e.2.isWritable_token, trivial⟩, e.2.isWritable_token, trivial⟩
    refine ⟨.inl rfl, areWritable_append.mpr ⟨hcolumns, .inl rfl, .inl (by decide), .inl rfl, ?_⟩⟩
    exact areWritable_append.mpr ⟨hitems, .inl rfl, trivial⟩
  | update t a free cs =>
    have hpart : ∀ b, ∀ e : Name × Item,
        AreWritable b [e.1.token, .comparison .eq, e.2.token] := fun b e =>
      ⟨.inl e.1.plain, .inl rfl, e.2.isWritable_token, trivial⟩
    have hset : AreWritable false a.setTokens := a.areWritable_list fun e =>
      ⟨hpart false e, hpart true e⟩
    exact ⟨.inl (by decide), areWritable_append.mpr
      ⟨hset, areWritable_of_isPlain (isPlain_whereTokens cs)⟩⟩
  | delete t cs => exact areWritable_of_isPlain (isPlain_whereTokens cs)

theorem isInner_lead : ∀ t ∈ w.lead, IsInner t := by
  have hword : ∀ t ∈ w.lead, t.word?.isSome = true := by
    cases w with
    | insert orIgnore => cases orIgnore <;> simp [lead, word?]
    | update | delete => simp [lead, word?]
  intro t ht
  cases t with
  | word k => exact isInner_word (w.isPlain_lead _ ht)
  | _ => exact nomatch hword _ ht

theorem isInner_rest : ∀ t ∈ w.rest, IsInner t := by
  have hopen : IsInner .openParen := isInner_sign (by decide)
  have hclose : IsInner .closeParen := isInner_sign (by decide)
  have hname : ∀ n : Name, IsInner n.token := fun n => isInner_word n.plain
  cases w with
  | insert orIgnore t a =>
    have hcolumns : ∀ t ∈ a.columnTokens, IsInner t := a.isInner_list fun e => by
      simpa using hname e.1
    have hitems : ∀ t ∈ a.itemTokens, IsInner t := a.isInner_list fun e => by
      simpa using e.2.isInner_token
    simp only [rest, List.forall_mem_cons, List.forall_mem_append]
    exact ⟨hopen, hcolumns, hclose, isInner_word (by decide), hopen, hitems, hclose, nofun⟩
  | update t a free cs =>
    have hset : ∀ t ∈ a.setTokens, IsInner t := a.isInner_list fun e => by
      simpa using ⟨hname e.1, isInner_comparison .eq, e.2.isInner_token⟩
    simp only [rest, List.forall_mem_cons, List.forall_mem_append]
    exact ⟨isInner_word (by decide), hset, isInner_whereTokens cs⟩
  | delete t cs => exact isInner_whereTokens cs

/-- A written statement is collapsed already. -/
theorem collapse_text : Text.collapse w.text = w.text := by
  refine Text.collapse_of_isNeat ?_
  have hlead : Text.IsNeat (spell w.lead) := by
    refine isNeat_spell ?_ fun t ht => (w.isInner_lead t ht).1
    cases w with
    | insert orIgnore => cases orIgnore <;> simp [lead]
    | update | delete => simp [lead]
  have htable := w.table.isText.isNeat
  rw [text, String.toList_ofList]
  refine hlead.spaced ?_
  by_cases hr : w.rest.isEmpty = true
  · rwa [if_pos hr, List.append_nil]
  · rw [if_neg hr]
    exact htable.spaced (isNeat_spell (by simpa using hr) fun t ht => (w.isInner_rest t ht).1)

/-- A written statement is scanned as the tokens that it was put together from. -/
theorem scan?_text : scan? w.text = some w.tokens := by
  have hnil : ∀ b, scanFrom b [] = some [] := fun b => scanFrom_of_skip_nil rfl
  have hrest : scanFrom false (if w.rest.isEmpty then [] else ' ' :: spell w.rest)
      = some w.rest := by
    by_cases hr : w.rest.isEmpty = true
    · rw [if_pos hr, hnil, List.isEmpty_iff.mp hr]
    · have hspell := scanFrom_spell_of_areWritable breaks_nil w.areWritable_rest
      rw [List.append_nil, hnil] at hspell
      rw [if_neg hr, scanFrom_separator (by decide), hspell]
      simp
  have hbreaks : Breaks (if w.rest.isEmpty then [] else ' ' :: spell w.rest) := by
    split
    · exact breaks_nil
    · exact breaks_cons (.inl rfl)
  have htable : ∀ b, scanFrom b (w.table.text.toList ++
      if w.rest.isEmpty then [] else ' ' :: spell w.rest)
      = some (.word w.table.name :: w.rest) := by
    intro b
    obtain ⟨c, ds, he, hs, hc⟩ := w.table.isText.exists_cons
    have htake := w.table.isText.take? (b := b) hbreaks
    rw [he, List.cons_append] at htake ⊢
    rw [scanFrom_of_take (skip_of_not_separator hs fun h => absurd h hc) htake]
    exact congrArg (Option.map _) hrest
  rw [text, scan?, String.toList_ofList, scanFrom_spell (breaks_cons (.inl rfl)) w.isPlain_lead,
    scanFrom_separator (by decide), htable]
  rfl

end Change
end Written
end ClientRecords
