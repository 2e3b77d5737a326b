import ClientRecords.Proofs.Condition.Binding
import ClientRecords.Proofs.Query.Conditions
import ClientRecords.Proofs.Query.Joins
/-!
Where the values of conditions come from. A clause stands in a statement behind other tokens. A
placeholder in it takes the parameter whose number is the number of placeholders before it in the
whole statement (`Gives`), and this fixes the condition of each part (`Asks`) and those of the whole
clause (`Compiles`), whatever parts without a condition stand between. The reader counts from one
part to the next and binds the parameters afterwards; it gives these conditions and no others
(`asks_iff`, `compiles_of_bind`).
-/

namespace ClientRecords

open Token

/-- The value of an operand that stands behind other tokens of its statement. -/
inductive Gives (params : List Value) (before : List Token) : Token → Value → Prop
  | param : Gives params before .placeholder (params.getD (placeholders before) .null)
  | literal {t : Token} {v : Value} (h : t.literal? = some v) : Gives params before t v

/-- The values of the items of a set, which are operands with commas between them. -/
inductive Members (params : List Value) : List Token → List Token → List Value → Prop
  | one {before : List Token} {x : Token} {v : Value} (hx : Gives params before x v) :
      Members params before [x] [v]
  | cons {before rest : List Token} {x : Token} {v : Value} {vs : List Value}
      (hx : Gives params before x v) (hr : Members params (before ++ [x, .comma]) rest vs) :
      Members params before (x :: .comma :: rest) (v :: vs)

/-- The condition that a part of a clause asks for. The operands stand behind the tokens before the
part and those of the part itself. -/
inductive Asks (params : List Value) (before : List Token) : List Token → Condition → Prop
  | compare {t x : Token} {op : Comparison} {f : String} {v : Value} (hf : t.field? = some f)
      (hx : Gives params (before ++ [t, .comparison op]) x v) :
      Asks params before [t, .comparison op, x] ⟨f, .compare op v⟩
  | like {t l x : Token} {f : String} {v : Value} {p : Pattern} (hf : t.field? = some f)
      (hl : l.is .like = true) (hs : x = .placeholder ∨ ∃ s, x = .string s)
      (hx : Gives params (before ++ [t, l]) x v) (hp : Pattern.ofText? v.text = some p) :
      Asks params before [t, l, x] ⟨f, .like p⟩
  | isNull {t i n : Token} {f : String} (hf : t.field? = some f) (hi : i.is .is = true)
      (hn : n.is .null = true) : Asks params before [t, i, n] ⟨f, .isNull⟩
  | isNotNull {t i o n : Token} {f : String} (hf : t.field? = some f) (hi : i.is .is = true)
      (ho : o.is .not = true) (hn : n.is .null = true) :
      Asks params before [t, i, o, n] ⟨f, .isNotNull⟩
  | inSet {t i : Token} {inner : List Token} {f : String} {vs : List Value}
      (hf : t.field? = some f) (hi : i.is .in = true)
      (hs : Members params (before ++ [t, i, .openParen]) inner vs) :
      Asks params before (t :: i :: .openParen :: (inner ++ [.closeParen]))
        ⟨f, .inSet (vs.map Value.text)⟩
  | notInSet {t n i : Token} {inner : List Token} {f : String} {vs : List Value}
      (hf : t.field? = some f) (hn : n.is .not = true) (hi : i.is .in = true)
      (hs : Members params (before ++ [t, n, i, .openParen]) inner vs) :
      Asks params before (t :: n :: i :: .openParen :: (inner ++ [.closeParen]))
        ⟨f, .notInSet (vs.map Value.text)⟩

/-- The conditions of one part of a clause: the one that it asks for, or none. -/
def PartCompiles (params : List Value) (before part : List Token) (cs : List Condition) : Prop :=
  (∃ c, Asks params before part c ∧ cs = [c]) ∨ (∀ c, ¬ Asks params before part c) ∧ cs = []

/-- The conditions of a clause that stands behind other tokens. It is cut at every `AND` outside of
parentheses, and each part stands behind all that the statement holds before it. -/
inductive Compiles (params : List Value) : List Token → List Token → List Condition → Prop
  | last {before part : List Token} {cs : List Condition}
      (hu : findTopLevel (·.is .and) part = none) (hp : PartCompiles params before part cs) :
      Compiles params before part cs
  | step {before part rest : List Token} {sep : Token} {cs ds : List Condition}
      (hc : Closed (·.is .and) part) (hs : sep.is .and = true)
      (hp : PartCompiles params before part cs)
      (hr : Compiles params (before ++ part ++ [sep]) rest ds) :
      Compiles params before (part ++ sep :: rest) (cs ++ ds)

variable {params : List Value} {before part inner ts : List Token} {t : Token} {k : Keyword}
  {next : Nat} {v : Value} {vs : List Value} {c : Condition} {xs : List Operand}

/-! ### Operands -/

theorem Token.placeholders_of_is (h : t.is k = true) : placeholders [t] = 0 := by
  cases t with
  | word w => rfl
  | _ => cases h

theorem Token.placeholders_of_literal? (h : t.literal? = some v) : placeholders [t] = 0 := by
  cases t with
  | placeholder => cases h
  | _ => rfl

/-- A word that spells out a value is no other keyword. -/
theorem Token.not_is_of_literal? (h : t.literal? = some v) (hk : k ∉ [.null, .true, .false]) :
    t.is k = false := by
  simp only [List.mem_cons, List.not_mem_nil, or_false, not_or] at hk
  refine Bool.eq_false_iff.mpr fun ht => ?_
  have hnull : t.is .null = false := (is_of_is ht .null).trans (by revert hk; cases k <;> decide)
  have htrue : t.is .true = false := (is_of_is ht .true).trans (by revert hk; cases k <;> decide)
  have hfalse : t.is .false = false :=
    (is_of_is ht .false).trans (by revert hk; cases k <;> decide)
  cases t with
  | word w => simp [literal?, hnull, htrue, hfalse] at h
  | _ => cases ht

theorem Token.placeholders_cons_of (h : placeholders [t] = 0) (ts : List Token) :
    placeholders (t :: ts) = placeholders ts := by
  rw [← List.singleton_append, placeholders_append, h, Nat.zero_add]

theorem Token.placeholders_cons_of_is (h : t.is k = true) (ts : List Token) :
    placeholders (t :: ts) = placeholders ts := placeholders_cons_of (placeholders_of_is h) ts

theorem Token.operand?_of_ne (h : t ≠ .placeholder) :
    t.operand? next = t.literal?.map .literal := by
  cases t with
  | placeholder => exact absurd rfl h
  | _ => rfl

theorem Token.operand?_of_literal? (h : t.literal? = some v) :
    t.operand? next = some (.literal v) := by
  have hne : t ≠ .placeholder := by
    rintro rfl
    cases h
  rw [operand?_of_ne hne, h]
  rfl

/-- An operand reads and binds to the value that it gives. -/
theorem gives_iff (hn : placeholders before = next) : Gives params before t v ↔
    ∃ x, t.operand? next = some x ∧ x.value params = v := by
  subst hn
  constructor
  · rintro (_ | h)
    · exact ⟨_, rfl, rfl⟩
    · exact ⟨_, operand?_of_literal? h, rfl⟩
  · rintro ⟨x, hx, rfl⟩
    by_cases ht : t = .placeholder
    · subst ht
      obtain rfl := Option.some.inj hx
      exact .param
    · rw [operand?_of_ne ht] at hx
      obtain ⟨v, hv, rfl⟩ := Option.map_eq_some_iff.mp hx
      exact .literal hv

/-- An operand is one token, which cuts nothing. -/
theorem Gives.closed (h : Gives params before t v) : Closed (· == .comma) [t] := by
  rcases h with _ | h
  · exact .cons rfl rfl .nil
  · cases t with
    | openParen | closeParen | comma => cases h
    | _ => exact .cons rfl rfl .nil

/-! ### Sets -/

namespace Fragment

theorem items?_cons (t : Token) (parts : List (List Token)) : items? next ([t] :: parts)
    = (t.operand? next).bind fun x => (items? (next + placeholders [t]) parts).map (x :: ·) := by
  by_cases ht : t = .placeholder
  · subst ht
    rfl
  · have hread : items? next ([t] :: parts)
        = t.literal?.bind fun v => (items? next parts).bind fun xs => some (.literal v :: xs) := by
      cases t with
      | placeholder => exact absurd rfl ht
      | _ => rfl
    have hnone : placeholders [t] = 0 := by simp [placeholders, ht]
    rw [hread, operand?_of_ne ht, hnone, Option.bind_map]
    simp only [Option.map_eq_bind]
    rfl

theorem exists_of_items?_cons {parts : List (List Token)}
    (h : items? next (part :: parts) = some xs) : ∃ t, part = [t] := by
  match part with
  | [] => cases h
  | [t] => exact ⟨t, rfl⟩
  | a :: b :: rest => cases a <;> cases h

end Fragment

open Fragment

theorem members_of_items? {inner before : List Token} {xs : List Operand}
    (h : items? (placeholders before) (splitCommas inner) = some xs) :
    Members params before inner (xs.map (·.value params)) := by
  have hcut : CutInto (· == .comma) inner (splitCommas inner) := cutInto_splitTopLevel _ inner
  generalize splitCommas inner = parts at h hcut
  induction hcut generalizing before xs with
  | last hu =>
    obtain ⟨x, rfl⟩ := exists_of_items?_cons h
    rw [items?_cons] at h
    obtain ⟨y, hy, h⟩ := Option.bind_eq_some_iff.mp h
    obtain rfl := Option.some.inj h
    exact .one ((gives_iff rfl).mpr ⟨y, hy, rfl⟩)
  | @step part rest sep parts hc hs hr ih =>
    obtain rfl := eq_comma_of_cuts hs
    obtain ⟨x, rfl⟩ := exists_of_items?_cons h
    rw [items?_cons] at h
    obtain ⟨y, hy, h⟩ := Option.bind_eq_some_iff.mp h
    obtain ⟨ys, hys, rfl⟩ := Option.map_eq_some_iff.mp h
    refine .cons ((gives_iff rfl).mpr ⟨y, hy, rfl⟩) (ih ?_)
    rw [placeholders_append]
    exact hys

theorem items?_of_members (h : Members params before inner vs) :
    ∃ xs, items? (placeholders before) (splitCommas inner) = some xs ∧
      xs.map (·.value params) = vs := by
  induction h with
  | @one before x v hx =>
    have hparts : splitCommas [x] = [[x]] := splitFrom_of_uncut hx.closed.uncut
    obtain ⟨y, hy, rfl⟩ := (gives_iff rfl).mp hx
    refine ⟨[y], ?_, rfl⟩
    rw [hparts, items?_cons, hy]
    rfl
  | @cons before rest x v vs hx _ ih =>
    have hparts : splitCommas ([x] ++ .comma :: rest) = [x] :: splitCommas rest :=
      splitFrom_append_cons (by rfl) hx.closed.uncut hx.closed.level
    obtain ⟨y, hy, rfl⟩ := (gives_iff rfl).mp hx
    obtain ⟨ys, hys, rfl⟩ := ih
    refine ⟨y :: ys, ?_, rfl⟩
    rw [placeholders_append] at hys
    rw [← List.singleton_append, hparts, items?_cons, hy]
    exact congrArg (Option.map (y :: ·)) hys

theorem Gives.ne_openParen (h : Gives params before t v) : t ≠ .openParen := by
  rintro rfl
  rcases h with _ | h
  cases h

theorem Members.ne_openParen (h : Members params before inner vs) :
    ∀ t ∈ inner, t ≠ .openParen := by
  induction h with
  | one hx => exact List.forall_mem_singleton.mpr hx.ne_openParen
  | cons hx _ ih =>
    exact List.forall_mem_cons.mpr
      ⟨hx.ne_openParen, List.forall_mem_cons.mpr ⟨by decide, ih⟩⟩

theorem exists_members_of_set? (hn : placeholders before = next) (h : set? next ts = some xs) :
    ∃ inner, ts = .openParen :: (inner ++ [.closeParen]) ∧
      Members params before inner (xs.map (·.value params)) := by
  subst hn
  cases ts with
  | nil => cases h
  | cons t ts =>
    cases t with
    | openParen =>
      rw [set?] at h
      by_cases hlast : ts.getLast? = some .closeParen
      · rw [if_pos hlast] at h
        obtain ⟨inner, rfl⟩ := List.getLast?_eq_some_iff.mp hlast
        rw [List.dropLast_concat] at h
        exact ⟨inner, rfl, members_of_items? h⟩
      · rw [if_neg hlast] at h
        cases h
    | _ => cases h

theorem set?_of_members (hn : placeholders before = next) (h : Members params before inner vs) :
    ∃ xs, set? next (.openParen :: (inner ++ [.closeParen])) = some xs ∧
      xs.map (·.value params) = vs := by
  subst hn
  obtain ⟨xs, hxs, hvs⟩ := items?_of_members h
  refine ⟨xs, ?_, hvs⟩
  rw [set?, if_pos List.getLast?_concat, List.dropLast_concat]
  exact hxs

/-! ### Parts of a clause -/

variable {f : String} {check : OpenCheck} {b : Check} {lead : List Token}

/-- No token before the operands of a condition is a placeholder, so the operands are read at the
number of the part. -/
theorem placeholders_append_field (hf : t.field? = some f) (hl : placeholders lead = 0)
    (before : List Token) : placeholders (before ++ t :: lead) = placeholders before := by
  have ht : placeholders [t] = 0 := by
    cases t with
    | word w => rfl
    | _ => cases hf
  rw [placeholders_append, placeholders_cons_of ht, hl, Nat.add_zero]

theorem OpenCheck.bind_like {x : Operand} : (OpenCheck.like x).bind params = .ok b ↔
    ∃ p, Pattern.ofText? (x.value params).text = some p ∧ .like p = b := by
  rw [bind]
  cases Pattern.ofText? (x.value params).text <;> simp

theorem asks_of_inSet {i : Token} (hf : t.field? = some f) (hi : i.is .in = true)
    (hs : set? (placeholders before) ts = some xs) (hb : (OpenCheck.inSet xs).bind params = .ok b) :
    Asks params before (t :: i :: ts) ⟨f, b⟩ := by
  have hlead : placeholders [i, .openParen] = 0 := placeholders_cons_of_is hi _
  obtain ⟨inner, rfl, hm⟩ :=
    @exists_members_of_set? params _ _ _ _ (placeholders_append_field hf hlead before) hs
  obtain rfl := Except.ok.inj hb
  have hasks := Asks.inSet hf hi hm
  rwa [List.map_map] at hasks

theorem asks_of_notInSet {n i : Token} (hf : t.field? = some f) (hn : n.is .not = true)
    (hi : i.is .in = true) (hs : set? (placeholders before) ts = some xs)
    (hb : (OpenCheck.notInSet xs).bind params = .ok b) :
    Asks params before (t :: n :: i :: ts) ⟨f, b⟩ := by
  have hlead : placeholders [n, i, .openParen] = 0 := by
    rw [placeholders_cons_of_is hn, placeholders_cons_of_is hi]
    rfl
  obtain ⟨inner, rfl, hm⟩ :=
    @exists_members_of_set? params _ _ _ _ (placeholders_append_field hf hlead before) hs
  obtain rfl := Except.ok.inj hb
  have hasks := Asks.notInSet hf hn hi hm
  rwa [List.map_map] at hasks

theorem asks_of_pattern? {l x : Token} (hf : t.field? = some f) (hl : l.is .like = true)
    (hc : pattern? (placeholders before) x = some check) (hb : check.bind params = .ok b) :
    Asks params before [t, l, x] ⟨f, b⟩ := by
  have hs : x = .placeholder ∨ ∃ s, x = .string s := by
    cases x with
    | placeholder => exact .inl rfl
    | string s => exact .inr ⟨s, rfl⟩
    | _ => cases hc
  have hx : ∃ y, x.operand? (placeholders before) = some y ∧ check = .like y := by
    rcases hs with rfl | ⟨s, rfl⟩ <;> exact ⟨_, rfl, (Option.some.inj hc).symm⟩
  obtain ⟨y, hy, rfl⟩ := hx
  obtain ⟨p, hp, rfl⟩ := OpenCheck.bind_like.mp hb
  have hlead := placeholders_append_field hf (placeholders_of_is hl) before
  exact .like hf hl hs ((gives_iff hlead).mpr ⟨y, hy, rfl⟩) hp

/-- A check that is read and bound is one that the part asks for. -/
theorem asks_of_check? (hf : t.field? = some f)
    (hc : check? (placeholders before) ts = some check) (hb : check.bind params = .ok b) :
    Asks params before (t :: ts) ⟨f, b⟩ := by
  revert hc
  fun_cases check? (placeholders before) ts with
  | case1 op x =>
    intro hc
    obtain ⟨y, hy, rfl⟩ := Option.map_eq_some_iff.mp hc
    obtain rfl := Except.ok.inj hb
    have hlead := @placeholders_append_field t _ [.comparison op] hf rfl before
    exact .compare hf ((gives_iff hlead).mpr ⟨y, hy, rfl⟩)
  | case2 i n _ hin =>
    intro hc
    obtain ⟨hi, hn⟩ := Bool.and_eq_true_iff.mp hin
    obtain rfl := Option.some.inj hc
    obtain rfl := Except.ok.inj hb
    exact .isNull hf hi hn
  | case3 l x _ _ hl => exact fun hc => asks_of_pattern? hf hl hc hb
  | case5 i o ts _ _ hio hn =>
    intro hc
    obtain ⟨hi, ho⟩ := Bool.and_eq_true_iff.mp hio
    obtain ⟨hlen, hany⟩ := Bool.and_eq_true_iff.mp hn
    obtain ⟨n, rfl⟩ := List.length_eq_one_iff.mp (beq_iff_eq.mp hlen)
    obtain rfl := Option.some.inj hc
    obtain rfl := Except.ok.inj hb
    exact .isNotNull hf hi ho (by simpa using hany)
  | case7 n i ts _ _ _ hni =>
    intro hc
    obtain ⟨hn, hi⟩ := Bool.and_eq_true_iff.mp hni
    obtain ⟨xs, hxs, rfl⟩ := Option.map_eq_some_iff.mp hc
    exact asks_of_notInSet hf hn hi hxs hb
  | case8 i p ts _ _ _ _ hi =>
    intro hc
    obtain ⟨xs, hxs, rfl⟩ := Option.map_eq_some_iff.mp hc
    exact asks_of_inSet hf hi hxs hb
  | case4 | case6 | case9 | case10 =>
    intro hc
    cases hc

/-! ### Conditions read back -/

theorem Token.ne_openParen_of_is {u : Token} (h : u.is k = true) : u ≠ .openParen := by
  rintro rfl
  cases h

theorem callsDate_cons_of_ne {u : Token} (hu : u ≠ .openParen) (t : Token) (ts : List Token) :
    Fragment.callsDate (t :: u :: ts) = Fragment.callsDate (u :: ts) := by
  cases u with
  | openParen => exact absurd rfl hu
  | _ => rfl

/-- A set calls no function on dates, whatever its items are. -/
theorem Members.callsDate {i : Token} (h : Members params before inner vs) (hi : i.is .in = true) :
    Fragment.callsDate (i :: .openParen :: (inner ++ [.closeParen])) = false := by
  have hany : i.isAny dateFunctions = false := by
    simp only [Token.isAny, is_of_is hi]
    decide
  rw [Fragment.callsDate, hany, Bool.false_or]
  refine callsDate_cons fun u hu => ?_
  rcases List.mem_append.mp hu with hu | hu
  · exact h.ne_openParen u hu
  · rw [List.mem_singleton.mp hu]
    decide

theorem Asks.callsDate (h : Asks params before part c) : Fragment.callsDate part = false := by
  cases h with
  | compare hf hx =>
    rw [callsDate_cons_of_ne Token.noConfusion, callsDate_cons_of_ne hx.ne_openParen]
    rfl
  | like hf hl hs hx hp =>
    rw [callsDate_cons_of_ne (ne_openParen_of_is hl), callsDate_cons_of_ne hx.ne_openParen]
    rfl
  | isNull hf hi hn =>
    rw [callsDate_cons_of_ne (ne_openParen_of_is hi), callsDate_cons_of_ne (ne_openParen_of_is hn)]
    rfl
  | isNotNull hf hi ho hn =>
    rw [callsDate_cons_of_ne (ne_openParen_of_is hi), callsDate_cons_of_ne (ne_openParen_of_is ho),
      callsDate_cons_of_ne (ne_openParen_of_is hn)]
    rfl
  | inSet hf hi hm => rw [callsDate_cons_of_ne (ne_openParen_of_is hi), hm.callsDate hi]
  | notInSet hf hn hi hm =>
    rw [callsDate_cons_of_ne (ne_openParen_of_is hn), callsDate_cons_of_ne (ne_openParen_of_is hi),
      hm.callsDate hi]

theorem check?_in {i : Token} (hi : i.is .in = true) (next : Nat) (inner : List Token) :
    check? next (i :: .openParen :: (inner ++ [.closeParen]))
      = (set? next (.openParen :: (inner ++ [.closeParen]))).map .inSet := by
  have his : i.is .is = false := is_of_is hi .is
  have hnot : i.is .not = false := is_of_is hi .not
  cases i with
  | word w => cases inner <;> simp [check?, his, hnot, hi]
  | _ => cases hi

theorem check?_notIn {n i : Token} (hn : n.is .not = true) (hi : i.is .in = true) (next : Nat)
    (inner : List Token) : check? next (n :: i :: .openParen :: (inner ++ [.closeParen]))
      = (set? next (.openParen :: (inner ++ [.closeParen]))).map .notInSet := by
  have his : n.is .is = false := is_of_is hn .is
  cases n with
  | word w => simp [check?, his, hn, hi]
  | _ => cases hn

/-- A part starts with the field that it asks about, and the rest of it is read as a check that
binds to the one it asks for. -/
theorem Asks.exists_check? (h : Asks params before part c) :
    ∃ t ts check, part = t :: ts ∧ t.field? = some c.field ∧
      check? (placeholders before) ts = some check ∧ check.bind params = .ok c.check := by
  cases h with
  | @compare t x op f v hf hx =>
    have hlead := @placeholders_append_field t _ [.comparison op] hf rfl before
    obtain ⟨y, hy, rfl⟩ := (gives_iff hlead).mp hx
    exact ⟨t, _, .compare op y, rfl, hf, by rw [check?, hy]; rfl, rfl⟩
  | @like t l x f v p hf hl hs hx hp =>
    have hlead := placeholders_append_field hf (placeholders_of_is hl) before
    obtain ⟨y, hy, rfl⟩ := (gives_iff hlead).mp hx
    have hpat : pattern? (placeholders before) x = some (.like y) := by
      rcases hs with rfl | ⟨s, rfl⟩
      all_goals
        obtain rfl := Option.some.inj hy
        rfl
    have hc : check? (placeholders before) [l, x] = some (.like y) := by
      have his : l.is .is = false := is_of_is hl .is
      cases l with
      | word w => simp [check?, his, hl, hpat]
      | _ => cases hl
    exact ⟨t, _, .like y, rfl, hf, hc, OpenCheck.bind_like.mpr ⟨p, hp, rfl⟩⟩
  | @isNull t i n f hf hi hn =>
    have hc : check? (placeholders before) [i, n] = some .isNull := by
      cases i with
      | word w => simp [check?, hi, hn]
      | _ => cases hi
    exact ⟨t, _, .isNull, rfl, hf, hc, rfl⟩
  | @isNotNull t i o n f hf hi ho hn =>
    have hc : check? (placeholders before) [i, o, n] = some .isNotNull := by
      cases i with
      | word w => simp [check?, hi, ho, hn]
      | _ => cases hi
    exact ⟨t, _, .isNotNull, rfl, hf, hc, rfl⟩
  | @inSet t i inner f vs hf hi hm =>
    have hlead : placeholders [i, .openParen] = 0 := placeholders_cons_of_is hi _
    obtain ⟨xs, hxs, rfl⟩ := set?_of_members (placeholders_append_field hf hlead before) hm
    have hc := check?_in hi (placeholders before) inner
    rw [hxs] at hc
    refine ⟨t, _, .inSet xs, rfl, hf, hc, ?_⟩
    rw [OpenCheck.bind, List.map_map]
    rfl
  | @notInSet t n i inner f vs hf hn hi hm =>
    have hlead : placeholders [n, i, .openParen] = 0 := by
      rw [placeholders_cons_of_is hn, placeholders_cons_of_is hi]
      rfl
    obtain ⟨xs, hxs, rfl⟩ := set?_of_members (placeholders_append_field hf hlead before) hm
    have hc := check?_notIn hn hi (placeholders before) inner
    rw [hxs] at hc
    refine ⟨t, _, .notInSet xs, rfl, hf, hc, ?_⟩
    rw [OpenCheck.bind, List.map_map]
    rfl

/-- A part asks for the condition that it is read as and bound to. -/
theorem asks_iff : Asks params before part c ↔
    ∃ check, Fragment.ofTokens (placeholders before) part = .condition c.field check ∧
      check.bind params = .ok c.check := by
  constructor
  · intro h
    have hd := h.callsDate
    obtain ⟨t, ts, check, rfl, hf, hc, hb⟩ := h.exists_check?
    have hfield : (t :: ts).head?.bind Token.field? = some c.field := hf
    refine ⟨check, ?_, hb⟩
    rw [Fragment.ofTokens, hd, if_neg Bool.false_ne_true, hfield]
    simp only [List.tail_cons, hc]
  · rintro ⟨check, hread, hbind⟩
    revert hread
    fun_cases Fragment.ofTokens (placeholders before) part with
    | case2 _ f hf check hc =>
      intro hread
      obtain ⟨rfl, rfl⟩ := Fragment.condition.inj hread
      cases part with
      | nil => cases hf
      | cons t ts => exact asks_of_check? hf hc hbind
    | case1 | case3 | case4 | case5 =>
      intro hread
      cases hread

/-! ### Clauses -/

namespace Clause

variable {mode : Mode} {fs : List Fragment} {cs : List Condition}

/-- The first part of a clause compiles to its share of the conditions. -/
theorem Binds.exists_partCompiles
    (h : Binds mode params (Fragment.ofTokens (placeholders before) part :: fs) cs) :
    ∃ as ds, PartCompiles params before part as ∧ Binds mode params fs ds ∧ cs = as ++ ds := by
  have hskip : (∀ f check, Fragment.ofTokens (placeholders before) part ≠ .condition f check) →
      PartCompiles params before part [] := by
    refine fun hne => .inr ⟨fun c hc => ?_, rfl⟩
    obtain ⟨check, hread, _⟩ := asks_iff.mp hc
    exact hne _ _ hread
  generalize hread : Fragment.ofTokens (placeholders before) part = f at h hskip
  cases h with
  | condition hb hr => exact ⟨[_], _, .inl ⟨_, asks_iff.mpr ⟨_, hread, hb⟩, rfl⟩, hr, rfl⟩
  | ignored hr => exact ⟨[], cs, hskip fun _ _ h => Fragment.noConfusion h, hr, rfl⟩
  | dropped hm hr => exact ⟨[], cs, hskip fun _ _ h => Fragment.noConfusion h, hr, rfl⟩

/-- A clause that is read from the number of placeholders before it on takes its parameters by the
places of its placeholders. The induction is on the parts of the clause. -/
theorem compiles_of_binds {parts : List (List Token)} (hcut : CutInto (·.is .and) ts parts)
    (h : Binds mode params (readParts (placeholders before) parts) cs) :
    Compiles params before ts cs := by
  induction hcut generalizing before cs with
  | last hu =>
    obtain ⟨as, ds, hp, hr, rfl⟩ := h.exists_partCompiles
    cases hr
    rw [List.append_nil]
    exact .last hu hp
  | @step part rest sep parts hc hs _ ih =>
    have hsep : sep.is .and = true := of_cuts hs
    have hnext : placeholders before + placeholders part
        = placeholders (before ++ part ++ [sep]) := by
      rw [placeholders_append, placeholders_append, placeholders_of_is hsep, Nat.add_zero]
    rw [readParts, hnext] at h
    obtain ⟨as, ds, hp, hr, rfl⟩ := h.exists_partCompiles
    exact .step hc hsep hp (ih hr)

theorem compiles_of_bind (before ts : List Token) (cs : List Condition)
    (h : (ofTokens (placeholders before) ts).bind mode params = .ok cs) :
    Compiles params before ts cs := by
  cases ts with
  | nil =>
    obtain rfl := Except.ok.inj h
    refine .last rfl (.inr ⟨fun c hc => ?_, rfl⟩)
    cases hc
  | cons t ts =>
    exact compiles_of_binds (cutInto_splitTopLevel _ (t :: ts)) (binds_of_bindFragments h)

/-- A clause that nothing cuts is its only part. -/
theorem partCompiles_of_uncut (hu : findTopLevel (·.is .and) ts = none)
    (h : Compiles params before ts cs) : PartCompiles params before ts cs := by
  cases h with
  | last _ hp => exact hp
  | step hc hs hp hr =>
    have huncut := (findFrom_append_eq_none_iff.mp hu).2
    rw [hc.level, findFrom_cons_of_cuts (cuts_of_is hs)] at huncut
    cases huncut

/-- The parts of a list hold all its placeholders, for what stands between them holds none. -/
theorem total_placeholders_of_cutInto {p : Token → Bool} {parts : List (List Token)}
    (hp : ∀ t, p t = true → placeholders [t] = 0) (h : CutInto p ts parts) :
    total (parts.map placeholders) = placeholders ts := by
  induction h with
  | last hu => rfl
  | step hc hs hr ih =>
    rw [List.map_cons, total, ih, placeholders_append, placeholders_cons_of (hp _ (of_cuts hs))]

theorem consumed_eq_placeholders (ts : List Token) : consumed ts = placeholders ts := by
  cases ts with
  | nil => rfl
  | cons t ts =>
    exact total_placeholders_of_cutInto (fun _ => placeholders_of_is)
      (cutInto_splitTopLevel _ (t :: ts))

end Clause
end ClientRecords
