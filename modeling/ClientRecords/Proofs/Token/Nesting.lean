import ClientRecords.Token.Nesting
/-!
Lists of tokens put together and cut again. What stands before a token sets the depth at which the
token is looked at, so a part that closes its own parentheses and holds no separator outside of them
is passed over as a whole (`Closed`). A list put together from closed parts is cut at the tokens
between them and nowhere else: `splitTopLevel_intercalate`, `breakTopLevel_append_cons`.
-/

namespace ClientRecords.Token

variable {p : Token → Bool} {depth : Nat} {t sep : Token} {as bs : List Token}

/-- The depth after a list of tokens. -/
def depthOver (depth : Nat) (ts : List Token) : Nat := ts.foldl depthAfter depth

@[simp] theorem depthOver_nil (depth : Nat) : depthOver depth [] = depth := rfl

@[simp] theorem depthOver_cons (depth : Nat) (t : Token) (ts : List Token) :
    depthOver depth (t :: ts) = depthOver (depthAfter depth t) ts := rfl

theorem depthOver_append (depth : Nat) (as bs : List Token) :
    depthOver depth (as ++ bs) = depthOver (depthOver depth as) bs := List.foldl_append ..

theorem depthAfter_of_not_paren (depth : Nat) (h : t.isParen = false) :
    depthAfter depth t = depth := by
  cases t <;> first | rfl | exact absurd h (by decide)

theorem depthOver_flat (depth : Nat) : ∀ {ts : List Token}, (∀ t ∈ ts, t.isParen = false) →
    depthOver depth ts = depth
  | [], _ => rfl
  | t :: ts, h => by
    rw [depthOver_cons, depthAfter_of_not_paren depth (h t List.mem_cons_self)]
    exact depthOver_flat depth fun u hu => h u (List.mem_cons_of_mem _ hu)

/-! ### Looking for a token -/

theorem findFrom_cons_of_cuts (h : cuts p depth t = true) :
    findFrom p depth (t :: as) = some 0 := by
  rw [findFrom, if_pos h]

theorem findFrom_cons_of_not_cuts (h : cuts p depth t = false) :
    findFrom p depth (t :: as) = (findFrom p (depthAfter depth t) as).map (· + 1) := by
  rw [findFrom, if_neg (by simp [h])]

theorem findFrom_cons_eq_none_iff :
    findFrom p depth (t :: as) = none ↔
      cuts p depth t = false ∧ findFrom p (depthAfter depth t) as = none := by
  rw [findFrom]
  cases cuts p depth t <;> simp

theorem findFrom_append_of_some : ∀ {depth : Nat} {as : List Token} {i : Nat},
    findFrom p depth as = some i → findFrom p depth (as ++ bs) = some i
  | _, [], _, h => by cases h
  | depth, t :: as, i, h => by
    cases hc : cuts p depth t with
    | true => rw [findFrom_cons_of_cuts hc] at h; exact (findFrom_cons_of_cuts hc).trans h
    | false =>
      rw [findFrom_cons_of_not_cuts hc] at h
      obtain ⟨j, hj, rfl⟩ := Option.map_eq_some_iff.mp h
      rw [List.cons_append, findFrom_cons_of_not_cuts hc, findFrom_append_of_some hj]
      rfl

theorem findFrom_append : ∀ {depth : Nat} {as : List Token}, findFrom p depth as = none →
    findFrom p depth (as ++ bs) = (findFrom p (depthOver depth as) bs).map (· + as.length)
  | _, [], _ => by simp
  | depth, t :: as, h => by
    obtain ⟨hc, has⟩ := findFrom_cons_eq_none_iff.mp h
    rw [List.cons_append, findFrom_cons_of_not_cuts hc, findFrom_append has, Option.map_map]
    rfl

theorem findFrom_append_eq_none_iff : findFrom p depth (as ++ bs) = none ↔
    findFrom p depth as = none ∧ findFrom p (depthOver depth as) bs = none := by
  cases h : findFrom p depth as with
  | none => rw [findFrom_append h]; simp
  | some i => rw [findFrom_append_of_some h]; simp

theorem findFrom_eq_none_of_imp {q : Token → Bool} (hq : ∀ t, q t = true → p t = true) :
    ∀ {depth : Nat} {as : List Token}, findFrom p depth as = none → findFrom q depth as = none
  | _, [], _ => rfl
  | depth, t :: as, h => by
    obtain ⟨hc, has⟩ := findFrom_cons_eq_none_iff.mp h
    refine findFrom_cons_eq_none_iff.mpr
      ⟨Bool.eq_false_iff.mpr fun hcut => ?_, findFrom_eq_none_of_imp hq has⟩
    obtain ⟨hdepth, hqt⟩ := Bool.and_eq_true_iff.mp hcut
    exact Bool.eq_false_iff.mp hc (Bool.and_eq_true_iff.mpr ⟨hdepth, hq t hqt⟩)

theorem findFrom_isAny {ks : List Keyword} : ∀ {depth : Nat} {as : List Token},
    (∀ k ∈ ks, findFrom (·.is k) depth as = none) → findFrom (·.isAny ks) depth as = none
  | _, [], _ => rfl
  | depth, t :: as, h => by
    have hcons := fun k hk => findFrom_cons_eq_none_iff.mp (h k hk)
    refine findFrom_cons_eq_none_iff.mpr
      ⟨Bool.eq_false_iff.mpr fun hcut => ?_, findFrom_isAny fun k hk => (hcons k hk).2⟩
    obtain ⟨hdepth, hany⟩ := Bool.and_eq_true_iff.mp hcut
    obtain ⟨k, hk, hkt⟩ := List.any_eq_true.mp hany
    exact Bool.eq_false_iff.mp (hcons k hk).1 (Bool.and_eq_true_iff.mpr ⟨hdepth, hkt⟩)

/-- At a depth above zero nothing is found before a parenthesis. -/
theorem findFrom_succ_flat : ∀ {ts : List Token}, (∀ t ∈ ts, t.isParen = false) →
    findFrom p (depth + 1) ts = none
  | [], _ => rfl
  | t :: ts, h => by
    rw [findFrom_cons_eq_none_iff, depthAfter_of_not_paren _ (h t List.mem_cons_self)]
    exact ⟨by simp [cuts], findFrom_succ_flat fun u hu => h u (List.mem_cons_of_mem _ hu)⟩

/-! ### Closed parts -/

/-- No token outside of parentheses has the property, and every parenthesis is closed. -/
structure Closed (p : Token → Bool) (ts : List Token) : Prop where
  uncut : findTopLevel p ts = none
  level : depthOver 0 ts = 0

namespace Closed

theorem nil : Closed p [] := ⟨rfl, rfl⟩

theorem append (ha : Closed p as) (hb : Closed p bs) : Closed p (as ++ bs) := by
  refine ⟨?_, by rw [depthOver_append, ha.level, hb.level]⟩
  rw [findTopLevel, findFrom_append_eq_none_iff, ha.level]
  exact ⟨ha.uncut, hb.uncut⟩

theorem cons (ht : t.isParen = false) (hp : p t = false) (h : Closed p as) :
    Closed p (t :: as) := by
  refine ⟨?_, by rw [depthOver_cons, depthAfter_of_not_paren 0 ht, h.level]⟩
  rw [findTopLevel, findFrom_cons_eq_none_iff, depthAfter_of_not_paren 0 ht]
  exact ⟨by simp [cuts, hp], h.uncut⟩

/-- A list within parentheses is closed whatever it holds, other parentheses apart. -/
theorem parens (hf : ∀ t ∈ as, t.isParen = false) :
    Closed p (.openParen :: as ++ [.closeParen]) := by
  have hd : depthOver 0 (.openParen :: as) = 1 := depthOver_flat 1 hf
  refine ⟨?_, by rw [depthOver_append, hd]; rfl⟩
  rw [findTopLevel, findFrom_append_eq_none_iff, hd]
  exact ⟨findFrom_cons_eq_none_iff.mpr ⟨rfl, findFrom_succ_flat hf⟩, rfl⟩

theorem flatten : ∀ {parts : List (List Token)}, (∀ part ∈ parts, Closed p part) →
    Closed p parts.flatten
  | [], _ => nil
  | part :: parts, h => by
    rw [List.flatten_cons]
    exact (h part List.mem_cons_self).append
      (flatten fun x hx => h x (List.mem_cons_of_mem _ hx))

theorem of_flat (h : ∀ t ∈ as, t.isParen = false ∧ p t = false) : Closed p as := by
  induction as with
  | nil => exact nil
  | cons t as ih =>
    obtain ⟨ht, has⟩ := List.forall_mem_cons.mp h
    exact cons ht.1 ht.2 (ih has)

theorem isAny {ks : List Keyword} (hl : depthOver 0 as = 0)
    (h : ∀ k ∈ ks, Closed (·.is k) as) : Closed (·.isAny ks) as :=
  ⟨findFrom_isAny fun k hk => (h k hk).uncut, hl⟩

theorem intercalate {seps : List Token} (hs : Closed p seps) : ∀ {parts : List (List Token)},
    (∀ part ∈ parts, Closed p part) → Closed p (List.intercalate seps parts)
  | [], _ => nil
  | [part], h => by simpa using h part List.mem_cons_self
  | part :: next :: parts, h => by
    have ih : Closed p (List.intercalate seps (next :: parts)) :=
      intercalate hs fun x hx => h x (List.mem_cons_of_mem _ hx)
    rw [List.intercalate_cons_cons]
    exact ((h part List.mem_cons_self).append hs).append ih

end Closed

/-! ### Cutting in two -/

theorem breakTopLevel_of_uncut (h : findTopLevel p as = none) : breakTopLevel p as = (as, []) := by
  rw [breakTopLevel, h]

theorem breakTopLevel_append_cons (h : Closed p as) (hs : cuts p 0 sep = true) :
    breakTopLevel p (as ++ sep :: bs) = (as, sep :: bs) := by
  have hf : findTopLevel p (as ++ sep :: bs) = some as.length := by
    rw [findTopLevel, findFrom_append h.uncut, h.level, findFrom_cons_of_cuts hs]
    simp
  rw [breakTopLevel, hf]
  simp

/-- A list is empty, or starts with one of some keywords. -/
def Opens (ks : List Keyword) (ts : List Token) : Prop := ∀ t ∈ ts.head?, t.isAny ks = true

theorem isParen_of_isAny {ks : List Keyword} (h : t.isAny ks = true) : t.isParen = false := by
  cases t with
  | openParen | closeParen =>
    obtain ⟨k, _, hk⟩ := List.any_eq_true.mp h
    cases hk
  | _ => rfl

theorem breakTopLevel_append_of_opens {ks : List Keyword} (h : Closed (·.isAny ks) as)
    (ho : Opens ks bs) : breakTopLevel (·.isAny ks) (as ++ bs) = (as, bs) := by
  cases bs with
  | nil => rw [List.append_nil, breakTopLevel_of_uncut h.uncut]
  | cons t bs =>
    have ht : t.isAny ks = true := ho t rfl
    exact breakTopLevel_append_cons h (by simp [cuts, isParen_of_isAny ht, ht])

/-! ### Cutting into parts -/

theorem splitFrom_of_uncut : ∀ {depth : Nat} {as : List Token}, findFrom p depth as = none →
    splitFrom p depth as = [as]
  | _, [], _ => rfl
  | depth, t :: as, h => by
    obtain ⟨hc, has⟩ := findFrom_cons_eq_none_iff.mp h
    rw [splitFrom, if_neg (by simp [hc]), splitFrom_of_uncut has]
    rfl

theorem consPart_append {parts : List (List Token)} (h : parts ≠ []) (t : Token)
    (more : List (List Token)) : consPart t (parts ++ more) = consPart t parts ++ more := by
  cases parts with
  | nil => exact absurd rfl h
  | cons part parts => rfl

theorem splitFrom_ne_nil (p : Token → Bool) : ∀ (depth : Nat) (ts : List Token),
    splitFrom p depth ts ≠ []
  | _, [] => List.cons_ne_nil _ _
  | depth, t :: ts => by
    rw [splitFrom]
    split
    · exact List.cons_ne_nil _ _
    · cases splitFrom p (depthAfter depth t) ts <;> exact List.cons_ne_nil _ _

/-- A separator outside of parentheses parts a list, whatever else cuts it. -/
theorem splitFrom_append (hs : cuts p 0 sep = true) : ∀ {depth : Nat} {as : List Token},
    depthOver depth as = 0 →
    splitFrom p depth (as ++ sep :: bs) = splitFrom p depth as ++ splitFrom p 0 bs
  | depth, [], hd => by
    obtain rfl : depth = 0 := hd
    exact if_pos hs
  | depth, t :: as, hd => by
    rw [depthOver_cons] at hd
    rw [List.cons_append, splitFrom, splitFrom]
    by_cases hc : cuts p depth t = true
    · rw [if_pos hc, if_pos hc]
      simp only [cuts, Bool.and_eq_true, Bool.not_eq_true'] at hc
      rw [depthAfter_of_not_paren depth hc.1.1] at hd
      rw [splitFrom_append hs hd, List.cons_append]
    · rw [if_neg hc, if_neg hc, splitFrom_append hs hd, consPart_append (splitFrom_ne_nil p _ as)]

theorem splitFrom_append_cons (hs : cuts p 0 sep = true) {depth : Nat} {as : List Token}
    (h : findFrom p depth as = none) (hd : depthOver depth as = 0) :
    splitFrom p depth (as ++ sep :: bs) = as :: splitFrom p 0 bs := by
  rw [splitFrom_append hs hd, splitFrom_of_uncut h, List.singleton_append]

/-- Either nothing cuts a list, or it is cut first behind tokens that close its parentheses. -/
theorem findFrom_cases (p : Token → Bool) : ∀ (depth : Nat) (ts : List Token),
    findFrom p depth ts = none ∨ ∃ part sep rest, ts = part ++ sep :: rest ∧
      findFrom p depth part = none ∧ depthOver depth part = 0 ∧ cuts p 0 sep = true
  | _, [] => .inl rfl
  | depth, t :: ts => by
    cases hc : cuts p depth t with
    | true =>
      obtain rfl : depth = 0 := by
        simp only [cuts, Bool.and_eq_true, beq_iff_eq] at hc
        exact hc.1.2
      exact .inr ⟨[], t, ts, rfl, rfl, rfl, hc⟩
    | false =>
      rcases findFrom_cases p (depthAfter depth t) ts with h | ⟨part, sep, rest, rfl, hu, hl, hs⟩
      · exact .inl (findFrom_cons_eq_none_iff.mpr ⟨hc, h⟩)
      · exact .inr ⟨t :: part, sep, rest, rfl, findFrom_cons_eq_none_iff.mpr ⟨hc, hu⟩, hl, hs⟩

/-- A list is its only part, or a closed part, a separator and a list with the other parts. -/
theorem splitTopLevel_cases (p : Token → Bool) (ts : List Token) :
    (findTopLevel p ts = none ∧ splitTopLevel p ts = [ts]) ∨
    ∃ part sep rest, ts = part ++ sep :: rest ∧ Closed p part ∧ cuts p 0 sep = true ∧
      splitTopLevel p ts = part :: splitTopLevel p rest := by
  rcases findFrom_cases p 0 ts with h | ⟨part, sep, rest, rfl, hu, hl, hs⟩
  · exact .inl ⟨h, splitFrom_of_uncut h⟩
  · exact .inr ⟨part, sep, rest, rfl, ⟨hu, hl⟩, hs, splitFrom_append_cons hs hu hl⟩

/-- A list is broken nowhere, or behind a closed part. -/
theorem breakTopLevel_cases (p : Token → Bool) (ts : List Token) :
    (findTopLevel p ts = none ∧ breakTopLevel p ts = (ts, [])) ∨
    ∃ part sep rest, ts = part ++ sep :: rest ∧ Closed p part ∧ cuts p 0 sep = true ∧
      breakTopLevel p ts = (part, sep :: rest) := by
  rcases findFrom_cases p 0 ts with h | ⟨part, sep, rest, rfl, hu, hl, hs⟩
  · exact .inl ⟨h, breakTopLevel_of_uncut h⟩
  · exact .inr ⟨part, sep, rest, rfl, ⟨hu, hl⟩, hs, breakTopLevel_append_cons ⟨hu, hl⟩ hs⟩

/-- The parts that a list is cut into: closed parts with a separator behind each, and a last part
that nothing cuts. -/
inductive CutInto (p : Token → Bool) : List Token → List (List Token) → Prop
  | last {part : List Token} (hu : findTopLevel p part = none) : CutInto p part [part]
  | step {part rest : List Token} {sep : Token} {parts : List (List Token)} (hc : Closed p part)
      (hs : cuts p 0 sep = true) (hr : CutInto p rest parts) :
      CutInto p (part ++ sep :: rest) (part :: parts)

theorem cutInto_splitTopLevel (p : Token → Bool) (ts : List Token) :
    CutInto p ts (splitTopLevel p ts) := by
  rcases splitTopLevel_cases p ts with ⟨hu, hs⟩ | ⟨part, sep, rest, hts, hc, hcut, hs⟩
  · rw [hs]
    exact .last hu
  · have hrest := cutInto_splitTopLevel p rest
    rw [hs, hts]
    exact .step hc hcut hrest
termination_by ts.length
decreasing_by
  rw [hts, List.length_append, List.length_cons]
  omega

theorem of_cuts (h : cuts p depth t = true) : p t = true := by
  simp only [cuts, Bool.and_eq_true] at h
  exact h.2

theorem cuts_of_is {k : Keyword} (h : t.is k = true) : cuts (·.is k) 0 t = true := by
  cases t <;> exact h

theorem eq_comma_of_cuts (h : cuts (· == .comma) depth t = true) : t = .comma := by
  have ht := of_cuts h
  exact beq_iff_eq.mp ht

/-- Closed parts with a separator between them are the parts that cutting gives. -/
theorem splitTopLevel_intercalate (hs : cuts p 0 sep = true) :
    ∀ {parts : List (List Token)}, parts ≠ [] → (∀ part ∈ parts, Closed p part) →
    splitTopLevel p (List.intercalate [sep] parts) = parts
  | [], hne, _ => absurd rfl hne
  | [part], _, h => by
    have hp := h part List.mem_cons_self
    simpa [splitTopLevel] using splitFrom_of_uncut hp.uncut
  | part :: next :: parts, _, h => by
    have hp := h part List.mem_cons_self
    have ih := splitTopLevel_intercalate hs (List.cons_ne_nil next parts)
      fun x hx => h x (List.mem_cons_of_mem _ hx)
    rw [List.intercalate_cons_cons, List.append_assoc, List.singleton_append, splitTopLevel,
      splitFrom_append_cons hs hp.uncut hp.level]
    exact congrArg (part :: ·) ih

/-! ### Parentheses -/

theorem closingFrom_append (h : ∀ t ∈ as, t.isParen = false) (bs : List Token) :
    closingFrom 1 (as ++ .closeParen :: bs) = some as.length := by
  induction as with
  | nil => rfl
  | cons t as ih =>
    have hd : depthAfter 1 t = 1 := depthAfter_of_not_paren 1 (h t List.mem_cons_self)
    have hrest := ih fun u hu => h u (List.mem_cons_of_mem t hu)
    simp only [List.cons_append, closingFrom, hd, hrest]
    rfl

/-- Parentheses that hold no others are taken with what they hold. -/
theorem parenthesised?_append (h : ∀ t ∈ as, t.isParen = false) (bs : List Token) :
    parenthesised? (.openParen :: (as ++ .closeParen :: bs)) = some (as, bs) := by
  rw [parenthesised?, closingParen?, closingFrom_append h]
  simp

/-- The token at which parentheses are closed is a closing one. -/
theorem eq_append_of_closingFrom {i : Nat} (h : closingFrom depth as = some i) :
    as = as.take i ++ .closeParen :: as.drop (i + 1) := by
  induction as generalizing depth i with
  | nil => cases h
  | cons t as ih =>
    rw [closingFrom] at h
    have hlater {d : Nat} (hd : (closingFrom d as).map (· + 1) = some i) :
        t :: as = (t :: as).take i ++ .closeParen :: (t :: as).drop (i + 1) := by
      obtain ⟨j, hj, rfl⟩ := Option.map_eq_some_iff.mp hd
      exact congrArg (t :: ·) (ih hj)
    cases hd : depthAfter depth t with
    | zero =>
      rw [hd] at h
      by_cases ht : (t == .closeParen) = true
      · simp only [if_pos ht] at h
        obtain rfl := Option.some.inj h
        rw [beq_iff_eq.mp ht]
        rfl
      · simp only [if_neg ht] at h
        exact hlater h
    | succ d =>
      rw [hd] at h
      exact hlater h

/-- A list with parentheses that are taken starts with them, what they hold and the tokens after
them following. -/
theorem eq_of_parenthesised? {inner rest : List Token}
    (h : parenthesised? as = some (inner, rest)) :
    as = .openParen :: (inner ++ .closeParen :: rest) := by
  obtain ⟨close, hclose, hparts⟩ := Option.map_eq_some_iff.mp h
  obtain ⟨rfl, rfl⟩ := Prod.mk.inj hparts
  cases as with
  | nil => cases hclose
  | cons t as =>
    cases t with
    | openParen =>
      obtain ⟨i, hi, rfl⟩ := Option.map_eq_some_iff.mp hclose
      exact congrArg (_ :: ·) (eq_append_of_closingFrom hi)
    | _ => cases hclose

/-! ### What parts with separators hold -/

theorem mem_intercalate {seps : List Token} : ∀ {parts : List (List Token)},
    t ∈ List.intercalate seps parts → t ∈ seps ∨ ∃ part ∈ parts, t ∈ part
  | [], h => by cases h
  | [part], h => .inr ⟨part, List.mem_cons_self, by simpa using h⟩
  | part :: next :: parts, h => by
    rw [List.intercalate_cons_cons, List.mem_append, List.mem_append] at h
    rcases h with (h | h) | h
    · exact .inr ⟨part, List.mem_cons_self, h⟩
    · exact .inl h
    · rcases mem_intercalate h with h | ⟨x, hx, ht⟩
      · exact .inl h
      · exact .inr ⟨x, List.mem_cons_of_mem _ hx, ht⟩

/-- Placeholders with commas between them. -/
theorem mem_placeholders {n : Nat}
    (h : t ∈ List.intercalate [.comma] (List.replicate n [.placeholder])) :
    t ∈ [Token.comma, .placeholder] := by
  rcases mem_intercalate h with h | ⟨part, hp, h⟩
  · obtain rfl := List.mem_singleton.mp h
    decide
  · obtain rfl := List.eq_of_mem_replicate hp
    obtain rfl := List.mem_singleton.mp h
    decide

theorem placeholders_append (as bs : List Token) :
    placeholders (as ++ bs) = placeholders as + placeholders bs := List.countP_append

theorem placeholders_intercalate {seps : List Token} (hs : placeholders seps = 0) :
    ∀ parts : List (List Token),
    placeholders (List.intercalate seps parts) = placeholders parts.flatten
  | [] => rfl
  | [part] => by simp
  | part :: next :: parts => by
    rw [List.intercalate_cons_cons, placeholders_append, placeholders_append, hs,
      placeholders_intercalate hs (next :: parts), Nat.add_zero]
    exact (placeholders_append part _).symm

/-- Parts with one placeholder for each of their values. -/
theorem placeholders_flatMap {α β : Type} {tokens : α → List Token} {values : α → List β}
    (h : ∀ a, placeholders (tokens a) = (values a).length) (parts : List α) :
    placeholders (parts.flatMap tokens) = (parts.flatMap values).length := by
  induction parts with
  | nil => rfl
  | cons a parts ih =>
    rw [List.flatMap_cons, List.flatMap_cons, placeholders_append, h, ih, List.length_append]

theorem placeholders_flatMap_eq_zero {α : Type} {tokens : α → List Token}
    (h : ∀ a, placeholders (tokens a) = 0) (parts : List α) :
    placeholders (parts.flatMap tokens) = 0 := by
  induction parts with
  | nil => rfl
  | cons a parts ih => rw [List.flatMap_cons, placeholders_append, h, ih]

end ClientRecords.Token
