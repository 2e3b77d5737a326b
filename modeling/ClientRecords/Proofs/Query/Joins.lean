import ClientRecords.Proofs.Query.Names
import ClientRecords.Proofs.Token.Nesting
/-!
The table of a written query, its alias and its joins. An alias is told from the words that may
follow a table, each join is cut off where it starts, and its table, alias and fields come back.
-/

namespace ClientRecords

open Token OpenQuery

/-- A token that is one keyword is another only if the two are spelled alike. -/
theorem Token.is_of_is {t : Token} {k : Keyword} (h : t.is k = true) (j : Keyword) :
    t.is j = (k.spelling == j.spelling) := by
  cases t with
  | word w =>
    have hw : Text.asciiLowercase w = k.spelling := by simpa [Token.is] using h
    rw [Token.is, hw]
  | _ => cases h

namespace OpenQuery

variable {before : Option Token} {t : Token} {ts rest : List Token} {segments : List (List Token)}

theorem takeAlias_of_opens (h : Opens reserved rest) : takeAlias rest = (none, rest) := by
  cases rest with
  | nil => rfl
  | cons t ts =>
    have ht : t.isAny reserved = true := h t rfl
    obtain ⟨k, hk, hkt⟩ := List.any_eq_true.mp ht
    have has : t.is .as = false := by
      rw [is_of_is hkt]
      clear hkt
      revert k
      decide
    cases t with
    | word w => simp [takeAlias, has, ht]
    | _ => cases hkt

/-! ### Segments -/

theorem joinSegments_cons_of_starts (h : startsJoin before t = true) : joinSegments before (t :: ts)
    = ([], (t :: (joinSegments (some t) ts).1) :: (joinSegments (some t) ts).2) := by
  simp [joinSegments, h]

theorem joinSegments_cons_of_not (h : startsJoin before t = false) : joinSegments before (t :: ts)
    = (t :: (joinSegments (some t) ts).1, (joinSegments (some t) ts).2) := by
  simp [joinSegments, h]

/-- Tokens that start no join belong to what is before the next one. -/
theorem joinSegments_append (ht : ∀ t ∈ ts, t.isAny (.join :: joinModifiers) = false)
    (hr : ∀ before, joinSegments before rest = ([], segments)) :
    ∀ before, joinSegments before (ts ++ rest) = (ts, segments) := by
  induction ts with
  | nil => exact hr
  | cons t ts ih =>
    intro before
    have hkeys := isAny_eq_false.mp (ht t List.mem_cons_self)
    have hjoin : t.is .join = false := hkeys .join List.mem_cons_self
    have hmod : t.isAny joinModifiers = false :=
      isAny_eq_false.mpr fun k hk => hkeys k (List.mem_cons_of_mem _ hk)
    have hstart : startsJoin before t = false := by simp [startsJoin, hjoin, hmod]
    rw [List.cons_append, joinSegments_cons_of_not hstart,
      ih fun u hu => ht u (List.mem_cons_of_mem _ hu)]

end OpenQuery

namespace Written

/-! ### Aliases -/

theorem Source.takeAlias_tokens (s : Source) {rest : List Token} (hr : Opens reserved rest) :
    takeAlias (s.aliasTokens ++ rest) = (s.aliasName, rest) := by
  obtain ⟨table, shortName⟩ := s
  cases shortName with
  | none => exact takeAlias_of_opens hr
  | some a =>
    obtain ⟨name, marked⟩ := a
    cases marked with
    | true => rfl
    | false =>
      have has : Token.is .as (.word name.text) = false := name.is_eq_false (by decide)
      have hres : (Token.word name.text).isAny reserved = false :=
        isAny_eq_false.mpr fun k hk => name.is_eq_false (List.mem_append_left _ hk)
      simp [Source.aliasTokens, Source.aliasName, Alias.tokens, Name.token, takeAlias, has, hres]

theorem Source.takeJoinAlias_tokens (s : Source) (left : Field) (rest : List Token) :
    takeJoinAlias (s.aliasTokens ++ .word "ON" :: left.token :: rest)
      = (s.aliasName, .word "ON" :: left.token :: rest) := by
  obtain ⟨table, shortName⟩ := s
  cases shortName with
  | none => rfl
  | some a =>
    obtain ⟨name, marked⟩ := a
    cases marked with
    | true => rfl
    | false =>
      have has : Token.is .as (.word name.text) = false := name.is_eq_false (by decide)
      have hon : Token.is .on (.word name.text) = false := name.is_eq_false (by decide)
      simp [Source.aliasTokens, Source.aliasName, Alias.tokens, Name.token, takeJoinAlias, has, hon]

/-! ### Joins -/

/-- A token that neither starts a join nor ends the joins: no reserved word but `ON`. -/
def StaysInside (t : Token) : Prop :=
  t.isParen = false ∧ ∀ k ∈ reserved, k ≠ .on → t.is k = false

theorem Name.staysInside (n : Name) : StaysInside n.token :=
  ⟨rfl, fun _ hk _ => n.is_eq_false (List.mem_append_left _ hk)⟩

theorem Field.staysInside (f : Field) : StaysInside f.token :=
  ⟨rfl, fun _ hk _ => f.is_eq_false (List.mem_append_left _ hk)⟩

namespace Join

variable (j : Join)

/-- The tokens of a join behind the words that open it. -/
def target : List Token :=
  j.source.tokens ++ [.word "ON", j.left.token, .comparison .eq, j.right.token]

theorem tokens_eq : j.tokens = j.lead ++ j.target := List.append_assoc ..

theorem join?_tokens : join? j.tokens = some j.join := by
  have hsplit : join? j.tokens = joinOf? j.target := by
    rw [tokens_eq, lead]
    cases j.outer <;> rfl
  have htarget : j.target = .word j.source.table.name.text :: (j.source.aliasTokens
      ++ .word "ON" :: j.left.token :: [.comparison .eq, j.right.token]) := rfl
  have hon : ∀ table shortName, joinOn? table shortName
      (.word "ON" :: j.left.token :: [.comparison .eq, j.right.token])
      = some ⟨table, shortName, bareField j.left.word, bareField j.right.word⟩ := fun _ _ => rfl
  rw [hsplit, htarget, joinOf?, j.source.takeJoinAlias_tokens, j.source.table.lowercase]
  exact (hon _ _).trans (by rw [j.left.bareField_word, j.right.bareField_word]; rfl)

/-- Behind the words that open a join, `ON` is the only reserved word. -/
theorem staysInside_of_mem_target {t : Token} (ht : t ∈ j.target) : StaysInside t := by
  have halias : ∀ t ∈ j.source.aliasTokens, StaysInside t := by
    rw [Source.aliasTokens]
    cases j.source.shortName with
    | none => simp
    | some a =>
      have has : StaysInside (.word "AS") := ⟨rfl, by decide⟩
      cases hm : a.marked with
      | true => simpa [Alias.tokens, hm] using ⟨has, a.name.staysInside⟩
      | false => simpa [Alias.tokens, hm] using a.name.staysInside
  simp only [target, Source.tokens, List.mem_append, List.mem_cons, List.not_mem_nil,
    or_false] at ht
  rcases ht with (rfl | ht) | rfl | rfl | rfl | rfl
  · exact j.source.table.name.staysInside
  · exact halias t ht
  · exact ⟨rfl, by decide⟩
  · exact j.left.staysInside
  · exact ⟨rfl, fun _ _ _ => rfl⟩
  · exact j.right.staysInside

theorem closed_tokens : Closed isClauseKeyword j.tokens := by
  rw [tokens_eq]
  refine .append ?_ (.of_flat fun t ht => ?_)
  · rw [lead]
    cases j.outer <;> exact .of_flat (by decide)
  · obtain ⟨hparen, hkey⟩ := j.staysInside_of_mem_target ht
    refine ⟨hparen, isAny_eq_false.mpr fun k hk => hkey k (List.mem_append_left _ hk) ?_⟩
    rintro rfl
    revert hk
    decide

end Join

variable (joins : List Join)

theorem closed_joins : Closed isClauseKeyword (joins.flatMap Join.tokens) := by
  rw [List.flatMap_def]
  refine .flatten fun part hp => ?_
  obtain ⟨j, _, rfl⟩ := List.mem_map.mp hp
  exact j.closed_tokens

/-- Each join is a segment of its own. -/
theorem joinSegments_joins : ∀ before,
    joinSegments before (joins.flatMap Join.tokens) = ([], joins.map Join.tokens) := by
  induction joins with
  | nil => intro _; rfl
  | cons j js ih =>
    intro before
    have htarget : ∀ before, joinSegments before (j.target ++ js.flatMap Join.tokens)
        = (j.target, js.map Join.tokens) := by
      refine joinSegments_append (fun t ht => isAny_eq_false.mpr fun k hk => ?_) ih
      refine (j.staysInside_of_mem_target ht).2 k ?_ ?_
      · revert k; decide
      · revert k; decide
    have hleft : ∀ before, startsJoin before (.word "LEFT") = true := fun before => by
      have hmod : (Token.word "LEFT").isAny joinModifiers = true := by decide
      rw [startsJoin, hmod, Bool.true_or]
    -- `JOIN` starts no join behind the word that it goes with
    rw [List.flatMap_cons, List.map_cons, Join.tokens_eq, Join.lead]
    cases j.outer with
    | true =>
      have houter : startsJoin (some (.word "LEFT")) (.word "OUTER") = false := by decide
      have hjoin : startsJoin (some (.word "OUTER")) (.word "JOIN") = false := by decide
      simp [joinSegments_cons_of_starts (hleft before), joinSegments_cons_of_not houter,
        joinSegments_cons_of_not hjoin, htarget]
    | false =>
      have hjoin : startsJoin (some (.word "LEFT")) (.word "JOIN") = false := by decide
      simp [joinSegments_cons_of_starts (hleft before), joinSegments_cons_of_not hjoin, htarget]

theorem readJoins_joins : readJoins (joins.flatMap Join.tokens) = joins.map Join.join := by
  rw [readJoins, joinSegments_joins, List.filterMap_map]
  induction joins with
  | nil => rfl
  | cons j js ih =>
    have hj : (join? ∘ Join.tokens) j = some j.join := j.join?_tokens
    rw [List.filterMap_cons_some hj, ih, List.map_cons]

end Written
end ClientRecords
