import Mathlib.Order.Bounds.Basic
import ClientRecords.Proofs.Token.Parentheses
/-!
Which parenthesis closes another one. The depth that the search counts is what is opened and not yet
closed (`closesAt_succ`), so the search ends at the least index up to which as many parentheses are
closed as opened (`closingFrom_eq_some_iff`). On the way there the depth is above zero, so a counter
that cannot hold less does as well (`countFrom_succ`): `closing_found_iff`.
-/

namespace ClientRecords.Token

/-- The index of the parenthesis that closes the one at an index. -/
def closingAt? (ts : List Token) (first : Nat) : Option Nat :=
  (closingParen? (ts.drop first)).map (· + first)

/-- The least index behind an opening parenthesis up to which as many are closed as opened. -/
def IsClosing (ts : List Token) (first last : Nat) : Prop :=
  ts[first]? = some .openParen ∧
    IsLeast {i | first < i ∧ i < ts.length ∧
      (ts.extract first (i + 1)).count .closeParen =
        (ts.extract first (i + 1)).count .openParen} last

/-- The depth after a token where nothing below zero can be held: none for a closing parenthesis at
depth zero. -/
def depthAfter? : Nat → Token → Option Nat
  | depth, .openParen => some (depth + 1)
  | 0, .closeParen => none
  | depth + 1, .closeParen => some depth
  | depth, _ => some depth

/-- The search for the end of a group with such a depth, none if it cannot be held. -/
def countFrom : Nat → List Token → Option (Option Nat)
  | _, [] => some none
  | depth, t :: ts =>
    (depthAfter? depth t).bind fun next =>
      if t = .closeParen ∧ next = 0 then some (some 0)
      else (countFrom next ts).map (Option.map (· + 1))

/-- The search from the opening parenthesis at an index on, which is the first to be counted. -/
def countAt (ts : List Token) (first : Nat) : Option (Option Nat) :=
  if ts[first]? = some .openParen then
    (countFrom 0 (ts.drop first)).map (Option.map (· + first))
  else some none

variable {depth i first : Nat} {t : Token} {ts : List Token}

/-! ### The depth is what is open -/

/-- Up to an index, all parentheses of a list are closed and as many more as `depth` says. -/
def ClosesAt (depth : Nat) (ts : List Token) (i : Nat) : Prop :=
  i < ts.length ∧
    (ts.take (i + 1)).count .closeParen = depth + (ts.take (i + 1)).count .openParen

/-- Above zero the depth goes along with what is opened and closed. -/
theorem depthAfter_add_count (hd : 0 < depth) (t : Token) :
    depthAfter depth t + [t].count .closeParen = depth + [t].count .openParen := by
  cases t with
  | closeParen => simp [depthAfter]; omega
  | openParen => simp [depthAfter]
  | _ => rfl

theorem closesAt_zero (hd : 0 < depth) : ClosesAt depth (t :: ts) 0 ↔ depthAfter depth t = 0 := by
  have hcount := depthAfter_add_count hd t
  simp only [ClosesAt, List.length_cons, Nat.zero_add, List.take_succ_cons, List.take_zero]
  omega

theorem closesAt_succ (hd : 0 < depth) :
    ClosesAt depth (t :: ts) (i + 1) ↔ ClosesAt (depthAfter depth t) ts i := by
  have hcount := depthAfter_add_count hd t
  rw [ClosesAt, ClosesAt, List.take_succ_cons, List.count_cons, List.count_cons]
  rw [List.count_singleton, List.count_singleton] at hcount
  rw [List.length_cons]
  omega

/-- What holds from a number on holds first as far behind it as what it comes to there. -/
theorem isLeast_add_iff {p q : Nat → Prop} {n : Nat} (hfrom : ∀ i, p i → n ≤ i)
    (hadd : ∀ i, p (i + n) ↔ q i) :
    IsLeast {i | p i} i ↔ ∃ j, i = j + n ∧ IsLeast {i | q i} j := by
  constructor
  · rintro ⟨hp, hleast⟩
    obtain ⟨j, rfl⟩ := Nat.exists_eq_add_of_le' (hfrom i hp)
    refine ⟨j, rfl, (hadd j).mp hp, fun k hk => ?_⟩
    have hle : j + n ≤ k + n := hleast ((hadd k).mpr hk)
    exact Nat.le_of_add_le_add_right hle
  · rintro ⟨j, rfl, hq, hleast⟩
    refine ⟨(hadd j).mpr hq, fun k hk => ?_⟩
    obtain ⟨k, rfl⟩ := Nat.exists_eq_add_of_le' (hfrom k hk)
    exact Nat.add_le_add_right (hleast ((hadd k).mp hk)) n

/-- The search ends where the parentheses that are open are closed for the first time. -/
theorem closingFrom_eq_some_iff (hd : 0 < depth) :
    closingFrom depth ts = some i ↔ IsLeast {i | ClosesAt depth ts i} i := by
  induction ts generalizing depth i with
  | nil => simp [closingFrom, ClosesAt, IsLeast]
  | cons t ts ih =>
    rw [closingFrom]
    cases hnext : depthAfter depth t with
    | zero =>
      obtain rfl : t = .closeParen := by
        cases t <;> simp [depthAfter] at hnext <;> first | rfl | omega
      have hends : ClosesAt depth (.closeParen :: ts) 0 := (closesAt_zero hd).mpr hnext
      simp only [beq_self_eq_true, if_true, Option.some.injEq]
      constructor
      · rintro rfl
        exact ⟨hends, fun k _ => Nat.zero_le k⟩
      · exact fun hleast => (Nat.le_zero.mp (hleast.2 hends)).symm
    | succ next =>
      have hgoes : ∀ j, ClosesAt depth (t :: ts) j → 1 ≤ j := by
        refine fun j hj => Nat.pos_of_ne_zero ?_
        rintro rfl
        rw [closesAt_zero hd, hnext] at hj
        exact absurd hj (Nat.succ_ne_zero next)
      rw [isLeast_add_iff hgoes fun _ => closesAt_succ hd, hnext, Option.map_eq_some_iff]
      simp only [ih next.succ_pos, eq_comm, and_comm]

/-! ### A depth that cannot fall below zero -/

theorem depthAfter?_succ (depth : Nat) (t : Token) :
    depthAfter? (depth + 1) t = some (depthAfter (depth + 1) t) := by
  cases t <;> rfl

/-- Within a group the depth can be held. -/
theorem countFrom_succ (depth : Nat) (ts : List Token) :
    countFrom (depth + 1) ts = some (closingFrom (depth + 1) ts) := by
  induction ts generalizing depth with
  | nil => rfl
  | cons t ts ih =>
    rw [countFrom, closingFrom, depthAfter?_succ, Option.bind_some]
    cases hnext : depthAfter (depth + 1) t with
    | zero =>
      obtain rfl : t = .closeParen := by cases t <;> first | rfl | cases hnext
      rfl
    | succ next =>
      rw [if_neg (by simp), ih]
      rfl

/-- From the parenthesis that opens the group on, too. -/
theorem countFrom_zero (ts : List Token) :
    countFrom 0 (.openParen :: ts) = some (closingParen? (.openParen :: ts)) := by
  rw [countFrom, depthAfter?, Option.bind_some, if_neg (by simp), countFrom_succ]
  rfl

/-! ### From an index on -/

theorem closingAt?_of_not_open (h : ts[first]? ≠ some .openParen) : closingAt? ts first = none := by
  rw [closingAt?, Option.map_eq_none_iff]
  cases hdrop : ts.drop first with
  | nil => rfl
  | cons t rest =>
    have ht : ts[first]? = some t := by rw [← List.head?_drop, hdrop]; rfl
    cases t with
    | openParen => exact absurd ht h
    | _ => rfl

theorem closingAt?_of_open (h : ts[first]? = some .openParen) :
    closingAt? ts first = (closingFrom 1 (ts.drop (first + 1))).map (· + (first + 1)) := by
  obtain ⟨hlt, ht⟩ := List.getElem?_eq_some_iff.mp h
  rw [closingAt?, List.drop_eq_getElem_cons hlt, ht, closingParen?, Option.map_map]
  refine congrArg (Option.map · _) (funext fun j => ?_)
  simp only [Function.comp]
  omega

theorem countAt_eq (ts : List Token) (first : Nat) :
    countAt ts first = some (closingAt? ts first) := by
  rw [countAt]
  by_cases h : ts[first]? = some .openParen
  · obtain ⟨hlt, ht⟩ := List.getElem?_eq_some_iff.mp h
    rw [if_pos h, closingAt?, List.drop_eq_getElem_cons hlt, ht, countFrom_zero, Option.map_some]
  · rw [if_neg h, closingAt?_of_not_open h]

/-- What is closed up to an index behind an opening parenthesis. -/
theorem closesAt_iff (h : ts[first]? = some .openParen) {i : Nat} :
    ClosesAt 1 (ts.drop (first + 1)) i ↔ i + (first + 1) < ts.length ∧
      (ts.extract first (i + (first + 1) + 1)).count .closeParen =
        (ts.extract first (i + (first + 1) + 1)).count .openParen := by
  obtain ⟨hlt, ht⟩ := List.getElem?_eq_some_iff.mp h
  have hextract : ts.extract first (i + (first + 1) + 1)
      = .openParen :: (ts.drop (first + 1)).take (i + 1) := by
    have hlength : i + (first + 1) + 1 - first = i + 1 + 1 := by omega
    rw [List.extract_eq_take_drop, hlength, List.drop_eq_getElem_cons hlt, ht, List.take_succ_cons]
  rw [hextract, ClosesAt, List.length_drop, List.count_cons_self,
    List.count_cons_of_ne (by simp)]
  omega

theorem isClosing_iff (h : ts[first]? = some .openParen) {last : Nat} : IsClosing ts first last ↔
    ∃ j, last = j + (first + 1) ∧ IsLeast {i | ClosesAt 1 (ts.drop (first + 1)) i} j := by
  rw [IsClosing, isLeast_add_iff (n := first + 1) (fun i hi => hi.1) fun i => ?_]
  · exact and_iff_right h
  · rw [closesAt_iff h]
    exact and_iff_right (by omega)

/-- The search from a token on gives an index exactly if the token is an opening parenthesis and
the index is the least behind it up to which as many parentheses are closed as opened. Its depth
never has to fall below zero. -/
theorem closing_found_iff (ts : List Token) (first : Nat) :
    (∀ last, closingAt? ts first = some last ↔ IsClosing ts first last) ∧
      (closingAt? ts first = none ↔ ¬∃ last, IsClosing ts first last) ∧
      countAt ts first = some (closingAt? ts first) := by
  have hsome (last : Nat) : closingAt? ts first = some last ↔ IsClosing ts first last := by
    by_cases h : ts[first]? = some .openParen
    · rw [isClosing_iff h, closingAt?_of_open h, Option.map_eq_some_iff]
      simp only [closingFrom_eq_some_iff Nat.one_pos, eq_comm, and_comm]
    · rw [closingAt?_of_not_open h]
      exact iff_of_false nofun fun hclosing => h hclosing.1
  refine ⟨hsome, ?_, countAt_eq ts first⟩
  rw [Option.eq_none_iff_forall_ne_some, not_exists]
  exact forall_congr' fun last => not_congr (hsome last)

-- a group that is not closed, and one closed behind a closing parenthesis too many
example : closingAt? [.openParen, .openParen, .closeParen] 0 = none := by decide
example : closingAt? [.closeParen, .openParen, .star, .closeParen] 1 = some 3 := by decide

end ClientRecords.Token
