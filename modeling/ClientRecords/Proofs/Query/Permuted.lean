import ClientRecords.Proofs.Query.Sorting
import ClientRecords.Query.Eval
/-!
Sorting only changes the order. Whatever the comparisons say, a sort that does not break off gives
the elements it was given (`perm_of_sort?`), for every step moves elements and none copies or drops
one. Only for the merge from both ends this hangs on the check that the ends meet.
-/

namespace ClientRecords

variable {α : Type} {before : α → α → Bool} {xs ys zs : List α}

theorem perm_insertAll (sorted xs : List α) : (insertAll before sorted xs).Perm (sorted ++ xs) := by
  have hsorted : (xs ++ sorted.reverse).Perm (sorted ++ xs) :=
    ((List.reverse_perm sorted).append_left xs).trans List.perm_append_comm
  exact (List.reverse_perm _).trans ((perm_foldl_insertLast xs _).trans hsorted)

namespace Sorting

/-! ### Short lists -/

theorem perm_four (p q r s : α) : (four before p q r s).Perm [p, q, r, s] := by
  classical
  rw [List.perm_iff_count]
  intro x
  simp only [four]
  cases before q p <;> cases before s r <;> simp only [Bool.false_eq_true, if_true, if_false] <;>
    split <;> split <;> split <;> simp only [List.count_cons, List.count_nil] <;> ac_rfl

theorem perm_half (long : Bool) (xs : List α) : (half before long xs).Perm xs := by
  rw [half.eq_def]
  split
  · split
    · exact (perm_insertAll _ _).trans ((perm_four _ _ _ _).append_right _)
    · exact perm_sortStable _
  · exact perm_sortStable _

/-- Some elements are taken from two lists, so many from the first one. -/
structure Takes (n : Nat) (xs ys : List α) (steps : List α × Nat) : Prop where
  lefts : steps.2 ≤ n
  perm : steps.1.Perm (xs.take steps.2 ++ ys.take (n - steps.2))

theorem Takes.left {n : Nat} {x : α} {taken : List α} {lefts : Nat}
    (h : Takes n xs ys (taken, lefts)) : Takes (n + 1) (x :: xs) ys (x :: taken, lefts + 1) where
  lefts := Nat.succ_le_succ h.lefts
  perm := by
    simp only [List.take_succ_cons, Nat.add_sub_add_right]
    exact h.perm.cons x

theorem Takes.right {n : Nat} {y : α} {taken : List α} {lefts : Nat}
    (h : Takes n xs ys (taken, lefts)) : Takes (n + 1) xs (y :: ys) (y :: taken, lefts) where
  lefts := Nat.le_succ_of_le h.lefts
  perm := by
    have hlefts : lefts ≤ n := h.lefts
    simp only [Nat.succ_sub hlefts, List.take_succ_cons]
    exact (h.perm.cons y).trans List.perm_middle.symm

theorem takes_frontSteps : ∀ {n : Nat} {xs ys : List α}, n ≤ xs.length → n ≤ ys.length →
    Takes n xs ys (frontSteps before n xs ys)
  | 0, xs, ys, _, _ => by
    rw [frontSteps.eq_def]
    exact ⟨Nat.le_refl 0, by simp⟩
  | n + 1, x :: xs, y :: ys, hx, hy => by
    rw [frontSteps]
    split
    · exact (takes_frontSteps (Nat.le_of_succ_le hx) (Nat.le_of_succ_le_succ hy)).right
    · exact (takes_frontSteps (Nat.le_of_succ_le_succ hx) (Nat.le_of_succ_le hy)).left

theorem takes_backSteps : ∀ {n : Nat} {xs ys : List α}, n ≤ xs.length → n ≤ ys.length →
    Takes n xs ys (backSteps before n xs ys)
  | 0, xs, ys, _, _ => by
    rw [backSteps.eq_def]
    exact ⟨Nat.le_refl 0, by simp⟩
  | n + 1, x :: xs, y :: ys, hx, hy => by
    rw [backSteps]
    split
    · exact (takes_backSteps (Nat.le_of_succ_le_succ hx) (Nat.le_of_succ_le hy)).left
    · exact (takes_backSteps (Nat.le_of_succ_le hx) (Nat.le_of_succ_le_succ hy)).right

/-- The elements from the front and those from the back, if they meet, are all. -/
theorem take_append_reverse {i j : Nat} (h : i + j = xs.length) :
    xs.take i ++ [] ++ (xs.reverse.take j).reverse = xs := by
  rw [List.append_nil, List.take_reverse, List.reverse_reverse,
    show xs.length - j = i by omega, List.take_append_drop]

theorem take_append_one_append_reverse {i j : Nat} (h : i + 1 + j = xs.length) :
    xs.take i ++ xs[i]?.toList ++ (xs.reverse.take j).reverse = xs := by
  rw [← List.take_add_one, ← List.append_nil (xs.take (i + 1)), take_append_reverse h]

/-- What is taken from both ends, with what lies between them, is all. -/
theorem perm_of_takes {n i j : Nat} {front back us vs : List α} (hf : Takes n xs ys (front, i))
    (hb : Takes n xs.reverse ys.reverse (back, j))
    (hx : xs.take i ++ us ++ (xs.reverse.take j).reverse = xs)
    (hy : ys.take (n - i) ++ vs ++ (ys.reverse.take (n - j)).reverse = ys) :
    (front ++ (us ++ vs) ++ back.reverse).Perm (xs ++ ys) := by
  classical
  rw [List.perm_iff_count]
  intro x
  have hfront := hf.perm.count_eq x
  have hback := hb.perm.count_eq x
  have hxs := congrArg (List.count x) hx
  have hys := congrArg (List.count x) hy
  simp only [List.count_append, List.count_reverse] at hfront hback hxs hys ⊢
  omega

/-- Where the ends meet, nothing is taken twice and nothing is left. -/
theorem perm_of_meet (hle : xs.length ≤ ys.length) (hlt : ys.length ≤ xs.length + 1)
    (h : meet before xs ys = some zs) : zs.Perm (xs ++ ys) := by
  have hsteps : (xs.length + ys.length) / 2 = xs.length := by omega
  simp only [meet, hsteps] at h
  have hfront : Takes xs.length xs ys (frontSteps before xs.length xs ys) :=
    takes_frontSteps (Nat.le_refl _) hle
  have hback : Takes xs.length xs.reverse ys.reverse
      (backSteps before xs.length xs.reverse ys.reverse) :=
    takes_backSteps (by simp) (by simpa using hle)
  generalize frontSteps before xs.length xs ys = first at hfront h
  generalize backSteps before xs.length xs.reverse ys.reverse = last at hback h
  rcases first with ⟨front, i⟩
  rcases last with ⟨back, j⟩
  have hi : i ≤ xs.length := hfront.lefts
  have hj : j ≤ xs.length := hback.lefts
  simp only at h
  -- an odd element in the middle comes from the list that has one left
  by_cases heven : (xs.length + ys.length) % 2 = 0
  · by_cases hmeet : i + j = xs.length
    · rw [if_pos heven, if_pos hmeet] at h
      obtain rfl := Option.some.inj h
      simpa using perm_of_takes hfront hback (take_append_reverse hmeet)
        (take_append_reverse (by omega))
    · rw [if_pos heven, if_neg hmeet] at h
      cases h
  · by_cases hleft : i + j + 1 = xs.length
    · rw [if_neg heven, if_pos hleft] at h
      obtain rfl := Option.some.inj h
      simpa using perm_of_takes hfront hback (take_append_one_append_reverse (by omega))
        (take_append_reverse (by omega))
    · by_cases hmeet : i + j = xs.length
      · rw [if_neg heven, if_neg hleft, if_pos hmeet] at h
        obtain rfl := Option.some.inj h
        simpa using perm_of_takes hfront hback (take_append_reverse hmeet)
          (take_append_one_append_reverse (by omega))
      · rw [if_neg heven, if_neg hleft, if_neg hmeet] at h
        cases h

theorem perm_of_short (h : short before xs = some ys) : ys.Perm xs := by
  rw [short] at h
  split at h
  · rw [Option.some.inj h]
  · have hleft : (half before (8 ≤ xs.length) (xs.take (xs.length / 2))).Perm _ := perm_half _ _
    have hright : (half before (8 ≤ xs.length) (xs.drop (xs.length / 2))).Perm _ := perm_half _ _
    have hmeet := perm_of_meet (by rw [hleft.length_eq, hright.length_eq]; simp; omega)
      (by rw [hleft.length_eq, hright.length_eq]; simp; omega) h
    rw [← List.take_append_drop (xs.length / 2) xs]
    exact hmeet.trans (hleft.append hright)

/-! ### Runs -/

theorem perm_mergeFront : ∀ xs ys : List α, (mergeFront before xs ys).Perm (xs ++ ys)
  | [], ys => by rw [mergeFront]; exact .refl _
  | x :: xs, [] => by rw [mergeFront, List.append_nil]; simp
  | x :: xs, y :: ys => by
    rw [mergeFront]
    split
    · exact ((perm_mergeFront (x :: xs) ys).cons y).trans List.perm_middle.symm
    · exact (perm_mergeFront xs (y :: ys)).cons x

theorem perm_mergeBack : ∀ xs ys : List α, (mergeBack before xs ys).Perm (xs ++ ys)
  | [], ys => by rw [mergeBack]; exact .refl _
  | x :: xs, [] => by rw [mergeBack, List.append_nil]; simp
  | x :: xs, y :: ys => by
    rw [mergeBack]
    split
    · exact (perm_mergeBack xs (y :: ys)).cons x
    · exact ((perm_mergeBack (x :: xs) ys).cons y).trans List.perm_middle.symm

theorem perm_merge (xs ys : List α) : (merge before xs ys).Perm (xs ++ ys) := by
  rw [merge]
  split
  · exact perm_mergeFront xs ys
  · exact (List.reverse_perm _).trans ((perm_mergeBack _ _).trans
      ((List.reverse_perm xs).append (List.reverse_perm ys)))

theorem perm_of_foundRun? {least : Nat} {run : Run α} {rest : List α}
    (h : foundRun? before least xs = some (run, rest)) : (run.items ++ rest).Perm xs := by
  rw [foundRun?.eq_def] at h
  split at h
  · simp only [Option.ite_none_right_eq_some, Option.some.injEq, Prod.mk.injEq] at h
    obtain ⟨-, rfl, rfl⟩ := h
    refine .trans (.append_right _ ?_) (.of_eq (List.take_append_drop _ _))
    split
    · exact List.reverse_perm _
    · exact .refl _
  · cases h

theorem perm_of_nextRun {eager : Bool} {least : Nat} {run : Run α} {rest : List α}
    (h : nextRun before eager least xs = some (run, rest)) : (run.items ++ rest).Perm xs := by
  rw [nextRun] at h
  cases hfound : foundRun? before least xs with
  | some found =>
    rw [hfound] at h
    obtain rfl := Option.some.inj h
    exact perm_of_foundRun? hfound
  | none =>
    rw [hfound] at h
    dsimp only at h
    split at h
    · obtain ⟨sorted, hsorted, hrun⟩ := Option.map_eq_some_iff.mp h
      obtain ⟨rfl, rfl⟩ := Prod.mk.inj hrun
      exact ((perm_of_short hsorted).append_right _).trans
        (.of_eq (List.take_append_drop _ _))
    · obtain ⟨rfl, rfl⟩ := Prod.mk.inj (Option.some.inj h)
      exact .of_eq (List.take_append_drop _ _)

section Join

variable {sort : List α → Option (List α)}
  (hsort : ∀ {xs ys : List α}, sort xs = some ys → ys.Perm xs)

include hsort

theorem perm_of_joinRuns {l r run : Run α} (h : joinRuns before sort l r = some run) :
    run.items.Perm (l.items ++ r.items) := by
  cases hl : l.sorted <;> cases hr : r.sorted <;>
    simp only [joinRuns, hl, hr, Bool.not_true, Bool.not_false, Bool.and_self, Bool.and_false,
      Bool.false_and, if_true, Bool.false_eq_true, if_false, Option.pure_def,
      Option.bind_eq_bind, Option.bind_eq_some_iff, Option.bind_some, Option.some.injEq] at h
  · rw [← h]
  · obtain ⟨xs, hxs, rfl⟩ := h
    exact (perm_merge _ _).trans ((hsort hxs).append_right _)
  · obtain ⟨ys, hys, rfl⟩ := h
    exact (perm_merge _ _).trans ((hsort hys).append_left _)
  · rw [← h]
    exact perm_merge _ _

end Join

/-- The elements of runs that wait to be joined. -/
def waiting (earlier : List (Run α × Nat)) : List α := earlier.flatMap (·.1.items)

section Joins

variable {join : Run α → Run α → Option (Run α)} {next : List α → Option (Run α × List α)}
  (hjoin : ∀ {l r run : Run α}, join l r = some run → run.items.Perm (l.items ++ r.items))

include hjoin

theorem perm_of_joinBack {depth : Nat} : ∀ {earlier left : List (Run α × Nat)} {run whole : Run α},
    joinBack join depth earlier run = some (left, whole) →
      (waiting left ++ whole.items).Perm (waiting earlier ++ run.items)
  | [], _, _, _, h => by
    obtain ⟨rfl, rfl⟩ := Prod.mk.inj (Option.some.inj h)
    exact .refl _
  | (l, d) :: ls, left, run, whole, h => by
    rw [joinBack] at h
    split at h
    · obtain ⟨both, hboth, hback⟩ := Option.bind_eq_some_iff.mp h
      calc (waiting left ++ whole.items).Perm (waiting ls ++ both.items) := perm_of_joinBack hback
        _ |>.Perm (waiting ls ++ (l.items ++ run.items)) := (hjoin hboth).append_left _
        _ |>.Perm (waiting ((l, d) :: ls) ++ run.items) := by
          rw [← List.append_assoc]
          exact List.perm_append_comm.append_right _
    · obtain ⟨rfl, rfl⟩ := Prod.mk.inj (Option.some.inj h)
      exact .refl _

omit hjoin in
/-- At the root no run waits any more. -/
theorem joinBack_zero : ∀ {earlier left : List (Run α × Nat)} {run whole : Run α},
    joinBack join 0 earlier run = some (left, whole) → left = []
  | [], _, _, _, h => (Prod.mk.inj (Option.some.inj h)).1.symm
  | (l, d) :: ls, left, run, whole, h => by
    rw [joinBack, if_pos (Nat.zero_le d)] at h
    obtain ⟨both, -, hback⟩ := Option.bind_eq_some_iff.mp h
    exact joinBack_zero hback

theorem perm_of_joinAll {n : Nat}
    (hnext : ∀ {xs rest : List α} {run : Run α}, next xs = some (run, rest) →
      (run.items ++ rest).Perm xs) :
    ∀ {fuel start : Nat} {earlier : List (Run α × Nat)} {run whole : Run α} {rest : List α},
      joinAll next join n fuel start earlier run rest = some whole →
        whole.items.Perm (waiting earlier ++ run.items ++ rest)
  | fuel + 1, start, earlier, run, whole, rest, h => by
    rw [joinAll] at h
    by_cases hrest : rest.isEmpty = true
    · rw [if_pos hrest] at h
      obtain ⟨⟨left, last⟩, hback, rfl⟩ := Option.map_eq_some_iff.mp h
      have hall := perm_of_joinBack hjoin hback
      rwa [joinBack_zero hback, waiting, List.flatMap_nil, List.nil_append, ←
        List.append_nil (waiting earlier ++ run.items), ← List.isEmpty_iff.mp hrest] at hall
    · rw [if_neg hrest] at h
      obtain ⟨⟨found, after⟩, hfound, h⟩ := Option.bind_eq_some_iff.mp h
      obtain ⟨⟨left, joined⟩, hback, hall⟩ := Option.bind_eq_some_iff.mp h
      calc whole.items.Perm (waiting ((joined, _) :: left) ++ found.items ++ after) :=
          perm_of_joinAll hnext hall
        _ |>.Perm (waiting left ++ joined.items ++ (found.items ++ after)) := by
          rw [List.append_assoc]
          exact List.perm_append_comm.append_right _
        _ |>.Perm (waiting earlier ++ run.items ++ rest) :=
          (perm_of_joinBack hjoin hback).append (hnext hfound)

end Joins

theorem perm_of_byRuns {eager : Bool} {sort : List α → Option (List α)}
    (hsort : ∀ {xs ys : List α}, sort xs = some ys → ys.Perm xs)
    (h : byRuns before eager sort xs = some ys) : ys.Perm xs := by
  obtain ⟨⟨first, rest⟩, hfirst, h⟩ := Option.bind_eq_some_iff.mp h
  obtain ⟨whole, hwhole, h⟩ := Option.bind_eq_some_iff.mp h
  have hall := perm_of_joinAll (perm_of_joinRuns hsort) perm_of_nextRun hwhole
  refine .trans ?_ (hall.trans (perm_of_nextRun hfirst))
  split at h
  · rw [Option.some.inj h]
  · exact hsort h

/-! ### Parts -/

theorem perm_part (passes : α → Bool) (position : Nat) (atPosition : Bool) (xs : List α) :
    ((part passes position atPosition xs).1 ++ (part passes position atPosition xs).2).Perm xs := by
  simp only [part, List.partition_eq_filter_filter, ← List.map_append]
  exact ((List.filter_append_perm _ _).map _).trans (.of_eq (List.zipIdx_map_fst 0 xs))

theorem perm_of_byParts : ∀ {fuel limit : Nat} {lower : Option α} {xs ys : List α},
    byParts before fuel limit lower xs = some ys → ys.Perm xs
  | fuel + 1, limit, lower, xs, ys, h => by
    rw [byParts.eq_def] at h
    simp only at h
    split at h
    · exact perm_of_short h
    · split at h
      · exact perm_of_byRuns (fun h => .of_eq (Option.some.inj h).symm) h
      · obtain ⟨⟨k, p⟩, -, h⟩ := Option.bind_eq_some_iff.mp h
        simp only at h
        split at h
        · obtain ⟨rest, hrest, h⟩ := Option.bind_eq_some_iff.mp h
          obtain rfl := Option.some.inj h
          exact ((perm_of_byParts hrest).append_left _).trans (perm_part _ _ _ xs)
        · obtain ⟨right, hright, h⟩ := Option.bind_eq_some_iff.mp h
          obtain ⟨left, hleft, h⟩ := Option.bind_eq_some_iff.mp h
          obtain rfl := Option.some.inj h
          exact ((perm_of_byParts hleft).append (perm_of_byParts hright)).trans
            (perm_part _ _ _ xs)

end Sorting

/-- A sort that does not break off gives the elements it was given. -/
theorem perm_of_sort? (h : sort? before xs = some ys) : ys.Perm xs := by
  rw [sort?] at h
  split at h
  · rw [← Option.some.inj h]
    exact perm_sortStable xs
  · exact Sorting.perm_of_byRuns Sorting.perm_of_byParts h

namespace Query

theorem perm_of_sortRows? {key : SortKey} {rows sorted : List Record}
    (h : sortRows? key rows = some sorted) : sorted.Perm rows := by
  rw [sortRows?] at h
  split at h
  · rw [← Option.some.inj h]
    exact perm_sortStable rows
  · exact perm_of_sort? h

end Query
end ClientRecords
