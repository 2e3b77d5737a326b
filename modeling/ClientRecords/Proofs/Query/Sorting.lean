import ClientRecords.Query.Sorting
/-!
What sorting by insertion gives. The comparison is to go by keys: one element comes strictly before
another exactly if the key of the other is not at most its own. Then an element is put behind all
that are not above it, so the list stays in order and elements with the same key keep the order in
which they came (`stablySorted_sortStable`).
-/

namespace ClientRecords

variable {α κ : Type}

/-- The elements of a list in the order of their keys, those with the same key in the order in which
they stood. -/
structure StablySorted [DecidableEq κ] (le : κ → κ → Prop) (key : α → κ) (xs sorted : List α) :
    Prop where
  perm : sorted.Perm xs
  ordered : sorted.Pairwise fun a b => le (key a) (key b)
  stable : ∀ k, sorted.filter (key · = k) = xs.filter (key · = k)

/-- Is one element of a list before another exactly if its key is? -/
def GoesBy (before : α → α → Bool) (le : κ → κ → Prop) (key : α → κ) (xs : List α) : Prop :=
  ∀ a ∈ xs, ∀ b ∈ xs, before a b = true ↔ ¬le (key b) (key a)

variable {before : α → α → Bool} {le : κ → κ → Prop} {key : α → κ} {x : α} {xs ys : List α}

/-! ### One element -/

theorem perm_insertLast : ∀ ys : List α, (insertLast before x ys).Perm (x :: ys)
  | [] => .refl _
  | y :: ys => by
    rw [insertLast]
    split
    · exact ((perm_insertLast ys).cons y).trans (.swap x y ys)
    · exact .refl _

theorem filter_insertLast_of_neg {p : α → Bool} (hx : p x = false) : ∀ ys : List α,
    (insertLast before x ys).filter p = ys.filter p
  | [] => List.filter_cons_of_neg (by simp [hx])
  | y :: ys => by
    rw [insertLast]
    split
    · rw [List.filter_cons, List.filter_cons, filter_insertLast_of_neg hx ys]
    · exact List.filter_cons_of_neg (by simp [hx])

/-- An element goes before all like it, if it passes over none of them. -/
theorem filter_insertLast_of_pos {p : α → Bool} (hx : p x = true) :
    ∀ {ys : List α}, (∀ y ∈ ys, before x y = true → p y = false) →
      (insertLast before x ys).filter p = x :: ys.filter p
  | [], _ => List.filter_cons_of_pos hx
  | y :: ys, h => by
    obtain ⟨hy, hys⟩ := List.forall_mem_cons.mp h
    rw [insertLast]
    by_cases hb : before x y = true
    · have hskip : ¬p y = true := by simp [hy hb]
      rw [if_pos hb, List.filter_cons_of_neg hskip, filter_insertLast_of_pos hx hys,
        List.filter_cons_of_neg hskip]
    · rw [if_neg hb]
      exact List.filter_cons_of_pos hx

theorem pairwise_insertLast (htrans : ∀ i j k, le i j → le j k → le i k)
    (htotal : ∀ i j, le i j ∨ le j i) : ∀ {ys : List α},
    (∀ y ∈ ys, before x y = true ↔ ¬le (key y) (key x)) →
    ys.Pairwise (fun a b => le (key b) (key a)) →
      (insertLast before x ys).Pairwise fun a b => le (key b) (key a)
  | [], _, _ => List.pairwise_singleton _ _
  | y :: ys, hx, hs => by
    obtain ⟨hy, hys⟩ := List.forall_mem_cons.mp hx
    obtain ⟨hfirst, hrest⟩ := List.pairwise_cons.mp hs
    rw [insertLast]
    by_cases hb : before x y = true
    · rw [if_pos hb]
      refine List.pairwise_cons.mpr ⟨fun z hz => ?_, pairwise_insertLast htrans htotal hys hrest⟩
      rcases List.mem_cons.mp ((perm_insertLast ys).mem_iff.mp hz) with rfl | hz
      · exact (htotal _ _).resolve_left (hy.mp hb)
      · exact hfirst z hz
    · rw [if_neg hb]
      have hle : le (key y) (key x) := Classical.not_not.mp fun hn => hb (hy.mpr hn)
      refine List.pairwise_cons.mpr ⟨fun z hz => ?_, hs⟩
      rcases List.mem_cons.mp hz with rfl | hz
      · exact hle
      · exact htrans _ _ _ (hfirst z hz) hle

/-! ### A list -/

/-- Inserting an element keeps what is sorted so far, which is held in reverse. -/
theorem StablySorted.insert [DecidableEq κ] (htrans : ∀ i j k, le i j → le j k → le i k)
    (htotal : ∀ i j, le i j ∨ le j i) (hx : ∀ y ∈ xs, before x y = true ↔ ¬le (key y) (key x))
    (h : StablySorted le key xs ys.reverse) :
    StablySorted le key (xs ++ [x]) (insertLast before x ys).reverse := by
  have hys : ∀ y ∈ ys, before x y = true ↔ ¬le (key y) (key x) := fun y hy =>
    hx y (h.perm.mem_iff.mp (List.mem_reverse.mpr hy))
  refine ⟨?_, ?_, fun k => ?_⟩
  · calc (insertLast before x ys).reverse.Perm (insertLast before x ys) := List.reverse_perm _
      _ |>.Perm (x :: ys) := perm_insertLast ys
      _ |>.Perm (x :: xs) := ((List.reverse_perm ys).symm.trans h.perm).cons x
      _ |>.Perm (xs ++ [x]) := (List.perm_append_singleton x xs).symm
  · have hdown : ys.Pairwise fun a b => le (key b) (key a) := List.pairwise_reverse.mp h.ordered
    have hinserted := pairwise_insertLast htrans htotal hys hdown
    exact List.pairwise_reverse.mpr hinserted
  · have hstable := h.stable k
    rw [List.filter_reverse] at hstable
    rw [List.filter_reverse, List.filter_append, ← hstable]
    by_cases hk : key x = k
    · have hpass : ∀ y ∈ ys, before x y = true → decide (key y = k) = false := by
        intro y hy hb
        refine decide_eq_false fun hyk => (hys y hy).mp hb ?_
        rw [hyk, hk]
        exact (htotal k k).elim id id
      rw [filter_insertLast_of_pos (by simpa using hk) hpass, List.reverse_cons,
        List.filter_cons_of_pos (by simpa using hk), List.filter_nil]
    · rw [filter_insertLast_of_neg (by simpa using hk), List.filter_cons_of_neg (by simpa using hk),
        List.filter_nil, List.append_nil]

/-- Inserting one element after the other keeps what is sorted so far. -/
theorem StablySorted.foldl_insertLast [DecidableEq κ]
    (htrans : ∀ i j k, le i j → le j k → le i k) (htotal : ∀ i j, le i j ∨ le j i) :
    ∀ {ys xs done : List α}, GoesBy before le key (xs ++ ys) →
      StablySorted le key xs done.reverse → StablySorted le key (xs ++ ys)
        (ys.foldl (fun done y => insertLast before y done) done).reverse
  | [], xs, _, _, hs => by rwa [List.append_nil]
  | y :: ys, xs, done, h, hs => by
    have hy : ∀ a ∈ xs, before y a = true ↔ ¬le (key a) (key y) := fun a ha =>
      h y (List.mem_append_right _ List.mem_cons_self) a (List.mem_append_left _ ha)
    rw [List.append_cons] at h ⊢
    exact foldl_insertLast htrans htotal h (hs.insert htrans htotal hy)

theorem perm_foldl_insertLast : ∀ xs done : List α,
    (xs.foldl (fun done x => insertLast before x done) done).Perm (xs ++ done)
  | [], _ => .refl _
  | x :: xs, done =>
    have hinsert : (xs ++ insertLast before x done).Perm (xs ++ x :: done) :=
      (perm_insertLast done).append_left xs
    ((perm_foldl_insertLast xs _).trans hinsert).trans List.perm_middle

/-- Whatever the comparison is, sorting keeps all elements. -/
theorem perm_sortStable (xs : List α) : (sortStable before xs).Perm xs :=
  calc (sortStable before xs).Perm (xs.foldl (fun done x => insertLast before x done) []) :=
      List.reverse_perm _
    _ |>.Perm (xs ++ []) := perm_foldl_insertLast xs []
    _ = xs := List.append_nil xs

/-- Elements that are inserted one after the other are sorted stably. -/
theorem stablySorted_sortStable [DecidableEq κ] (htrans : ∀ i j k, le i j → le j k → le i k)
    (htotal : ∀ i j, le i j ∨ le j i) (h : GoesBy before le key xs) :
    StablySorted le key xs (sortStable before xs) := by
  have hempty : StablySorted le key ([] : List α) ([] : List α).reverse :=
    ⟨.refl _, .nil, fun _ => rfl⟩
  exact hempty.foldl_insertLast htrans htotal h

end ClientRecords
