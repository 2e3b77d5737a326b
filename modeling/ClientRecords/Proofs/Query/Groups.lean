import Mathlib.Data.List.Forall2
import Mathlib.Data.List.Induction
import ClientRecords.Proofs.Query.SortKeys
import ClientRecords.Proofs.Record
/-!
Rows counted by groups. Each row goes into the group with its text, or opens a new one behind the
others, so after any number of rows there is one group for each text among them, in the order in
which the texts first came up (`isGroup_groupsOf`). Sorted, they keep that order where they are of
the same size, and a query gives the part of the list that its bounds leave (`groups_partition`).
-/

namespace ClientRecords

/-- Two sizes in the order of a direction. -/
theorem Direction.before_compare_iff (dir : Direction) (m n : Nat) :
    dir.before (compare m n) = true ↔ ¬dir.Orders n m := by
  cases dir with
  | ascending => simp [Direction.before, Direction.Orders, Nat.compare_eq_lt]
  | descending => simp [Direction.before, Direction.Orders, Nat.compare_eq_gt]

namespace Query

/-- The text that a row is counted under. -/
def groupKey (field : String) (r : Record) : String := (groupValue field r).text

/-- The texts of some rows, each of them once, in the order in which they first come up. -/
def groupKeys (field : String) (rows : List Record) : List String :=
  (rows.map (groupKey field)).eraseDups

/-- The group of the rows with a text: the value of the first of them, and their number. -/
structure IsGroup (field : String) (rows : List Record) (key : String) (g : Value × Nat) :
    Prop where
  value : (rows.find? (groupKey field · == key)).map (groupValue field) = some g.1
  size : rows.countP (groupKey field · == key) = g.2

/-- Groups in the order that a query gives them: as they came up, or by their size. -/
def InOrder (orderBy : Option SortKey) (found groups : List (Value × Nat)) : Prop :=
  match orderBy with
  | none => groups = found
  | some key => StablySorted key.direction.Orders Prod.snd found groups

/-- A row that shows the value of a group and its size. -/
structure ShowsGroup (field countName : String) (r : Record) (g : Value × Nat) : Prop where
  value : r.get? field = some g.1
  size : r.get? countName = some (.count g.2)

variable {field countName key : String} {rows : List Record} {r : Record} {g : Value × Nat}
  {keys : List String} {groups found : List (Value × Nat)}

/-! ### Keys -/

theorem groupKeys_concat (field : String) (rows : List Record) (r : Record) :
    groupKeys field (rows ++ [r]) = if groupKey field r ∈ groupKeys field rows then
      groupKeys field rows else groupKeys field rows ++ [groupKey field r] := by
  simp only [groupKeys, List.map_append, List.map_singleton, eraseDups_concat, List.mem_eraseDups]

theorem nodup_groupKeys (field : String) (rows : List Record) :
    (groupKeys field rows).Nodup := by
  induction rows using List.reverseRecOn with
  | nil => exact List.nodup_nil
  | append_singleton rows r ih =>
    rw [groupKeys_concat]
    by_cases hnew : groupKey field r ∈ groupKeys field rows
    · rwa [if_pos hnew]
    · rw [if_neg hnew, List.nodup_append]
      refine ⟨ih, List.pairwise_singleton _ _, ?_⟩
      rintro k hk _ hr rfl
      exact hnew (List.mem_singleton.mp hr ▸ hk)

/-! ### One more row -/

theorem IsGroup.text_eq (h : IsGroup field rows key g) : g.1.text = key := by
  obtain ⟨r, hr, hvalue⟩ := Option.map_eq_some_iff.mp h.value
  have hkey := List.find?_some hr
  rw [← hvalue]
  exact beq_iff_eq.mp hkey

/-- A row of another text changes nothing in a group. -/
theorem IsGroup.concat_of_ne (h : IsGroup field rows key g) (hne : groupKey field r ≠ key) :
    IsGroup field (rows ++ [r]) key g where
  value := by
    obtain ⟨s, hs, hvalue⟩ := Option.map_eq_some_iff.mp h.value
    rw [List.find?_append, hs]
    exact congrArg some hvalue
  size := by simp [List.countP_append, h.size, hne]

/-- A row of its own text is counted into a group, which keeps the value of the first. -/
theorem IsGroup.concat_self (h : IsGroup field rows (groupKey field r) g) :
    IsGroup field (rows ++ [r]) (groupKey field r) (g.1, g.2 + 1) where
  value := by
    obtain ⟨s, hs, hvalue⟩ := Option.map_eq_some_iff.mp h.value
    rw [List.find?_append, hs]
    exact congrArg some hvalue
  size := by simp [List.countP_append, h.size]

/-- The first row of a text opens a group. -/
theorem isGroup_concat_of_not_mem (h : groupKey field r ∉ rows.map (groupKey field)) :
    IsGroup field (rows ++ [r]) (groupKey field r) (groupValue field r, 1) := by
  have hnone : ∀ s ∈ rows, ¬(groupKey field s == groupKey field r) = true := fun s hs he =>
    h (List.mem_map.mpr ⟨s, hs, beq_iff_eq.mp he⟩)
  have hfind : rows.find? (groupKey field · == groupKey field r) = none :=
    List.find?_eq_none.mpr hnone
  have hcount : rows.countP (groupKey field · == groupKey field r) = 0 :=
    List.countP_eq_zero.mpr hnone
  exact ⟨by simp [List.find?_append, hfind], by simp [List.countP_append, hcount]⟩

/-- One more row keeps the groups. The induction is on the groups that the row is looked for in; if
it is in none of them, no row before has its text. -/
theorem isGroup_addToGroups (hn : keys.Nodup)
    (hnew : groupKey field r ∉ keys → groupKey field r ∉ rows.map (groupKey field))
    (h : List.Forall₂ (IsGroup field rows) keys groups) :
    List.Forall₂ (IsGroup field (rows ++ [r]))
      (if groupKey field r ∈ keys then keys else keys ++ [groupKey field r])
      (addToGroups (groupValue field r) groups) := by
  induction h with
  | nil =>
    rw [if_neg List.not_mem_nil]
    exact .cons (isGroup_concat_of_not_mem (hnew List.not_mem_nil)) .nil
  | @cons key g keys groups hg hgroups ih =>
    obtain ⟨hkey, hkeys⟩ := List.nodup_cons.mp hn
    rw [addToGroups]
    by_cases hk : groupKey field r = key
    · subst hk
      have hother : ∀ k ∈ keys, groupKey field r ≠ k := fun k hk he => hkey (he ▸ hk)
      have htext : g.1.text = (groupValue field r).text := hg.text_eq
      rw [if_pos List.mem_cons_self, if_pos htext]
      refine .cons hg.concat_self ?_
      exact ((List.forall₂_and_left _ _).mpr ⟨hother, hgroups⟩).imp
        fun _ _ h => h.2.concat_of_ne h.1
    · have htext : g.1.text ≠ (groupValue field r).text := fun he => hk (he.symm.trans hg.text_eq)
      have hmem : groupKey field r ∈ key :: keys ↔ groupKey field r ∈ keys := by simp [hk]
      have hrest := ih hkeys fun hnot => hnew (mt hmem.mp hnot)
      rw [if_neg htext]
      simp only [hmem]
      by_cases hin : groupKey field r ∈ keys
      · rw [if_pos hin] at hrest ⊢
        exact .cons (hg.concat_of_ne hk) hrest
      · rw [if_neg hin] at hrest ⊢
        exact .cons (hg.concat_of_ne hk) hrest

/-- The groups of some rows, one for each text among them. -/
theorem isGroup_groupsOf (field : String) (rows : List Record) :
    List.Forall₂ (IsGroup field rows) (groupKeys field rows) (groupsOf field rows) := by
  induction rows using List.reverseRecOn with
  | nil => exact .nil
  | append_singleton rows r ih =>
    have hnew : groupKey field r ∉ groupKeys field rows →
        groupKey field r ∉ rows.map (groupKey field) := mt List.mem_eraseDups.mpr
    rw [groupKeys_concat, groupsOf, List.foldl_append]
    exact isGroup_addToGroups (nodup_groupKeys field rows) hnew ih

/-! ### Sizes -/

theorem total_addToGroups (v : Value) (groups : List (Value × Nat)) :
    total ((addToGroups v groups).map Prod.snd) = total (groups.map Prod.snd) + 1 := by
  induction groups with
  | nil => rfl
  | cons g groups ih =>
    rw [addToGroups]
    split
    · simp only [List.map_cons, total]
      omega
    · simp only [List.map_cons, total, ih]
      omega

/-- Every row is counted once. -/
theorem total_groupsOf (field : String) (rows : List Record) :
    total ((groupsOf field rows).map Prod.snd) = rows.length := by
  induction rows using List.reverseRecOn with
  | nil => rfl
  | append_singleton rows r ih =>
    rw [groupsOf, List.foldl_append, List.length_append]
    exact (total_addToGroups _ _).trans (congrArg (· + 1) ih)

/-! ### The rows that are shown -/

theorem total_perm {ms ns : List Nat} (h : ms.Perm ns) : total ms = total ns := by
  induction h with
  | nil => rfl
  | cons n _ ih => exact congrArg (n + ·) ih
  | swap m n ns =>
    simp only [total]
    omega
  | trans _ _ ihl ihr => exact ihl.trans ihr

theorem InOrder.perm {orderBy : Option SortKey} (h : InOrder orderBy found groups) :
    groups.Perm found := by
  cases orderBy with
  | none => exact .of_eq h
  | some key => exact StablySorted.perm h

theorem inOrder_sortGroups (orderBy : Option SortKey) (found : List (Value × Nat)) :
    InOrder orderBy found (sortGroups orderBy found) := by
  cases orderBy with
  | none => rfl
  | some key =>
    have hkeys : GoesBy (fun a b : Value × Nat => key.direction.before (compare a.2 b.2))
        key.direction.Orders Prod.snd found := fun a _ b _ =>
      key.direction.before_compare_iff a.2 b.2
    exact stablySorted_sortStable (Direction.Orders.trans key.direction)
      (Direction.Orders.total key.direction) hkeys

theorem showsGroup_groupRow (hne : field ≠ countName) (hfield : field ≠ "count")
    (hname : countName ∉ ["source", "type", "status"]) (g : Value × Nat) :
    ShowsGroup field countName (groupRow field countName g) g where
  value := by
    simp only [groupRow, Record.get?_ofFields]
    simp [Entries.get?, Ne.symm hne, Ne.symm hfield]
  size := by
    simp only [List.mem_cons, List.not_mem_nil, or_false, not_or] at hname
    obtain ⟨hsource, htype, hstatus⟩ := hname
    simp only [groupRow, Record.get?_ofFields]
    simp [Entries.get?, Ne.symm hsource, Ne.symm htype, Ne.symm hstatus]

theorem page_eq {α : Type} (q : Query) (xs : List α) :
    q.page xs = (xs.drop (q.offset.getD 0)).take (q.limit.getD xs.length) := by
  rw [page]
  cases q.limit with
  | some n => rfl
  | none =>
    have hlength : (xs.drop (q.offset.getD 0)).length ≤ xs.length := by
      rw [List.length_drop]
      omega
    exact (List.take_of_length_le hlength).symm

/-- A query that counts by groups finds one group for each text that the field has on the rows that
pass, in the order in which the texts first come up, and with every row in one of them. A key sorts
the groups by their size alone. What is shown are the groups that the bounds leave, each with the
value of its first row and the number of its rows under the names that are asked for. -/
theorem groups_partition (d : Document) (q : Query) (now : String)
    (hq : q.projection = .groups field countName) (hne : field ≠ countName)
    (hfield : field ≠ "count") (hname : countName ∉ ["source", "type", "status"]) :
    ∃ found groups shown,
      (groupKeys field (q.filtered d)).Nodup ∧
      List.Forall₂ (IsGroup field (q.filtered d)) (groupKeys field (q.filtered d)) found ∧
      InOrder q.orderBy found groups ∧
      total (groups.map Prod.snd) = (q.filtered d).length ∧
      q.rows d now = .ok shown ∧
      List.Forall₂ (ShowsGroup field countName) shown
        ((groups.drop (q.offset.getD 0)).take (q.limit.getD groups.length)) := by
  have hfound := isGroup_groupsOf field (q.filtered d)
  have hsizes := total_groupsOf field (q.filtered d)
  have hrows : q.rows d now = .ok
      ((q.page (sortGroups q.orderBy (groupsOf field (q.filtered d)))).map
        (groupRow field countName)) := by
    simp only [rows, hq]
  generalize groupsOf field (q.filtered d) = found at hfound hsizes hrows
  have horder := inOrder_sortGroups q.orderBy found
  generalize sortGroups q.orderBy found = groups at horder hrows
  have htotal : total (groups.map Prod.snd) = (q.filtered d).length :=
    (total_perm (horder.perm.map Prod.snd)).trans hsizes
  rw [page_eq] at hrows
  refine ⟨found, groups, _, nodup_groupKeys field _, hfound, horder, htotal, hrows, ?_⟩
  rw [List.forall₂_map_left_iff, List.forall₂_same]
  intro g _
  exact showsGroup_groupRow hne hfield hname g

/-- Six leads by their source, the largest groups first: three of the number 5 or its text, two
without a source or with the text `Unknown`, and one other. Two groups are shown from the second
on. -/
theorem leads_by_source :
    let lead := fun source => Record.ofFields [("source", source)]
    let d := Document.new.setRows .leads [lead (.string "Web"), lead .null,
      lead (.string "Unknown"), lead (.int 5), lead (.string "5"), lead (.string "5")]
    let q : Query := ⟨.groups "source" "n", "leads", none, [], [], some ⟨"n", .descending⟩, some 2,
      some 1⟩
    q.projection = .groups "source" "n" ∧ "source" ≠ "n" ∧ "source" ≠ "count" ∧
      "n" ∉ ["source", "type", "status"] ∧
      groupKeys "source" (q.filtered d) = ["Web", "Unknown", "5"] ∧
      ∃ found groups shown,
        List.Forall₂ (IsGroup "source" (q.filtered d)) ["Web", "Unknown", "5"] found ∧
        StablySorted Direction.descending.Orders Prod.snd found groups ∧
        total (groups.map Prod.snd) = 6 ∧
        q.rows d "2024-05-01" = .ok shown ∧
        List.Forall₂ (ShowsGroup "source" "n") shown ((groups.drop 1).take 2) := by
  intro lead d q
  have hkeys : groupKeys "source" (q.filtered d) = ["Web", "Unknown", "5"] := by decide +kernel
  have hsix : (q.filtered d).length = 6 := by decide +kernel
  obtain ⟨found, groups, shown, -, hfound, horder, htotal, hrows, hshown⟩ :=
    groups_partition d q "2024-05-01" rfl (by decide : "source" ≠ "n") (by decide) (by decide)
  rw [hkeys] at hfound
  rw [hsix] at htotal
  exact ⟨rfl, by decide, by decide, by decide, hkeys, found, groups, shown, hfound, horder, htotal,
    hrows, hshown⟩

end Query
end ClientRecords
