import ClientRecords.Proofs.Binary64.Exact
import ClientRecords.Proofs.Query.Ordering
import ClientRecords.Proofs.Query.Sorting
import ClientRecords.Proofs.Token.Integer
/-!
Rows sorted by a field that holds texts only, or integers only. The texts are in the order of their
code points, a row without one having the empty text. The integers are in their own order, behind
the rows without one: these have the empty text, and that comes before the text of every number.
-/

namespace ClientRecords

/-! ### Orders -/

namespace Direction

/-- Does a key come before another, or stand beside it? -/
def Orders {κ : Type} [LE κ] : Direction → κ → κ → Prop
  | .ascending, i, j => i ≤ j
  | .descending, i, j => j ≤ i

variable {κ : Type} [LE κ] [Std.IsLinearPreorder κ]

theorem Orders.trans (dir : Direction) (i j k : κ) (hij : dir.Orders i j) (hjk : dir.Orders j k) :
    dir.Orders i k := by
  cases dir with
  | ascending => exact Std.IsPreorder.le_trans i j k hij hjk
  | descending => exact Std.IsPreorder.le_trans k j i hjk hij

theorem Orders.total (dir : Direction) (i j : κ) : dir.Orders i j ∨ dir.Orders j i := by
  cases dir with
  | ascending => exact Std.IsLinearPreorder.le_total i j
  | descending => exact Std.IsLinearPreorder.le_total j i

end Direction

/-- What is missing comes before everything else. -/
instance Option.isLinearPreorder {κ : Type} [LE κ] [Std.IsLinearPreorder κ] :
    Std.IsLinearPreorder (Option κ) where
  le_refl
    | none => Option.none_le
    | some i => Option.some_le_some.mpr (Std.IsPreorder.le_refl i)
  le_trans
    | none, _, _, _, _ => Option.none_le
    | some _, none, _, h, _ => absurd h Option.not_some_le_none
    | some _, some _, none, _, h => absurd h Option.not_some_le_none
    | some i, some j, some k, hij, hjk => Option.some_le_some.mpr
      (Std.IsPreorder.le_trans i j k (Option.some_le_some.mp hij) (Option.some_le_some.mp hjk))
  le_total
    | none, _ => .inl Option.none_le
    | _, none => .inr Option.none_le
    | some i, some j => (Std.IsLinearPreorder.le_total i j).imp Option.some_le_some.mpr
      Option.some_le_some.mpr

/-! ### Keys -/

namespace Value

/-- Is a value a text or missing? -/
def IsTextOrNull : Value → Prop
  | .null | .string _ => True
  | .bool _ | .int _ | .float _ => False

/-- Is a value missing, or an integer that a floating point number holds as it is? -/
def IsIntegerOrNull : Value → Prop
  | .null => True
  | .int i => i.toInt.natAbs ≤ pow2 53
  | .bool _ | .float _ | .string _ => False

instance : DecidablePred IsTextOrNull
  | .null | .string _ => .isTrue trivial
  | .bool _ | .int _ | .float _ => .isFalse id

theorem rank_int {i : Int64} (h : i.toInt.natAbs ≤ pow2 53) :
    (Value.int i).rank = i.toInt * Binary64.one := by
  have hfinite : (Binary64.ofInt i.toInt).isFinite = true := by
    rw [Binary64.ofInt_of_natAbs_le h]
    rfl
  simp only [rank, numeric, hfinite, if_true, Binary64.rank_ofInt h, Option.getD_some]

/-- The empty text comes before the text of every integer. -/
theorem empty_lt_text (i : Int64) : "" < (Value.int i).text := by
  have hne : (toString i.toInt).toList ≠ [] := by
    rw [Token.toList_toString]
    split
    · exact List.cons_ne_nil _ _
    · exact Nat.toDigits_ne_nil
  obtain ⟨c, cs, hcs⟩ := List.exists_cons_of_ne_nil hne
  rw [String.lt_iff, text, hcs]
  exact List.nil_lt_cons c cs

end Value

namespace Record

/-- The text in a field; one that is missing or null counts as the empty text. -/
def textOf (field : String) (r : Record) : String :=
  match r.get? field with
  | some (.string s) => s
  | _ => ""

/-- The integer in a field, if there is one. -/
def integerOf (field : String) (r : Record) : Option Int :=
  match r.get? field with
  | some (.int i) => some i.toInt
  | _ => none

end Record

/-- Are the values of a field texts, as far as rows have one? -/
def HoldsTexts (field : String) (rows : List Record) : Prop :=
  ∀ r ∈ rows, ∀ v ∈ r.get? field, v.IsTextOrNull

instance {field : String} {rows : List Record} : Decidable (HoldsTexts field rows) :=
  inferInstanceAs (Decidable (∀ r ∈ rows, ∀ v ∈ r.get? field, v.IsTextOrNull))

/-- Are the values of a field exact integers, as far as rows have one? -/
def HoldsIntegers (field : String) (rows : List Record) : Prop :=
  ∀ r ∈ rows, ∀ v ∈ r.get? field, v.IsIntegerOrNull

namespace Query

variable {field : String} {dir : Direction} {rows : List Record} {r : Record}

theorem sortValue_of_text (h : ∀ v ∈ r.get? field, v.IsTextOrNull) :
    sortValue field r = .string (r.textOf field) := by
  rw [sortValue, Record.textOf]
  cases hv : r.get? field with
  | none => rfl
  | some v =>
    have htext := h v hv
    cases v with
    | null | string => rfl
    | bool | int | float => cases htext

theorem sortValue_of_integer (h : ∀ v ∈ r.get? field, v.IsIntegerOrNull) :
    sortValue field r = .string "" ∧ r.integerOf field = none ∨
    ∃ i : Int64, sortValue field r = .int i ∧ r.integerOf field = some i.toInt ∧
      i.toInt.natAbs ≤ pow2 53 := by
  rw [sortValue, Record.integerOf]
  cases hv : r.get? field with
  | none => exact .inl ⟨rfl, rfl⟩
  | some v =>
    have hinteger := h v hv
    cases v with
    | null => exact .inl ⟨rfl, rfl⟩
    | int i => exact .inr ⟨i, rfl, rfl, hinteger⟩
    | bool | float | string => cases hinteger

/-! ### The comparison goes by the keys -/

theorem before_of_text {r s : Record} (hr : ∀ v ∈ r.get? field, v.IsTextOrNull)
    (hs : ∀ v ∈ s.get? field, v.IsTextOrNull) :
    compareValues (sortValue field r) (sortValue field s) = .lt
      ↔ ¬s.textOf field ≤ r.textOf field := by
  rw [sortValue_of_text hr, sortValue_of_text hs, compareValues_of_left rfl,
    Text.compare_eq_lt_iff, String.not_le]
  rfl

theorem before_of_integer {r s : Record} (hr : ∀ v ∈ r.get? field, v.IsIntegerOrNull)
    (hs : ∀ v ∈ s.get? field, v.IsIntegerOrNull) :
    compareValues (sortValue field r) (sortValue field s) = .lt
      ↔ ¬s.integerOf field ≤ r.integerOf field := by
  rcases sortValue_of_integer hr with ⟨hvr, hkr⟩ | ⟨i, hvr, hkr, hi⟩ <;>
    rcases sortValue_of_integer hs with ⟨hvs, hks⟩ | ⟨j, hvs, hks, hj⟩ <;>
    rw [hvr, hvs, hkr, hks]
  · exact iff_of_false (by decide) fun hn => hn Option.none_le
  · rw [compareValues_of_left rfl, Text.compare_eq_lt_iff]
    exact iff_of_true (Value.empty_lt_text j) Option.not_some_le_none
  · rw [compareValues_of_right rfl, Text.compare_eq_lt_iff]
    exact iff_of_false (String.lt_asymm (Value.empty_lt_text i)) fun hn => hn Option.none_le
  · rw [compareValues_of_numeric rfl rfl, Value.rank_int hi, Value.rank_int hj, Std.compare_eq_lt,
      Option.some_le_some, Int.not_le]
    exact Int.mul_lt_mul_right (Int.natCast_pos.mpr (pow2_pos _))

/-- Rows come before each other as their keys do, in both directions. -/
theorem goesBy_rowBefore {κ : Type} [LE κ] {key : Record → κ}
    (h : ∀ r ∈ rows, ∀ s ∈ rows,
      compareValues (sortValue field r) (sortValue field s) = .lt ↔ ¬key s ≤ key r) :
    GoesBy (rowBefore ⟨field, dir⟩) dir.Orders key rows := by
  intro r hr s hs
  cases dir with
  | ascending => exact beq_iff_eq.trans (h r hr s hs)
  | descending =>
    have hgt : compareValues (sortValue field r) (sortValue field s) = .gt
        ↔ compareValues (sortValue field s) (sortValue field r) = .lt := by
      rw [compareValues_swap (sortValue field r), Ordering.swap_eq_lt]
    exact (beq_iff_eq.trans hgt).trans (h s hs r hr)

/-! ### Sorted rows -/

theorem haveOrder_of_texts (h : HoldsTexts field rows) :
    haveOrder (rows.map (sortValue field)) = true := by
  rw [haveOrder, Bool.or_eq_true]
  refine .inl (List.all_eq_true.mpr (List.forall_mem_map.mpr fun r hr => ?_))
  rw [sortValue_of_text (h r hr)]

theorem haveOrder_of_integers (h : HoldsIntegers field rows) :
    haveOrder (rows.map (sortValue field)) = true := by
  rw [haveOrder, Bool.or_eq_true]
  refine .inr (List.all_eq_true.mpr (List.forall_mem_map.mpr fun r hr => ?_))
  rcases sortValue_of_integer (h r hr) with ⟨hv, -⟩ | ⟨i, hv, -⟩ <;> rw [hv]
  decide

/-- Rows with texts only, or integers only, are always sorted, and stably so. -/
theorem sortRows?_stable (field : String) (dir : Direction) {rows : List Record}
    (h : HoldsTexts field rows ∨ HoldsIntegers field rows) :
    ∃ sorted, sortRows? ⟨field, dir⟩ rows = some sorted ∧
      (HoldsTexts field rows → StablySorted dir.Orders (Record.textOf field) rows sorted) ∧
      (HoldsIntegers field rows →
        StablySorted dir.Orders (Record.integerOf field) rows sorted) := by
  have horder : haveOrder (rows.map (sortValue field)) = true :=
    h.elim haveOrder_of_texts haveOrder_of_integers
  refine ⟨sortStable (rowBefore ⟨field, dir⟩) rows, ?_, fun htexts => ?_, fun hintegers => ?_⟩
  · rw [sortRows?, if_pos horder]
  · refine stablySorted_sortStable (Direction.Orders.trans dir) (Direction.Orders.total dir) ?_
    exact goesBy_rowBefore fun r hr s hs => before_of_text (htexts r hr) (htexts s hs)
  · refine stablySorted_sortStable (Direction.Orders.trans dir) (Direction.Orders.total dir) ?_
    exact goesBy_rowBefore fun r hr s hs => before_of_integer (hintegers r hr) (hintegers s hs)

end Query
end ClientRecords
