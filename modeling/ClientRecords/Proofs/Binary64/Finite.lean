import ClientRecords.Binary64.Basic
/-!
Numbers that stay finite. Rounding lands at most one grid step away from the count that it rounds
and never below a power of two that the count has reached, so it takes a quotient that is well below
the largest number to a finite one (`isFinite_nearest`).
-/

namespace ClientRecords.Binary64

variable {negative : Bool} {num den m n k : Nat}

theorem nearestUnits_le_add (num den : Nat) :
    nearestUnits num den ≤ num / den + pow2 (gridExponent num den) := by
  rw [nearestUnits]
  generalize pow2 (gridExponent num den) = g
  have hround : roundDiv num (den * g) ≤ num / den / g + 1 := by
    rw [Nat.div_div_eq_div_mul]
    exact roundDiv_le num (den * g)
  calc roundDiv num (den * g) * g ≤ (num / den / g + 1) * g := Nat.mul_le_mul_right g hround
    _ = num / den / g * g + g := Nat.succ_mul _ _
    _ ≤ num / den + g := Nat.add_le_add_right (Nat.div_mul_le_self _ _) g

/-- Rounding at most doubles a count. -/
theorem nearestUnits_le (num den : Nat) : nearestUnits num den ≤ 2 * (num / den) + 1 := by
  have hgrid : pow2 (gridExponent num den) ≤ num / den + 1 := by
    rw [gridExponent]
    generalize num / den = q
    by_cases hq : q = 0
    · subst hq
      decide
    · calc pow2 (q.log2 - 52) ≤ pow2 q.log2 := pow2_le (Nat.sub_le _ _)
        _ ≤ q := Nat.log2_self_le hq
        _ ≤ q + 1 := Nat.le_succ q
  have hle := nearestUnits_le_add num den
  omega

theorem nearestUnits_lt (h : num / den < pow2 k) : nearestUnits num den < pow2 (k + 1) := by
  have hle := nearestUnits_le num den
  have hdouble : pow2 (k + 1) = 2 * pow2 k := Nat.pow_succ'
  omega

/-- A power of two that a count has reached is not lost by rounding. -/
theorem le_nearestUnits (h : pow2 k ≤ num / den) : pow2 k ≤ nearestUnits num den := by
  have hround : num / den / pow2 (gridExponent num den)
      ≤ roundDiv num (den * pow2 (gridExponent num den)) := by
    rw [Nat.div_div_eq_div_mul, roundDiv]
    split
    · exact Nat.le_refl _
    · exact Nat.le_succ _
  rw [nearestUnits]
  rw [gridExponent] at hround ⊢
  generalize num / den = q at h hround
  have hq : q ≠ 0 := Nat.ne_of_gt (Nat.lt_of_lt_of_le (pow2_pos k) h)
  have hk : k ≤ q.log2 := (Nat.le_log2 hq).mpr h
  have hgrid : pow2 q.log2 = pow2 q.log2 / pow2 (q.log2 - 52) * pow2 (q.log2 - 52) :=
    (Nat.div_mul_cancel (pow2_dvd (Nat.sub_le _ _))).symm
  calc pow2 k ≤ pow2 q.log2 := pow2_le hk
    _ = pow2 q.log2 / pow2 (q.log2 - 52) * pow2 (q.log2 - 52) := hgrid
    _ ≤ q / pow2 (q.log2 - 52) * pow2 (q.log2 - 52) :=
      Nat.mul_le_mul_right _ (Nat.div_le_div_right (Nat.log2_self_le hq))
    _ ≤ roundDiv num (den * pow2 (q.log2 - 52)) * pow2 (q.log2 - 52) :=
      Nat.mul_le_mul_right _ hround

/-- A count that stays below the limit by a grid step is rounded to a finite number. -/
theorem nearest_of_room (h : num / den + pow2 (topPlace - 53) < magnitudeLimit) :
    ∃ m, nearest negative num den = .finite negative m ∧ m.units = nearestUnits num den := by
  have hgrid : gridExponent num den ≤ topPlace - 53 := by
    rw [gridExponent]
    by_cases hq : num / den = 0
    · rw [hq]
      decide
    · have hlog : (num / den).log2 < topPlace :=
        (log2_lt_iff hq).mpr (Nat.lt_of_le_of_lt (Nat.le_add_right _ _) h)
      omega
  have hlt : nearestUnits num den < magnitudeLimit :=
    Nat.lt_of_le_of_lt (nearestUnits_le_add num den)
      (Nat.lt_of_le_of_lt (Nat.add_le_add_left (pow2_le hgrid) _) h)
  exact ⟨⟨nearestUnits num den, hlt, coarse_nearestUnits num den⟩, by rw [nearest, dif_pos hlt],
    rfl⟩

theorem isFinite_nearest (h : num / den < pow2 k) (hk : k < topPlace) :
    (nearest negative num den).isFinite = true := by
  have hlt : nearestUnits num den < magnitudeLimit :=
    Nat.lt_of_lt_of_le (nearestUnits_lt h) (pow2_le hk)
  rw [nearest, dif_pos hlt]
  rfl

theorem isFinite_neg (x : Binary64) : x.neg.isFinite = x.isFinite := by cases x <;> rfl

/-- Every integer of 64 bits, with or without a sign, is near a finite number. -/
theorem isFinite_ofInt {i : Int} (h : i.natAbs ≤ pow2 64) : (ofInt i).isFinite = true := by
  have hunits : i.natAbs * one ≤ pow2 (64 + unitPlaces) := by
    rw [one, pow2_add]
    exact Nat.mul_le_mul_right (pow2 unitPlaces) h
  have hlt : i.natAbs * one / 1 < pow2 (65 + unitPlaces) := by
    rw [Nat.div_one]
    exact Nat.lt_of_le_of_lt hunits (pow2_lt (by decide))
  have htop : 65 + unitPlaces < topPlace := by decide
  rw [ofInt]
  exact isFinite_nearest hlt htop

theorem isFinite_ofInt64 (i : Int64) : (ofInt i.toInt).isFinite = true := by
  have hlow := i.le_toInt
  have hhigh := i.toInt_lt
  have hlimit : i.toInt.natAbs ≤ pow2 64 := by
    have hpow : pow2 64 = 2 ^ 64 := rfl
    omega
  exact isFinite_ofInt hlimit

theorem mul_one_div_le (m : Nat) (h : one ≤ n) : m * one / n ≤ m :=
  Nat.div_le_of_le_mul (by rw [Nat.mul_comm n m]; exact Nat.mul_le_mul_left m h)

end ClientRecords.Binary64
