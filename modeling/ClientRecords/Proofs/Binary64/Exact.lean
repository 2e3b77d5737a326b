import ClientRecords.Query.Basic
/-!
Numbers that rounding leaves as they are. A count of units that the format holds is its own nearest
one, so every integer of magnitude up to 2^53 is a floating point number.
-/

namespace ClientRecords

namespace Binary64

variable {n : Nat}

/-- Nothing is left over on the grid, so nothing is rounded. -/
theorem nearestUnits_of_coarse (h : Coarse n) : nearestUnits n 1 = n := by
  obtain ⟨q, hq⟩ := h
  have hgrid : gridExponent n 1 = n.log2 - 52 := by rw [gridExponent, Nat.div_one]
  have hmod : n % pow2 (n.log2 - 52) = 0 := Nat.mod_eq_zero_of_dvd ⟨q, hq⟩
  have hround : roundDiv n (pow2 (n.log2 - 52)) = n / pow2 (n.log2 - 52) := by
    rw [roundDiv, if_pos (.inl (by rw [hmod]; exact pow2_pos _))]
  rw [nearestUnits, hgrid, Nat.one_mul, hround, Nat.div_mul_cancel ⟨q, hq⟩]

theorem mul_one_lt_magnitudeLimit (h : n ≤ pow2 53) : n * one < magnitudeLimit := by
  have htop : n * one ≤ pow2 53 * one := Nat.mul_le_mul_right _ h
  rw [one, ← pow2_add] at htop
  exact Nat.lt_of_le_of_lt htop (pow2_lt (by decide))

/-- An integer of magnitude up to 2^53 is held as it is. -/
theorem ofInt_of_natAbs_le {i : Int} (h : i.natAbs ≤ pow2 53) : ofInt i
    = .finite (decide (i < 0))
      ⟨i.natAbs * one, mul_one_lt_magnitudeLimit h, coarse_mul_pow2 unitPlaces h⟩ := by
  have hexact : nearestUnits (i.natAbs * one) 1 = i.natAbs * one :=
    nearestUnits_of_coarse (coarse_mul_pow2 unitPlaces h)
  rw [ofInt, nearest, dif_pos (by rw [hexact]; exact mul_one_lt_magnitudeLimit h)]
  congr 2

/-- A natural number up to 2^53 is held as it is. -/
theorem ofInt_natCast (h : n ≤ pow2 53) : ofInt n
    = .finite false ⟨n * one, mul_one_lt_magnitudeLimit h, coarse_mul_pow2 unitPlaces h⟩ := by
  have hnat : (n : Int).natAbs ≤ pow2 53 := h
  have hsign : decide ((n : Int) < 0) = false := by simp
  rw [ofInt_of_natAbs_le hnat, hsign]
  rfl

theorem rank_ofInt {i : Int} (h : i.natAbs ≤ pow2 53) : (ofInt i).rank = some (i * one) := by
  rw [ofInt_of_natAbs_le h, rank, signed]
  simp only [decide_eq_true_eq, Int.natCast_mul]
  by_cases hi : i < 0
  · rw [if_pos hi, Int.ofNat_natAbs_of_nonpos (Int.le_of_lt hi), Int.neg_mul, Int.neg_neg]
  · rw [if_neg hi, Int.natAbs_of_nonneg (Int.not_lt.mp hi)]

end Binary64

namespace Value

variable {n : Nat}

/-- A natural number up to 2^53 sets that number of rows. -/
theorem rowCount?_ofNat (h : n ≤ pow2 53) : (Value.int (Int64.ofNat n)).rowCount? = some n := by
  have hint : (Int64.ofNat n).toInt = n :=
    Int64.toInt_ofNat_of_lt (Nat.lt_of_le_of_lt h (by decide))
  have hnumeric : (Value.int (Int64.ofNat n)).numeric = Binary64.ofInt n := by
    rw [numeric, hint, Binary64.ofInt_natCast h]
    rfl
  have hdiv : n * Binary64.one / Binary64.one = n := Nat.mul_div_cancel n (pow2_pos _)
  have hmin : n ≤ pow2 64 - 1 := Nat.le_trans h (by decide)
  rw [rowCount?, hnumeric, Binary64.ofInt_natCast h]
  simp only [Bool.false_and, Bool.false_eq_true, if_false]
  rw [hdiv, Nat.min_eq_left hmin]

end Value
end ClientRecords
