import Mathlib.Data.Nat.Dist
import ClientRecords.Proofs.Binary64.Shortest
/-!
What it means that rounding goes to the nearest number. The rounded quotient is at most half away,
so no other whole number is closer; no count that the format holds is closer than the one that a
count is rounded to (`dist_nearestUnits_le`), for those between two steps of its grid lie below the
power of two that the grid starts from. So a decimal is read as the number nearest to it, unless it
is at least half a step beyond the largest one (`ofDecimal_cases`).
-/

namespace ClientRecords.Binary64

variable {num den k q : Nat}

/-! ### Whole numbers -/

theorem two_mul_dist_roundDiv_le (num den : Nat) (hden : 0 < den) :
    2 * Nat.dist (roundDiv num den * den) num ≤ den := by
  have hnum := Nat.div_add_mod num den
  have hmod := Nat.mod_lt num hden
  rw [Nat.mul_comm] at hnum
  rw [roundDiv]
  split
  · rw [Nat.dist_eq_sub_of_le (Nat.div_mul_le_self num den)]
    omega
  · have hnext : (num / den + 1) * den = num / den * den + den := Nat.succ_mul _ _
    rw [Nat.dist_eq_sub_of_le_right (by omega), hnext]
    omega

/-- No whole number is closer to a quotient than the rounded one. -/
theorem dist_roundDiv_le (num den k : Nat) (hden : 0 < den) :
    Nat.dist (roundDiv num den * den) num ≤ Nat.dist (k * den) num := by
  by_cases hk : k = roundDiv num den
  · rw [hk]
  · -- two whole numbers are at least `den` apart, and the rounded one is within half of that
    have hhalf := two_mul_dist_roundDiv_le num den hden
    have happart : den ≤ Nat.dist (k * den) (roundDiv num den * den) := by
      rw [Nat.dist_mul_right]
      exact Nat.le_mul_of_pos_left den (Nat.dist_pos_of_ne hk)
    have htriangle := Nat.dist.triangle_inequality (k * den) num (roundDiv num den * den)
    rw [Nat.dist_comm num] at htriangle
    omega

/-! ### Counts -/

/-- No count that the format holds is closer than the one that a count is rounded to. -/
theorem dist_nearestUnits_le (hden : 0 < den) (hk : Coarse k) :
    Nat.dist (nearestUnits num den * den) num ≤ Nat.dist (k * den) num := by
  have hgrid : 0 < pow2 (gridExponent num den) := pow2_pos _
  have hon : ∀ j, Nat.dist (nearestUnits num den * den) num
      ≤ Nat.dist (j * pow2 (gridExponent num den) * den) num := by
    intro j
    rw [nearestUnits, Nat.mul_assoc, Nat.mul_assoc, Nat.mul_comm (pow2 _) den]
    exact dist_roundDiv_le num (den * pow2 (gridExponent num den)) j (Nat.mul_pos hden hgrid)
  by_cases hdvd : pow2 (gridExponent num den) ∣ k
  · obtain ⟨j, rfl⟩ := hdvd
    rw [Nat.mul_comm (pow2 _)]
    exact hon j
  · -- off the grid a count lies below the power of two that the grid starts from
    have hlog : k.log2 < (num / den).log2 := by
      by_contra hge
      exact hdvd (Nat.dvd_trans (pow2_dvd (by rw [gridExponent]; omega)) hk)
    have hnum : num / den ≠ 0 := by
      intro h
      rw [h] at hlog
      exact Nat.not_lt_zero _ hlog
    have hbelow : k ≤ pow2 (num / den).log2 :=
      Nat.le_of_lt (Nat.lt_of_lt_of_le Nat.lt_log2_self (pow2_le hlog))
    have hreached : pow2 (num / den).log2 * den ≤ num :=
      (Nat.le_div_iff_mul_le hden).mp (Nat.log2_self_le hnum)
    have hstart : pow2 (num / den).log2 = pow2 (num / den).log2 / pow2 (gridExponent num den)
        * pow2 (gridExponent num den) :=
      (Nat.div_mul_cancel (pow2_dvd (by rw [gridExponent]; omega))).symm
    have hcloser : Nat.dist (pow2 (num / den).log2 * den) num ≤ Nat.dist (k * den) num := by
      have hscaled := Nat.mul_le_mul_right den hbelow
      rw [Nat.dist_eq_sub_of_le hreached, Nat.dist_eq_sub_of_le (Nat.le_trans hscaled hreached)]
      omega
    rw [hstart] at hcloser
    exact Nat.le_trans (hon _) hcloser

/-- A quotient below a half is rounded to zero. -/
theorem nearestUnits_eq_zero (h : 2 * num < den) : nearestUnits num den = 0 := by
  have hdiv : num / den = 0 := Nat.div_eq_of_lt (by omega)
  have hmod : num % den = num := Nat.mod_eq_of_lt (by omega)
  have hgrid : den * pow2 (gridExponent num den) = den := by
    rw [gridExponent, hdiv]
    exact Nat.mul_one den
  rw [nearestUnits, hgrid, roundDiv, hmod, hdiv, if_pos (.inl h), Nat.zero_mul]

/-! ### Decimals -/

/-- A decimal fraction is read as the nearest number, whatever its size is. -/
theorem ofDecimal_eq_nearest (negative : Bool) (digits places : Nat) :
    ofDecimal negative digits (-(places : Int))
      = nearest negative (digits * one) (pow10 places) := by
  have hsmall : 2 * one < pow10 330 := by decide +kernel
  have hlarge : pow2 topPlace < pow10 330 * one := by decide +kernel
  have hbelow := Decimal.digits_lt_pow10 digits
  rw [ofDecimal]
  -- too small for half a unit
  by_cases hzero : digits = 0 ∨ ((Nat.toDigits 10 digits).length : Int) + -places < -330
  · have hfew : 2 * (digits * one) < pow10 places := by
      rcases hzero with rfl | hsize
      · rw [Nat.zero_mul]
        exact pow10_pos places
      · have hscale : pow10 330 * pow10 (Nat.toDigits 10 digits).length ≤ pow10 places := by
          rw [← pow10_add]
          exact pow10_le (by omega)
        have hpos := pow10_pos (Nat.toDigits 10 digits).length
        nlinarith
    have hnothing : ∀ {num den : Nat}, nearestUnits num den = 0 →
        nearest negative num den = .finite negative .zero := fun h => nearest_of_units h
    rw [if_pos hzero, hnothing (nearestUnits_eq_zero (by decide)),
      hnothing (nearestUnits_eq_zero hfew)]
  rw [if_neg hzero]
  -- beyond all finite numbers
  by_cases hsize : ((Nat.toDigits 10 digits).length : Int) + -places > 330
  · have hdigits : digits ≠ 0 := fun h => hzero (.inl h)
    have habove := Decimal.pow10_le_digits hdigits
    have hscale : pow10 330 * pow10 places ≤ pow10 ((Nat.toDigits 10 digits).length - 1) := by
      rw [← pow10_add]
      exact pow10_le (by omega)
    have hunits : pow2 topPlace * pow10 places ≤ digits * one := by
      have hpos := pow10_pos places
      nlinarith
    have hreached := (Nat.le_div_iff_mul_le (pow10_pos places)).mpr hunits
    have hlimit : magnitudeLimit ≤ nearestUnits (digits * one) (pow10 places) :=
      le_nearestUnits hreached
    rw [if_pos hsize, nearest, dif_neg (Nat.not_lt.mpr hlimit)]
  rw [if_neg hsize]
  by_cases hwhole : 0 ≤ -(places : Int)
  · obtain rfl : places = 0 := by omega
    have hone : digits * pow10 (-((0 : Nat) : Int)).toNat = digits := Nat.mul_one digits
    rw [if_pos hwhole, hone]
    rfl
  · rw [if_neg hwhole, Int.neg_neg, Int.toNat_natCast]

/-! ### What a decimal is read as -/

/-- No finite number is closer to a quotient of units. -/
def IsNearest (n num : Int) (den : Nat) : Prop :=
  ∀ negative, ∀ m : Magnitude,
    (n * den - num).natAbs ≤ (signed negative m.units * den - num).natAbs

/-- A quotient of units is at least half a step beyond the largest number. -/
def IsBeyond (num den : Nat) : Prop :=
  (2 * magnitudeLimit - pow2 (topPlace - 53)) * den ≤ 2 * num

theorem natAbs_signed_sub (negative : Bool) (units : Nat) :
    (signed negative units * den - signed negative num).natAbs = Nat.dist (units * den) num := by
  have hcast : ((units * den : Nat) : Int) = units * den := Int.natCast_mul units den
  unfold Nat.dist
  cases negative <;>
    simp only [signed, if_true, Bool.false_eq_true, if_false, Int.neg_mul] <;> omega

/-- A number of the other sign is farther away than zero. -/
theorem le_natAbs_signed_sub {negative other : Bool} (h : other ≠ negative) (units : Nat) :
    num ≤ (signed other units * den - signed negative num).natAbs := by
  have hcast : ((units * den : Nat) : Int) = units * den := Int.natCast_mul units den
  cases negative <;> cases other <;>
    simp only [signed, if_true, Bool.false_eq_true, if_false, Int.neg_mul, ne_eq,
      not_true_eq_false] at h ⊢ <;> omega

theorem isNearest_nearestUnits (negative : Bool) (hden : 0 < den) :
    IsNearest (signed negative (nearestUnits num den)) (signed negative num) den := by
  intro other m
  rw [natAbs_signed_sub]
  by_cases hsign : other = negative
  · rw [hsign, natAbs_signed_sub]
    exact dist_nearestUnits_le hden m.coarse
  · have hzero := @dist_nearestUnits_le num den 0 hden coarse_zero
    rw [Nat.zero_mul, Nat.dist_zero_left] at hzero
    exact Nat.le_trans hzero (le_natAbs_signed_sub hsign m.units)

/-- The largest number is nearer to what is not beyond it than the limit is. -/
theorem isBeyond_of_le (hden : 0 < den) (h : magnitudeLimit ≤ nearestUnits num den) :
    IsBeyond num den := by
  have hlargest : (pow2 53 - 1) * pow2 (topPlace - 53) + pow2 (topPlace - 53) = magnitudeLimit := by
    decide +kernel
  have hcloser := @dist_nearestUnits_le num den _ hden
    (coarse_mul_pow2 (topPlace - 53) (Nat.sub_le (pow2 53) 1))
  have hscaled := Nat.mul_le_mul_right den h
  have hstep : 0 < pow2 (topPlace - 53) * den := Nat.mul_pos (pow2_pos _) hden
  rw [IsBeyond, ← hlargest] at *
  generalize (pow2 53 - 1) * pow2 (topPlace - 53) = largest at *
  generalize pow2 (topPlace - 53) = g at *
  generalize nearestUnits num den = units at *
  rw [show 2 * (largest + g) - g = 2 * largest + g by omega, Nat.add_mul, Nat.mul_assoc]
  rw [Nat.add_mul] at hscaled
  unfold Nat.dist at hcloser
  omega

/-- A decimal fraction is read as the nearest number, or as infinite if it is beyond all of them. -/
theorem ofDecimal_cases (negative : Bool) (digits places : Nat) :
    (∃ m, ofDecimal negative digits (-(places : Int)) = .finite negative m ∧
      IsNearest (signed negative m.units) (signed negative (digits * one)) (pow10 places)) ∨
    ofDecimal negative digits (-(places : Int)) = .infinite negative ∧
      IsBeyond (digits * one) (pow10 places) := by
  rw [ofDecimal_eq_nearest, nearest]
  by_cases hlimit : nearestUnits (digits * one) (pow10 places) < magnitudeLimit
  · rw [dif_pos hlimit]
    exact .inl ⟨_, rfl, isNearest_nearestUnits negative (pow10_pos places)⟩
  · rw [dif_neg hlimit]
    exact .inr ⟨rfl, isBeyond_of_le (pow10_pos places) (Nat.not_lt.mp hlimit)⟩

/-- A decimal that is itself a number is read as it. -/
theorem ofDecimal_of_units {m : Magnitude} {digits places : Nat}
    (h : m.units * pow10 places = digits * one) (negative : Bool) :
    ofDecimal negative digits (-(places : Int)) = .finite negative m := by
  have hcloser := @dist_nearestUnits_le (digits * one) (pow10 places) _ (pow10_pos places) m.coarse
  rw [h, Nat.dist_self, Nat.le_zero] at hcloser
  have hunits : nearestUnits (digits * one) (pow10 places) * pow10 places
      = m.units * pow10 places := (Nat.eq_of_dist_eq_zero hcloser).trans h.symm
  rw [ofDecimal_eq_nearest]
  exact nearest_of_units (Nat.eq_of_mul_eq_mul_right (pow10_pos places) hunits)

end ClientRecords.Binary64
