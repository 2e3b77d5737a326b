import ClientRecords.Proofs.Arithmetic
import ClientRecords.Proofs.Binary64.Interval
/-!
The shortest decimal of a magnitude. The search goes down through the grids of powers of ten, and
among the ones that it looks at there is one that is finer than the interval around the magnitude,
so it ends at a decimal in the interval (`mem_shortest`).
-/

namespace ClientRecords

namespace Decimal

variable {tie : Tie} {r : RoundingInterval} {p : Int} {d n : Nat}

/-- Does a decimal lie in an interval? -/
def Mem (d : Decimal) (r : RoundingInterval) : Prop :=
  r.Mem (d.digits * (Binary64.one * pow10 d.exponent.toNat)) (pow10 (-d.exponent).toNat)

theorem mem_of_inside {d : Decimal} (h : inside r d.exponent d.digits = true) : d.Mem r := by
  have hquarters : d.digits * gridStep d.exponent =
      4 * (d.digits * (Binary64.one * pow10 d.exponent.toNat)) := by
    rw [gridStep]
    ring
  simp only [inside, hquarters, gridScale] at h
  cases hclosed : r.closed with
  | true =>
    simp only [hclosed, if_true, Bool.and_eq_true, decide_eq_true_eq] at h
    exact ⟨h.1, h.2, fun hopen => by rw [hclosed] at hopen; cases hopen⟩
  | false =>
    simp only [hclosed, Bool.false_eq_true, if_false, Bool.and_eq_true, decide_eq_true_eq] at h
    exact ⟨Nat.le_of_lt h.1, Nat.le_of_lt h.2, fun _ => h⟩

/-- The two neighbours of the value on a grid. -/
theorem onGrid?_eq (tie : Tie) (r : RoundingInterval) (p : Int) : ∃ upper : Bool,
    onGrid? tie r p = match inside r p (r.value * gridScale p / gridStep p),
        inside r p (r.value * gridScale p / gridStep p + 1) with
      | true, true => some (if upper then r.value * gridScale p / gridStep p + 1
          else r.value * gridScale p / gridStep p)
      | true, false => some (r.value * gridScale p / gridStep p)
      | false, true => some (r.value * gridScale p / gridStep p + 1)
      | false, false => none :=
  ⟨_, rfl⟩

theorem inside_of_onGrid? (h : onGrid? tie r p = some d) : inside r p d = true := by
  obtain ⟨upper, hgrid⟩ := onGrid?_eq tie r p
  rw [hgrid] at h
  generalize r.value * gridScale p / gridStep p = lower at h
  cases hlower : inside r p lower <;> cases hupper : inside r p (lower + 1) <;>
    simp only [hlower, hupper, Option.some.injEq, reduceCtorEq] at h
  · exact h ▸ hupper
  · exact h ▸ hlower
  · cases upper with
    | true => exact h ▸ hupper
    | false => exact h ▸ hlower

/-- The search ends at a point in the interval if there is one on the grids that it looks at. -/
theorem inside_firstHit : ∀ {n : Nat} {p : Int}, (∃ k < n, onGrid? tie r (p - k) ≠ none) →
    inside r (firstHit tie r n p).exponent (firstHit tie r n p).digits = true
  | 0, _, h => by
    obtain ⟨k, hk, -⟩ := h
    omega
  | n + 1, p, h => by
    rw [firstHit]
    cases hgrid : onGrid? tie r p with
    | some d => exact inside_of_onGrid? hgrid
    | none =>
      obtain ⟨k, hk, hsome⟩ := h
      cases k with
      | zero => exact absurd (by simpa using hgrid) hsome
      | succ k =>
        refine inside_firstHit ⟨k, by omega, ?_⟩
        rwa [show p - 1 - (k : Int) = p - ((k + 1 : Nat) : Int) by omega]

/-- A grid that is finer than the upper half of an interval has a point in it. -/
theorem onGrid?_ne_none (hlow : r.low ≤ r.value)
    (hfine : gridStep p < (r.high - r.value) * gridScale p) : onGrid? tie r p ≠ none := by
  have hstep : 0 < gridStep p :=
    Nat.mul_pos (Nat.mul_pos (by decide) (pow2_pos _)) (pow10_pos _)
  have hupper : inside r p (r.value * gridScale p / gridStep p + 1) = true := by
    have hfloor := Nat.div_add_mod (r.value * gridScale p) (gridStep p)
    have hrest := Nat.mod_lt (r.value * gridScale p) hstep
    have hlower : r.low * gridScale p ≤ r.value * gridScale p := Nat.mul_le_mul_right _ hlow
    rw [Nat.sub_mul] at hfine
    have hpoint : (r.value * gridScale p / gridStep p + 1) * gridStep p =
        gridStep p * (r.value * gridScale p / gridStep p) + gridStep p := by ring
    simp only [inside, hpoint]
    split <;> simp only [Bool.and_eq_true, decide_eq_true_eq] <;> omega
  obtain ⟨upper, hgrid⟩ := onGrid?_eq tie r p
  rw [hgrid, hupper]
  cases inside r p (r.value * gridScale p / gridStep p) <;> exact Option.some_ne_none _

end Decimal

namespace Magnitude

open Decimal

/-- The last grid that is looked at is finer than the interval. -/
theorem gridStep_lt (m : Magnitude) : gridStep (m.topExponent - 23) <
    (m.roundingInterval.high - m.roundingInterval.value) * gridScale (m.topExponent - 23) := by
  have hwidth : m.roundingInterval.high - m.roundingInterval.value = 2 * m.gapAbove := by
    simp only [roundingInterval]
    omega
  have hlog : m.units.log2 < topPlace := by
    by_cases hm : m.units = 0
    · rw [hm]
      decide
    · exact (log2_lt_iff hm).mpr m.bounded
  have htop : m.topExponent = ((m.units.log2 : Int) - 1073) * 30103 / 100000 + 1 := rfl
  have hplace : topPlace = 2098 := rfl
  have hunit : 4 * Binary64.one = pow2 1076 := by
    have hsum : 1076 = 2 + unitPlaces := rfl
    have hfour : pow2 2 = 4 := rfl
    rw [Binary64.one, hsum, pow2_add, hfour]
  have hdouble : 2 * pow2 (m.units.log2 - 52) = pow2 (m.units.log2 - 52 + 1) := (pow_succ' _ _).symm
  rw [hwidth, gapAbove, hdouble, gridStep, gridScale, hunit]
  generalize m.units.log2 = l at *
  rw [htop]
  generalize hp : (l - 1073 : Int) * 30103 / 100000 + 1 - 23 = p
  rcases Int.le_total 0 p with hle | hle
  · have hroom : 1076 + (10 * p.toNat + 2) / 3 < l - 52 + 1 := by omega
    calc pow2 1076 * pow10 p.toNat ≤ pow2 1076 * pow2 ((10 * p.toNat + 2) / 3) :=
          Nat.mul_le_mul_left _ (pow10_le_pow2 _)
      _ = pow2 (1076 + (10 * p.toNat + 2) / 3) := (pow2_add _ _).symm
      _ < pow2 (l - 52 + 1) := pow2_lt hroom
      _ ≤ pow2 (l - 52 + 1) * pow10 (-p).toNat := Nat.le_mul_of_pos_right _ (pow10_pos _)
  · have hroom : 1076 < l - 52 + 1 + 33 * (-p).toNat / 10 := by omega
    have hone : pow10 p.toNat = 1 := by rw [Int.toNat_of_nonpos hle]; rfl
    calc pow2 1076 * pow10 p.toNat = pow2 1076 := by rw [hone, Nat.mul_one]
      _ < pow2 (l - 52 + 1 + 33 * (-p).toNat / 10) := pow2_lt hroom
      _ = pow2 (l - 52 + 1) * pow2 (33 * (-p).toNat / 10) := pow2_add _ _
      _ ≤ pow2 (l - 52 + 1) * pow10 (-p).toNat := Nat.mul_le_mul_left _ (pow2_le_pow10 _)

/-- The shortest decimal lies in the interval around its magnitude. -/
theorem mem_shortest (tie : Tie) {m : Magnitude} (hm : m.units ≠ 0) :
    (m.shortest tie).Mem m.roundingInterval := by
  have hlow : m.roundingInterval.low ≤ m.roundingInterval.value := Nat.sub_le _ _
  rw [shortest, if_neg hm]
  exact mem_of_inside (inside_firstHit ⟨23, by decide, onGrid?_ne_none hlow m.gridStep_lt⟩)

end Magnitude

/-! ### Reading back -/

namespace Binary64

variable {m : Magnitude} {num den : Nat} {negative : Bool}

theorem nearest_of_units (h : nearestUnits num den = m.units) :
    nearest negative num den = .finite negative m := by
  obtain ⟨units, bounded, coarse⟩ := m
  obtain rfl : nearestUnits num den = units := h
  rw [nearest, dif_pos bounded]

end Binary64

namespace Decimal

open Binary64

variable {d : Decimal} {m : Magnitude}

/-- A decimal that is near a magnitude is at least half a unit. -/
theorem pow10_le_of_mem (hm : m.units ≠ 0) (h : d.Mem m.roundingInterval) :
    pow10 (-d.exponent).toNat ≤ 2 * (d.digits * (one * pow10 d.exponent.toNat)) := by
  have hlow : (4 * m.units - 2 * m.gapBelow) * pow10 (-d.exponent).toNat
      ≤ 4 * (d.digits * (one * pow10 d.exponent.toNat)) := h.low
  have hroom : 2 ≤ 4 * m.units - 2 * m.gapBelow := by
    have hbelow := m.gapBelow_le
    have habove := m.gapAbove_le hm
    omega
  have hscaled := Nat.mul_le_mul_right (pow10 (-d.exponent).toNat) hroom
  omega

/-- It is below twice the limit of the magnitudes. -/
theorem le_pow10_of_mem (hm : m.units ≠ 0) (h : d.Mem m.roundingInterval) :
    d.digits * (one * pow10 d.exponent.toNat) ≤ 2 * magnitudeLimit * pow10 (-d.exponent).toNat := by
  have hhigh : 4 * (d.digits * (one * pow10 d.exponent.toNat))
      ≤ (4 * m.units + 2 * m.gapAbove) * pow10 (-d.exponent).toNat := h.high
  have hroom : 4 * m.units + 2 * m.gapAbove ≤ 4 * (2 * magnitudeLimit) := by
    have hbounded := m.bounded
    have habove : m.gapAbove ≤ magnitudeLimit :=
      Nat.le_trans (m.gapAbove_le hm) (Nat.le_of_lt hbounded)
    omega
  have hscaled := Nat.mul_le_mul_right (pow10 (-d.exponent).toNat) hroom
  rw [Nat.mul_assoc 4] at hscaled
  omega

theorem digits_ne_zero_of_mem (hm : m.units ≠ 0) (h : d.Mem m.roundingInterval) :
    d.digits ≠ 0 := by
  intro hzero
  have hlow := pow10_le_of_mem hm h
  have hscale := pow10_pos (-d.exponent).toNat
  rw [hzero, Nat.zero_mul] at hlow
  omega

/-- Where the digits of a positive number start. -/
theorem pow10_le_digits {n : Nat} (h : n ≠ 0) : pow10 ((Nat.toDigits 10 n).length - 1) ≤ n := by
  have hlength : 0 < (Nat.toDigits 10 n).length := Nat.length_toDigits_pos
  by_cases hone : (Nat.toDigits 10 n).length - 1 = 0
  · rw [hone]
    exact Nat.one_le_iff_ne_zero.mpr h
  · refine Nat.not_lt.mp fun hlt => ?_
    have hshort := (Nat.length_toDigits_le_iff (by decide) (Nat.pos_of_ne_zero hone)).mpr hlt
    omega

theorem digits_lt_pow10 (n : Nat) : n < pow10 (Nat.toDigits 10 n).length :=
  (Nat.length_toDigits_le_iff (by decide) Nat.length_toDigits_pos).mp (Nat.le_refl _)

/-- So its decimal places are within the bounds of the reader. -/
theorem size_of_mem (hm : m.units ≠ 0) (h : d.Mem m.roundingInterval) :
    -330 ≤ (Nat.toDigits 10 d.digits).length + d.exponent ∧
      (Nat.toDigits 10 d.digits).length + d.exponent ≤ 330 := by
  have hlow := pow10_le_of_mem hm h
  have hhigh := le_pow10_of_mem hm h
  have hbelow := digits_lt_pow10 d.digits
  have habove := pow10_le_digits (digits_ne_zero_of_mem hm h)
  have hsmall : 2 * one < pow10 330 := by decide +kernel
  have hlarge : 2 * magnitudeLimit < one * pow10 330 := by decide +kernel
  generalize (Nat.toDigits 10 d.digits).length = n at *
  generalize one = c at *
  generalize magnitudeLimit = top at *
  constructor
  · by_contra hsize
    have hscale : pow10 330 * (pow10 n * pow10 d.exponent.toNat) ≤ pow10 (-d.exponent).toNat := by
      rw [← pow10_add, ← pow10_add]
      exact pow10_le (by omega)
    have hgrid := pow10_pos d.exponent.toNat
    generalize pow10 d.exponent.toNat = g at *
    generalize pow10 (-d.exponent).toNat = s at *
    have hpoint : d.digits * g < pow10 n * g := Nat.mul_lt_mul_of_pos_right hbelow hgrid
    have hunits : 2 * c * (d.digits * g) ≤ pow10 330 * (d.digits * g) :=
      Nat.mul_le_mul_right _ (Nat.le_of_lt hsmall)
    have hscaled : pow10 330 * (d.digits * g) < pow10 330 * (pow10 n * g) :=
      Nat.mul_lt_mul_of_pos_left hpoint (pow10_pos 330)
    linarith
  · by_contra hsize
    have hscale : pow10 330 * pow10 (-d.exponent).toNat
        ≤ pow10 (n - 1) * pow10 d.exponent.toNat := by
      rw [← pow10_add, ← pow10_add]
      exact pow10_le (by omega)
    have hgrid := pow10_pos (-d.exponent).toNat
    generalize pow10 d.exponent.toNat = g at *
    generalize pow10 (-d.exponent).toNat = s at *
    have hpoint : pow10 (n - 1) * g ≤ d.digits * g := Nat.mul_le_mul_right g habove
    have hunits : c * (pow10 330 * s) ≤ c * (d.digits * g) :=
      Nat.mul_le_mul_left c (Nat.le_trans hscale hpoint)
    have hscaled : 2 * top * s < c * pow10 330 * s := Nat.mul_lt_mul_of_pos_right hlarge hgrid
    linarith

/-- A decimal that lies in the interval around a magnitude is read as it. -/
theorem ofDecimal_of_mem (hm : m.units ≠ 0) (h : d.Mem m.roundingInterval) (negative : Bool) :
    ofDecimal negative d.digits d.exponent = .finite negative m := by
  have hnearest : nearest negative (d.digits * (one * pow10 d.exponent.toNat))
      (pow10 (-d.exponent).toNat) = .finite negative m :=
    nearest_of_units (Magnitude.nearestUnits_of_mem hm (pow10_pos _) h)
  have hdigits := digits_ne_zero_of_mem hm h
  obtain ⟨hsmall, hlarge⟩ := size_of_mem hm h
  rw [ofDecimal, if_neg (by omega), if_neg (by omega)]
  by_cases hwhole : 0 ≤ d.exponent
  · rw [if_pos hwhole]
    have hone : 1 = pow10 (-d.exponent).toNat := by
      rw [Int.toNat_of_nonpos (by omega)]
      rfl
    have hvalue : d.digits * pow10 d.exponent.toNat * one
        = d.digits * (one * pow10 d.exponent.toNat) := by rw [Nat.mul_assoc, Nat.mul_comm one]
    exact (congrArg₂ (nearest negative) hvalue hone).trans hnearest
  · rw [if_neg hwhole]
    have hone : 1 = pow10 d.exponent.toNat := by
      rw [Int.toNat_of_nonpos (by omega)]
      rfl
    have hvalue : d.digits * one = d.digits * (one * pow10 d.exponent.toNat) :=
      congrArg (d.digits * ·) ((Nat.mul_one one).symm.trans (congrArg (one * ·) hone))
    exact (congrArg₂ (nearest negative) hvalue rfl).trans hnearest

end Decimal
end ClientRecords
