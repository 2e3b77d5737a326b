import Mathlib.Tactic.Linarith
import Mathlib.Tactic.Ring
import ClientRecords.Binary64.Shortest
import ClientRecords.Proofs.Binary64.Finite
/-!
What rounds to a magnitude. Rounding keeps the order of counts, and every quotient in the interval
around a magnitude has it as its nearest count; at the ends of the interval ties go to it if its
significand is even (`nearestUnits_of_mem`).
-/

namespace ClientRecords

/-- Does the quotient `num / den`, in units, lie in an interval? -/
structure RoundingInterval.Mem (r : RoundingInterval) (num den : Nat) : Prop where
  low : r.low * den ≤ 4 * num
  high : 4 * num ≤ r.high * den
  inner : r.closed = false → r.low * den < 4 * num ∧ 4 * num < r.high * den

namespace Binary64

variable {num den q : Nat}

/-- A quotient is rounded to a whole number that is within a half of it, at a half if it is even. -/
theorem roundDiv_eq (hlow : 2 * q * den ≤ 2 * num + den) (hhigh : 2 * num ≤ (2 * q + 1) * den)
    (hden : 0 < den)
    (heven : 2 * q * den = 2 * num + den ∨ 2 * num = (2 * q + 1) * den → q % 2 = 0) :
    roundDiv num den = q := by
  have hnum := Nat.div_add_mod num den
  have hmod := Nat.mod_lt num hden
  rw [roundDiv]
  generalize num / den = p at *
  generalize num % den = r at *
  have hp : p = q ∨ p + 1 = q := by
    rcases Nat.lt_trichotomy p q with h | h | h
    · right
      by_contra hne
      have htwo : p + 2 ≤ q := by omega
      nlinarith
    · exact .inl h
    · exfalso
      nlinarith
  rcases hp with rfl | rfl
  · have hle : 2 * r ≤ den := by nlinarith
    rw [if_pos]
    by_cases htie : 2 * r = den
    · exact .inr ⟨htie, heven (.inr (by nlinarith))⟩
    · exact .inl (by omega)
  · have hge : den ≤ 2 * r := by nlinarith
    rw [if_neg]
    rintro (h | ⟨htie, hp⟩)
    · omega
    · have := heven (.inl (by nlinarith))
      omega

/-! ### Order -/

theorem roundDiv_mono {m n : Nat} (h : m ≤ n) (den : Nat) :
    roundDiv m den ≤ roundDiv n den := by
  have hm := Nat.div_add_mod m den
  have hn := Nat.div_add_mod n den
  have hle : m / den ≤ n / den := Nat.div_le_div_right h
  rcases Nat.lt_or_eq_of_le hle with hlt | heq
  · calc roundDiv m den ≤ m / den + 1 := roundDiv_le m den
      _ ≤ n / den := hlt
      _ ≤ roundDiv n den := by rw [roundDiv]; split <;> omega
  · have hmod : m % den ≤ n % den := by
      rw [heq] at hm
      omega
    rw [roundDiv, roundDiv, heq]
    split
    · split <;> omega
    · split <;> omega

/-- Rounding keeps the order of counts. Where the grid changes a power of two stands between
them. -/
theorem nearestUnits_mono {m n : Nat} (h : m ≤ n) : nearestUnits m 1 ≤ nearestUnits n 1 := by
  by_cases hm : m = 0
  · subst hm
    exact Nat.zero_le _
  have hn : n ≠ 0 := by omega
  have hlog : m.log2 ≤ n.log2 := (Nat.le_log2 hn).mpr (Nat.le_trans (Nat.log2_self_le hm) h)
  have hgrid : ∀ k, gridExponent k 1 = k.log2 - 52 := fun k => by rw [gridExponent, Nat.div_one]
  rcases Nat.lt_or_eq_of_le (Nat.sub_le_sub_right hlog 52) with hlt | heq
  · have hround : roundDiv m (1 * pow2 (gridExponent m 1)) ≤ pow2 53 :=
      Nat.le_trans (roundDiv_le _ _) (div_grid_lt m 1)
    have hreached : pow2 n.log2 ≤ n / 1 := by
      rw [Nat.div_one]
      exact Nat.log2_self_le hn
    calc nearestUnits m 1 ≤ pow2 53 * pow2 (gridExponent m 1) := Nat.mul_le_mul_right _ hround
      _ = pow2 (53 + (m.log2 - 52)) := by rw [hgrid, pow2_add]
      _ ≤ pow2 n.log2 := pow2_le (by omega)
      _ ≤ nearestUnits n 1 := le_nearestUnits hreached
  · rw [nearestUnits, nearestUnits, hgrid, hgrid, heq]
    exact Nat.mul_le_mul_right _ (roundDiv_mono h _)

end Binary64

namespace Magnitude

open Binary64

variable {num den : Nat}

theorem gapAbove_pos (m : Magnitude) : 0 < m.gapAbove := pow2_pos _

/-- A magnitude is a whole number of the steps on its grid. -/
theorem units_eq (m : Magnitude) : m.units / m.gapAbove * m.gapAbove = m.units :=
  Nat.div_mul_cancel m.coarse

theorem gapBelow_le (m : Magnitude) : m.gapBelow ≤ m.gapAbove := by
  have hpos := m.gapAbove_pos
  rw [gapBelow]
  split <;> omega

/-- The next step leads to the next power of two at most. -/
theorem units_add_gapAbove_le (m : Magnitude) :
    m.units + m.gapAbove ≤ pow2 (m.units.log2 + 1) := by
  have hlt : m.units < pow2 (m.units.log2 + 1) := Nat.lt_log2_self
  have hdvd : m.gapAbove ∣ pow2 (m.units.log2 + 1) := pow2_dvd (by omega)
  have hunits : m.gapAbove ∣ m.units := m.coarse
  have hstep : m.gapAbove ≤ pow2 (m.units.log2 + 1) - m.units :=
    Nat.le_of_dvd (by omega) (Nat.dvd_sub hdvd hunits)
  omega

/-- A magnitude that is no power of two is at least a step beyond the last one. -/
theorem pow2_add_gapAbove_le {m : Magnitude} (hm : m.units ≠ 0)
    (h : m.units ≠ pow2 m.units.log2) : pow2 m.units.log2 + m.gapAbove ≤ m.units := by
  have hle : pow2 m.units.log2 ≤ m.units := Nat.log2_self_le hm
  have hdvd : m.gapAbove ∣ pow2 m.units.log2 := pow2_dvd (by omega)
  have hunits : m.gapAbove ∣ m.units := m.coarse
  have hstep : m.gapAbove ≤ m.units - pow2 m.units.log2 :=
    Nat.le_of_dvd (by omega) (Nat.dvd_sub hunits hdvd)
  omega

theorem gapAbove_le (m : Magnitude) (hm : m.units ≠ 0) : m.gapAbove ≤ m.units :=
  Nat.le_of_dvd (Nat.pos_of_ne_zero hm) m.coarse

variable {m : Magnitude}

/-- On the grid of the magnitude itself its significand is the nearest. -/
theorem roundDiv_of_mem (hm : m.units ≠ 0) (hden : 0 < den) (h : m.roundingInterval.Mem num den) :
    roundDiv num (den * m.gapAbove) = m.units / m.gapAbove := by
  obtain ⟨hlow, hhigh, hinner⟩ := h
  have hunits := m.units_eq
  have hbelow := m.gapBelow_le
  have habove := m.gapAbove_le hm
  have hpos := m.gapAbove_pos
  simp only [roundingInterval, beq_eq_false_iff_ne] at hlow hhigh hinner
  generalize m.gapAbove = g at *
  generalize m.gapBelow = b at *
  generalize m.units = u at *
  generalize hk : u / g = k at *
  have hsub := Nat.sub_mul (4 * u) (2 * b) den
  have hsteps : k * (den * g) = u * den := by rw [← hunits]; ring
  have hnarrow : b * den ≤ g * den := Nat.mul_le_mul_right den hbelow
  have hlow' : 4 * u * den ≤ 4 * num + 2 * b * den := by omega
  refine roundDiv_eq (by linarith) (by linarith) (Nat.mul_pos hden hpos) fun htie => ?_
  by_contra hodd
  obtain ⟨hstrict, hstrict'⟩ := hinner hodd
  have hlow'' : 4 * u * den < 4 * num + 2 * b * den := by omega
  rcases htie with htie | htie <;> linarith

/-- The quotient lies below the next power of two. -/
theorem div_lt_of_mem (hden : 0 < den) (h : m.roundingInterval.Mem num den) :
    num / den < pow2 (m.units.log2 + 1) := by
  have hhigh : 4 * num ≤ (4 * m.units + 2 * m.gapAbove) * den := h.high
  have hnext := m.units_add_gapAbove_le
  have hpos := m.gapAbove_pos
  rw [Nat.div_lt_iff_lt_mul hden]
  generalize pow2 (m.units.log2 + 1) = top at *
  nlinarith

/-- The quotient has reached the last power of two, but just below a power of two. -/
theorem le_div_of_mem (hm : m.units ≠ 0) (hden : 0 < den) (h : m.roundingInterval.Mem num den)
    (hpower : m.units ≠ pow2 m.units.log2) : pow2 m.units.log2 ≤ num / den := by
  have hlow : (4 * m.units - 2 * m.gapBelow) * den ≤ 4 * num := h.low
  have hbelow := m.gapBelow_le
  have hlast := pow2_add_gapAbove_le hm hpower
  rw [Nat.le_div_iff_mul_le hden]
  generalize pow2 m.units.log2 = bottom at *
  have hroom : 4 * bottom ≤ 4 * m.units - 2 * m.gapBelow := by omega
  nlinarith

/-- Just below a power of two the grid is twice as fine, and the power is the nearest of its
points. -/
theorem nearestUnits_of_lt (hden : 0 < den) (h : m.roundingInterval.Mem num den)
    (hpower : m.units = pow2 m.units.log2) (hlarge : 53 ≤ m.units.log2)
    (hlt : num / den < m.units) : nearestUnits num den = m.units := by
  obtain ⟨k, hk⟩ := Nat.exists_eq_add_of_le hlarge
  have hgap : m.gapAbove = 2 * pow2 k := by
    rw [gapAbove, hk, show 53 + k - 52 = 1 + k by omega, pow2_add]
    rfl
  have hbelow : m.gapBelow = pow2 k := by
    have hpos := pow2_pos k
    rw [gapBelow, if_pos hpower, hgap]
    omega
  have hunits : m.units = pow2 53 * pow2 k := by rw [← pow2_add, ← hk]; exact hpower
  have hlow : (4 * m.units - 2 * m.gapBelow) * den ≤ 4 * num := h.low
  have h53 : pow2 53 = 9007199254740992 := by decide
  have h52 : pow2 52 = 4503599627370496 := by decide
  have hpos := pow2_pos k
  rw [Nat.div_lt_iff_lt_mul hden] at hlt
  rw [hunits, hbelow, h53] at hlow
  rw [hunits, h53] at hlt
  have hlow' : 36028797018963966 * (pow2 k * den) ≤ 4 * num := by
    rwa [show 4 * (9007199254740992 * pow2 k) - 2 * pow2 k = 36028797018963966 * pow2 k by omega,
      Nat.mul_assoc] at hlow
  have hlt' : num < 9007199254740992 * (pow2 k * den) := by rwa [Nat.mul_assoc] at hlt
  have hhalf : pow2 (52 + k) ≤ num / den := by
    rw [Nat.le_div_iff_mul_le hden, pow2_add, h52, Nat.mul_assoc]
    omega
  have hbelow' : num / den < pow2 (53 + k) := by
    rw [Nat.div_lt_iff_lt_mul hden, pow2_add, h53, Nat.mul_assoc]
    exact hlt'
  have hne : num / den ≠ 0 := Nat.ne_of_gt (Nat.lt_of_lt_of_le (pow2_pos _) hhalf)
  have hgrid : gridExponent num den = k := by
    have hle : 52 + k ≤ (num / den).log2 := (Nat.le_log2 hne).mpr hhalf
    have hlog : (num / den).log2 < 53 + k := (log2_lt_iff hne).mpr hbelow'
    rw [gridExponent]
    omega
  have hround : roundDiv num (den * pow2 k) = pow2 53 := by
    rw [h53, Nat.mul_comm den]
    exact roundDiv_eq (by omega) (by omega) (Nat.mul_pos hpos hden) fun _ => by decide
  rw [nearestUnits, hgrid, hround, hunits]

/-- Every quotient in the interval has the magnitude as its nearest count. Only below a power of two
may it lie on a finer grid. -/
theorem nearestUnits_of_mem (hm : m.units ≠ 0) (hden : 0 < den)
    (h : m.roundingInterval.Mem num den) : nearestUnits num den = m.units := by
  have hsame : (num / den).log2 - 52 = m.units.log2 - 52 → nearestUnits num den = m.units := by
    intro hgrid
    rw [nearestUnits, gridExponent, hgrid]
    exact (congrArg (· * _) (roundDiv_of_mem hm hden h)).trans m.units_eq
  have hlog : (num / den).log2 ≤ m.units.log2 := by
    by_cases hzero : num / den = 0
    · rw [hzero]
      exact Nat.zero_le _
    · exact Nat.lt_succ_iff.mp ((log2_lt_iff hzero).mpr (div_lt_of_mem hden h))
  have hreached : pow2 m.units.log2 ≤ num / den → m.units.log2 ≤ (num / den).log2 := fun hle =>
    (Nat.le_log2 (Nat.ne_of_gt (Nat.lt_of_lt_of_le (pow2_pos _) hle))).mpr hle
  by_cases hpower : m.units = pow2 m.units.log2
  · by_cases hle : pow2 m.units.log2 ≤ num / den
    · exact hsame (congrArg (· - 52) (Nat.le_antisymm hlog (hreached hle)))
    · by_cases hlarge : 53 ≤ m.units.log2
      · exact nearestUnits_of_lt hden h hpower hlarge (hpower ▸ Nat.lt_of_not_le hle)
      · exact hsame (by omega)
  · exact hsame (congrArg (· - 52) (Nat.le_antisymm hlog
      (hreached (le_div_of_mem hm hden h hpower))))

end Magnitude
end ClientRecords
