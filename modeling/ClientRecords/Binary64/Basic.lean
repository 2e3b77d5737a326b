import ClientRecords.Arithmetic
/-!
Binary floating point of 64 bits. A finite number is a sign and a whole count of the least
positive number, 2^-1074, so every comparison and every sum is exact arithmetic on naturals and
only `nearest` rounds. The counts that the format can hold are those with at most 53 significant
bits; `Magnitude` carries that fact, and `coarse_mul_pow2` shows that rounding produces nothing
else.
-/

namespace ClientRecords

/-- A count of 2^-1074 is held exactly when its bits below the leading 53 are clear. -/
def Coarse (n : Nat) : Prop := pow2 (n.log2 - 52) ∣ n

instance (n : Nat) : Decidable (Coarse n) := inferInstanceAs (Decidable (_ ∣ _))

/-- The exponent of one in units. -/
def unitPlaces : Nat := 1074

/-- The exponent in units that no finite number reaches. -/
def topPlace : Nat := 1024 + unitPlaces

/-- Every finite magnitude is below 2^1024, which is this count of units. -/
def magnitudeLimit : Nat := pow2 topPlace

/-- The magnitude of a finite number, counted in units of 2^-1074. -/
structure Magnitude where
  units : Nat
  bounded : units < magnitudeLimit
  coarse : Coarse units
  deriving DecidableEq

/-- A binary floating point number of 64 bits. -/
inductive Binary64 where
  | nan
  | infinite (negative : Bool)
  | finite (negative : Bool) (magnitude : Magnitude)
  deriving DecidableEq

/-- A product of at most 53 significant bits with a power of two is held exactly. -/
theorem coarse_mul_pow2 {q : Nat} (k : Nat) (h : q ≤ pow2 53) : Coarse (q * pow2 k) := by
  unfold Coarse
  rcases Nat.lt_or_eq_of_le h with hlt | rfl
  · by_cases hz : q = 0
    · simp [hz]
    · have hne : q * pow2 k ≠ 0 := Nat.mul_ne_zero hz (Nat.ne_of_gt (pow2_pos k))
      have hb : q * pow2 k < pow2 (53 + k) := by
        rw [pow2_add]; exact Nat.mul_lt_mul_of_pos_right hlt (pow2_pos k)
      have hl : (q * pow2 k).log2 < 53 + k := (log2_lt_iff hne).mpr hb
      exact Nat.dvd_trans (pow2_dvd (by omega)) (Nat.dvd_mul_left _ _)
  · rw [← pow2_add, log2_pow2]
    exact pow2_dvd (by omega)

theorem magnitudeLimit_pos : 0 < magnitudeLimit := pow2_pos _

theorem coarse_zero : Coarse 0 := Nat.dvd_zero _

namespace Magnitude

def zero : Magnitude := ⟨0, magnitudeLimit_pos, coarse_zero⟩

end Magnitude

namespace Binary64

/-- One, counted in units of 2^-1074. -/
def one : Nat := pow2 unitPlaces

/-- The quotient `num / den` rounded to the nearest whole number, ties to even. -/
def roundDiv (num den : Nat) : Nat :=
  let q := num / den
  let r := num % den
  if 2 * r < den ∨ (2 * r = den ∧ q % 2 = 0) then q else q + 1

theorem roundDiv_le (num den : Nat) : roundDiv num den ≤ num / den + 1 := by
  unfold roundDiv; simp only; split <;> omega

/-- The exponent of the grid on which numbers near `num / den` units lie. -/
def gridExponent (num den : Nat) : Nat := (num / den).log2 - 52

/-- Dividing by the grid step leaves at most 53 significant bits. -/
theorem div_grid_lt (num den : Nat) : num / (den * pow2 (gridExponent num den)) < pow2 53 := by
  rw [← Nat.div_div_eq_div_mul, gridExponent]
  generalize num / den = n
  rw [Nat.div_lt_iff_lt_mul (pow2_pos _), ← pow2_add]
  exact Nat.lt_of_lt_of_le Nat.lt_log2_self (pow2_le (by omega))

/-- The held count nearest to `num / den` units, ties to the even significand. -/
def nearestUnits (num den : Nat) : Nat :=
  roundDiv num (den * pow2 (gridExponent num den)) * pow2 (gridExponent num den)

theorem coarse_nearestUnits (num den : Nat) : Coarse (nearestUnits num den) :=
  coarse_mul_pow2 _ (Nat.le_trans (roundDiv_le _ _) (div_grid_lt num den))

/-- The number nearest to `num / den` units; what is beyond the largest number is infinite. -/
def nearest (negative : Bool) (num den : Nat) : Binary64 :=
  if h : nearestUnits num den < magnitudeLimit then
    .finite negative ⟨nearestUnits num den, h, coarse_nearestUnits num den⟩
  else .infinite negative

def zero : Binary64 := .finite false .zero

/-- The number nearest to an integer. -/
def ofInt (i : Int) : Binary64 := nearest (i < 0) (i.natAbs * one) 1

/-- The number nearest to `digits * 10 ^ exponent`. Outside the range of decimal magnitudes in
which a finite nonzero number can lie, the answer needs no arithmetic. -/
def ofDecimal (negative : Bool) (digits : Nat) (exponent : Int) : Binary64 :=
  let size := (Nat.toDigits 10 digits).length + exponent
  if digits = 0 ∨ size < -330 then nearest negative 0 1
  else if size > 330 then .infinite negative
  else if 0 ≤ exponent then nearest negative (digits * pow10 exponent.toNat * one) 1
  else nearest negative (digits * one) (pow10 (-exponent).toNat)

def isFinite : Binary64 → Bool
  | .finite .. => true
  | _ => false

def neg : Binary64 → Binary64
  | .nan => .nan
  | .infinite s => .infinite (!s)
  | .finite s m => .finite (!s) m

/-- A signed count of units. -/
def signed (negative : Bool) (units : Nat) : Int := if negative then -units else units

/-- Where a number stands among the integers: finite numbers by their signed units, the infinite
ones just beyond every finite one. -/
def rank : Binary64 → Option Int
  | .nan => none
  | .infinite s => some (signed s magnitudeLimit)
  | .finite s m => some (signed s m.units)

/-- The numeric order, which leaves `nan` out. -/
def compare? (a b : Binary64) : Option Ordering := do
  let x ← a.rank
  let y ← b.rank
  return compare x y

/-- Numeric equality: zero has one value, and `nan` equals nothing. -/
def equal (a b : Binary64) : Bool := a.compare? b == some .eq

def isZero : Binary64 → Bool
  | .finite _ m => m.units == 0
  | _ => false

/-- The sum, rounded to the nearest number. -/
def add : Binary64 → Binary64 → Binary64
  | .nan, _ | _, .nan => .nan
  | .infinite s, .infinite t => if s == t then .infinite s else .nan
  | .infinite s, .finite .. | .finite .., .infinite s => .infinite s
  | .finite s m, .finite t n =>
    let sum := signed s m.units + signed t n.units
    if sum = 0 then .finite (s && t) .zero
    else nearest (sum < 0) sum.natAbs 1

/-- The product of two magnitudes in units, rounded to the nearest number. -/
def mulUnits (m n : Nat) : Binary64 := nearest false (m * n) one

/-- The quotient of two magnitudes in units, rounded to the nearest number. -/
def divUnits (m n : Nat) : Binary64 := nearest false (m * one) n

/-- The integer that a number equals, if it equals one. -/
def toInt? : Binary64 → Option Int
  | .finite s m => if m.units % one = 0 then some (signed s (m.units / one)) else none
  | _ => none

end Binary64
end ClientRecords
