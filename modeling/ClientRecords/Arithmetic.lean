/-!
Powers of two and of ten, and totals.
-/

namespace ClientRecords

/-- Two to a power. -/
def pow2 (k : Nat) : Nat := Nat.pow 2 k

/-- Ten to a power. -/
def pow10 (k : Nat) : Nat := Nat.pow 10 k

/-- The total of a list of numbers. -/
def total : List Nat → Nat
  | [] => 0
  | n :: ns => n + total ns

theorem pow2_pos (k : Nat) : 0 < pow2 k := Nat.two_pow_pos k

theorem pow2_add (j k : Nat) : pow2 (j + k) = pow2 j * pow2 k := Nat.pow_add 2 j k

theorem pow2_le {j k : Nat} (h : j ≤ k) : pow2 j ≤ pow2 k := Nat.pow_le_pow_right (by decide) h

theorem pow2_lt {j k : Nat} (h : j < k) : pow2 j < pow2 k := Nat.pow_lt_pow_right (by decide) h

theorem pow2_dvd {j k : Nat} (h : j ≤ k) : pow2 j ∣ pow2 k := Nat.pow_dvd_pow 2 h

theorem log2_pow2 (k : Nat) : (pow2 k).log2 = k := Nat.log2_two_pow

theorem log2_lt_iff {n k : Nat} (h : n ≠ 0) : n.log2 < k ↔ n < pow2 k := Nat.log2_lt h

end ClientRecords
