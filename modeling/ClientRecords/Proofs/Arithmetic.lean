import ClientRecords.Arithmetic
/-!
Powers of ten, and how they compare to powers of two. The total of a list is a fold.
-/

namespace ClientRecords

theorem total_eq_foldr : ∀ ns : List Nat, total ns = ns.foldr (· + ·) 0
  | [] => rfl
  | n :: ns => congrArg (n + ·) (total_eq_foldr ns)

theorem pow10_pos (k : Nat) : 0 < pow10 k := Nat.pow_pos (by decide)

theorem pow10_add (j k : Nat) : pow10 (j + k) = pow10 j * pow10 k := Nat.pow_add 10 j k

theorem pow10_le {j k : Nat} (h : j ≤ k) : pow10 j ≤ pow10 k := Nat.pow_le_pow_right (by decide) h

/-- Ten to the third is below two to the tenth. -/
theorem pow10_le_pow2 (k : Nat) : pow10 k ≤ pow2 ((10 * k + 2) / 3) := by
  have hcube : pow10 k ^ 3 ≤ pow2 ((10 * k + 2) / 3) ^ 3 := by
    calc pow10 k ^ 3 = (10 ^ 3) ^ k := Nat.pow_right_comm 10 k 3
      _ ≤ (2 ^ 10) ^ k := Nat.pow_le_pow_left (by decide) k
      _ = 2 ^ (10 * k) := (Nat.pow_mul 2 10 k).symm
      _ ≤ 2 ^ ((10 * k + 2) / 3 * 3) := Nat.pow_le_pow_right (by decide) (by omega)
      _ = pow2 ((10 * k + 2) / 3) ^ 3 := Nat.pow_mul 2 _ 3
  exact (Nat.pow_le_pow_iff_left (by decide)).mp hcube

/-- Two to the thirty-third is below ten to the tenth. -/
theorem pow2_le_pow10 (k : Nat) : pow2 (33 * k / 10) ≤ pow10 k := by
  have htenth : pow2 (33 * k / 10) ^ 10 ≤ pow10 k ^ 10 := by
    calc pow2 (33 * k / 10) ^ 10 = 2 ^ (33 * k / 10 * 10) := (Nat.pow_mul 2 _ 10).symm
      _ ≤ 2 ^ (33 * k) := Nat.pow_le_pow_right (by decide) (by omega)
      _ = (2 ^ 33) ^ k := Nat.pow_mul 2 33 k
      _ ≤ (10 ^ 10) ^ k := Nat.pow_le_pow_left (by decide) k
      _ = pow10 k ^ 10 := Nat.pow_right_comm 10 10 k
  exact (Nat.pow_le_pow_iff_left (by decide)).mp htenth

end ClientRecords
