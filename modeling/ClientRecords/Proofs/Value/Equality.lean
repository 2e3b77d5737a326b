import ClientRecords.Proofs.Binary64.Exact
import ClientRecords.Proofs.Query.Ordering
/-!
Equality of values of one kind. Numbers are compared by the floating point numbers nearest to them,
so beside a truthy value that is no number without a value equality is exact, but for two different
numbers with the same nearest one (`strictEq_iff`). There are none among those that the format holds
as they are.
-/

namespace ClientRecords

namespace Binary64

/-- The signed count that the format holds nearest to a signed count of units. -/
def rounded (n : Int) : Int := signed (n < 0) (nearestUnits n.natAbs 1)

theorem rounded_of_coarse {n : Int} (h : Coarse n.natAbs) : rounded n = n := by
  rw [rounded, nearestUnits_of_coarse h, signed]
  simp only [decide_eq_true_eq]
  split <;> omega

theorem rounded_ne_zero {n : Int} (h : n ≠ 0) : rounded n ≠ 0 := by
  have hpos : 1 ≤ nearestUnits n.natAbs 1 :=
    @le_nearestUnits n.natAbs 1 0 (by rw [Nat.div_one]; exact Int.natAbs_pos.mpr h)
  rw [rounded, signed]
  split <;> omega

theorem oneUnits_pos : (0 : Int) < one := Int.natCast_pos.mpr (pow2_pos _)

theorem mul_one_neg_iff (i : Int) : i * one < 0 ↔ i < 0 := by
  constructor
  · intro h
    exact Int.not_le.mp fun hi =>
      absurd (Int.mul_nonneg hi (Int.le_of_lt oneUnits_pos)) (Int.not_le.mpr h)
  · exact fun h => Int.mul_neg_of_neg_of_pos h oneUnits_pos

theorem mul_one_ne_zero_iff (i : Int) : i * one ≠ 0 ↔ i ≠ 0 :=
  Int.mul_ne_zero_iff.trans (and_iff_left (Int.ne_of_gt oneUnits_pos))

theorem natAbs_mul_one (i : Int) : (i * one).natAbs = i.natAbs * one := by
  rw [Int.natAbs_mul, Int.natAbs_natCast]

/-- An integer that is near a finite number is taken to the count nearest to its own. -/
theorem rank_ofInt_of_isFinite {i : Int} (h : (ofInt i).isFinite = true) :
    (ofInt i).rank = some (rounded (i * one)) := by
  rw [rounded, natAbs_mul_one, decide_eq_decide.mpr (mul_one_neg_iff i)]
  rw [ofInt, nearest] at h ⊢
  by_cases hlimit : nearestUnits (i.natAbs * one) 1 < magnitudeLimit
  · rw [dif_pos hlimit]
    rfl
  · rw [dif_neg hlimit] at h
    cases h

theorem natAbs_signed (s : Bool) (units : Nat) : (signed s units).natAbs = units := by
  cases s with
  | false => rfl
  | true => exact Int.natAbs_neg units

end Binary64

namespace Value

open Binary64

variable {a b c : Value} {m n : Int}

/-- The number that a value denotes, counted in units of 2^-1074. -/
def units? : Value → Option Int
  | .int i => some (i.toInt * one)
  | .float (.finite s m) => some (signed s m.units)
  | _ => none

/-- The same string, the same truth value, or two values that denote the same number. -/
inductive Same : Value → Value → Prop
  | string (s : String) : Same (.string s) (.string s)
  | bool (b : Bool) : Same (.bool b) (.bool b)
  | number {a b : Value} {n : Int} (ha : a.units? = some n) (hb : b.units? = some n) : Same a b

/-- Two values that denote different numbers with the same nearest floating point number. -/
def Blurred (a b : Value) : Prop :=
  ∃ m n, a.units? = some m ∧ b.units? = some n ∧ m ≠ n ∧ rounded m = rounded n

/-- Every number that a value denotes is held as it is. -/
def IsHeld (v : Value) : Prop := ∀ n, v.units? = some n → Coarse n.natAbs

/-! ### Numbers -/

theorem isHeld_float (x : Binary64) : IsHeld (.float x) := by
  intro n h
  cases x with
  | finite s m =>
    obtain rfl := Option.some.inj h
    rw [natAbs_signed]
    exact m.coarse
  | _ => cases h

theorem isHeld_int {i : Int64} (h : i.toInt.natAbs ≤ pow2 53) : IsHeld (.int i) := by
  intro n hn
  obtain rfl := Option.some.inj hn
  rw [natAbs_mul_one]
  exact coarse_mul_pow2 unitPlaces h

theorem isNumber_of_units (h : a.units? = some n) : a.isNumber = true := by
  cases a with
  | int | float => rfl
  | _ => cases h

/-- The numeric reading of a number is the floating point number nearest to it. -/
theorem rank_of_units (h : a.units? = some n) : a.rank = rounded n := by
  cases a with
  | int i =>
    obtain rfl := Option.some.inj h
    have hfinite := isFinite_ofInt64 i
    have hnumeric : (Value.int i).numeric = ofInt i.toInt := by rw [numeric, if_pos hfinite]
    rw [Value.rank, hnumeric, rank_ofInt_of_isFinite hfinite, Option.getD_some]
  | float x =>
    cases x with
    | finite s m =>
      have hrank : (Value.float (.finite s m)).rank = n := Option.some.inj h
      rw [rounded_of_coarse (isHeld_float _ n h), hrank]
    | _ => cases h
  | _ => cases h

theorem isTruthy_iff_of_units (h : a.units? = some n) : a.isTruthy = true ↔ n ≠ 0 := by
  cases a with
  | int i =>
    obtain rfl := Option.some.inj h
    rw [mul_one_ne_zero_iff]
    simp [isTruthy, ← Int64.toInt_inj]
  | float x =>
    cases x with
    | finite s m =>
      obtain rfl := Option.some.inj h
      have hzero : signed s m.units ≠ 0 ↔ m.units ≠ 0 := by rw [← Int.natAbs_ne_zero, natAbs_signed]
      rw [hzero]
      simp [isTruthy, isZero]
    | _ => cases h
  | _ => cases h

/-- What denotes no number is a number with the numeric reading zero, or none at all. -/
theorem rank_eq_zero_of_units (hn : a.isNumber = true) (h : a.units? = none) : a.rank = 0 := by
  cases a with
  | int => cases h
  | float x =>
    cases x with
    | finite => cases h
    | nan | infinite => rfl
  | _ => cases hn

/-! ### The same value -/

theorem same_bool_iff {x : Bool} : a.Same (.bool x) ↔ a = .bool x := by
  refine ⟨fun h => ?_, fun h => h ▸ .bool x⟩
  cases h with
  | bool => rfl
  | number _ hb => cases hb

theorem same_string_iff {s : String} : a.Same (.string s) ↔ a = .string s := by
  refine ⟨fun h => ?_, fun h => h ▸ .string s⟩
  cases h with
  | string => rfl
  | number _ hb => cases hb

theorem same_int_iff {i j : Int64} : (Value.int i).Same (.int j) ↔ i = j := by
  refine ⟨fun h => ?_, fun h => h ▸ .number rfl rfl⟩
  cases h with
  | number ha hb =>
    have hunits : i.toInt * one = j.toInt * one := Option.some.inj (ha.trans hb.symm)
    exact Int64.toInt_inj.mp (Int.eq_of_mul_eq_mul_right (Int.ne_of_gt oneUnits_pos) hunits)

theorem same_iff_of_units (hb : b.units? = some n) : a.Same b ↔ a.units? = some n := by
  refine ⟨fun h => ?_, fun h => .number h hb⟩
  cases h with
  | string | bool => cases hb
  | number ha hm => exact ha.trans (hm.symm.trans hb)

/-- Beside a number both relations say that the nearest floating point numbers are the same. -/
theorem same_or_blurred_iff (hb : b.units? = some n) :
    a.Same b ∨ a.Blurred b ↔ ∃ m, a.units? = some m ∧ rounded m = rounded n := by
  rw [same_iff_of_units hb]
  constructor
  · rintro (ha | ⟨m, k, hm, hk, -, hround⟩)
    · exact ⟨n, ha, rfl⟩
    · obtain rfl := Option.some.inj (hb.symm.trans hk)
      exact ⟨m, hm, hround⟩
  · rintro ⟨m, hm, hround⟩
    by_cases hmn : m = n
    · exact .inl (hmn ▸ hm)
    · exact .inr ⟨m, n, hm, hb, hmn, hround⟩

theorem not_blurred_of_units (hb : b.units? = none) : ¬a.Blurred b := by
  rintro ⟨_, _, -, hn, -⟩
  rw [hb] at hn
  cases hn

/-- Numbers that are held as they are, so all integers up to 2^53, are never blurred. -/
theorem not_blurred_of_isHeld (ha : a.IsHeld) (hb : b.IsHeld) : ¬a.Blurred b := by
  rintro ⟨m, n, hm, hn, hne, hround⟩
  rw [rounded_of_coarse (ha m hm), rounded_of_coarse (hb n hn)] at hround
  exact hne hround

/-! ### Equality -/

theorem strictEq_bool_iff {x : Bool} : a.strictEq (.bool x) = true ↔ a = .bool x := by
  cases a <;> simp [strictEq, isNumber]

theorem strictEq_string_iff {s : String} : a.strictEq (.string s) = true ↔ a = .string s := by
  cases a <;> simp [strictEq, isNumber]

theorem strictEq_of_isNumber_right (ha : a.isNumber = false) (hb : b.isNumber = true) :
    a.strictEq b = false := by
  cases b with
  | int | float => cases a <;> simp_all [strictEq, isNumber]
  | _ => cases hb

theorem strictEq_iff_of_isNumber (ha : a.isNumber = true) (hb : b.isNumber = true) :
    a.strictEq b = true ↔ a.rank = b.rank := by
  have hequal : a.strictEq b = a.numeric.equal b.numeric := by
    cases a with
    | int | float =>
      cases b with
      | int | float => simp only [strictEq, isNumber, Bool.true_and]
      | _ => cases hb
    | _ => cases ha
  rw [hequal, equal, Binary64.compare?, a.rank_numeric, b.rank_numeric]
  simp

/-- What is equal to a number other than zero denotes a number itself. -/
theorem strictEq_iff_of_units (hb : b.units? = some n) (hn : n ≠ 0) :
    a.strictEq b = true ↔ ∃ m, a.units? = some m ∧ rounded m = rounded n := by
  have hbn : b.isNumber = true := isNumber_of_units hb
  cases ha : a.units? with
  | some m =>
    rw [strictEq_iff_of_isNumber (isNumber_of_units ha) hbn, rank_of_units ha, rank_of_units hb]
    simp
  | none =>
    -- only a number can be equal to one, and without a value its reading is zero
    refine iff_of_false (fun h => ?_) (by simp)
    cases han : a.isNumber with
    | true =>
      rw [strictEq_iff_of_isNumber han hbn, rank_eq_zero_of_units han ha, rank_of_units hb] at h
      exact rounded_ne_zero hn h.symm
    | false =>
      rw [strictEq_of_isNumber_right han hbn] at h
      cases h

/-- Equality to a truthy value that is no number without a value: the same values are equal to it,
and the numbers with the same nearest floating point number. -/
theorem strictEq_iff (hb : b.isTruthy = true) (hfinite : ∀ x, b = .float x → x.isFinite = true) :
    a.strictEq b = true ↔ a.Same b ∨ a.Blurred b := by
  have hnumber : ∀ {n}, b.units? = some n → (a.strictEq b = true ↔ a.Same b ∨ a.Blurred b) :=
    fun hn => (strictEq_iff_of_units hn ((isTruthy_iff_of_units hn).mp hb)).trans
      (same_or_blurred_iff hn).symm
  cases b with
  | null => cases hb
  | bool => rw [strictEq_bool_iff, same_bool_iff, or_iff_left (not_blurred_of_units rfl)]
  | string => rw [strictEq_string_iff, same_string_iff, or_iff_left (not_blurred_of_units rfl)]
  | int => exact hnumber rfl
  | float x =>
    cases x with
    | finite => exact hnumber rfl
    | nan | infinite => cases hfinite _ rfl

theorem strictEq_of_same (h : a.Same b) : a.strictEq b = true := by
  cases h with
  | string s => exact strictEq_string_iff.mpr rfl
  | bool x => exact strictEq_bool_iff.mpr rfl
  | number ha hb =>
    rw [strictEq_iff_of_isNumber (isNumber_of_units ha) (isNumber_of_units hb), rank_of_units ha,
      rank_of_units hb]

theorem strictEq_congr (h : b.Same c) : a.strictEq b = a.strictEq c := by
  cases h with
  | string | bool => rfl
  | number hb hc =>
    have hbn : b.isNumber = true := isNumber_of_units hb
    have hcn : c.isNumber = true := isNumber_of_units hc
    cases ha : a.isNumber with
    | true =>
      rw [Bool.eq_iff_iff, strictEq_iff_of_isNumber ha hbn, strictEq_iff_of_isNumber ha hcn,
        rank_of_units hb, rank_of_units hc]
    | false => rw [strictEq_of_isNumber_right ha hbn, strictEq_of_isNumber_right ha hcn]

theorem isTruthy_congr (h : a.Same b) : a.isTruthy = b.isTruthy := by
  cases h with
  | string | bool => rfl
  | number ha hb => rw [Bool.eq_iff_iff, isTruthy_iff_of_units ha, isTruthy_iff_of_units hb]

end Value
end ClientRecords
