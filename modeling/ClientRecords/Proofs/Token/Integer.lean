import ClientRecords.Proofs.Token.Spelling
import ClientRecords.Token.Literal
/-!
Integers of 64 bits written as numbers: the digits of an integer denote it again, and its sign is
written before them where an operand may start.
-/

namespace ClientRecords

/-! ### Digits -/

theorem Text.digit?_of_isDigit {c : Char} (h : c.isDigit = true) :
    Text.digit? c = some (c.toNat - '0'.toNat) := by
  have hd : '0' ≤ c ∧ c ≤ '9' := by simpa [Char.isDigit, Char.le_def] using h
  rw [digit?, if_pos hd]

theorem Text.digitsValue_eq_ofDigitChars {ds : List Char} (h : ∀ c ∈ ds, c.isDigit = true) :
    digitsValue 10 ds = Nat.ofDigitChars 10 ds 0 := by
  have hfold : ∀ n, ds.foldl (fun n c => n * 10 + (digit? c).getD 0) n
      = Nat.ofDigitChars 10 ds n := by
    induction ds with
    | nil => exact fun _ => rfl
    | cons c ds ih =>
      intro n
      rw [List.foldl_cons, Nat.ofDigitChars_cons, digit?_of_isDigit (h c List.mem_cons_self),
        Nat.mul_comm]
      exact ih (fun d hd => h d (List.mem_cons_of_mem c hd)) _
  exact hfold 0

theorem Text.digitsValue_toDigits (n : Nat) : digitsValue 10 (Nat.toDigits 10 n) = n := by
  rw [digitsValue_eq_ofDigitChars fun c hc =>
    Nat.isDigit_of_mem_toDigits (by decide) (by decide) hc]
  exact Nat.ofDigitChars_toDigits (by decide) (by decide)

namespace Token

/-- An integer as it is written. -/
def ofInt64 (i : Int64) : Token := .number (toString i.toInt)

/-- The digits of an integer without its sign. -/
def magnitudeDigits (i : Int) : List Char := Nat.toDigits 10 i.natAbs

theorem isDigit_of_mem_magnitudeDigits (i : Int) : ∀ c ∈ magnitudeDigits i, c.isDigit = true :=
  fun _ hc => Nat.isDigit_of_mem_toDigits (by decide) (by decide) hc

/-- Digits, behind a sign where the integer is negative. -/
theorem toList_toString (i : Int) :
    (toString i).toList = if i < 0 then '-' :: magnitudeDigits i else magnitudeDigits i := by
  rw [Int.toString_eq_repr, Int.repr_eq_if, magnitudeDigits]
  by_cases h : 0 ≤ i
  · have hn : i.toNat = i.natAbs := by omega
    rw [if_pos h, if_neg (by omega), Nat.toList_repr, hn]
  · have hn : (-i).toNat = i.natAbs := by omega
    rw [if_neg h, if_pos (by omega), String.toList_append, Nat.toList_repr, hn]
    rfl

/-- What stands behind a sign, or starts with none, is an integer if it is digits of one that fits
64 bits. -/
theorem integer?_signed (negative : Bool) {ds : List Char} (h : ds.head? ≠ some '-') :
    integer? (if negative then '-' :: ds else ds) =
      if !ds.isEmpty && ds.all Char.isDigit
          && Int64.minValue.toInt ≤ Binary64.signed negative (Text.digitsValue 10 ds)
          && Binary64.signed negative (Text.digitsValue 10 ds) ≤ Int64.maxValue.toInt
      then some (Int64.ofInt (Binary64.signed negative (Text.digitsValue 10 ds))) else none := by
  cases negative with
  | true => rfl
  | false =>
    cases ds with
    | nil => rfl
    | cons c ds =>
      have hc : c ≠ '-' := fun hc => h (congrArg some hc)
      simp [integer?, hc]

/-- Digits behind a sign or without one spell out the integer that they denote. -/
theorem integer?_of_signed {negative : Bool} {ds : List Char} {i : Int64} (hne : ds ≠ [])
    (hd : ∀ c ∈ ds, c.isDigit = true)
    (hi : Binary64.signed negative (Text.digitsValue 10 ds) = i.toInt) :
    integer? (if negative then '-' :: ds else ds) = some i := by
  have hcond : (!ds.isEmpty && ds.all Char.isDigit && decide (Int64.minValue.toInt ≤ i.toInt)
      && decide (i.toInt ≤ Int64.maxValue.toInt)) = true := by
    rw [List.all_eq_true.mpr hd, decide_eq_true i.minValue_le_toInt, decide_eq_true i.toInt_le]
    simp [hne]
  have hhead : ds.head? ≠ some '-' := fun hhead =>
    absurd (hd '-' (List.mem_of_mem_head? hhead)) (by decide)
  rw [integer?_signed negative hhead, hi, if_pos hcond, Int64.ofInt_toInt]

theorem integer?_toString (i : Int64) : integer? (toString i.toInt).toList = some i := by
  have hvalue : Text.digitsValue 10 (magnitudeDigits i.toInt) = i.toInt.natAbs :=
    Text.digitsValue_toDigits _
  have hsigned : Binary64.signed (decide (i.toInt < 0))
      (Text.digitsValue 10 (magnitudeDigits i.toInt)) = i.toInt := by
    rw [hvalue, Binary64.signed]
    by_cases hi : i.toInt < 0
    · rw [if_pos (decide_eq_true hi)]
      omega
    · rw [if_neg (by simpa using hi)]
      omega
  have hread := integer?_of_signed Nat.toDigits_ne_nil (isDigit_of_mem_magnitudeDigits _) hsigned
  simp only [decide_eq_true_eq] at hread
  rw [toList_toString]
  exact hread

theorem literal?_ofInt64 (i : Int64) : (ofInt64 i).literal? = some (.int i) := by
  rw [ofInt64, literal?, numberLiteral?, integer?_toString]

theorem isWritable_ofInt64 (i : Int64) : IsWritable true (ofInt64 i) := by
  have hd := isDigit_of_mem_magnitudeDigits i.toInt
  by_cases hi : i.toInt < 0
  · refine .inr ⟨rfl, magnitudeDigits i.toInt, ?_, Nat.toDigits_ne_nil, hd⟩
    rw [ofInt64, ← String.ofList_toList (s := toString i.toInt), toList_toString, if_pos hi]
  · refine .inl ?_
    have hne : magnitudeDigits i.toInt ≠ [] := Nat.toDigits_ne_nil
    rw [ofInt64, isPlain, toList_toString, if_neg hi, List.all_eq_true.mpr hd, Bool.and_true]
    simpa using hne

/-! ### Without a sign -/

theorem isPlain_natural (n : Nat) : (Token.number (toString n)).isPlain = true := by
  have hdigits : (toString n).toList = Nat.toDigits 10 n := Nat.toList_repr
  rw [isPlain, hdigits, Bool.and_eq_true, List.all_eq_true]
  exact ⟨by simp, fun c hc => Nat.isDigit_of_mem_toDigits (by decide) (by decide) hc⟩

theorem literal?_natural {n : Nat} (h : n < pow2 63) :
    (Token.number (toString n)).literal? = some (.int (Int64.ofNat n)) := by
  have hliteral := literal?_ofInt64 (Int64.ofNat n)
  rwa [ofInt64, Int64.toInt_ofNat_of_lt h] at hliteral

end Token
end ClientRecords
