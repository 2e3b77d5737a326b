import ClientRecords.Proofs.Binary64.Nearest
import ClientRecords.Proofs.Condition.Numbers
import ClientRecords.Proofs.Token.Rendered
/-!
The integers that numbers in a text become. Every number that a scan finds spells out a decimal. If
it has no fraction and fits 64 bits it becomes that very integer; any other one is read as a nearest
floating point number, and becomes the integer that this is, if it is one, or zero where it lies
beyond all of them (`literal?_of_scanned`). So a decimal that is itself a floating point number
never becomes another integer, except for 2^63, which no integer of 64 bits is.
-/

namespace ClientRecords

open Binary64

variable {b negative : Bool} {cs rest : List Char} {ts : List Token} {n : String} {d : Decimal}
  {i : Int64}

/-! ### Scanned numbers -/

/-- A text that spells out a decimal, with a minus sign in front of it or without one. -/
def Decimal.IsWritten (d : Decimal) (negative : Bool) (n : String) : Prop :=
  ∃ whole fraction, d.Spells whole fraction ∧ n = withSign negative (pointed whole fraction)

theorem Decimal.exists_spells {ds : List Char} (h : Token.IsDecimal ds) :
    ∃ (d : Decimal) (whole fraction : List Char),
      d.Spells whole fraction ∧ ds = pointed whole fraction := by
  cases h with
  | whole hne hd =>
    refine ⟨⟨Text.digitsValue 10 ds, 0⟩, ds, [], ⟨?_, hne, ?_, rfl⟩, rfl⟩
    · rwa [List.append_nil]
    · rw [List.append_nil]
  | @fraction ds es hne hd hne' he =>
    refine ⟨⟨Text.digitsValue 10 (ds ++ es), -(es.length : Int)⟩, ds, es,
      ⟨List.forall_mem_append.mpr ⟨hd, he⟩, hne, rfl, rfl⟩, ?_⟩
    obtain ⟨e, es, rfl⟩ := List.exists_cons_of_ne_nil hne'
    rfl

namespace Token

theorem isDecimal_of_takePlain (h : takePlain cs = some (.number n, rest)) :
    ∃ ds, IsDecimal ds ∧ n = String.ofList ds := by
  revert h
  fun_cases takePlain cs with
  | case3 c cs _ hd whole rest hwhole =>
    rintro ⟨⟩
    have hdecimal := @isDecimal_takeNumber (c :: cs) hd
    rw [hwhole] at hdecimal
    exact ⟨whole, hdecimal, rfl⟩
  | case1 | case2 | case4 | case5 =>
    intro h
    cases h

theorem isDecimal_of_take (h : take? b cs = some (.number n, rest)) :
    ∃ ds, IsDecimal ds ∧ (n = String.ofList ds ∨ n = String.ofList ('-' :: ds)) := by
  unfold take? at h
  split at h
  case h_1 | h_2 | h_3 =>
    obtain ⟨_, _, he⟩ := Option.map_eq_some_iff.mp h
    cases he
  case h_18 cs =>
    by_cases hstart : (b && startsDigit cs) = true
    · rw [if_pos hstart] at h
      cases h
      exact ⟨_, isDecimal_takeNumber (Bool.and_eq_true_iff.mp hstart).2, .inr rfl⟩
    · rw [if_neg hstart] at h
      cases h
  case h_19 =>
    obtain ⟨ds, hds, hn⟩ := isDecimal_of_takePlain h
    exact ⟨ds, hds, .inl hn⟩
  all_goals cases h

/-- Every number that a scan finds is written as a decimal. -/
theorem exists_isWritten_of_scanFrom (h : scanFrom b cs = some ts) (hn : Token.number n ∈ ts) :
    ∃ negative d, Decimal.IsWritten d negative n := by
  fun_induction scanFrom b cs generalizing ts with
  | case1 =>
    cases h
    cases hn
  | case2 => cases h
  | case3 b cs c rest hs t after ht ih =>
    obtain ⟨us, hus, rfl⟩ := Option.map_eq_some_iff.mp h
    rcases List.mem_cons.mp hn with rfl | hn
    · obtain ⟨ds, hds, hn⟩ := isDecimal_of_take ht
      obtain ⟨d, whole, fraction, hspells, rfl⟩ := Decimal.exists_spells hds
      rcases hn with rfl | rfl
      · exact ⟨false, d, whole, fraction, hspells, rfl⟩
      · exact ⟨true, d, whole, fraction, hspells, rfl⟩
    · exact ih hus hn

end Token

/-! ### Reading them -/

/-- Does a decimal have no fraction and fit 64 bits? -/
structure Decimal.FitsInt64 (d : Decimal) (negative : Bool) : Prop where
  whole : d.exponent = 0
  low : Int64.minValue.toInt ≤ signed negative d.digits
  high : signed negative d.digits ≤ Int64.maxValue.toInt

namespace Token

theorem integer?_of_fits (h : d.IsWritten negative n) (hfit : d.FitsInt64 negative) :
    ∃ i, integer? n.toList = some i ∧ i.toInt = signed negative d.digits := by
  obtain ⟨whole, fraction, hspells, rfl⟩ := h
  obtain rfl : fraction = [] := by
    have hplaces := hspells.places
    rw [hfit.whole] at hplaces
    exact List.length_eq_zero_iff.mp (by omega)
  have hdigits := hspells.isDigit
  have hvalue := hspells.digits
  rw [List.append_nil] at hdigits hvalue
  have hi : (Int64.ofInt (signed negative d.digits)).toInt = signed negative d.digits :=
    Int64.toInt_ofInt_of_le hfit.low (Int.lt_of_le_of_lt hfit.high (by decide))
  refine ⟨Int64.ofInt (signed negative d.digits), ?_, hi⟩
  rw [withSign, String.toList_ofList]
  exact integer?_of_signed hspells.started hdigits (hvalue ▸ hi.symm)

theorem fits_of_integer? (h : d.IsWritten negative n) (hi : integer? n.toList = some i) :
    d.FitsInt64 negative := by
  obtain ⟨whole, fraction, hspells, rfl⟩ := h
  have hhead : (pointed whole fraction).head? ≠ some '-' := by
    obtain ⟨c, cs, hcs, hc⟩ := exists_head_pointed hspells
    rw [hcs, List.head?_cons]
    rintro ⟨⟩
    exact absurd hc (by decide)
  rw [withSign, String.toList_ofList, integer?_signed negative hhead] at hi
  simp only [Option.ite_none_right_eq_some, Bool.and_eq_true, decide_eq_true_eq] at hi
  obtain ⟨⟨⟨⟨-, hdigits⟩, hlow⟩, hhigh⟩, -⟩ := hi
  -- a point is no digit
  obtain rfl : fraction = [] := by
    cases fraction with
    | nil => rfl
    | cons c cs =>
      have hpoint := List.all_eq_true.mp hdigits '.' (by simp [pointed])
      exact absurd hpoint (by decide)
  have hvalue : Text.digitsValue 10 whole = d.digits := by
    simpa only [List.append_nil] using hspells.digits
  rw [pointed, hvalue] at hlow hhigh
  exact ⟨hspells.places, hlow, hhigh⟩

end Token

namespace Value

/-- An integer of magnitude up to 2^63 is clamped only if it is 2^63. -/
theorem toInt_clampInt {k : Int} (h : k.natAbs ≤ pow2 63) (hne : k ≠ pow2 63) :
    (clampInt k).toInt = k := by
  have hmin : Int64.minValue.toInt = -(pow2 63 : Int) := by decide
  have hmax : Int64.maxValue.toInt = (pow2 63 : Int) - 1 := by decide
  have hpow : (pow2 63 : Int) = 2 ^ 63 := rfl
  rw [clampInt, if_neg (by omega), if_neg (by omega)]
  exact Int64.toInt_ofInt_of_le (by omega) (by omega)

/-- A finite number that becomes an integer is that integer, unless it is 2^63. -/
theorem number_eq_int {m : Magnitude} (h : number (.finite negative m) = .int i)
    (hne : signed negative m.units ≠ pow2 63 * one) :
    signed negative m.units = i.toInt * one := by
  have hfinite : (Binary64.finite negative m).isFinite = true := rfl
  simp only [number, hfinite, toInt?, Bool.not_true, Bool.false_eq_true, if_false] at h
  by_cases hwhole : m.units % one = 0
  · have hunits : signed negative m.units = signed negative (m.units / one) * one := by
      rw [← signed_mul_one, Nat.div_mul_cancel (Nat.dvd_of_mod_eq_zero hwhole)]
    rw [if_pos hwhole] at h
    simp only at h
    by_cases hle : (signed negative (m.units / one)).natAbs ≤ pow2 63
    · rw [if_pos hle] at h
      have hother : signed negative (m.units / one) ≠ pow2 63 := fun heq =>
        hne (hunits.trans (congrArg (· * (one : Int)) heq))
      rw [hunits, ← Value.int.inj h, toInt_clampInt hle hother]
    · rw [if_neg hle] at h
      cases h
  · rw [if_neg hwhole] at h
    cases h

end Value

/-! ### The integers that numbers become -/

/-- The integer that a written decimal becomes: itself if it has no fraction and fits, else the
value of a nearest number, 2^63 aside, or zero beyond all numbers. -/
inductive Decimal.Becomes (d : Decimal) (negative : Bool) (i : Int64) : Prop
  | itself (hfit : d.FitsInt64 negative) (hi : i.toInt = signed negative d.digits)
  | nearest {m : Magnitude} (hfit : ¬d.FitsInt64 negative)
      (hm : IsNearest (signed negative m.units) (signed negative (d.digits * one))
        (pow10 (-d.exponent).toNat))
      (hi : signed negative m.units ≠ pow2 63 * one → signed negative m.units = i.toInt * one)
  | beyond (hfit : ¬d.FitsInt64 negative)
      (hd : IsBeyond (d.digits * one) (pow10 (-d.exponent).toNat)) (hi : i = 0)

namespace Token

theorem literal?_of_not_fits (h : d.IsWritten negative n) (hfit : ¬d.FitsInt64 negative) :
    (Token.number n).literal? =
      some (Value.number (ofDecimal negative d.digits (-((-d.exponent).toNat : Int)))) := by
  have hnone : integer? n.toList = none :=
    Option.eq_none_iff_forall_ne_some.mpr fun i hi => hfit (fits_of_integer? h hi)
  obtain ⟨whole, fraction, hspells, rfl⟩ := h
  have hplaces : -((-d.exponent).toNat : Int) = d.exponent := by
    rw [hspells.places]
    omega
  rw [literal?, numberLiteral?, hnone, ofText?, ofChars?_of_spells hspells negative, hplaces]
  rfl

theorem eq_of_fits (h : d.IsWritten negative n) (hfit : d.FitsInt64 negative)
    (hi : (Token.number n).literal? = some (.int i)) : i.toInt = signed negative d.digits := by
  obtain ⟨j, hj, hvalue⟩ := integer?_of_fits h hfit
  rw [literal?, numberLiteral?, hj] at hi
  rw [← Value.int.inj (Option.some.inj hi), hvalue]

theorem becomes_of_isWritten (h : d.IsWritten negative n)
    (hi : (Token.number n).literal? = some (.int i)) : d.Becomes negative i := by
  by_cases hfit : d.FitsInt64 negative
  · exact .itself hfit (eq_of_fits h hfit hi)
  · rw [literal?_of_not_fits h hfit] at hi
    have hnumber := Option.some.inj hi
    rcases ofDecimal_cases negative d.digits (-d.exponent).toNat with
      ⟨m, hm, hnear⟩ | ⟨hinfinite, hbeyond⟩
    · rw [hm] at hnumber
      exact .nearest hfit hnear fun hne => Value.number_eq_int hnumber hne
    · rw [hinfinite] at hnumber
      exact .beyond hfit hbeyond (Value.int.inj hnumber).symm

/-- A decimal that is itself a floating point number becomes no other integer. -/
theorem eq_of_units (h : d.IsWritten negative n) {m : Magnitude}
    (hm : m.units * pow10 (-d.exponent).toNat = d.digits * one)
    (hne : signed negative m.units ≠ pow2 63 * one)
    (hi : (Token.number n).literal? = some (.int i)) :
    i.toInt * pow10 (-d.exponent).toNat = signed negative d.digits := by
  by_cases hfit : d.FitsInt64 negative
  · rw [eq_of_fits h hfit hi, hfit.whole]
    exact Int.mul_one _
  · rw [literal?_of_not_fits h hfit, ofDecimal_of_units hm] at hi
    have hunits := Value.number_eq_int (Option.some.inj hi) hne
    have hscaled : signed negative m.units * pow10 (-d.exponent).toNat
        = signed negative d.digits * one := by
      rw [← signed_mul_one, ← hm]
      cases negative <;> simp [signed]
    rw [hunits, Int.mul_right_comm] at hscaled
    exact Int.eq_of_mul_eq_mul_right (Int.ne_of_gt oneUnits_pos) hscaled

/-- Every number that a scan finds is written as a decimal. If it becomes an integer, that is the
decimal itself, the value of a floating point number nearest to it, or zero beyond all of them; and
it is the decimal itself wherever a floating point number other than 2^63 is. -/
theorem literal?_of_scanned {text : String} (hs : scan? text = some ts)
    (hn : Token.number n ∈ ts) : ∃ (negative : Bool) (d : Decimal), d.IsWritten negative n ∧
      ∀ i, (Token.number n).literal? = some (.int i) → d.Becomes negative i ∧
        ∀ m : Magnitude, m.units * pow10 (-d.exponent).toNat = d.digits * one →
          signed negative m.units ≠ pow2 63 * one →
            i.toInt * pow10 (-d.exponent).toNat = signed negative d.digits := by
  obtain ⟨negative, d, hwritten⟩ := exists_isWritten_of_scanFrom hs hn
  exact ⟨negative, d, hwritten, fun i hi => ⟨becomes_of_isWritten hwritten hi, fun m hm hne =>
    eq_of_units hwritten hm hne hi⟩⟩

/-- Behind a comparison a signed number with a fraction is scanned, and becomes an integer. -/
theorem minus_twelve_scanned :
    let ts : List Token := [.word "v", .comparison .ge, .number "-12.0"]
    scan? "v >= -12.0" = some ts ∧ Token.number "-12.0" ∈ ts ∧
      (Token.number "-12.0").literal? = some (.int (-12)) ∧
      ∃ (negative : Bool) (d : Decimal), d.IsWritten negative "-12.0" ∧
        d.Becomes negative (-12) := by
  intro ts
  have hs : scan? "v >= -12.0" = some ts := by decide +kernel
  have hn : Token.number "-12.0" ∈ ts := by decide
  have hi : (Token.number "-12.0").literal? = some (.int (-12)) := by decide +kernel
  obtain ⟨negative, d, hwritten, hbecomes⟩ := literal?_of_scanned hs hn
  exact ⟨hs, hn, hi, negative, d, hwritten, (hbecomes _ hi).1⟩

/-- The number 2^53 + 1 is written with a fraction, and becomes the integer 2^53. -/
theorem odd_number_becomes_even :
    let ts : List Token := [.word "v", .comparison .eq, .number "9007199254740993.0"]
    scan? "v = 9007199254740993.0" = some ts ∧
      Decimal.IsWritten ⟨90071992547409930, -1⟩ false "9007199254740993.0" ∧
      (Token.number "9007199254740993.0").literal? = some (.int 9007199254740992) ∧
      (9007199254740992 : Int64).toInt * pow10 1 ≠ 90071992547409930 := by
  intro ts
  refine ⟨by decide +kernel, ?_, by decide +kernel, by decide +kernel⟩
  have hdigits : ("9007199254740993".toList ++ ['0']).all Char.isDigit = true := by decide
  exact ⟨"9007199254740993".toList, ['0'],
    ⟨List.all_eq_true.mp hdigits, by decide, by decide, rfl⟩, by decide⟩

end Token
end ClientRecords
