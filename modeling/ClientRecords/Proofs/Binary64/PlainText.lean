import Mathlib.Data.List.TakeDrop
import ClientRecords.Proofs.Binary64.Shortest
import ClientRecords.Proofs.Token.Collapsed
import ClientRecords.Proofs.Token.Integer
import ClientRecords.Proofs.Value.Equality
/-!
Numbers written out and read again. The positional form of a decimal spells out its digits, so a
number is read back from its loose text. Whole numbers up to 2^53 have the digits of the integer.
-/

namespace ClientRecords

theorem Text.trimChars_of_not_blank {cs : List Char} (h : ∀ c ∈ cs, isBlank c = false) :
    trimChars cs = cs := by
  have htrim : ∀ {ds : List Char}, (∀ c ∈ ds, isBlank c = false) → trimLeft ds = ds := by
    intro ds hds
    cases ds with
    | nil => rfl
    | cons c ds =>
      rw [trimLeft, List.dropWhile_cons_of_neg]
      rw [hds c List.mem_cons_self]
      decide
  have hreverse : ∀ c ∈ cs.reverse, isBlank c = false := fun c hc => h c (List.mem_reverse.mp hc)
  rw [trimChars, htrim h, htrim hreverse, List.reverse_reverse]

/-- Digits, with a point before those of a fraction. -/
def pointed (whole fraction : List Char) : List Char :=
  match fraction with
  | [] => whole
  | fraction => whole ++ '.' :: fraction

/-- Whole digits, and those of a fraction, that spell out a decimal. -/
structure Decimal.Spells (d : Decimal) (whole fraction : List Char) : Prop where
  isDigit : ∀ c ∈ whole ++ fraction, c.isDigit = true
  started : whole ≠ []
  digits : Text.digitsValue 10 (whole ++ fraction) = d.digits
  places : d.exponent = -(fraction.length : Int)

namespace Binary64

variable {d : Decimal} {whole fraction : List Char}

theorem span_digits {cs rest : List Char} (h : ∀ c ∈ cs, c.isDigit = true)
    (hrest : ∀ c ∈ rest.head?, c.isDigit = false) :
    (cs ++ rest).span Char.isDigit = (cs, rest) := by
  rw [List.span_eq_takeWhile_dropWhile, List.takeWhile_append_of_pos h,
    List.dropWhile_append_of_pos h]
  cases rest with
  | nil => simp
  | cons c rest =>
    have hc : c.isDigit = false := hrest c rfl
    rw [List.takeWhile_cons_of_neg (by simp [hc]), List.dropWhile_cons_of_neg (by simp [hc]),
      List.append_nil]

/-- The digits before the point and behind it are told apart. -/
theorem span_pointed (h : ∀ c ∈ whole ++ fraction, c.isDigit = true) :
    ∃ rest, (pointed whole fraction).span Char.isDigit = (whole, rest) ∧
      takeFraction rest = (fraction, []) := by
  obtain ⟨hwhole, hfraction⟩ := List.forall_mem_append.mp h
  cases fraction with
  | nil =>
    have hspan := @span_digits whole [] hwhole nofun
    rw [List.append_nil] at hspan
    exact ⟨[], hspan, rfl⟩
  | cons c cs =>
    have hspan := @span_digits (c :: cs) [] hfraction nofun
    rw [List.append_nil] at hspan
    refine ⟨'.' :: c :: cs, span_digits hwhole ?_, hspan⟩
    rintro _ ⟨⟩
    decide

theorem numeral?_of_spells (h : d.Spells whole fraction) (negative : Bool) :
    numeral? negative (pointed whole fraction)
      = some (ofDecimal negative d.digits d.exponent) := by
  obtain ⟨rest, hspan, hrest⟩ := span_pointed h.isDigit
  have hstarted : (whole.isEmpty && fraction.isEmpty) = false := by simp [h.started]
  have hplaces : (0 : Int) - fraction.length = d.exponent := by
    rw [h.places]
    omega
  simp only [numeral?, hspan, hrest, hstarted, h.digits, hplaces]
  rfl

/-- A spelled decimal starts with a digit. -/
theorem exists_head_pointed (h : d.Spells whole fraction) :
    ∃ c cs, pointed whole fraction = c :: cs ∧ c.isDigit = true := by
  obtain ⟨c, cs, rfl⟩ := List.exists_cons_of_ne_nil h.started
  have hc : c.isDigit = true := h.isDigit c (by simp)
  cases fraction with
  | nil => exact ⟨c, cs, rfl, hc⟩
  | cons => exact ⟨c, _, rfl, hc⟩

/-- A text that starts with a digit is no name. -/
theorem toLower_ne_of_isDigit {c : Char} {cs : List Char} (hc : c.isDigit = true) {s : String}
    (hs : s.toList.head?.any Char.isDigit = false) :
    String.ofList ((c :: cs).map Char.toLower) ≠ s := by
  have hlower : c.toLower = c := by
    have hnot : ¬(65 ≤ c.val ∧ c.val ≤ 90) := by
      simp only [Char.isDigit, Bool.and_eq_true, decide_eq_true_eq, ge_iff_le] at hc
      rw [UInt32.le_iff_toNat_le, UInt32.le_iff_toNat_le] at hc ⊢
      simp at hc ⊢
      omega
    exact dif_neg hnot
  intro heq
  have hhead : s.toList.head? = some c := by
    rw [← heq, String.toList_ofList, List.map_cons, List.head?_cons, hlower]
  rw [hhead, Option.any_some, hc] at hs
  cases hs

theorem ofChars?_of_spells (h : d.Spells whole fraction) (negative : Bool) :
    ofChars? (withSign negative (pointed whole fraction)).toList
      = some (ofDecimal negative d.digits d.exponent) := by
  obtain ⟨c, cs, hcs, hc⟩ := exists_head_pointed h
  have hsign : takeSign (withSign negative (pointed whole fraction)).toList
      = (negative, pointed whole fraction) := by
    cases negative with
    | true => simp [withSign, takeSign]
    | false =>
      rw [withSign, if_neg Bool.false_ne_true, String.toList_ofList, hcs, takeSign]
      · rintro _ ⟨⟩
        exact absurd hc (by decide)
      · rintro _ ⟨⟩
        exact absurd hc (by decide)
  have hname : ∀ s : String, s.toList.head?.any Char.isDigit = false →
      (String.ofList ((pointed whole fraction).map Char.toLower) == s) = false := fun s hs => by
    rw [hcs]
    exact beq_false_of_ne (toLower_ne_of_isDigit hc hs)
  have hnan := hname "nan" (by decide)
  have hinf := hname "inf" (by decide)
  have hinfinity := hname "infinity" (by decide)
  simp only [ofChars?, hsign, hnan, hinf, hinfinity]
  exact numeral?_of_spells h negative

end Binary64

namespace Value

open Binary64

variable {d : Decimal} {whole fraction : List Char}

theorem isBlank_of_mem_pointed (h : d.Spells whole fraction) (negative : Bool) :
    ∀ c ∈ (withSign negative (pointed whole fraction)).toList, Text.isBlank c = false := by
  have hdigit : ∀ c ∈ whole ++ fraction, Text.isBlank c = false := fun c hc =>
    Token.not_blank_of_digit (h.isDigit c hc)
  obtain ⟨hwhole, hfraction⟩ := List.forall_mem_append.mp hdigit
  have hpointed : ∀ c ∈ pointed whole fraction, Text.isBlank c = false := by
    cases fraction with
    | nil => exact hwhole
    | cons e es =>
      exact List.forall_mem_append.mpr ⟨hwhole, List.forall_mem_cons.mpr ⟨by decide, hfraction⟩⟩
  cases negative with
  | true =>
    rw [withSign, if_pos rfl, String.toList_ofList]
    exact List.forall_mem_cons.mpr ⟨by decide, hpointed⟩
  | false =>
    rw [withSign, if_neg Bool.false_ne_true, String.toList_ofList]
    exact hpointed

/-- What spells out a decimal is read as the number nearest to it. -/
theorem numericText_of_spells (h : d.Spells whole fraction) (negative : Bool) :
    numericText (withSign negative (pointed whole fraction))
      = ofDecimal negative d.digits d.exponent := by
  rw [numericText, Text.trimChars_of_not_blank (isBlank_of_mem_pointed h negative),
    ofChars?_of_spells h negative, Option.getD_some]

end Value

namespace Decimal

/-- The decimal without a positive exponent that is worth the same. -/
def unscaled (d : Decimal) : Decimal :=
  if 0 ≤ d.exponent then ⟨d.digits * pow10 d.exponent.toNat, 0⟩ else d

theorem mem_unscaled {d : Decimal} {r : RoundingInterval} (h : d.Mem r) : d.unscaled.Mem r := by
  rw [unscaled]
  by_cases hwhole : 0 ≤ d.exponent
  · have hscale : (-d.exponent).toNat = 0 := Int.toNat_of_nonpos (by omega)
    have hvalue : d.digits * pow10 d.exponent.toNat * (Binary64.one * pow10 0)
        = d.digits * (Binary64.one * pow10 d.exponent.toNat) := by
      have hzero : pow10 0 = 1 := rfl
      rw [hzero, Nat.mul_one Binary64.one, Nat.mul_assoc, Nat.mul_comm (pow10 _) Binary64.one]
    rw [Mem, hscale] at h
    rw [if_pos hwhole]
    show RoundingInterval.Mem r (d.digits * pow10 d.exponent.toNat * (Binary64.one * pow10 0)) _
    rw [hvalue]
    exact h
  · rwa [if_neg hwhole]

/-- The positional form spells out the digits. -/
theorem spells_split (d : Decimal) : d.unscaled.Spells d.split.1 d.split.2 := by
  have hdigit : ∀ c ∈ d.digitChars, c.isDigit = true := fun c hc =>
    Nat.isDigit_of_mem_toDigits (by decide) (by decide) hc
  have hne : d.digitChars ≠ [] := Nat.toDigits_ne_nil
  have hvalue : Nat.ofDigitChars 10 d.digitChars 0 = d.digits := Nat.ofDigitChars_ten_toDigits
  have hzeros : ∀ n, ∀ c ∈ List.replicate n '0', c.isDigit = true := fun n c hc => by
    rw [List.eq_of_mem_replicate hc]
    decide
  rw [split, unscaled]
  by_cases hwhole : 0 ≤ d.exponent
  · rw [if_pos hwhole, if_pos hwhole]
    have hall : ∀ c ∈ d.digitChars ++ List.replicate d.exponent.toNat '0' ++ [],
        c.isDigit = true := by
      rw [List.append_nil]
      exact List.forall_mem_append.mpr ⟨hdigit, hzeros _⟩
    refine ⟨hall, by simp [hne], ?_, rfl⟩
    rw [Text.digitsValue_eq_ofDigitChars hall, List.append_nil, Nat.ofDigitChars_append, hvalue,
      Nat.ofDigitChars_replicate_zero, Nat.mul_comm]
    rfl
  · rw [if_neg hwhole, if_neg hwhole]
    by_cases hlength : (-d.exponent).toNat < d.digitChars.length
    · rw [if_pos hlength]
      have hall : ∀ c ∈ d.digitChars.take (d.digitChars.length - (-d.exponent).toNat)
          ++ d.digitChars.drop (d.digitChars.length - (-d.exponent).toNat), c.isDigit = true := by
        rwa [List.take_append_drop]
      refine ⟨hall, fun hnil => ?_, ?_, ?_⟩
      · rcases List.take_eq_nil_iff.mp hnil with hnone | hnone
        · omega
        · exact hne hnone
      · rw [Text.digitsValue_eq_ofDigitChars hall, List.take_append_drop, hvalue]
      · rw [List.length_drop]
        omega
    · rw [if_neg hlength]
      have hall : ∀ c ∈ ['0'] ++ (List.replicate ((-d.exponent).toNat - d.digitChars.length) '0'
          ++ d.digitChars), c.isDigit = true :=
        List.forall_mem_append.mpr ⟨List.forall_mem_singleton.mpr (by decide),
          List.forall_mem_append.mpr ⟨hzeros _, hdigit⟩⟩
      refine ⟨hall, List.cons_ne_nil _ _, ?_, ?_⟩
      · rw [Text.digitsValue_eq_ofDigitChars hall, Nat.ofDigitChars_append,
          Nat.ofDigitChars_append, Nat.ofDigitChars_replicate_zero]
        exact hvalue
      · rw [List.length_append, List.length_replicate]
        omega

theorem positional_nil (d : Decimal) : d.positional [] = pointed d.split.1 d.split.2 := by
  rw [positional]
  split <;> simp_all [pointed]

end Decimal

/-! ### Numbers -/

namespace Value

open Binary64

variable {a : Value} {n : Int}

/-- A number other than zero is read back from its loose text. -/
theorem numericText_plainText (negative : Bool) {m : Magnitude} (hm : m.units ≠ 0) :
    numericText (plainText (.finite negative m)) = .finite negative m := by
  have hsign : (negative && m.units != 0) = negative := by simp [hm]
  rw [plainText, hsign, Decimal.positional_nil,
    numericText_of_spells (Decimal.spells_split (m.shortest .up)),
    Decimal.ofDecimal_of_mem hm (Decimal.mem_unscaled (Magnitude.mem_shortest .up hm))]

/-- Zero is written without a sign. -/
theorem plainText_zero (negative : Bool) {m : Magnitude} (hm : m.units = 0) :
    plainText (.finite negative m) = "0" := by
  have hsign : (negative && m.units != 0) = false := by simp [hm]
  rw [plainText, hsign, Magnitude.shortest, if_pos hm]
  decide

theorem spells_magnitudeDigits (i : Int) :
    Decimal.Spells ⟨i.natAbs, 0⟩ (Token.magnitudeDigits i) [] where
  isDigit := by
    rw [List.append_nil]
    exact Token.isDigit_of_mem_magnitudeDigits i
  started := Nat.toDigits_ne_nil
  digits := by
    rw [List.append_nil]
    exact Text.digitsValue_toDigits _
  places := rfl

theorem toString_eq_withSign (i : Int) :
    toString i = withSign (i < 0) (pointed (Token.magnitudeDigits i) []) := by
  rw [← String.toList_inj, Token.toList_toString, withSign, String.toList_ofList]
  simp [pointed]

/-- An integer is read as the number nearest to it. -/
theorem numericText_toString {i : Int} (h : i.natAbs < pow10 20) :
    numericText (toString i) = ofInt i := by
  have hlength : (Nat.toDigits 10 i.natAbs).length ≤ 20 :=
    (Nat.length_toDigits_le_iff (by decide) (by decide)).mpr h
  rw [toString_eq_withSign, numericText_of_spells (spells_magnitudeDigits i), ofInt]
  show ofDecimal (decide (i < 0)) i.natAbs 0 = _
  rw [ofDecimal]
  by_cases hzero : i.natAbs = 0
  · rw [if_pos (.inl hzero), hzero, Nat.zero_mul]
  · have hscale : pow10 (Int.toNat 0) = 1 := rfl
    rw [if_neg (by omega), if_neg (by omega), if_pos (Int.le_refl 0), hscale, Nat.mul_one]

theorem rank_text_zero : (Value.string "0").rank = 0 := by decide +kernel

/-- The loose text of a number reads as the number does. -/
theorem rank_text (h : a.units? = some n) : (Value.string a.text).rank = rounded n := by
  have hsame : ∀ {x : Binary64}, numericText a.text = x → (Value.string a.text).numeric =
      if x.isFinite then x else .zero := fun hx => by rw [numeric, hx]
  rw [← rank_of_units h]
  cases a with
  | int i =>
    have hlow := i.le_toInt
    have hhigh := i.toInt_lt
    have hlarge : 2 ^ 64 < pow10 20 := by decide
    have hread : numericText (Value.int i).text = ofInt i.toInt :=
      numericText_toString (by omega)
    rw [rank, hsame hread]
    rfl
  | float x =>
    cases x with
    | finite s m =>
      by_cases hm : m.units = 0
      · have hrank : (Value.float (.finite s m)).rank = signed s m.units := rfl
        rw [text, plainText_zero s hm, rank_text_zero, hrank, hm]
        cases s <;> rfl
      · rw [rank, hsame (numericText_plainText s hm)]
        rfl
    | nan | infinite => cases h
  | _ => cases h

/-- Numbers with the same loose text have the same nearest floating point number. -/
theorem rounded_eq_of_text_eq {b : Value} {m : Int} (ha : a.units? = some m)
    (hb : b.units? = some n) (h : a.text = b.text) : rounded m = rounded n := by
  rw [← rank_text ha, ← rank_text hb, h]

end Value

/-! ### Whole numbers -/

namespace Decimal

variable {tie : Tie} {r : RoundingInterval}

/-- Zeros at the end shift the digits of a number. -/
theorem toDigits_mul_pow10 {n : Nat} (h : 0 < n) (k : Nat) :
    Nat.toDigits 10 (n * pow10 k) = Nat.toDigits 10 n ++ List.replicate k '0' := by
  induction k with
  | zero =>
    have hone : pow10 0 = 1 := rfl
    rw [hone, Nat.mul_one, List.replicate_zero, List.append_nil]
  | succ k ih =>
    have hpos : 0 < n * pow10 k := Nat.mul_pos h (pow10_pos k)
    have hnext : n * pow10 (k + 1) = 10 * (n * pow10 k) + 0 := by
      rw [pow10, Nat.pow_eq, pow_succ]
      rw [pow10, Nat.pow_eq]
      ring
    rw [hnext, ← Nat.toDigits_append_toDigits (by decide) hpos (by decide), ih,
      List.replicate_succ', List.append_assoc]
    rfl

/-- The search does not go below a grid that has the value as a point. -/
theorem exponent_firstHit (hvalue : onGrid? tie r 0 ≠ none) : ∀ {n : Nat} {p : Int}, 0 ≤ p → p < n →
    0 ≤ (firstHit tie r n p).exponent
  | 0, p, hp, hn => by omega
  | n + 1, p, hp, hn => by
    rw [firstHit]
    cases hgrid : onGrid? tie r p with
    | some d => exact hp
    | none =>
      have hne : p ≠ 0 := by
        rintro rfl
        exact hvalue hgrid
      exact exponent_firstHit hvalue (by omega) (by omega)

theorem onGrid?_of_dvd {p : Int} (hpoint : gridStep p ∣ r.value * gridScale p)
    (hlow : r.low < r.value) (hhigh : r.value < r.high) : onGrid? tie r p ≠ none := by
  have hscale : 0 < gridScale p := pow10_pos _
  have hlower : inside r p (r.value * gridScale p / gridStep p) = true := by
    have hbelow := Nat.mul_lt_mul_of_pos_right hlow hscale
    have habove := Nat.mul_lt_mul_of_pos_right hhigh hscale
    simp only [inside, Nat.div_mul_cancel hpoint]
    split <;> simp only [Bool.and_eq_true, decide_eq_true_eq] <;> omega
  obtain ⟨upper, hgrid⟩ := onGrid?_eq tie r p
  rw [hgrid, hlower]
  cases inside r p (r.value * gridScale p / gridStep p + 1) <;> exact Option.some_ne_none _

end Decimal

namespace Magnitude

open Binary64 Decimal

variable {m : Magnitude} {n : Nat}

theorem gapBelow_pos (m : Magnitude) : 0 < m.gapBelow := by
  have hpos := m.gapAbove_pos
  rw [gapBelow]
  split <;> omega

/-- Where the leading bit of a whole number below 2^53 stands. -/
theorem log2_of_whole (hm : m.units = n * one) (hpos : 0 < n) (hn : n < pow2 53) :
    m.units ≠ 0 ∧ unitPlaces ≤ m.units.log2 ∧ m.units.log2 < 53 + unitPlaces := by
  have hne : m.units ≠ 0 := by
    rw [hm]
    exact Nat.mul_ne_zero (Nat.ne_of_gt hpos) (Nat.ne_of_gt (pow2_pos _))
  have hlow : pow2 unitPlaces ≤ m.units := by
    rw [hm, one]
    exact Nat.le_mul_of_pos_left (pow2 unitPlaces) hpos
  have hhigh : m.units < pow2 (53 + unitPlaces) := by
    rw [hm, one, pow2_add]
    exact Nat.mul_lt_mul_of_pos_right hn (pow2_pos unitPlaces)
  have hlog : m.units.log2 < 53 + unitPlaces := by rwa [log2_lt_iff hne]
  exact ⟨hne, Nat.not_lt.mp fun h => Nat.not_lt.mpr hlow ((log2_lt_iff hne).mp h), hlog⟩

/-- The number itself is a point of the grid of whole numbers, so the search ends there at the
latest. -/
theorem exponent_shortest (tie : Tie) (hm : m.units = n * one) (hpos : 0 < n) (hn : n < pow2 53) :
    0 ≤ (m.shortest tie).exponent := by
  obtain ⟨hne, hlow, hhigh⟩ := log2_of_whole hm hpos hn
  have hplaces : unitPlaces = 1074 := rfl
  have hlower : m.roundingInterval.low < m.roundingInterval.value := by
    have hbelow := m.gapBelow_pos
    clear hm
    simp only [roundingInterval]
    omega
  have hupper : m.roundingInterval.value < m.roundingInterval.high :=
    Nat.lt_add_of_pos_right (Nat.mul_pos (by decide) m.gapAbove_pos)
  have hpoint : gridStep 0 ∣ m.roundingInterval.value * gridScale 0 := by
    refine ⟨n, ?_⟩
    have hvalue : m.roundingInterval.value = 4 * (n * one) := by rw [roundingInterval, hm]
    rw [hvalue, gridScale, gridStep, Int.neg_zero]
    generalize one = c
    ring
  have hvalue : onGrid? tie m.roundingInterval 0 ≠ none := onGrid?_of_dvd hpoint hlower hupper
  have htop : m.topExponent = ((m.units.log2 : Int) - 1073) * 30103 / 100000 + 1 := rfl
  rw [shortest, if_neg hne]
  exact exponent_firstHit hvalue (by omega) (by omega)

/-- The shortest decimal of a whole number below 2^53 is that number: no other one is near. -/
theorem shortest_of_whole (tie : Tie) (hm : m.units = n * one) (hpos : 0 < n) (hn : n < pow2 53) :
    (m.shortest tie).digits * pow10 (m.shortest tie).exponent.toNat = n := by
  obtain ⟨hne, hlow, hhigh⟩ := log2_of_whole hm hpos hn
  have hgap : m.gapAbove ≤ one := pow2_le (by omega)
  have hbelow := Nat.le_trans m.gapBelow_le hgap
  have hone : 0 < one := pow2_pos _
  have hexponent := exponent_shortest tie hm hpos hn
  have hmem := mem_shortest tie hne
  generalize m.shortest tie = d at *
  have hscale : pow10 (-d.exponent).toNat = 1 := by
    rw [Int.toNat_of_nonpos (by omega)]
    rfl
  have hlower : (4 * m.units - 2 * m.gapBelow) * pow10 (-d.exponent).toNat
      ≤ 4 * (d.digits * (one * pow10 d.exponent.toNat)) := hmem.low
  have hupper : 4 * (d.digits * (one * pow10 d.exponent.toNat))
      ≤ (4 * m.units + 2 * m.gapAbove) * pow10 (-d.exponent).toNat := hmem.high
  rw [hscale, hm] at hlower hupper
  generalize one = c at *
  have hvalue : d.digits * (c * pow10 d.exponent.toNat)
      = d.digits * pow10 d.exponent.toNat * c := by ring
  rw [hvalue] at hlower hupper
  generalize d.digits * pow10 d.exponent.toNat = k at *
  rcases Nat.lt_trichotomy k n with h | h | h
  · have hstep : (k + 1) * c ≤ n * c := Nat.mul_le_mul_right c h
    rw [Nat.succ_mul] at hstep
    omega
  · exact h
  · have hstep : (n + 1) * c ≤ k * c := Nat.mul_le_mul_right c h
    rw [Nat.succ_mul] at hstep
    omega

end Magnitude

namespace Value

open Binary64 Decimal

variable {m : Magnitude} {n : Nat}

theorem positional_of_whole (hm : m.units = n * one) (hpos : 0 < n) (hn : n < pow2 53) :
    (m.shortest .up).positional [] = Nat.toDigits 10 n := by
  have hexponent := Magnitude.exponent_shortest .up hm hpos hn
  have hvalue := Magnitude.shortest_of_whole .up hm hpos hn
  generalize m.shortest .up = d at *
  have hdigits : 0 < d.digits := Nat.pos_of_mul_pos_right (hvalue ▸ hpos)
  rw [positional_nil, split, if_pos hexponent, pointed, digitChars, ← toDigits_mul_pow10 hdigits,
    hvalue]

theorem plainText_ofInt_two_pow (negative : Bool) :
    plainText (ofInt (signed negative (pow2 53))) = toString (signed negative (pow2 53)) := by
  cases negative <;> decide +kernel

theorem decide_signed_neg (negative : Bool) (hpos : 0 < n) :
    decide (signed negative n < 0) = negative := by
  cases negative <;> simp [signed, hpos]

theorem finite_of_whole (negative : Bool) (hm : m.units = n * one) (hpos : 0 < n)
    (hn : n ≤ pow2 53) : .finite negative m = ofInt (signed negative n) := by
  have habs : (signed negative n).natAbs ≤ pow2 53 := by rwa [natAbs_signed]
  rw [ofInt_of_natAbs_le habs]
  simp only [decide_signed_neg negative hpos, natAbs_signed, ← hm]

/-- A whole number up to 2^53 has the text of the integer. -/
theorem plainText_of_whole (negative : Bool) (hm : m.units = n * one) (hn : n ≤ pow2 53) :
    plainText (.finite negative m) = toString (signed negative n) := by
  rcases Nat.eq_zero_or_pos n with rfl | hpos
  · rw [plainText_zero negative (hm.trans (Nat.zero_mul one))]
    cases negative <;> rfl
  rcases Nat.lt_or_eq_of_le hn with hlt | heq
  · have hne : m.units ≠ 0 := (Magnitude.log2_of_whole hm hpos hlt).1
    have hsign : (negative && m.units != 0) = negative := by simp [hne]
    rw [plainText, hsign, positional_of_whole hm hpos hlt, toString_eq_withSign,
      decide_signed_neg negative hpos, pointed, Token.magnitudeDigits, natAbs_signed]
  · rw [finite_of_whole negative hm hpos hn, heq]
    exact plainText_ofInt_two_pow negative

end Value
end ClientRecords
