import ClientRecords.Proofs.Binary64.PlainText
/-!
Comparisons of numbers. Order goes by the nearest floating point numbers and equality by loose
texts. The two fit together, and give the exact order, unless the numbers are two with the same
nearest one, or one number with two texts (`comparisons_coherent_iff`). There are none of these
among floating point numbers and integers up to 2^53; the next integers fall together.
-/

namespace ClientRecords

/-! ### The order of the readings -/

namespace Binary64

variable {m n : Int}

theorem rounded_mono (h : m ≤ n) : rounded m ≤ rounded n := by
  rw [rounded, rounded, signed, signed]
  simp only [decide_eq_true_eq]
  by_cases hn : n < 0
  · have habs : nearestUnits n.natAbs 1 ≤ nearestUnits m.natAbs 1 := nearestUnits_mono (by omega)
    rw [if_pos hn, if_pos (by omega)]
    omega
  by_cases hm : m < 0
  · rw [if_pos hm, if_neg hn]
    omega
  · have habs : nearestUnits m.natAbs 1 ≤ nearestUnits n.natAbs 1 := nearestUnits_mono (by omega)
    rw [if_neg hm, if_neg hn]
    omega

/-- Rounding keeps the order of two numbers that it does not make equal. -/
theorem compare_rounded (h : rounded m = rounded n → m = n) :
    compare (rounded m) (rounded n) = compare m n := by
  rcases Int.lt_trichotomy m n with hlt | rfl | hgt
  · have hle := rounded_mono (Int.le_of_lt hlt)
    have hne : rounded m ≠ rounded n := fun heq => absurd (h heq) (Int.ne_of_lt hlt)
    rw [Std.compare_eq_lt.mpr hlt, Std.compare_eq_lt.mpr (by omega)]
  · rw [Std.compare_self, Std.compare_self]
  · have hle := rounded_mono (Int.le_of_lt hgt)
    have hne : rounded m ≠ rounded n := fun heq => absurd (h heq) (Int.ne_of_gt hgt)
    rw [Std.compare_eq_gt.mpr hgt, Std.compare_eq_gt.mpr (by omega)]

theorem signed_mul_one (s : Bool) (k : Nat) : signed s (k * one) = signed s k * one := by
  rw [signed, signed]
  generalize one = c
  split
  · rw [Int.natCast_mul, Int.neg_mul]
  · exact Int.natCast_mul k c

end Binary64

/-! ### The texts of one number -/

namespace Value

open Binary64

variable {a b : Value} {n : Int}

theorem text_eq_of_floats {s t : Bool} {m k : Magnitude}
    (h : signed s m.units = signed t k.units) :
    (Value.float (.finite s m)).text = (Value.float (.finite t k)).text := by
  have hunits : m.units = k.units := by rw [← natAbs_signed s m.units, h, natAbs_signed]
  by_cases hzero : m.units = 0
  · rw [text, text, plainText_zero s hzero, plainText_zero t (hunits ▸ hzero)]
  · have hsign : s = t := by
      cases s <;> cases t <;> simp_all [signed]
    have hmagnitude : m = k := by
      cases m
      cases k
      congr
    rw [hsign, hmagnitude]

theorem text_int_eq_float {i : Int64} {s : Bool} {m : Magnitude} (hi : i.toInt.natAbs ≤ pow2 53)
    (h : i.toInt * one = signed s m.units) :
    (Value.int i).text = (Value.float (.finite s m)).text := by
  have hunits : m.units = i.toInt.natAbs * one := by
    rw [← natAbs_mul_one, h, natAbs_signed]
  have hsigned : i.toInt = signed s i.toInt.natAbs := by
    rw [hunits, signed_mul_one] at h
    exact Int.eq_of_mul_eq_mul_right (Int.ne_of_gt oneUnits_pos) h
  rw [text, text, plainText_of_whole s hunits hi, ← hsigned]

/-- One number has one text as long as no integer beyond 2^53 is written. -/
theorem text_eq_of_units (ha : a.units? = some n) (hb : b.units? = some n)
    (hsmall : ∀ i : Int64, .int i ∈ [a, b] → i.toInt.natAbs ≤ pow2 53) : a.text = b.text := by
  cases a with
  | int i =>
    have hi := hsmall i (by simp)
    cases b with
    | int j => rw [same_int_iff.mp (.number ha hb)]
    | float y =>
      cases y with
      | finite => exact text_int_eq_float hi (Option.some.inj (ha.trans hb.symm))
      | nan | infinite => cases hb
    | _ => cases hb
  | float x =>
    cases x with
    | finite =>
      cases b with
      | int j =>
        exact (text_int_eq_float (hsmall j (by simp)) (Option.some.inj (hb.trans ha.symm))).symm
      | float y =>
        cases y with
        | finite => exact text_eq_of_floats (Option.some.inj (ha.trans hb.symm))
        | nan | infinite => cases hb
      | _ => cases hb
    | nan | infinite => cases ha
  | _ => cases ha

theorem isNumeric_of_units (h : a.units? = some n) : a.isNumeric = true := by
  cases a with
  | int | float => rfl
  | _ => cases h

theorem isHeld_of_small (h : ∀ i : Int64, a = .int i → i.toInt.natAbs ≤ pow2 53) : a.IsHeld := by
  cases a with
  | int i => exact isHeld_int (h i rfl)
  | float x => exact isHeld_float x
  | _ => exact nofun

end Value

/-! ### The comparisons -/

/-- The comparison that an ordering stands for. -/
def Comparison.ofOrdering : Ordering → Comparison
  | .lt => .lt
  | .eq => .eq
  | .gt => .gt

/-- Does a comparison ask for the order, and not for the texts? -/
def Comparison.byOrder : Comparison → Bool
  | .eq | .ne => false
  | .gt | .ge | .lt | .le => true

namespace Record

open Binary64

variable {r : Record} {field : String} {a b : Value} {m n : Int}

/-- Does a row pass a comparison of a field with a value? -/
def Passes (r : Record) (field : String) (op : Comparison) (v : Value) : Prop :=
  (⟨field, .compare op v⟩ : Condition).holds r = true

/-- Of `<`, `=` and `>` a row passes exactly the one that an ordering stands for, and the other
three comparisons fit. -/
structure Coherent (r : Record) (field : String) (v : Value) (o : Ordering) : Prop where
  one : ∀ p, r.Passes field (.ofOrdering p) v ↔ p = o
  le : r.Passes field .le v ↔ r.Passes field .lt v ∨ r.Passes field .eq v
  ge : r.Passes field .ge v ↔ r.Passes field .gt v ∨ r.Passes field .eq v
  ne : r.Passes field .ne v ↔ ¬r.Passes field .eq v

theorem Coherent.exists_passes {v : Value} {o : Ordering} (h : r.Coherent field v o) :
    ∃ p, r.Passes field (.ofOrdering p) v := ⟨o, (h.one o).mpr rfl⟩

theorem passes_eq_iff (hr : r.get? field = some a) : r.Passes field .eq b ↔ a.text = b.text := by
  simp [Passes, Condition.holds, Check.passes, Comparison.holds, hr]

theorem passes_ne_iff (hr : r.get? field = some a) : r.Passes field .ne b ↔ a.text ≠ b.text := by
  simp [Passes, Condition.holds, Check.passes, Comparison.holds, hr]

/-- An ordering comparison of two numbers goes by the nearest floating point numbers. -/
theorem passes_iff_accepts (ha : a.units? = some m) (hb : b.units? = some n)
    (hr : r.get? field = some a) (op : Comparison) (hop : op.byOrder = true) :
    r.Passes field op b ↔ op.accepts (compare (rounded m) (rounded n)) = true := by
  have horder : a.compare? b = some (compare (rounded m) (rounded n)) := by
    rw [Value.compare?_of_numeric (Value.isNumeric_of_units ha) (Value.isNumeric_of_units hb),
      Value.rank_of_units ha, Value.rank_of_units hb]
  rw [Passes, Condition.holds, Check.passes, hr]
  cases op with
  | eq | ne => cases hop
  | _ =>
    rw [Comparison.holds, Option.bind_some, horder, Option.map_some, Option.getD_some] <;> nofun

theorem Coherent.eq_of_rounded_eq (h : r.Coherent field b (compare m n)) (ha : a.units? = some m)
    (hb : b.units? = some n) (hr : r.get? field = some a) (hround : rounded m = rounded n) :
    m = n := by
  have hequal : compare (rounded m) (rounded n) = .eq := by rw [hround, Std.compare_self]
  rcases Int.lt_trichotomy m n with hlt | heq | hgt
  · have hpasses := (h.one .lt).mpr (Std.compare_eq_lt.mpr hlt).symm
    rw [Comparison.ofOrdering, passes_iff_accepts ha hb hr .lt rfl, hequal] at hpasses
    cases hpasses
  · exact heq
  · have hpasses := (h.one .gt).mpr (Std.compare_eq_gt.mpr hgt).symm
    rw [Comparison.ofOrdering, passes_iff_accepts ha hb hr .gt rfl, hequal] at hpasses
    cases hpasses

/-- Where two numbers are read apart and one number has one text, all comparisons are those of the
exact order. -/
theorem coherent_of_apart (ha : a.units? = some m) (hb : b.units? = some n)
    (hr : r.get? field = some a) (hapart : rounded m = rounded n → m = n)
    (htext : m = n → a.text = b.text) : r.Coherent field b (compare m n) := by
  have horder : ∀ op : Comparison, op.byOrder = true →
      (r.Passes field op b ↔ op.accepts (compare m n) = true) := fun op hop => by
    rw [passes_iff_accepts ha hb hr op hop, compare_rounded hapart]
  have hequal : r.Passes field .eq b ↔ compare m n = .eq := by
    rw [passes_eq_iff hr, Std.compare_eq_iff_eq]
    exact ⟨fun h => hapart (Value.rounded_eq_of_text_eq ha hb h), htext⟩
  constructor
  · intro p
    cases p with
    | eq => exact hequal.trans eq_comm
    | lt =>
      rw [Comparison.ofOrdering, horder .lt rfl]
      cases compare m n <;> decide
    | gt =>
      rw [Comparison.ofOrdering, horder .gt rfl]
      cases compare m n <;> decide
  · rw [horder .le rfl, horder .lt rfl, hequal]
    cases compare m n <;> decide
  · rw [horder .ge rfl, horder .gt rfl, hequal]
    cases compare m n <;> decide
  · rw [passes_ne_iff hr, passes_eq_iff hr]

/-- The comparisons of two numbers give their exact order if and only if the numbers are not two
with the same nearest floating point number and, if they are one number, have one text. They do if
no integer beyond 2^53 is among them. -/
theorem comparisons_coherent_iff (ha : a.units? = some m) (hb : b.units? = some n)
    (hr : r.get? field = some a) :
    (r.Coherent field b (compare m n) ↔ ¬a.Blurred b ∧ (m = n → a.text = b.text)) ∧
      ((∀ i : Int64, .int i ∈ [a, b] → i.toInt.natAbs ≤ pow2 53) →
        r.Coherent field b (compare m n)) := by
  have hiff : r.Coherent field b (compare m n) ↔ ¬a.Blurred b ∧ (m = n → a.text = b.text) := by
    constructor
    · intro h
      refine ⟨?_, fun heq => ?_⟩
      · rintro ⟨k, l, hk, hl, hne, hround⟩
        obtain rfl := Option.some.inj (ha.symm.trans hk)
        obtain rfl := Option.some.inj (hb.symm.trans hl)
        exact hne (h.eq_of_rounded_eq ha hb hr hround)
      · have hequal := (h.one .eq).mpr (Std.compare_eq_iff_eq.mpr heq).symm
        exact (passes_eq_iff hr).mp hequal
    · rintro ⟨hblurred, htext⟩
      refine coherent_of_apart ha hb hr (fun hround => ?_) htext
      by_contra hne
      exact hblurred ⟨m, n, ha, hb, hne, hround⟩
  refine ⟨hiff, fun hsmall => hiff.mpr ⟨?_, ?_⟩⟩
  · have hheld : ∀ v ∈ [a, b], v.IsHeld := fun v hv =>
      Value.isHeld_of_small fun i hi => hsmall i (hi ▸ hv)
    exact Value.not_blurred_of_isHeld (hheld a (by simp)) (hheld b (by simp))
  · rintro rfl
    exact Value.text_eq_of_units ha hb hsmall

theorem seven_below_seven_and_a_half :
    (Value.int 7).units? = some (7 * (one : Int)) ∧
      (Value.float (.ofDecimal false 75 (-1))).units? = some (15 * (pow2 1073 : Int)) ∧
      (Record.ofFields [("v", .int 7)]).get? "v" = some (.int 7) ∧
      (Record.ofFields [("v", .int 7)]).Coherent "v" (.float (.ofDecimal false 75 (-1))) .lt := by
  have hseven : (Value.int 7).units? = some (7 * (one : Int)) := by decide +kernel
  have hhalf : (Value.float (.ofDecimal false 75 (-1))).units? = some (15 * (pow2 1073 : Int)) := by
    decide +kernel
  have hrow : (Record.ofFields [("v", .int 7)]).get? "v" = some (.int 7) := by decide +kernel
  have horder : compare (7 * one : Int) (15 * pow2 1073) = .lt := by decide +kernel
  have hsmall : ∀ i : Int64, .int i ∈ [Value.int 7, .float (.ofDecimal false 75 (-1))] →
      i.toInt.natAbs ≤ pow2 53 := by
    intro i hi
    obtain rfl : i = 7 := by simpa using hi
    decide
  have hcoherent := (comparisons_coherent_iff hseven hhalf hrow).2 hsmall
  rw [horder] at hcoherent
  exact ⟨hseven, hhalf, hrow, hcoherent⟩

/-- Beside the greatest integer up to which all are held, the next one passes none of `<`, `=` and
`>`: the two are read as the same number and have different texts. -/
theorem neighbour_passes_none :
    (Value.int 9007199254740993).units? = some (9007199254740993 * (one : Int)) ∧
      (Value.int 9007199254740992).units? = some (9007199254740992 * (one : Int)) ∧
      (∀ p, ¬(Record.ofFields [("v", .int 9007199254740993)]).Passes "v" (.ofOrdering p)
        (.int 9007199254740992)) ∧
      ¬(Record.ofFields [("v", .int 9007199254740993)]).Coherent "v" (.int 9007199254740992)
        (compare (9007199254740993 * one : Int) (9007199254740992 * one)) := by
  have hnone : ∀ p, ¬(Record.ofFields [("v", .int 9007199254740993)]).Passes "v" (.ofOrdering p)
      (.int 9007199254740992) := by
    intro p
    rw [Passes]
    cases p <;> decide +kernel
  refine ⟨by decide +kernel, by decide +kernel, hnone, fun h => ?_⟩
  obtain ⟨p, hp⟩ := h.exists_passes
  exact hnone p hp

end Record
end ClientRecords
