import ClientRecords.Proofs.Binary64.Finite
import ClientRecords.Query.Eval
/-!
The order that rows are sorted by. Numbers and truth values are compared by their numeric readings,
and everything else, also a number beside a text, by loose texts. Either half is a total preorder by
itself, and both turn around with their arguments. Together they are one exactly on those values
where no text or null stands between two numbers that their own order puts the other way round
(`compareValues_preorder_iff`).
-/

namespace ClientRecords

namespace Text

variable {s t : String}

theorem compare_eq_lt_iff : compare s t = .lt ↔ s < t := compareOfLessAndEq_eq_lt

theorem compare_eq_gt_iff : compare s t = .gt ↔ t < s :=
  compareOfLessAndEq_eq_gt String.le_antisymm String.le_total String.not_le s t

theorem compare_ne_gt_iff : compare s t ≠ .gt ↔ s ≤ t := by
  rw [Ne, compare_eq_gt_iff, String.not_lt]

end Text

namespace Value

/-- The values that are compared by their numeric readings. -/
def isNumeric : Value → Bool
  | .bool _ | .int _ | .float _ => true
  | .null | .string _ => false

/-- Where the numeric reading of a value stands among the integers. -/
def rank (v : Value) : Int := v.numeric.rank.getD 0

theorem isFinite_numeric (v : Value) : v.numeric.isFinite = true := by
  have hsettle : ∀ x : Binary64, (if x.isFinite then x else .zero).isFinite = true := by
    intro x
    split
    · assumption
    · rfl
  exact hsettle _

theorem rank_numeric (v : Value) : v.numeric.rank = some v.rank := by
  have hfinite := v.isFinite_numeric
  rw [rank]
  cases hn : v.numeric with
  | nan | infinite =>
    rw [hn] at hfinite
    cases hfinite
  | finite => rfl

theorem compare?_of_numeric {a b : Value} (ha : a.isNumeric = true) (hb : b.isNumeric = true) :
    a.compare? b = some (compare a.rank b.rank) := by
  have hnatural : a.compare? b = a.numeric.compare? b.numeric := by
    cases a with
    | null | string => cases ha
    | bool | int | float =>
      cases b with
      | null | string => cases hb
      | bool | int | float => rfl
  rw [hnatural, Binary64.compare?, a.rank_numeric, b.rank_numeric]
  rfl

end Value

namespace Query

variable {a b c x y z : Value} {vs : List Value}

/-! ### Two values -/

theorem compareValues_of_numeric (ha : a.isNumeric = true) (hb : b.isNumeric = true) :
    compareValues a b = compare a.rank b.rank := by
  rw [compareValues, Value.compare?_of_numeric ha hb, Option.getD_some]

theorem compareValues_of_left (ha : a.isNumeric = false) :
    compareValues a b = compare a.text b.text := by
  cases a with
  | bool | int | float => cases ha
  | null => rfl
  | string => cases b <;> rfl

theorem compareValues_of_right (hb : b.isNumeric = false) :
    compareValues a b = compare a.text b.text := by
  cases b with
  | bool | int | float => cases hb
  | null => cases a <;> rfl
  | string => cases a <;> rfl

theorem compareValues_ne_gt_of_left (ha : a.isNumeric = false) :
    compareValues a b ≠ .gt ↔ a.text ≤ b.text := by
  rw [compareValues_of_left ha, Text.compare_ne_gt_iff]

theorem compareValues_ne_gt_of_right (hb : b.isNumeric = false) :
    compareValues a b ≠ .gt ↔ a.text ≤ b.text := by
  rw [compareValues_of_right hb, Text.compare_ne_gt_iff]

theorem compareValues_ne_gt_of_numeric (ha : a.isNumeric = true) (hb : b.isNumeric = true) :
    compareValues a b ≠ .gt ↔ a.rank ≤ b.rank := by
  rw [compareValues_of_numeric ha hb, Ne, Std.compare_eq_gt, Int.not_lt]

/-- The comparison turns around with its arguments. -/
theorem compareValues_swap (a b : Value) : compareValues b a = (compareValues a b).swap := by
  cases ha : a.isNumeric with
  | false =>
    rw [compareValues_of_left ha, compareValues_of_right ha]
    exact Std.OrientedOrd.eq_swap
  | true =>
    cases hb : b.isNumeric with
    | false =>
      rw [compareValues_of_left hb, compareValues_of_right hb]
      exact Std.OrientedOrd.eq_swap
    | true =>
      rw [compareValues_of_numeric ha hb, compareValues_of_numeric hb ha]
      exact Std.OrientedOrd.eq_swap

/-! ### Three values -/

/-- Is the comparison a total preorder on some values? -/
def IsPreorderOn (vs : List Value) : Prop :=
  ∀ a ∈ vs, ∀ b ∈ vs, ∀ c ∈ vs,
    compareValues a b ≠ .gt → compareValues b c ≠ .gt → compareValues a c ≠ .gt

/-- Does no text or null stand between two numbers that are not in the order of their texts? Numbers
with the same reading may only have something between them that has the text of both. -/
def NoTextBetween (vs : List Value) : Prop :=
  ∀ x ∈ vs, ∀ z ∈ vs, ∀ y ∈ vs, x.isNumeric = true → z.isNumeric = false → y.isNumeric = true →
    x.text ≤ z.text → z.text ≤ y.text →
      compareValues x y = .lt ∨ compareValues x y = .eq ∧ x.text = y.text

theorem IsPreorderOn.noTextBetween (h : IsPreorderOn vs) : NoTextBetween vs := by
  intro x hx z hz y hy hxn hzn hyn hxz hzy
  have hle : compareValues x y ≠ .gt :=
    h x hx z hz y hy ((compareValues_ne_gt_of_right hzn).mpr hxz)
      ((compareValues_ne_gt_of_left hzn).mpr hzy)
  cases hc : compareValues x y with
  | gt => exact absurd hc hle
  | lt => exact .inl rfl
  | eq =>
    -- the two numbers can change places, so the text is as far from the one as from the other
    have hback : compareValues y x ≠ .gt := by
      rw [compareValues_swap x y, hc]
      decide
    have hzx : z.text ≤ x.text := (compareValues_ne_gt_of_left hzn).mp
      (h z hz y hy x hx ((compareValues_ne_gt_of_left hzn).mpr hzy) hback)
    have hyz : y.text ≤ z.text := (compareValues_ne_gt_of_right hzn).mp
      (h y hy x hx z hz hback ((compareValues_ne_gt_of_right hzn).mpr hxz))
    exact .inr ⟨rfl, (String.le_antisymm hxz hzx).trans (String.le_antisymm hzy hyz)⟩

namespace NoTextBetween

/-- Where no text stands between numbers out of order, one of two numbers with a text between them
comes first, or they have the same text. -/
theorem text_le (h : NoTextBetween vs) (hx : x ∈ vs) (hz : z ∈ vs) (hy : y ∈ vs)
    (hxn : x.isNumeric = true) (hzn : z.isNumeric = false) (hyn : y.isNumeric = true)
    (hxz : x.text ≤ z.text) (hzy : z.text ≤ y.text) (hle : compareValues y x ≠ .gt) :
    x.text = y.text := by
  rcases h x hx z hz y hy hxn hzn hyn hxz hzy with hlt | ⟨-, heq⟩
  · rw [compareValues_swap x y, hlt] at hle
    exact absurd rfl hle
  · exact heq

theorem isPreorderOn (h : NoTextBetween vs) : IsPreorderOn vs := by
  intro a ha b hb c hc hab hbc
  cases han : a.isNumeric with
  | false =>
    rw [compareValues_ne_gt_of_left han] at hab ⊢
    cases hbn : b.isNumeric with
    | false => exact String.le_trans hab ((compareValues_ne_gt_of_left hbn).mp hbc)
    | true =>
      cases hcn : c.isNumeric with
      | false => exact String.le_trans hab ((compareValues_ne_gt_of_right hcn).mp hbc)
      | true =>
        rcases String.le_total a.text c.text with hac | hca
        · exact hac
        · have heq := h.text_le hc ha hb hcn han hbn hca hab hbc
          rwa [heq]
  | true =>
    cases hcn : c.isNumeric with
    | false =>
      rw [compareValues_ne_gt_of_right hcn] at hbc ⊢
      cases hbn : b.isNumeric with
      | false => exact String.le_trans ((compareValues_ne_gt_of_right hbn).mp hab) hbc
      | true =>
        rcases String.le_total a.text c.text with hac | hca
        · exact hac
        · have heq := h.text_le hb hc ha hbn hcn han hbc hca hab
          rwa [← heq]
    | true =>
      cases hbn : b.isNumeric with
      | false =>
        rw [compareValues_ne_gt_of_right hbn] at hab
        rw [compareValues_ne_gt_of_left hbn] at hbc
        rcases h a ha b hb c hc han hbn hcn hab hbc with hlt | ⟨heq, -⟩
        · rw [hlt]
          decide
        · rw [heq]
          decide
      | true =>
        rw [compareValues_ne_gt_of_numeric han hbn] at hab
        rw [compareValues_ne_gt_of_numeric hbn hcn] at hbc
        rw [compareValues_ne_gt_of_numeric han hcn]
        exact Int.le_trans hab hbc

end NoTextBetween

/-- The comparison turns around with its arguments, and it is a total preorder on some values
exactly if no text or null among them stands between two numbers that are not in the order of their
texts. -/
theorem compareValues_preorder_iff (vs : List Value) :
    (∀ a b : Value, compareValues b a = (compareValues a b).swap) ∧
      (IsPreorderOn vs ↔ NoTextBetween vs) :=
  ⟨compareValues_swap, IsPreorderOn.noTextBetween, NoTextBetween.isPreorderOn⟩

/-- Ten comes before the text of five, which comes before nine, and nine comes before ten. -/
theorem compareValues_goes_round :
    let ten := Value.int 10
    let five := Value.string "5"
    let nine := Value.int 9
    compareValues ten five ≠ .gt ∧ compareValues five nine ≠ .gt ∧
      compareValues ten nine = .gt := by
  decide +kernel

end Query
end ClientRecords
