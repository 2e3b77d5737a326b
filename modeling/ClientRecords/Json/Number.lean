import ClientRecords.Arithmetic
import ClientRecords.Binary64.Reader
import ClientRecords.Json.Basic
/-!
Numbers in JSON texts. The digits fill a significand of 64 bits, digits that do not fit being left
out, and the significand is then scaled by one rounded power of ten. A number without fraction and
exponent that fits 64 bits stays whole; minus zero and what does not fit are floating point.
-/

namespace ClientRecords.Json

/-- A number as it stands in a text. -/
structure Numeral where
  negative : Bool
  whole : List Char
  fraction : Option (List Char)
  exponent : Option (Bool × List Char)

namespace Numeral

/-- Appends digits to a significand as long as it stays below 2^64; also the number of digits left
out. -/
def fill (significand : Nat) : List Char → Nat × Nat
  | [] => (significand, 0)
  | c :: cs =>
    let next := 10 * significand + (Text.digit? c).getD 0
    if next < pow2 64 then fill next cs else (significand, cs.length + 1)

/-- The magnitude in units of a finite number, and zero for the others. -/
def unitsOf : Binary64 → Nat
  | .finite _ m => m.units
  | _ => 0

/-- The power of ten nearest to `10 ^ n`, in units. -/
def tenPower (n : Nat) : Nat := unitsOf (Binary64.ofDecimal false 1 n)

/-- Scales by a power of ten, in steps of at most `10 ^ 308`; nothing beyond the largest number is
accepted. Three steps bring every significand to zero. -/
def scale : Nat → Binary64 → Int → Option Binary64
  | 0, _, _ => some .zero
  | steps + 1, x, e =>
    if 0 ≤ e ∧ e ≤ 308 then
      let y := Binary64.mulUnits (unitsOf x) (tenPower e.toNat)
      if y.isFinite then some y else none
    else if -308 ≤ e ∧ e < 0 then some (Binary64.divUnits (unitsOf x) (tenPower (-e).toNat))
    else if x.isZero then some x
    else if 0 ≤ e then none
    else scale steps (Binary64.divUnits (unitsOf x) (tenPower 308)) (e + 308)

/-- The number that a significand and a decimal exponent make. -/
def float? (negative : Bool) (significand : Nat) (exponent : Int) : Option Json :=
  (scale 4 (Binary64.ofInt significand) exponent).map fun x =>
    .float (if negative then x.neg else x)

/-- An exponent of 31 bits or more stands for an infinite number or for zero. -/
def withExponent (negative : Bool) (significand : Nat) (start : Int) (minus : Bool)
    (digits : List Char) : Option Json :=
  let e := Text.digitsValue 10 digits
  if e < pow2 31 then float? negative significand (start + Binary64.signed minus e)
  else if significand ≠ 0 ∧ !minus then none
  else some (.float (if negative then Binary64.zero.neg else .zero))

/-- A number without fraction and exponent whose digits all fit. -/
def wholeNumber (negative : Bool) (significand : Nat) : Json :=
  if !negative then .int significand
  else if 0 < significand ∧ significand ≤ pow2 63 then .int (-significand)
  else .float (Binary64.ofInt significand).neg

/-- The value of a number; none if it is too large. -/
def value? (n : Numeral) : Option Json :=
  let (significand, out) := fill 0 n.whole
  let (significand, places) := match n.fraction with
    | none => (significand, 0)
    | some ds =>
      let (s, left) := fill significand ds
      (s, ds.length - left)
  let start : Int := (out : Int) - places
  match n.exponent with
  | some (minus, ds) => withExponent n.negative significand start minus ds
  | none =>
    if n.fraction.isNone && out == 0 then some (wholeNumber n.negative significand)
    else float? n.negative significand start

end Numeral

/-- A fraction with at least one digit, if a point follows. -/
def takeFraction : List Char → Option (Option (List Char) × List Char)
  | '.' :: cs =>
    let (ds, rest) := cs.span Char.isDigit
    if ds.isEmpty then none else some (some ds, rest)
  | cs => some (none, cs)

/-- An exponent with at least one digit, if its letter follows. -/
def takeExponent : List Char → Option (Option (Bool × List Char) × List Char)
  | c :: cs =>
    if c == 'e' || c == 'E' then
      let (minus, body) := Binary64.takeSign cs
      let (ds, rest) := body.span Char.isDigit
      if ds.isEmpty then none else some (some (minus, ds), rest)
    else some (none, c :: cs)
  | [] => some (none, [])

/-- A number at the start of a text. No digit stands before a whole part but a single zero. -/
def takeNumeral (negative : Bool) (cs : List Char) : Option (Numeral × List Char) := do
  let (whole, rest) := cs.span Char.isDigit
  if whole.isEmpty || (whole.length > 1 && whole.head? == some '0') then none
  let (fraction, rest) ← takeFraction rest
  let (exponent, rest) ← takeExponent rest
  return (⟨negative, whole, fraction, exponent⟩, rest)

end ClientRecords.Json
