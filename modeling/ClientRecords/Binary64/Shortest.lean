import ClientRecords.Binary64.Basic
/-!
The shortest decimal that reads back to a given number. The reals that round to a magnitude form
an interval around it; the coarsest decimal grid with a point in that interval gives the fewest
digits, and on that grid the nearer of the two neighbours of the magnitude is taken.
-/

namespace ClientRecords

/-- The decimal `digits * 10 ^ exponent`. -/
structure Decimal where
  digits : Nat
  exponent : Int
  deriving DecidableEq

/-- Which of two equally near neighbours is taken. -/
inductive Tie where
  | toEven
  | up

/-- The reals that round to a magnitude, in quarters of a unit; `closed` tells whether the two
ends belong to them. -/
structure RoundingInterval where
  low : Nat
  value : Nat
  high : Nat
  closed : Bool

namespace Magnitude

/-- The distance to the next greater magnitude. -/
def gapAbove (m : Magnitude) : Nat := pow2 (m.units.log2 - 52)

/-- The distance to the next smaller magnitude, which is halved just above a power of two. -/
def gapBelow (m : Magnitude) : Nat :=
  if m.units = pow2 m.units.log2 then max 1 (m.gapAbove / 2) else m.gapAbove

/-- Ties round to the even significand, so the ends belong to the interval of an even one. -/
def roundingInterval (m : Magnitude) : RoundingInterval where
  low := 4 * m.units - 2 * m.gapBelow
  value := 4 * m.units
  high := 4 * m.units + 2 * m.gapAbove
  closed := m.units / m.gapAbove % 2 == 0

end Magnitude

namespace Decimal

/-- The grid of multiples of `10 ^ p`, as a fraction of a quarter unit: its step is
`step / scale`. -/
def gridStep (p : Int) : Nat := 4 * Binary64.one * pow10 p.toNat

def gridScale (p : Int) : Nat := pow10 (-p).toNat

/-- Does the grid point `d * 10 ^ p` lie in the interval? -/
def inside (r : RoundingInterval) (p : Int) (d : Nat) : Bool :=
  let x := d * gridStep p
  let lo := r.low * gridScale p
  let hi := r.high * gridScale p
  if r.closed then lo ≤ x && x ≤ hi else lo < x && x < hi

/-- The neighbour of the value on the grid of `10 ^ p` that lies in the interval, the nearer one if
both do. -/
def onGrid? (tie : Tie) (r : RoundingInterval) (p : Int) : Option Nat :=
  let x := r.value * gridScale p
  let d := x / gridStep p
  let rest := x % gridStep p
  let upper : Bool :=
    if 2 * rest = gridStep p then
      match tie with
      | .toEven => d % 2 == 1
      | .up => true
    else decide (gridStep p < 2 * rest)
  match inside r p d, inside r p (d + 1) with
  | true, true => some (if upper then d + 1 else d)
  | true, false => some d
  | false, true => some (d + 1)
  | false, false => none

/-- The first hit among the grids of `10 ^ p`, `10 ^ (p - 1)`, … -/
def firstHit (tie : Tie) (r : RoundingInterval) : Nat → Int → Decimal
  | 0, p => ⟨r.value * gridScale p / gridStep p, p⟩
  | n + 1, p =>
    match onGrid? tie r p with
    | some d => ⟨d, p⟩
    | none => firstHit tie r n (p - 1)

end Decimal

namespace Magnitude

/-- A decimal exponent above that of the leading digit: 30103 / 100000 is log 2 rounded up. -/
def topExponent (m : Magnitude) : Int := ((m.units.log2 : Int) - 1073) * 30103 / 100000 + 1

/-- The decimal of fewest digits that reads back to the magnitude, nearest to it among those. -/
def shortest (tie : Tie) (m : Magnitude) : Decimal :=
  if m.units = 0 then ⟨0, 0⟩ else Decimal.firstHit tie m.roundingInterval 24 m.topExponent

end Magnitude
end ClientRecords
