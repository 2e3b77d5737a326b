import ClientRecords.Binary64.Shortest
/-!
How numbers are written. Both layouts write the shortest digits: a JSON text is positional for
decimal exponents from -5 to 15, always with a fraction, and scientific elsewhere; a plain text is
always positional and writes a whole number without a fraction.
-/

namespace ClientRecords

namespace Decimal

/-- The digits of a decimal, most significant first. -/
def digitChars (d : Decimal) : List Char := Nat.toDigits 10 d.digits

/-- The exponent of the leading digit. -/
def leading (d : Decimal) : Int := d.digitChars.length - 1 + d.exponent

/-- The whole part and the fraction of the positional form. -/
def split (d : Decimal) : List Char × List Char :=
  let cs := d.digitChars
  if 0 ≤ d.exponent then (cs ++ List.replicate d.exponent.toNat '0', [])
  else
    let places := (-d.exponent).toNat
    if places < cs.length then (cs.take (cs.length - places), cs.drop (cs.length - places))
    else (['0'], List.replicate (places - cs.length) '0' ++ cs)

/-- The positional form, a whole number being followed by `whole`. -/
def positional (whole : List Char) (d : Decimal) : List Char :=
  match d.split with
  | (units, []) => units ++ whole
  | (units, fraction) => units ++ '.' :: fraction

/-- One digit, the others as a fraction, and the exponent with its sign. -/
def scientific (d : Decimal) : List Char :=
  let mantissa := match d.digitChars with
    | [] => []
    | [c] => [c]
    | c :: cs => c :: '.' :: cs
  let sign := if d.leading < 0 then '-' else '+'
  mantissa ++ 'e' :: sign :: Nat.toDigits 10 d.leading.natAbs

/-- Positional for leading exponents from -5 to 15, scientific elsewhere. -/
def json (d : Decimal) : List Char :=
  if -5 ≤ d.leading ∧ d.leading ≤ 15 then d.positional ['.', '0'] else d.scientific

end Decimal

namespace Binary64

/-- A minus sign before what is negative. -/
def withSign (negative : Bool) (cs : List Char) : String :=
  String.ofList (if negative then '-' :: cs else cs)

/-- Halfway between two shortest decimals, a JSON text takes the even one. -/
def jsonText : Binary64 → String
  | .nan => "NaN"
  | .infinite s => withSign s ['i', 'n', 'f']
  | .finite s m => withSign s (m.shortest .toEven).json

/-- Whole numbers have no fraction, zero has no sign, and halfway between two shortest decimals
the greater magnitude is taken. -/
def plainText : Binary64 → String
  | .nan => "NaN"
  | .infinite s => withSign s ['i', 'n', 'f']
  | .finite s m => withSign (s && m.units != 0) ((m.shortest .up).positional [])

end Binary64
end ClientRecords
