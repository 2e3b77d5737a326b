import ClientRecords.Binary64.Basic
import ClientRecords.Text.Digits
/-!
Numbers read from free text: an optional sign, then digits with an optional fraction and an
optional exponent, at least one digit standing before the exponent; or one of the names of the
values that are not numerals, in any case.
-/

namespace ClientRecords
namespace Binary64

/-- An optional sign in front of a text; true for a minus. -/
def takeSign : List Char → Bool × List Char
  | '-' :: cs => (true, cs)
  | '+' :: cs => (false, cs)
  | cs => (false, cs)

/-- An exponent after its letter: an optional sign and one or more digits, nothing else. -/
def exponent? (cs : List Char) : Option Int :=
  match takeSign cs with
  | (_, []) => none
  | (negative, ds) =>
    if ds.all Char.isDigit then some (signed negative (Text.digitsValue 10 ds)) else none

/-- The digits after a decimal point, if there is one, and what follows them. -/
def takeFraction : List Char → List Char × List Char
  | '.' :: cs => cs.span Char.isDigit
  | cs => ([], cs)

/-- An unsigned numeral. -/
def numeral? (negative : Bool) (cs : List Char) : Option Binary64 :=
  let (whole, rest) := cs.span Char.isDigit
  let (fraction, rest) := takeFraction rest
  let value (e : Int) :=
    ofDecimal negative (Text.digitsValue 10 (whole ++ fraction)) (e - fraction.length)
  if whole.isEmpty && fraction.isEmpty then none
  else match rest with
    | [] => some (value 0)
    | c :: ds => if c == 'e' || c == 'E' then (exponent? ds).map value else none

/-- The number that a text denotes, surrounding blanks not being part of it. -/
def ofChars? (cs : List Char) : Option Binary64 :=
  let (negative, body) := takeSign cs
  let name := String.ofList (body.map Char.toLower)
  if name == "nan" then some .nan
  else if name == "inf" || name == "infinity" then some (.infinite negative)
  else numeral? negative body

def ofText? (s : String) : Option Binary64 := ofChars? s.toList

end Binary64
end ClientRecords
