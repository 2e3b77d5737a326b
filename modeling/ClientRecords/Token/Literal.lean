import ClientRecords.Token.Basic
import ClientRecords.Value
/-!
The values that tokens spell out, and the names of fields. A placeholder spells out no value: it is
an operand that takes the parameter of its number.
-/

namespace ClientRecords

/-- A value written in a statement, or the parameter of a number counted from zero. -/
inductive Operand where
  | literal (v : Value)
  | param (index : Nat)
  deriving DecidableEq

namespace Operand

/-- The value of an operand; a parameter that is not given is null. -/
def value (params : List Value) : Operand → Value
  | .literal v => v
  | .param k => params.getD k .null

end Operand

namespace Token

/-- The integer of 64 bits that a number without fraction spells out. -/
def integer? (cs : List Char) : Option Int64 :=
  let (negative, ds) := match cs with
    | '-' :: ds => (true, ds)
    | ds => (false, ds)
  let i := Binary64.signed negative (Text.digitsValue 10 ds)
  if !ds.isEmpty && ds.all Char.isDigit
      && Int64.minValue.toInt ≤ i && i ≤ Int64.maxValue.toInt then some (Int64.ofInt i)
  else none

/-- The value of a number: an integer if it fits 64 bits, else the nearest floating point number. -/
def numberLiteral? (s : String) : Option Value :=
  match integer? s.toList with
  | some i => some (.int i)
  | none => (Binary64.ofText? s).map Value.number

/-- The value that a token spells out. -/
def literal? (t : Token) : Option Value :=
  match t with
  | .string s => some (.string s)
  | .number n => numberLiteral? n
  | t =>
    if t.is .null then some .null
    else if t.is .true then some (.bool Bool.true)
    else if t.is .false then some (.bool Bool.false)
    else none

/-- The operand that a token stands for, `next` being the number of the next parameter. -/
def operand? (next : Nat) : Token → Option Operand
  | .placeholder => some (.param next)
  | t => t.literal?.map .literal

/-- The field that a word names, without its qualifier; the words for values name none. -/
def field? : Token → Option String
  | .word w => if (literal? (.word w)).isNone then some (bareField w) else none
  | _ => none

end Token
end ClientRecords
