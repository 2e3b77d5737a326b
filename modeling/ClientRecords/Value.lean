import ClientRecords.Binary64.Layout
import ClientRecords.Binary64.Reader
import ClientRecords.Json.Printer
import ClientRecords.Text.Blank
/-!
The values that a field of a record holds and a statement is given as parameters. A value has a
loose text, by which equality and set membership go, a numeric reading, by which order goes, and a
truth value.
-/

namespace ClientRecords

inductive Value where
  | null
  | bool (b : Bool)
  | int (i : Int64)
  | float (x : Binary64)
  | string (s : String)
  deriving DecidableEq, Inhabited

namespace Value

/-- The integer of 64 bits nearest to an integer. -/
def clampInt (i : Int) : Int64 :=
  if i < Int64.minValue.toInt then Int64.minValue
  else if Int64.maxValue.toInt < i then Int64.maxValue
  else Int64.ofInt i

/-- A computed number: whole ones from -2^63 to 2^63 are integers, and what is not a number or not
finite counts as zero. -/
def number (x : Binary64) : Value :=
  if !x.isFinite then .int 0
  else match x.toInt? with
    | some i => if i.natAbs ≤ pow2 63 then .int (clampInt i) else .float x
    | none => .float x

/-- A count. -/
def count (n : Nat) : Value := .int (clampInt n)

def isNull : Value → Bool
  | .null => true
  | _ => false

def isNumber : Value → Bool
  | .int _ | .float _ => true
  | _ => false

def kind : Value → String
  | .null => "null"
  | .bool _ => "boolean"
  | .int _ => "integer"
  | .float _ => "float"
  | .string _ => "string"

def string? : Value → Option String
  | .string s => some s
  | _ => none

/-- The loose text of a value: null has the empty text, and a whole number has the same text
whether it is an integer, a floating point number or a string. -/
def text : Value → String
  | .null => ""
  | .bool b => if b then "true" else "false"
  | .int i => toString i.toInt
  | .float x => x.plainText
  | .string s => s

/-- The text of a value for reading: as the loose text, but null is named and strings are put
between quotes. -/
def display : Value → String
  | .null => "null"
  | .string s => "\"" ++ s ++ "\""
  | v => v.text

/-- The number that a text denotes apart from surrounding blanks, zero if it denotes none. -/
def numericText (s : String) : Binary64 :=
  (Binary64.ofChars? (Text.trimChars s.toList)).getD .zero

/-- The numeric reading of a value. It is always finite; what has no such reading counts as zero. -/
def numeric (v : Value) : Binary64 :=
  let x := match v with
    | .null => .zero
    | .bool b => Binary64.ofInt (if b then 1 else 0)
    | .int i => Binary64.ofInt i.toInt
    | .float x => x
    | .string s => numericText s
  if x.isFinite then x else .zero

/-- Null, false, zero, the number that is none and the empty string are not truthy. -/
def isTruthy : Value → Bool
  | .null => false
  | .bool b => b
  | .int i => i != 0
  | .float x => !x.isZero && x != .nan
  | .string s => s != ""

/-- The natural order: strings by code points, numbers and truth values by their numeric reading.
Null, and a string beside something else, have no order. -/
def compare? : Value → Value → Option Ordering
  | .string a, .string b => some (compare a b)
  | .null, _ | _, .null => none
  | .string _, _ | _, .string _ => none
  | a, b => a.numeric.compare? b.numeric

/-- Equality of values of one kind, integers and floating point numbers being one kind. -/
def strictEq : Value → Value → Bool
  | .null, .null => true
  | .bool a, .bool b => a == b
  | .string a, .string b => a == b
  | a, b => a.isNumber && b.isNumber && a.numeric.equal b.numeric

/-- The value as JSON; what is not a finite number is null. -/
def toJson : Value → Json
  | .null => .null
  | .bool b => .bool b
  | .int i => .int i.toInt
  | .float x => if x.isFinite then .float x else .null
  | .string s => .string s

/-- A JSON value as a field: arrays and objects become their texts, and integers beyond 64 bits
floating point numbers. -/
def ofJson : Json → Value
  | .null => .null
  | .bool b => .bool b
  | .int i =>
    if Int64.minValue.toInt ≤ i ∧ i ≤ Int64.maxValue.toInt then .int (Int64.ofInt i)
    else .float (Binary64.ofInt i)
  | .float x => .float x
  | .string s => .string s
  | nested => .string nested.compact

end Value
end ClientRecords
