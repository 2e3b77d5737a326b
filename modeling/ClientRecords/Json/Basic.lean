import ClientRecords.Binary64.Basic
import ClientRecords.Entries
/-!
JSON values. Whole numbers and floating point numbers are told apart, and an object lists its
members in order. A text may repeat a name within an object; `settle` keeps such a name at its
first place with its last value.
-/

namespace ClientRecords

inductive Json where
  | null
  | bool (b : Bool)
  | int (i : Int)
  | float (x : Binary64)
  | string (s : String)
  | array (items : List Json)
  | object (members : List (String × Json))
  deriving Inhabited

namespace Json

mutual

/-- Lets the last value of a repeated name win, in every object within a value. -/
def settle : Json → Json
  | .array items => .array (settleItems items)
  | .object members => .object (Entries.putAll [] (settleMembers members))
  | .null => .null
  | .bool b => .bool b
  | .int i => .int i
  | .float x => .float x
  | .string s => .string s

def settleItems : List Json → List Json
  | [] => []
  | j :: js => settle j :: settleItems js

def settleMembers : List (String × Json) → List (String × Json)
  | [] => []
  | (name, j) :: ms => (name, settle j) :: settleMembers ms

end

def isNull : Json → Bool
  | .null => true
  | _ => false

end Json
end ClientRecords
