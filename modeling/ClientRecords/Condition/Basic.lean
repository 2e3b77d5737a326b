import ClientRecords.Condition.Pattern
import ClientRecords.Error
import ClientRecords.Record
/-!
Conditions on single rows. Equality, sets and patterns go by the loose text of a field, which is
empty where the field is missing; the other comparisons go by the natural order.
-/

namespace ClientRecords

/-- What a condition asks of its field. -/
inductive Check where
  | compare (op : Comparison) (value : Value)
  | like (pattern : Pattern)
  | isNull
  | isNotNull
  | inSet (texts : List String)
  | notInSet (texts : List String)
  deriving DecidableEq

structure Condition where
  field : String
  check : Check
  deriving DecidableEq

namespace Comparison

/-- The orderings of a field beside an operand that an ordering comparison accepts. -/
def accepts : Comparison → Ordering → Bool
  | .gt, o => o == .gt
  | .ge, o => o != .lt
  | .lt, o => o == .lt
  | .le, o => o != .gt
  | .eq, o => o == .eq
  | .ne, o => o != .eq

/-- Does a field, which may be missing, stand in a comparison to a value? -/
def holds (op : Comparison) (field : Option Value) (value : Value) : Bool :=
  match op with
  | .eq => (field.elim "" Value.text) == value.text
  | .ne => (field.elim "" Value.text) != value.text
  | op => ((field.bind (·.compare? value)).map op.accepts).getD false

end Comparison

namespace Check

/-- Does a field, which may be missing, pass a check? -/
def passes (field : Option Value) : Check → Bool
  | .compare op value => op.holds field value
  | .like pattern => pattern.covers (field.elim "" Value.text)
  | .isNull => field.all Value.isNull
  | .isNotNull => field.any (!·.isNull)
  | .inSet texts => texts.contains (field.elim "" Value.text)
  | .notInSet texts => !texts.contains (field.elim "" Value.text)

end Check

namespace Condition

def holds (c : Condition) (r : Record) : Bool := c.check.passes (r.get? c.field)

end Condition

namespace Record

/-- Does a row satisfy all conditions? -/
def satisfies (r : Record) (cs : List Condition) : Bool := cs.all (·.holds r)

end Record
end ClientRecords
