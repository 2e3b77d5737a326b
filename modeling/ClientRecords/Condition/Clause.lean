import ClientRecords.Arithmetic
import ClientRecords.Condition.Basic
import ClientRecords.Condition.PatternSize
import ClientRecords.Token.Literal
import ClientRecords.Token.Nesting
/-!
Clauses of conditions. A clause is cut at every `AND` outside of parentheses, and each part is read
by itself, before any parameter is known: as a condition with operands, as a part that asks
nothing, or as one that is not recognised. Binding the parameters then gives the conditions; a part
that is not recognised stops it in strict mode and is left out in lenient mode.
-/

namespace ClientRecords

/-- What becomes of a part of a clause that is not recognised. -/
inductive Mode where
  | lenient
  | strict
  deriving DecidableEq

/-- A check whose operands are not bound yet. -/
inductive OpenCheck where
  | compare (op : Comparison) (x : Operand)
  | like (x : Operand)
  | isNull
  | isNotNull
  | inSet (items : List Operand)
  | notInSet (items : List Operand)
  deriving DecidableEq

/-- One part of a clause. -/
inductive Fragment where
  | condition (field : String) (check : OpenCheck)
  | ignored
  | unrecognized (tokens : List Token)
  deriving DecidableEq

namespace Fragment

/-- The functions on dates, whose parts of a clause ask nothing. -/
def dateFunctions : List Keyword := [.strftime, .date, .datetime, .julianday]

/-- Is a function on dates called anywhere? -/
def callsDate : List Token → Bool
  | f :: .openParen :: ts => f.isAny dateFunctions || callsDate (.openParen :: ts)
  | _ :: ts => callsDate ts
  | [] => false

/-- The pattern of a check: a placeholder or a string. -/
def pattern? (next : Nat) : Token → Option OpenCheck
  | .placeholder => some (.like (.param next))
  | .string s => some (.like (.literal (.string s)))
  | _ => none

/-- The items of a set: placeholders, counted from `next` on, and spelled out values. -/
def items? : Nat → List (List Token) → Option (List Operand)
  | _, [] => some []
  | next, [.placeholder] :: parts => (items? (next + 1) parts).map (.param next :: ·)
  | next, [t] :: parts => do
    let v ← t.literal?
    let xs ← items? next parts
    return .literal v :: xs
  | _, _ => none

/-- The items of a set within parentheses. -/
def set? (next : Nat) : List Token → Option (List Operand)
  | .openParen :: ts =>
    if ts.getLast? = some .closeParen then items? next (Token.splitCommas ts.dropLast) else none
  | _ => none

/-- The check that follows the field, `next` being the number of the next parameter. -/
def check? (next : Nat) : List Token → Option OpenCheck
  | [.comparison op, x] => (x.operand? next).map (.compare op)
  | [a, b] =>
    if a.is .is && b.is .null then some .isNull
    else if a.is .like then pattern? next b
    else none
  | a :: b :: ts =>
    if a.is .is && b.is .not then
      if ts.length == 1 && ts.any (·.is .null) then some .isNotNull else none
    else if a.is .not && b.is .in then (set? next ts).map .notInSet
    else if a.is .in then (set? next (b :: ts)).map .inSet
    else none
  | _ => none

/-- Is the part a comparison of two spelled out values that holds? -/
def holdsAlways : List Token → Bool
  | [l, .comparison op, r] =>
    match l.literal?, r.literal? with
    | some a, some b =>
      match op with
      | .eq => a.text == b.text
      | .ne => a.text != b.text
      | _ => false
    | _, _ => false
  | _ => false

/-- A part of a clause, `next` being the number of its first parameter. -/
def ofTokens (next : Nat) (ts : List Token) : Fragment :=
  if callsDate ts then .ignored
  else match ts.head?.bind Token.field? with
    | some field =>
      match check? next ts.tail with
      | some check => .condition field check
      | none => .unrecognized ts
    | none => if holdsAlways ts then .ignored else .unrecognized ts

end Fragment

/-- The parts of a clause in order; none if the clause is empty. -/
structure Clause where
  fragments : List Fragment
  deriving DecidableEq

namespace OpenCheck

/-- The check with the parameters in place of their operands. -/
def bind (params : List Value) : OpenCheck → Except StoreError Check
  | .compare op x => .ok (.compare op (x.value params))
  | .like x =>
    let source := (x.value params).text
    match Pattern.ofText? source with
    | some p => .ok (.like p)
    | none => .error (.patternTooLarge source)
  | .isNull => .ok .isNull
  | .isNotNull => .ok .isNotNull
  | .inSet xs => .ok (.inSet (xs.map fun x => (x.value params).text))
  | .notInSet xs => .ok (.notInSet (xs.map fun x => (x.value params).text))

end OpenCheck

namespace Clause

/-- The parts that a clause is cut into. -/
def parts (ts : List Token) : List (List Token) :=
  if ts.isEmpty then [] else Token.splitTopLevel (·.is .and) ts

/-- Reads parts one after the other; each takes the numbers of its own placeholders. -/
def readParts : Nat → List (List Token) → List Fragment
  | _, [] => []
  | next, part :: rest =>
    Fragment.ofTokens next part :: readParts (next + Token.placeholders part) rest

/-- The clause of a list of tokens, `next` being the number of its first parameter. -/
def ofTokens (next : Nat) (ts : List Token) : Clause := ⟨readParts next (parts ts)⟩

/-- How many parameters the parts of a clause take. -/
def consumed (ts : List Token) : Nat := total ((parts ts).map Token.placeholders)

/-- The conditions of parts of a clause under given parameters. -/
def bindFragments (mode : Mode) (params : List Value) :
    List Fragment → Except StoreError (List Condition)
  | [] => .ok []
  | .condition field check :: fs => do
    let check ← check.bind params
    let rest ← bindFragments mode params fs
    return ⟨field, check⟩ :: rest
  | .ignored :: fs => bindFragments mode params fs
  | .unrecognized ts :: fs =>
    match mode with
    | .strict => .error (.unsupportedFragment ts)
    | .lenient => bindFragments mode params fs

/-- The conditions of a clause under given parameters. -/
def bind (c : Clause) (mode : Mode) (params : List Value) : Except StoreError (List Condition) :=
  bindFragments mode params c.fragments

/-- A clause that asks nothing. -/
def always : Clause := ⟨[]⟩

end Clause
end ClientRecords
