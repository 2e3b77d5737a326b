import ClientRecords.Statement.Basic
import ClientRecords.Text.Blank
import ClientRecords.Token.Scanner
/-!
Statements read from texts. The blanks of a text are collapsed and its tokens cut; the first word
tells what kind of statement it is, and anything that does not insert, update or delete is a read.
-/

namespace ClientRecords
namespace OpenStatement

/-- The tokens of a statement without the semicolons at its end. -/
def trimSemicolons (ts : List Token) : List Token :=
  (ts.reverse.dropWhile (· == .semicolon)).reverse

/-- Does a list start with a keyword? -/
def startsWith (k : Keyword) (ts : List Token) : Bool := ts.head?.any (·.is k)

/-- The table that a list starts with, in lower case. -/
def table? (ts : List Token) : Option String := (ts.head?.bind Token.word?).map Text.lowercase

/-- A column of an insert. -/
def column? : List Token → Option String
  | [.word w] => some (Token.bareField w)
  | _ => none

/-- The items of a list of values, placeholders being counted from `next` on; none if one of them
is not a value. -/
def sources? : Nat → List (List Token) → Option (List FieldSource)
  | _, [] => some []
  | next, [.placeholder] :: items => (sources? (next + 1) items).map (.operand (.param next) :: ·)
  | next, [t] :: items => do
    let x ← if t.is .currentTimestamp then some .stamp
      else t.literal?.map fun v => .operand (.literal v)
    let xs ← sources? next items
    return x :: xs
  | _, _ => none

/-- The fields of a new record. Columns take the values of their own items; if these do not match
the columns in number, or one of them is not a value, the columns take the parameters in order. -/
def fieldSources (columns : List String) (items : List (List Token)) :
    List (String × FieldSource) :=
  match sources? 0 items with
  | some xs =>
    if xs.length = columns.length then columns.zip xs
    else columns.mapIdx fun k name => (name, .operand (.param k))
  | none => columns.mapIdx fun k name => (name, .operand (.param k))

/-- The words `OR IGNORE` at the start of a list, if it starts with `OR`. -/
def takeModifier (all ts : List Token) : Except StoreError (Bool × List Token) :=
  if startsWith .or ts then
    if startsWith .ignore ts.tail then .ok (true, ts.tail.tail)
    else .error (.malformed .insertModifier all)
  else .ok (false, ts)

/-- `INSERT [OR IGNORE] INTO table (columns) VALUES (items)`; what follows is not looked at. -/
def readInsert (all : List Token) : Except StoreError OpenStatement := do
  let fail {α : Type} (d : Defect) : Except StoreError α := .error (.malformed d all)
  let (orIgnore, ts) ← takeModifier all all.tail
  if !startsWith .into ts then fail .missingInto
  let some table := table? ts.tail | fail .missingTable
  let some (columnTokens, ts) := Token.parenthesised? (ts.drop 2) | fail .missingColumns
  let some columns := (Token.splitCommas columnTokens).mapM column? | fail .badColumns
  if !startsWith .values ts then fail .missingValues
  let some (itemTokens, _) := Token.parenthesised? ts.tail | fail .missingValuesList
  return .insert table orIgnore (fieldSources columns (Token.splitCommas itemTokens))

/-- Assignments read one after the other, with the number of the next parameter. An assignment that
mentions the current time is left out, for every update writes its own stamp. -/
def readAssignments (all : List Token) :
    Nat → List (List Token) → Except StoreError (List (String × Operand) × Nat)
  | next, [] => .ok ([], next)
  | next, (.word field :: .comparison .eq :: t :: ts) :: rest =>
    if (t :: ts).any (·.is .currentTimestamp) then readAssignments all next rest
    else match t, ts with
      | .placeholder, [] => do
        let (xs, last) ← readAssignments all (next + 1) rest
        return ((Token.bareField field, .param next) :: xs, last)
      | t, [] =>
        match t.literal? with
        | some v => do
          let (xs, last) ← readAssignments all next rest
          return ((Token.bareField field, .literal v) :: xs, last)
        | none => .error (.malformed .badValue all)
      | _, _ => .error (.malformed .unsupportedExpression all)
  | _, _ :: _ => .error (.malformed .badAssignment all)

/-- `UPDATE table SET assignments [WHERE clause]`. The parameters of the clause follow those of the
assignments. -/
def readUpdate (all : List Token) : Except StoreError OpenStatement := do
  let some table := table? all.tail | .error (.malformed .missingTable all)
  if !startsWith .set (all.drop 2) then .error (.malformed .missingSet all)
  let (setTokens, whereTokens) := Token.breakTopLevel (·.is .where) (all.drop 3)
  if setTokens.isEmpty then .error (.malformed .emptySet all)
  let (assignments, next) ← readAssignments all 0 (Token.splitCommas setTokens)
  return .update table assignments (Clause.ofTokens next whereTokens.tail)

/-- `DELETE FROM table [WHERE clause]`. -/
def readDelete (all : List Token) : Except StoreError OpenStatement := do
  if !startsWith .from all.tail then .error (.malformed .missingFrom all)
  let some table := table? (all.drop 2) | .error (.malformed .missingTable all)
  match all.drop 3 with
  | [] => return .delete table .always
  | t :: ts =>
    if t.is .where then return .delete table (Clause.ofTokens 0 ts)
    else .error (.malformed .missingWhere all)

/-- The statement of a text, before its parameters are bound. -/
def ofText (source : String) : Except StoreError OpenStatement :=
  let text := Text.collapse source
  match Token.scan? text with
  | none => .error .openQuote
  | some tokens =>
    let ts := trimSemicolons tokens
    if startsWith .insert ts then readInsert ts
    else if startsWith .update ts then readUpdate ts
    else if startsWith .delete ts then readDelete ts
    else .ok (.select text)

end OpenStatement

namespace Statement

/-- The statement of a text under given parameters, at the time of a stamp. -/
def ofText (source : String) (mode : Mode) (params : List Value) (stamp : String) :
    Except StoreError Statement := do
  (← OpenStatement.ofText source).bind mode params stamp

end Statement
end ClientRecords
