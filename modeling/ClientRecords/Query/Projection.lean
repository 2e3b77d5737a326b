import ClientRecords.Query.Basic
import ClientRecords.Token.Nesting
/-!
What the list between `SELECT` and `FROM` asks for. Each item is an expression with an optional
name; the items decide by their number and form, and a list of any other form asks for the rows.
-/

namespace ClientRecords
namespace Projection

/-- An item cut into its expression and its name, which follows `AS` or a closing parenthesis. -/
def splitAlias (item : List Token) : List Token × Option String :=
  match item.reverse with
  | .word shortName :: before :: rest =>
    if before.is .as && !rest.isEmpty then (rest.reverse, some shortName)
    else if before == .closeParen then ((before :: rest).reverse, some shortName)
    else (item, none)
  | _ => (item, none)

/-- The arguments of a call that is the whole expression. -/
def arguments? (f : Keyword) : List Token → Option (List Token)
  | t :: ts =>
    if t.is f then
      match Token.parenthesised? ts with
      | some (args, []) => some args
      | _ => none
    else none
  | [] => none

/-- Is the expression a count of one argument? -/
def isCount (ts : List Token) : Bool := (arguments? .count ts).any (·.length == 1)

/-- The field of a sum. -/
def plainSum? (ts : List Token) : Option String :=
  match arguments? .sum ts with
  | some [.word field] => some (Token.bareField field)
  | _ => none

/-- The field of a sum, which may come with a number to take in place of null. -/
def sum? (ts : List Token) : Option String :=
  match arguments? .coalesce ts with
  | some args =>
    match Token.splitCommas args with
    | [inner, [.number _]] => plainSum? inner
    | _ => none
  | none => plainSum? ts

/-- The format and the field of a date. -/
def trend? (ts : List Token) : Option (String × String) :=
  match arguments? .strftime ts with
  | some [.string format, .comma, .word field] => some (format, Token.bareField field)
  | _ => none

/-- The sums that one or two items ask for, each named after its field unless it has a name. -/
def sums? (items : List (List Token × Option String)) : Option (List SumColumn) :=
  if items.length == 1 || items.length == 2 then
    items.mapM fun (ts, shortName) => (sum? ts).map fun field => ⟨field, shortName.getD field⟩
  else none

/-- The projection that a pair of a key and a count asks for. -/
def keyed? (key : List Token) (keyAlias countAlias : Option String) : Option Projection :=
  match trend? key with
  | some (format, field) =>
    some (.trend format field (keyAlias.getD "period") (countAlias.getD "count"))
  | none =>
    match key with
    | [.word field] => some (.groups (Token.bareField field) (countAlias.getD "count"))
    | _ => none

/-- The projection that counting asks for, alone or beside a key. -/
def counted? : List (List Token × Option String) → Option Projection
  | [(ts, shortName)] => if isCount ts then some (.count (shortName.getD "count")) else none
  | [(key, keyAlias), (ts, shortName)] => if isCount ts then keyed? key keyAlias shortName else none
  | _ => none

/-- The projection of the tokens between `SELECT` and `FROM`. -/
def ofTokens (ts : List Token) : Projection :=
  let items := (Token.splitCommas ts).map splitAlias
  match counted? items with
  | some p => p
  | none =>
    match sums? items with
    | some columns => .sums columns
    | none => .rows

end Projection
end ClientRecords
