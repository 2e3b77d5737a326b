import ClientRecords.Query.Projection
import ClientRecords.Statement.Reader
/-!
Queries read from texts: `SELECT items FROM table [alias] joins clauses`. The joins end at the
first clause, and the clauses may come in any order; of clauses of one kind the first counts. A
text that is not of this form is no query.
-/

namespace ClientRecords
namespace OpenQuery

/-- The words that open a clause after the joins. -/
def clauseKeywords : List Keyword := [.where, .group, .order, .limit, .offset]

/-- The words that are no alias of a table. -/
def reserved : List Keyword := clauseKeywords ++ [.left, .inner, .join, .on, .outer, .cross]

def isClauseKeyword (t : Token) : Bool := t.isAny clauseKeywords

/-- The alias of a table at the start of a list, and the tokens after it. -/
def takeAlias : List Token → Option String × List Token
  | [] => (none, [])
  | t :: ts =>
    if t.is .as then (ts.head?.bind Token.word?, ts.tail)
    else match t with
      | .word w => if t.isAny reserved then (none, t :: ts) else (some w, ts)
      | _ => (none, t :: ts)

/-- The words that open a join before the word `JOIN`. -/
def joinModifiers : List Keyword := [.left, .inner, .cross]

/-- Does a token start a join, given the one before it? -/
def startsJoin (before : Option Token) (t : Token) : Bool :=
  t.isAny joinModifiers || (t.is .join && !before.any (·.isAny (.outer :: joinModifiers)))

/-- The tokens before the first join, and those of each join. -/
def joinSegments : Option Token → List Token → List Token × List (List Token)
  | _, [] => ([], [])
  | before, t :: ts =>
    let (lead, segments) := joinSegments (some t) ts
    if startsJoin before t then ([], (t :: lead) :: segments) else (t :: lead, segments)

/-- The alias of a joined table at the start of a list, and the tokens after it. -/
def takeJoinAlias : List Token → Option String × List Token
  | .word a :: .word shortName :: ts =>
    if Token.is .as (.word a) then (some shortName, ts)
    else if Token.is .on (.word a) then (none, .word a :: .word shortName :: ts)
    else (some a, .word shortName :: ts)
  | .word a :: ts => if Token.is .on (.word a) then (none, .word a :: ts) else (some a, ts)
  | ts => (none, ts)

/-- The condition `ON left = right` of a join; what follows it is not looked at. -/
def joinOn? (table : String) (shortName : Option String) : List Token → Option Join
  | on :: .word left :: .comparison .eq :: .word right :: _ =>
    if on.is .on then
      some ⟨table, shortName, Token.bareField left, Token.bareField right⟩
    else none
  | _ => none

/-- A join from its table on. -/
def joinOf? : List Token → Option Join
  | .word table :: ts =>
    let (shortName, ts) := takeJoinAlias ts
    joinOn? (Text.lowercase table) shortName ts
  | _ => none

/-- The join of a segment; only `LEFT [OUTER] JOIN` is one. -/
def join? : List Token → Option Join
  | l :: o :: ts =>
    if !l.is .left then none
    else if o.is .join then joinOf? ts
    else if o.is .outer && ts.head?.any (·.is .join) then joinOf? ts.tail
    else none
  | _ => none

/-- The joins of the tokens after the table; segments of another form are left out. -/
def readJoins (ts : List Token) : List Join := (joinSegments none ts).2.filterMap join?

/-- A clause opened by a keyword: the number of placeholders before its body, and the tokens from
its body on. The word `BY` is not part of the body. -/
def findClause? (k : Keyword) (seen : Nat) (ts : List Token) : Option (Nat × List Token) :=
  match Token.breakTopLevel (·.is k) ts with
  | (_, []) => none
  | (before, _ :: body) =>
    some (seen + Token.placeholders before, if body.head?.any (·.is .by) then body.tail else body)

/-- The tokens of a clause up to the next one. -/
def bodyOf (ts : List Token) : List Token := (Token.breakTopLevel isClauseKeyword ts).1

/-- The key that rows are sorted by: the first of the keys, ascending unless `DESC` follows it. -/
def sortKey? (ts : List Token) : Option SortKey :=
  let key := (Token.splitCommas ts).headD []
  let (expr, direction) : List Token × Direction :=
    match key.getLast? with
    | some last =>
      if last.is .desc then (key.dropLast, .descending)
      else if last.is .asc then (key.dropLast, .ascending)
      else (key, .ascending)
    | none => (key, .ascending)
  match expr with
  | [] => none
  | [.word w] => some ⟨Token.bareField w, direction⟩
  | ts => some ⟨Token.render ts, direction⟩

/-- The query of a list of tokens; none if they do not have the form of one. -/
def ofTokens? (ts : List Token) : Option OpenQuery := do
  if !OpenStatement.startsWith .select ts then none
  let (shown, source) := Token.breakTopLevel (·.is .from) ts.tail
  let name ← source.tail.head?
  let table ← name.word?
  if name.isAny reserved then none
  let (shortName, rest) := takeAlias (source.drop 2)
  let (joinTokens, clauses) := Token.breakTopLevel isClauseKeyword rest
  let seen := Token.placeholders ts - Token.placeholders clauses
  let find (k : Keyword) := findClause? k seen clauses
  return {
    projection := Projection.ofTokens shown
    table := Text.lowercase table
    shortName := shortName
    joins := readJoins joinTokens
    clause := match find .where with
      | some (next, body) => Clause.ofTokens next (bodyOf body)
      | none => .always
    orderBy := (find .order).bind fun (_, body) => sortKey? (bodyOf body)
    limit := (find .limit).bind fun (next, body) => body.head?.bind (·.operand? next)
    offset := (find .offset).bind fun (next, body) => body.head?.bind (·.operand? next) }

/-- The query of a text, before its parameters are bound. -/
def ofText (text : String) : Except StoreError (Option OpenQuery) :=
  match Token.scan? text with
  | none => .error .openQuote
  | some tokens => .ok (ofTokens? (OpenStatement.trimSemicolons tokens))

end OpenQuery

namespace Query

/-- The query of a text under given parameters; none if the text does not have the form of one. -/
def ofText (text : String) (mode : Mode) (params : List Value) :
    Except StoreError (Option Query) := do
  match ← OpenQuery.ofText text with
  | some q => return some (← q.bind mode params)
  | none => return none

end Query
end ClientRecords
