import ClientRecords.Proofs.Token.Spelling
import ClientRecords.Query.Reader
/-!
Queries written out: names and fields, the list of what is shown, joins, conditions with the values
of their parameters, and the clauses in any order. Every part comes with its tokens, the values of
its placeholders and what it asks for. The parts carry the proofs that they are well formed, so any
of them can be put together.
-/

namespace ClientRecords

open Token

namespace Written

/-- The words that stand for themselves wherever a name may stand. -/
def keywords : List Keyword :=
  OpenQuery.reserved ++ [.as, .by, .from, .and, .null, .true, .false]

/-- A plain name: no keyword, and without a point. -/
structure Name where
  text : String
  plain : (Token.word text).isPlain = true
  bare : '.' ∉ text.toList
  free : (Token.word text).isAny keywords = false

/-- A field, perhaps with the name of its table before it. -/
structure Field where
  qualifier : Option Name
  name : Name

/-- A table by its name in lower case. -/
structure TableName where
  name : Name
  lower : name.text.toList.any Char.isUpper = false

/-- An alias, with or without the word `AS` before it. -/
structure Alias where
  name : Name
  marked : Bool

/-- A table with an optional alias. -/
structure Source where
  table : TableName
  shortName : Option Alias

/-- `LEFT [OUTER] JOIN source ON left = right`. -/
structure Join where
  outer : Bool
  source : Source
  left : Field
  right : Field

/-- A sum and its name. -/
structure Sum where
  field : Field
  name : Name

/-- What is shown: the rows, their number, one or two sums, or their number by the value of a field
or by date. -/
inductive Shown where
  | rows
  | count (name : Name)
  | sums (first : Sum) (second : Option Sum)
  | groups (field : Field) (countName : Name)
  | trend (format : String) (field : Field) (keyName countName : Name)

/-- What a condition asks of its field, with the values of its placeholders. -/
inductive Test where
  | compare (op : Comparison) (value : Value)
  | like (value : Value) (pattern : Pattern) (compiles : Pattern.ofText? value.text = some pattern)
  | isNull
  | isNotNull
  | inSet (value : Value) (values : List Value)
  | notInSet (value : Value) (values : List Value)

structure Condition where
  field : Field
  test : Test

/-- A number of rows that a floating point number can hold. -/
structure Bound where
  rows : Nat
  exact : rows ≤ pow2 53

/-- The clauses behind the joins. -/
inductive ClauseKind where
  | conditions
  | groups
  | order
  | limit
  | offset
  deriving DecidableEq

/-- A query as it is written, its clauses in the order of `kinds`. A clause may be written again;
the first of its kind counts. -/
structure Select where
  shown : Shown
  source : Source
  joins : List Join
  conditions : List Condition
  groups : List Field
  orderBy : Option (Field × Direction)
  limit : Option Bound
  offset : Option Bound
  kinds : List ClauseKind
  complete : ∀ k, k ∈ kinds

/-! ### Tokens -/

def Name.token (n : Name) : Token := .word n.text

def Field.word (f : Field) : String :=
  match f.qualifier with
  | some q => q.text ++ "." ++ f.name.text
  | none => f.name.text

def Field.token (f : Field) : Token := .word f.word

def Alias.tokens (a : Alias) : List Token :=
  if a.marked then [.word "AS", a.name.token] else [a.name.token]

def Source.aliasTokens (s : Source) : List Token := s.shortName.elim [] Alias.tokens

def Source.tokens (s : Source) : List Token := s.table.name.token :: s.aliasTokens

def Join.lead (j : Join) : List Token :=
  if j.outer then [.word "LEFT", .word "OUTER", .word "JOIN"] else [.word "LEFT", .word "JOIN"]

def Join.tokens (j : Join) : List Token :=
  j.lead ++ j.source.tokens ++ [.word "ON", j.left.token, .comparison .eq, j.right.token]

def countTokens (n : Name) : List Token :=
  [.word "COUNT", .openParen, .star, .closeParen, .word "AS", n.token]

def Sum.tokens (s : Sum) : List Token :=
  [.word "COALESCE", .openParen, .word "SUM", .openParen, s.field.token, .closeParen, .comma,
    .number "0", .closeParen, .word "AS", s.name.token]

def dateTokens (format : String) (f : Field) (n : Name) : List Token :=
  [.word "strftime", .openParen, .string format, .comma, f.token, .closeParen, .word "AS", n.token]

/-- The items that are shown. -/
def Shown.items : Shown → List (List Token)
  | .rows => [[.star]]
  | .count n => [countTokens n]
  | .sums first second => first.tokens :: (second.map Sum.tokens).toList
  | .groups f n => [[f.token], countTokens n]
  | .trend format f k n => [dateTokens format f k, countTokens n]

def Shown.tokens (s : Shown) : List Token := List.intercalate [.comma] s.items

/-- Placeholders within parentheses, one more than a number. -/
def setTokens (more : Nat) : List Token :=
  .openParen :: List.intercalate [.comma] (List.replicate (more + 1) [.placeholder])
    ++ [.closeParen]

def Test.tokens : Test → List Token
  | .compare op _ => [.comparison op, .placeholder]
  | .like .. => [.word "LIKE", .placeholder]
  | .isNull => [.word "IS", .word "NULL"]
  | .isNotNull => [.word "IS", .word "NOT", .word "NULL"]
  | .inSet _ vs => .word "IN" :: setTokens vs.length
  | .notInSet _ vs => .word "NOT" :: .word "IN" :: setTokens vs.length

def Condition.tokens (c : Condition) : List Token := c.field.token :: c.test.tokens

def directionToken : Direction → Token
  | .ascending => .word "ASC"
  | .descending => .word "DESC"

namespace ClauseKind

def keyword : ClauseKind → Keyword
  | .conditions => .where
  | .groups => .group
  | .order => .order
  | .limit => .limit
  | .offset => .offset

/-- The words that open a clause. -/
def lead : ClauseKind → List Token
  | .conditions => [.word "WHERE"]
  | .groups => [.word "GROUP", .word "BY"]
  | .order => [.word "ORDER", .word "BY"]
  | .limit => [.word "LIMIT"]
  | .offset => [.word "OFFSET"]

end ClauseKind

namespace Select

/-- The tokens of a clause behind its words; a clause without any is left out. -/
def body (q : Select) : ClauseKind → List Token
  | .conditions => List.intercalate [.word "AND"] (q.conditions.map Condition.tokens)
  | .groups => List.intercalate [.comma] (q.groups.map fun f => [f.token])
  | .order => q.orderBy.elim [] fun (f, d) => [f.token, directionToken d]
  | .limit => q.limit.elim [] fun _ => [.placeholder]
  | .offset => q.offset.elim [] fun _ => [.placeholder]

/-- The tokens of a clause. -/
def clause (q : Select) (k : ClauseKind) : List Token :=
  if (q.body k).isEmpty then [] else k.lead ++ q.body k

def tokens (q : Select) : List Token :=
  .word "SELECT" :: (q.shown.tokens ++ .word "FROM" :: (q.source.tokens
    ++ (q.joins.flatMap Join.tokens ++ q.kinds.flatMap q.clause)))

/-- The text of the query. -/
def text (q : Select) : String := String.ofList (spell q.tokens)

end Select

/-! ### Values of placeholders -/

def Test.values : Test → List Value
  | .compare _ v => [v]
  | .like v _ _ => [v]
  | .isNull | .isNotNull => []
  | .inSet v vs | .notInSet v vs => v :: vs

def Bound.value (b : Bound) : Value := .int (Int64.ofNat b.rows)

namespace Select

def values (q : Select) : ClauseKind → List Value
  | .conditions => q.conditions.flatMap (·.test.values)
  | .groups | .order => []
  | .limit => q.limit.toList.map Bound.value
  | .offset => q.offset.toList.map Bound.value

/-- The parameters in the order of their placeholders. -/
def params (q : Select) : List Value := q.kinds.flatMap q.values

end Select

/-! ### What is asked for -/

def Shown.projection : Shown → Projection
  | .rows => .rows
  | .count n => .count n.text
  | .sums first second =>
    .sums ((first :: second.toList).map fun s => ⟨s.field.name.text, s.name.text⟩)
  | .groups f n => .groups f.name.text n.text
  | .trend format f k n => .trend format f.name.text k.text n.text

def Source.aliasName (s : Source) : Option String := s.shortName.map (·.name.text)

def Join.join (j : Join) : ClientRecords.Join :=
  ⟨j.source.table.name.text, j.source.aliasName, j.left.name.text, j.right.name.text⟩

def Test.check : Test → Check
  | .compare op v => .compare op v
  | .like _ p _ => .like p
  | .isNull => .isNull
  | .isNotNull => .isNotNull
  | .inSet v vs => .inSet ((v :: vs).map Value.text)
  | .notInSet v vs => .notInSet ((v :: vs).map Value.text)

def Condition.condition (c : Condition) : ClientRecords.Condition :=
  ⟨c.field.name.text, c.test.check⟩

/-- The query that is written. -/
def Select.query (q : Select) : Query :=
  { projection := q.shown.projection
    table := q.source.table.name.text
    shortName := q.source.aliasName
    joins := q.joins.map Join.join
    conditions := q.conditions.map Condition.condition
    orderBy := q.orderBy.map fun (f, d) => ⟨f.name.text, d⟩
    limit := q.limit.map Bound.rows
    offset := q.offset.map Bound.rows }

end Written
end ClientRecords
