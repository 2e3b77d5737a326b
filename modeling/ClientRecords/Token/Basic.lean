import ClientRecords.Text.Lowercase
/-!
The tokens of a statement and the text that shows a list of tokens again.
-/

namespace ClientRecords

/-- The comparison operators. -/
inductive Comparison where
  | eq
  | ne
  | gt
  | ge
  | lt
  | le
  deriving DecidableEq

/-- The words with a meaning of their own somewhere in a statement. -/
inductive Keyword where
  | and | as | asc | by | coalesce | count | cross | currentTimestamp | date | datetime | delete
  | desc | false | from | group | ignore | in | inner | insert | into | is | join | julianday | left
  | like | limit | not | null | offset | on | or | order | outer | select | set | strftime | sum
  | true | update | values | where
  deriving DecidableEq

/-- A token of a statement. A word is a plain name or keyword, or a quoted name; a string is held
without its quotes, and a number as it is written. -/
inductive Token where
  | word (name : String)
  | string (text : String)
  | number (digits : String)
  | placeholder
  | comparison (op : Comparison)
  | openParen
  | closeParen
  | comma
  | star
  | semicolon
  | other (c : Char)
  deriving DecidableEq

namespace Comparison

def symbol : Comparison → String
  | .eq => "="
  | .ne => "!="
  | .gt => ">"
  | .ge => ">="
  | .lt => "<"
  | .le => "<="

end Comparison

namespace Keyword

/-- The lower case spelling of a keyword. -/
def spelling : Keyword → String
  | .and => "and"
  | .as => "as"
  | .asc => "asc"
  | .by => "by"
  | .coalesce => "coalesce"
  | .count => "count"
  | .cross => "cross"
  | .currentTimestamp => "current_timestamp"
  | .date => "date"
  | .datetime => "datetime"
  | .delete => "delete"
  | .desc => "desc"
  | .false => "false"
  | .from => "from"
  | .group => "group"
  | .ignore => "ignore"
  | .in => "in"
  | .inner => "inner"
  | .insert => "insert"
  | .into => "into"
  | .is => "is"
  | .join => "join"
  | .julianday => "julianday"
  | .left => "left"
  | .like => "like"
  | .limit => "limit"
  | .not => "not"
  | .null => "null"
  | .offset => "offset"
  | .on => "on"
  | .or => "or"
  | .order => "order"
  | .outer => "outer"
  | .select => "select"
  | .set => "set"
  | .strftime => "strftime"
  | .sum => "sum"
  | .true => "true"
  | .update => "update"
  | .values => "values"
  | .where => "where"

end Keyword

namespace Token

/-- Is the token a keyword? The case of the letters A to Z is free, and quotes around a word make
no difference. -/
def is (k : Keyword) : Token → Bool
  | .word w => Text.asciiLowercase w == k.spelling
  | _ => false

/-- Is the token one of some keywords? -/
def isAny (ks : List Keyword) (t : Token) : Bool := ks.any fun k => t.is k

def word? : Token → Option String
  | .word w => some w
  | _ => none

/-- A string within single quotes, its own quotes written twice. -/
def quoted (s : String) : String :=
  "'" ++ String.ofList (s.toList.flatMap fun c => if c = '\'' then ['\'', '\''] else [c]) ++ "'"

/-- The text of a token. -/
def text : Token → String
  | .word w => w
  | .string s => quoted s
  | .number n => n
  | .placeholder => "?"
  | .comparison op => op.symbol
  | .openParen => "("
  | .closeParen => ")"
  | .comma => ","
  | .star => "*"
  | .semicolon => ";"
  | .other c => String.singleton c

/-- Does a token stand close to the one before it? -/
def closeUp (before t : Token) : Bool :=
  t == .comma || t == .closeParen || before == .openParen

/-- The text of the tokens that follow a token. -/
def renderAfter : Token → List Token → String
  | _, [] => ""
  | before, t :: ts => (if closeUp before t then "" else " ") ++ t.text ++ renderAfter t ts

/-- The text of a list of tokens, a space standing between two that do not close up. -/
def render : List Token → String
  | [] => ""
  | t :: ts => t.text ++ renderAfter t ts

/-- The number of placeholders. -/
def placeholders (ts : List Token) : Nat := ts.countP (· == .placeholder)

/-- A name without the qualifier that ends at its last point. -/
def bareField (name : String) : String :=
  String.ofList (name.toList.reverse.takeWhile (· != '.')).reverse

end Token
end ClientRecords
