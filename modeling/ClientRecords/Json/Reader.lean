import ClientRecords.Json.Number
/-!
JSON texts read in two steps: the characters are cut into tokens, in which strings, numbers and
names stand as values already, and the tokens are put together into a value. At most 127 arrays
and objects may be open at a time. A value that is only skipped has to have the form of one; neither
its depth nor the size of its numbers matters.
-/

namespace ClientRecords.Json

/-- The tokens of a text. A string or a number may have the right form and yet no value; something
else stands in for it where values do not matter. -/
inductive Token where
  | openArray
  | closeArray
  | openObject
  | closeObject
  | comma
  | colon
  | atom (value : Json)
  | broken (standIn : Json)

/-- The number that four hexadecimal digits denote. -/
def hexUnit? (a b c d : Char) : Option Nat :=
  let ds := [a, b, c, d]
  if ds.all (Text.isDigitIn 16) then some (Text.digitsValue 16 ds) else none

/-- The character of an escape with one letter. -/
def shortEscape? : Char → Option Char
  | '"' => some '"'
  | '\\' => some '\\'
  | '/' => some '/'
  | 'b' => some '\x08'
  | 'f' => some '\x0c'
  | 'n' => some '\n'
  | 'r' => some '\r'
  | 't' => some '\t'
  | _ => none

/-- One escape after its backslash. A unit of the high half of a pair takes the low half, which
has to follow, with it. -/
def takeEscape : List Char → Option (Char × List Char)
  | 'u' :: a :: b :: c :: d :: cs => do
    let n ← hexUnit? a b c d
    if 0xDC00 ≤ n ∧ n ≤ 0xDFFF then none
    else if 0xD800 ≤ n ∧ n ≤ 0xDBFF then
      match cs with
      | '\\' :: 'u' :: e :: f :: g :: h :: rest =>
        let low ← hexUnit? e f g h
        if 0xDC00 ≤ low ∧ low ≤ 0xDFFF then
          some (Char.ofNat (0x10000 + 1024 * (n - 0xD800) + (low - 0xDC00)), rest)
        else none
      | _ => none
    else some (Char.ofNat n, cs)
  | c :: cs => (shortEscape? c).map fun x => (x, cs)
  | [] => none

/-- The rest of a string after its opening quote; a step is counted for every character. -/
def takeString : Nat → List Char → Option (List Char × List Char)
  | 0, _ => none
  | _, [] => none
  | _, '"' :: cs => some ([], cs)
  | n + 1, '\\' :: cs => do
    let (c, rest) ← takeEscape cs
    let (s, rest) ← takeString n rest
    return (c :: s, rest)
  | n + 1, c :: cs =>
    if c.toNat < 0x20 then none
    else (takeString n cs).map fun (s, rest) => (c :: s, rest)

/-- What follows a string after its opening quote, whatever characters its escapes stand for. -/
def skipString : List Char → Option (List Char)
  | '"' :: cs => some cs
  | '\\' :: 'u' :: a :: b :: c :: d :: cs =>
    if (hexUnit? a b c d).isSome then skipString cs else none
  | '\\' :: c :: cs => if (shortEscape? c).isSome then skipString cs else none
  | c :: cs => if c.toNat < 0x20 then none else skipString cs
  | [] => none

/-- The token of a string after its opening quote. -/
def stringToken (cs : List Char) : Option (Token × List Char) :=
  match takeString (cs.length + 1) cs with
  | some (s, rest) => some (.atom (.string (String.ofList s)), rest)
  | none => (skipString cs).map fun rest => (.broken (.string ""), rest)

/-- The token of a number after its sign. -/
def numberToken (negative : Bool) (cs : List Char) : Option (Token × List Char) :=
  (takeNumeral negative cs).map fun (n, rest) =>
    (n.value?.elim (.broken .null) Token.atom, rest)

def isSpace (c : Char) : Bool := c == ' ' || c == '\n' || c == '\t' || c == '\r'

/-- The token at the start of a text that does not start with a space. -/
def takeToken : List Char → Option (Token × List Char)
  | '[' :: cs => some (.openArray, cs)
  | ']' :: cs => some (.closeArray, cs)
  | '{' :: cs => some (.openObject, cs)
  | '}' :: cs => some (.closeObject, cs)
  | ',' :: cs => some (.comma, cs)
  | ':' :: cs => some (.colon, cs)
  | '"' :: cs => stringToken cs
  | 'n' :: 'u' :: 'l' :: 'l' :: cs => some (.atom .null, cs)
  | 't' :: 'r' :: 'u' :: 'e' :: cs => some (.atom (.bool true), cs)
  | 'f' :: 'a' :: 'l' :: 's' :: 'e' :: cs => some (.atom (.bool false), cs)
  | '-' :: cs => numberToken true cs
  | cs => numberToken false cs

/-- All tokens of a text; a step is counted for every token and every run of spaces. -/
def tokens : Nat → List Char → Option (List Token)
  | 0, _ => none
  | n + 1, cs =>
    match cs.dropWhile isSpace with
    | [] => some []
    | c :: rest => do
      let (t, rest) ← takeToken (c :: rest)
      let ts ← tokens n rest
      return t :: ts

mutual

/-- A value at the start of a list of tokens. `depth` is the number of arrays and objects that may
still be opened, and the first argument counts steps, of which a token needs at most two. -/
def takeValue : Nat → Nat → List Token → Option (Json × List Token)
  | 0, _, _ => none
  | _ + 1, _, .atom j :: ts => some (j, ts)
  | _ + 1, _ + 1, .openArray :: .closeArray :: ts => some (.array [], ts)
  | _ + 1, _ + 1, .openObject :: .closeObject :: ts => some (.object [], ts)
  | n + 1, depth + 1, .openArray :: ts =>
    (takeItems n depth ts).map fun (items, rest) => (.array items, rest)
  | n + 1, depth + 1, .openObject :: ts =>
    (takeMembers n depth ts).map fun (members, rest) => (.object members, rest)
  | _, _, _ => none

/-- The items of an array up to its end. -/
def takeItems : Nat → Nat → List Token → Option (List Json × List Token)
  | 0, _, _ => none
  | n + 1, depth, ts => do
    let (item, rest) ← takeValue n depth ts
    match rest with
    | .closeArray :: rest => some ([item], rest)
    | .comma :: rest => (takeItems n depth rest).map fun (items, rest) => (item :: items, rest)
    | _ => none

/-- The members of an object up to its end. -/
def takeMembers : Nat → Nat → List Token → Option (List (String × Json) × List Token)
  | n + 1, depth, .atom (.string name) :: .colon :: ts => do
    let (value, rest) ← takeValue n depth ts
    match rest with
    | .closeObject :: rest => some ([(name, value)], rest)
    | .comma :: rest =>
      (takeMembers n depth rest).map fun (members, rest) => ((name, value) :: members, rest)
    | _ => none
  | _, _, _ => none

end

/-- How many arrays and objects may be open at a time. -/
def maxDepth : Nat := 127

/-- The steps that putting tokens together may take. -/
def steps (ts : List Token) : Nat := 2 * ts.length + 1

/-- A token with a value where it has none. -/
def Token.mend : Token → Token
  | .broken standIn => .atom standIn
  | t => t

/-- The tokens after a value that does not matter. -/
def skipValue (ts : List Token) : Option (List Token) :=
  (takeValue (steps ts) ts.length (ts.map Token.mend)).map fun (_, rest) =>
    ts.drop (ts.length - rest.length)

/-- The member of an object after its name and the tokens after it; no member if it is not known. -/
def takeMember (known : String → Bool) (depth : Nat) (name : String) (ts : List Token) :
    Option (List (String × Json) × List Token) :=
  if known name then (takeValue (steps ts) depth ts).map fun (j, rest) => ([(name, j)], rest)
  else (skipValue ts).map fun rest => ([], rest)

/-- The known members of an object up to its end; a step is counted for every member. -/
def takeKnown (known : String → Bool) (depth : Nat) :
    Nat → List Token → Option (List (String × Json) × List Token)
  | n + 1, .atom (.string name) :: .colon :: ts => do
    let (member, rest) ← takeMember known depth name ts
    match rest with
    | .closeObject :: rest => some (member, rest)
    | .comma :: rest =>
      (takeKnown known depth n rest).map fun (members, rest) => (member ++ members, rest)
    | _ => none
  | _, _ => none

/-- The value that all tokens together make. -/
def ofTokens? (ts : List Token) : Option Json :=
  match takeValue (steps ts) maxDepth ts with
  | some (j, []) => some j
  | _ => none

/-- The value of all tokens. Of an object only the known members are taken, names repeated among
them being kept; the others are skipped. -/
def ofTokensKnown? (known : String → Bool) : List Token → Option Json
  | [.openObject, .closeObject] => some (.object [])
  | .openObject :: ts =>
    match takeKnown known (maxDepth - 1) (steps ts) ts with
    | some (members, []) => some (.object members)
    | _ => none
  | ts => ofTokens? ts

/-- The tokens of a whole text. -/
def textTokens? (s : String) : Option (List Token) := tokens (s.toList.length + 1) s.toList

/-- The value of a text. -/
def ofText? (s : String) : Option Json := ((textTokens? s).bind ofTokens?).map settle

/-- The value of a text, an object being cut down to its known members. -/
def ofTextKnown? (known : String → Bool) (s : String) : Option Json :=
  (textTokens? s).bind (ofTokensKnown? known)

end ClientRecords.Json
