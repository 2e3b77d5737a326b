import ClientRecords.Binary64.Layout
import ClientRecords.Json.Basic
/-!
JSON texts of values: compact, without any space, and indented by two spaces a level, each item and
each member on a line of its own and empty arrays and objects on none.
-/

namespace ClientRecords.Json

/-- A character within a string: quotes, backslashes and control characters are escaped. -/
def escapeChar (c : Char) : List Char :=
  match c with
  | '"' => ['\\', '"']
  | '\\' => ['\\', '\\']
  | '\n' => ['\\', 'n']
  | '\r' => ['\\', 'r']
  | '\t' => ['\\', 't']
  | '\x08' => ['\\', 'b']
  | '\x0c' => ['\\', 'f']
  | c =>
    if c.toNat < 0x20 then
      ['\\', 'u', '0', '0', Nat.digitChar (c.toNat / 16), Nat.digitChar (c.toNat % 16)]
    else [c]

/-- A string between quotes. -/
def quote (s : String) : String := "\"" ++ String.ofList (s.toList.flatMap escapeChar) ++ "\""

/-- The text of a value that holds no other values; numbers that are not finite are null. -/
def scalarText : Json → String
  | .bool true => "true"
  | .bool false => "false"
  | .int i => toString i
  | .float x => if x.isFinite then x.jsonText else "null"
  | .string s => quote s
  | _ => "null"

mutual

/-- The text of a value without spaces. -/
def compact : Json → String
  | .array items => "[" ++ ",".intercalate (compactItems items) ++ "]"
  | .object members => "\x7b" ++ ",".intercalate (compactMembers members) ++ "\x7d"
  | .null => "null"
  | .bool b => scalarText (.bool b)
  | .int i => scalarText (.int i)
  | .float x => scalarText (.float x)
  | .string s => quote s

def compactItems : List Json → List String
  | [] => []
  | j :: js => compact j :: compactItems js

def compactMembers : List (String × Json) → List String
  | [] => []
  | (name, j) :: ms => (quote name ++ ":" ++ compact j) :: compactMembers ms

end

/-- The start of a line at a level. -/
def newline (level : Nat) : String := String.ofList ('\n' :: List.replicate (2 * level) ' ')

/-- Parts on lines of their own between brackets. -/
def block (level : Nat) (opening closing : String) (parts : List String) : String :=
  if parts.isEmpty then opening ++ closing
  else
    opening ++ newline (level + 1) ++ ("," ++ newline (level + 1)).intercalate parts
      ++ newline level ++ closing

mutual

/-- The indented text of a value that starts at a level. -/
def prettyAt (level : Nat) : Json → String
  | .array items => block level "[" "]" (prettyItems (level + 1) items)
  | .object members => block level "\x7b" "\x7d" (prettyMembers (level + 1) members)
  | .null => "null"
  | .bool b => scalarText (.bool b)
  | .int i => scalarText (.int i)
  | .float x => scalarText (.float x)
  | .string s => quote s

def prettyItems (level : Nat) : List Json → List String
  | [] => []
  | j :: js => prettyAt level j :: prettyItems level js

def prettyMembers (level : Nat) : List (String × Json) → List String
  | [] => []
  | (name, j) :: ms => (quote name ++ ": " ++ prettyAt level j) :: prettyMembers level ms

end

def pretty (j : Json) : String := prettyAt 0 j

end ClientRecords.Json
