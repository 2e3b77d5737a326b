import ClientRecords.Text.Lowercase
/-!
Media types, such as they stand in front of a body: two tokens with a slash between them, perhaps a
suffix, and parameters, which are only checked for their form.
-/

namespace ClientRecords

structure MediaType where
  main : String
  sub : String
  deriving DecidableEq

namespace MediaType

/-- The characters of tokens. -/
def isTokenChar (c : Char) : Bool :=
  c.isAlphanum || "!#$%&'*+-.^_\x60|~".toList.contains c

/-- The token at the start of a text and what follows it. -/
def takeToken (cs : List Char) : List Char × List Char :=
  (cs.takeWhile isTokenChar, cs.dropWhile isTokenChar)

/-- The characters that may stand within quotes. -/
def isQuotedChar (c : Char) : Bool := ' ' ≤ c && c ≤ '~'

/-- What follows a quoted value after its opening quote. A quote that stands first in it is a part
of it. -/
def afterQuoted : List Char → Option (List Char)
  | c :: cs =>
    match cs.dropWhile fun c => isQuotedChar c && c != '"' with
    | '"' :: rest => if isQuotedChar c then some rest else none
    | _ => none
  | [] => none

/-- What follows the value of a parameter. Only at the end may there be none. -/
def afterValue : List Char → Option (List Char)
  | '"' :: cs => (afterQuoted cs).map (·.dropWhile (· == ' '))
  | cs =>
    let (value, rest) := takeToken cs
    if value.isEmpty && !rest.isEmpty then none else some rest

/-- Are these parameters, a semicolon between them? -/
def areParameters : Nat → List Char → Bool
  | 0, _ => false
  | fuel + 1, cs =>
    let cs := cs.dropWhile (· == ' ')
    if cs.isEmpty then true
    else match takeToken cs with
      | ([], _) => false
      | (_, '=' :: rest) =>
        match afterValue rest with
        | some [] => true
        | some (';' :: rest) => areParameters fuel rest
        | _ => false
      | _ => false

/-- A token without the suffix that its last plus sign opens. -/
def withoutSuffix (cs : List Char) : List Char :=
  match cs.reverse.dropWhile (· != '+') with
  | _ :: c :: before => (c :: before).reverse
  | _ => cs

/-- The media type of a text. -/
def ofText? (s : String) : Option MediaType :=
  match takeToken s.toList with
  | (main, '/' :: rest) =>
    let (sub, rest) := takeToken rest
    let parameters := match rest with
      | [] => true
      | ';' :: rest => areParameters (rest.length + 1) rest
      | _ => false
    if main.isEmpty || sub.isEmpty || !parameters then none
    else some ⟨Text.asciiLowercase (String.ofList main),
      Text.asciiLowercase (String.ofList (withoutSuffix sub))⟩
  | _ => none

def json : MediaType := ⟨"application", "json"⟩

end MediaType
end ClientRecords
