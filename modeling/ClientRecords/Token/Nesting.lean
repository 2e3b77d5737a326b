import ClientRecords.Token.Basic
/-!
Lists of tokens cut outside of parentheses. The depth grows by one at an opening parenthesis and
shrinks by one, never below zero, at a closing one.
-/

namespace ClientRecords.Token

/-- The depth after a token. -/
def depthAfter (depth : Nat) : Token → Nat
  | .openParen => depth + 1
  | .closeParen => depth - 1
  | _ => depth

def isParen (t : Token) : Bool := t == .openParen || t == .closeParen

/-- Does a token at a depth cut the list? -/
def cuts (p : Token → Bool) (depth : Nat) (t : Token) : Bool := !t.isParen && depth == 0 && p t

/-- Puts a token in front of the first part. -/
def consPart (t : Token) : List (List Token) → List (List Token)
  | [] => [[t]]
  | part :: parts => (t :: part) :: parts

/-- The parts between the separators outside of parentheses, from a depth on. -/
def splitFrom (p : Token → Bool) : Nat → List Token → List (List Token)
  | _, [] => [[]]
  | depth, t :: ts =>
    if cuts p depth t then [] :: splitFrom p depth ts
    else consPart t (splitFrom p (depthAfter depth t) ts)

/-- The parts between the separators outside of parentheses. -/
def splitTopLevel (p : Token → Bool) (ts : List Token) : List (List Token) := splitFrom p 0 ts

/-- The parts between the commas outside of parentheses. -/
def splitCommas (ts : List Token) : List (List Token) := splitTopLevel (· == .comma) ts

/-- The index of the first token outside of parentheses with a property, from a depth on. -/
def findFrom (p : Token → Bool) : Nat → List Token → Option Nat
  | _, [] => none
  | depth, t :: ts =>
    if cuts p depth t then some 0
    else (findFrom p (depthAfter depth t) ts).map (· + 1)

/-- The index of the first token outside of parentheses with a property. -/
def findTopLevel (p : Token → Bool) (ts : List Token) : Option Nat := findFrom p 0 ts

/-- The tokens before the first one outside of parentheses with a property, and the tokens from it
on. -/
def breakTopLevel (p : Token → Bool) (ts : List Token) : List Token × List Token :=
  match findTopLevel p ts with
  | some i => (ts.take i, ts.drop i)
  | none => (ts, [])

/-- The index at which as many parentheses are closed as `depth` counts open ones. -/
def closingFrom : Nat → List Token → Option Nat
  | _, [] => none
  | depth, t :: ts =>
    match depthAfter depth t with
    | 0 => if t == .closeParen then some 0 else (closingFrom 0 ts).map (· + 1)
    | d + 1 => (closingFrom (d + 1) ts).map (· + 1)

/-- The index of the parenthesis that closes the one which the list starts with. -/
def closingParen? : List Token → Option Nat
  | .openParen :: ts => (closingFrom 1 ts).map (· + 1)
  | _ => none

/-- The tokens within the parentheses that a list starts with, and the tokens after them. -/
def parenthesised? (ts : List Token) : Option (List Token × List Token) :=
  (closingParen? ts).map fun close => ((ts.take close).drop 1, ts.drop (close + 1))

end ClientRecords.Token
