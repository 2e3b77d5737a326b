import ClientRecords.Text.Folding
/-!
Patterns with wildcards. A pattern covers a whole text: a percent sign any run of characters, an
underscore any one character, and every other character itself in any case. Which ends of a text
the ends of a pattern cover is worked out from the last element on, so every element passes over
the text once.
-/

namespace ClientRecords

/-- One element of a pattern. -/
inductive Wildcard where
  | run
  | one
  | letter (c : Char)
  deriving DecidableEq

namespace Wildcard

def ofChar : Char → Wildcard
  | '%' => .run
  | '_' => .one
  | c => .letter c

/-- Whether each of the ends of a text, the longest first, is empty. -/
def emptyEnds : List Char → List Bool
  | [] => [true]
  | _ :: cs => false :: emptyEnds cs

/-- From the ends of a text that are covered, those that are covered after dropping some more
characters. -/
def afterRun : List Bool → List Bool
  | [] => []
  | b :: bs =>
    let rest := afterRun bs
    (b || rest.headD false) :: rest

/-- From the ends of a text that are covered, those that are covered after one more character. -/
def afterOne (fits : Char → Bool) : List Char → List Bool → List Bool
  | c :: cs, _ :: bs => (fits c && bs.headD false) :: afterOne fits cs bs
  | _, _ => [false]

/-- Whether the elements cover each of the ends of a text, the longest first. -/
def coveredEnds (cs : List Char) : List Wildcard → List Bool
  | [] => emptyEnds cs
  | .run :: ws => afterRun (coveredEnds cs ws)
  | .one :: ws => afterOne (fun _ => true) cs (coveredEnds cs ws)
  | .letter p :: ws => afterOne (Text.sameLetter p) cs (coveredEnds cs ws)

/-- Do the elements cover a text? -/
def covers (ws : List Wildcard) (cs : List Char) : Bool := (coveredEnds cs ws).headD false

end Wildcard

/-- A pattern as it was written. -/
structure Pattern where
  source : String
  deriving DecidableEq

namespace Pattern

def elements (p : Pattern) : List Wildcard := p.source.toList.map Wildcard.ofChar

/-- Does a pattern cover a text? -/
def covers (p : Pattern) (s : String) : Bool := Wildcard.covers p.elements s.toList

end Pattern
end ClientRecords
