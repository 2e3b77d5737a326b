/-!
Lines of texts. A line ends with a line feed, which a carriage return may stand before; the last
line need not have an end.
-/

namespace ClientRecords.Text

/-- Puts a character in front of the first line. -/
def consLine (c : Char) : List (List Char) → List (List Char)
  | [] => [[c]]
  | l :: ls => (c :: l) :: ls

/-- The lines of a text without their ends. -/
def linesOf : List Char → List (List Char)
  | [] => []
  | '\r' :: '\n' :: cs => [] :: linesOf cs
  | c :: cs => if c = '\n' then [] :: linesOf cs else consLine c (linesOf cs)

def lines (s : String) : List String := (linesOf s.toList).map String.ofList

end ClientRecords.Text
