/-!
Blank characters, and texts without them: trimming, and the words between them.
-/

namespace ClientRecords.Text

/-- The characters with the property White_Space. -/
def isBlank (c : Char) : Bool :=
  let n := c.toNat
  (0x9 ≤ n && n ≤ 0xD) || n == 0x20 || n == 0x85 || n == 0xA0 || n == 0x1680
    || (0x2000 ≤ n && n ≤ 0x200A) || n == 0x2028 || n == 0x2029 || n == 0x202F || n == 0x205F
    || n == 0x3000

/-- A text without the blanks at its start. -/
def trimLeft (cs : List Char) : List Char := cs.dropWhile isBlank

/-- A text without the blanks at its two ends. -/
def trimChars (cs : List Char) : List Char := (trimLeft (trimLeft cs).reverse).reverse

def trim (s : String) : String := String.ofList (trimChars s.toList)

/-- Puts a character in front of the first word. -/
def consWord (c : Char) : List (List Char) → List (List Char)
  | [] => [[c]]
  | w :: ws => (c :: w) :: ws

/-- The pieces between blanks, empty ones included. -/
def pieces : List Char → List (List Char)
  | [] => [[]]
  | c :: cs => if isBlank c then [] :: pieces cs else consWord c (pieces cs)

/-- The words of a text: its longest runs without a blank. -/
def words (cs : List Char) : List (List Char) := (pieces cs).filter (!·.isEmpty)

/-- The words of a text with a single space between them. -/
def collapse (s : String) : String :=
  String.ofList (List.intercalate [' '] (words s.toList))

end ClientRecords.Text
