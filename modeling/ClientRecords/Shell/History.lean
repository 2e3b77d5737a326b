import ClientRecords.Text.Blank
import ClientRecords.Text.Lines
import ClientRecords.Text.Lowercase
/-!
The history of a session: the newest of the lines that were entered, without blanks around them,
without empty ones, and without those that repeat the line before.
-/

namespace ClientRecords

structure History where
  capacity : Nat
  entries : List String
  deriving DecidableEq

namespace History

def empty (capacity : Nat) : History := ⟨capacity, []⟩

/-- Adds an entry at the end, for which the oldest one makes room. -/
def push (h : History) (line : String) : History :=
  let kept := if h.entries.length = h.capacity then h.entries.tail else h.entries
  { h with entries := kept ++ [line] }

/-- Records a line, unless it is blank or repeats the newest entry. -/
def record (h : History) (line : String) : History :=
  let line := Text.trim line
  if line = "" ∨ h.entries.getLast? = some line then h else h.push line

/-- The history that a file holds. -/
def load (h : History) (file : String) : History :=
  (Text.lines file).foldl record { h with entries := [] }

/-- The text of the history in a file. -/
def fileText (h : History) : String := "\n".intercalate h.entries ++ "\n"

/-- Does a list of characters occur in another? -/
def occurs (pattern : List Char) : List Char → Bool
  | [] => pattern.isEmpty
  | c :: cs => pattern.isPrefixOf (c :: cs) || occurs pattern cs

/-- The entries that hold a pattern, whatever the case of the letters. -/
def containing (h : History) (pattern : String) : List String :=
  let p := (Text.lowercase pattern).toList
  h.entries.filter fun entry => occurs p (Text.lowercase entry).toList

end History
end ClientRecords
