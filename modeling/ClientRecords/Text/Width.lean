import ClientRecords.Arithmetic
import ClientRecords.Text.Emoji
import ClientRecords.Text.Joining
/-!
The columns that a text takes on a line of fixed width. Most characters take the columns that they
take on their own. Emoji that are written with several characters, flags and some pairs of letters
are shown as one sign; these are found by reading the text from its end.
-/

namespace ClientRecords.Text

/-- The start of the part of a text that has been read from its end. -/
inductive Start where
  /-- Nothing that the character before it could join. -/
  | plain
  | lineFeed
  | skinTone
  | flagLetter
  /-- Two flag letters or more. -/
  | flagLetters
  | emoji
  /-- A joiner and an emoji. -/
  | joinedEmoji
  /-- A keycap with a joiner and an emoji after it. -/
  | joinedKeycap
  /-- A flag letter with a joiner and an emoji after it. -/
  | joinedFlagLetter
  /-- Two flag letters or more with a joiner and an emoji after them; is their number even? -/
  | joinedFlags (even : Bool)
  /-- The end of the name of a region, with so many letters read. -/
  | tagLetters (count : Nat)
  /-- The end of the name of a region, with so many digits read before its letters. -/
  | tagDigits (count : Nat)
  /-- A letter that can join, and whether a joiner stands before it. -/
  | letter (joining : Joining) (joined : Bool)
  deriving DecidableEq

/-- The style that a sign just read asks of the character before it. -/
inductive Style where
  | own
  | picture
  | text
  deriving DecidableEq

/-- What the part of a text that has been read means for the character before it. -/
structure After where
  start : Start
  style : Style
  deriving DecidableEq

namespace Start

def isLetter : Start → Bool
  | .letter _ _ => true
  | _ => false

/-- A letter stays in sight where a sign that asks for a style stands before it. -/
def throughStyle (s : Start) : Start := if s.isLetter then s else .plain

/-- What a character on its own means for the one before it. -/
def ofChar (c : Char) : Start :=
  if isFlagLetter c then .flagLetter
  else if isSkinTone c then .skinTone
  else if isEmoji c then .emoji
  else match Joining.ofChar? c with
    | some l => .letter l false
    | none => .plain

/-- The columns that a character adds by joining what follows it, and the new start. -/
def join? (s : Start) (c : Char) : Option (Int × Start) :=
  let joiner := c == '\u200D'
  match s with
  | .plain | .lineFeed => none
  | .skinTone =>
    if isPerson c then some (0, .emoji) else if joiner then some (0, .joinedEmoji) else none
  | .flagLetter => if isFlagLetter c then some (1, .flagLetters) else none
  | .flagLetters =>
    if isFlagLetter c then some (1, .flagLetters)
    else if joiner then some (0, .joinedEmoji)
    else none
  | .emoji => if joiner then some (0, .joinedEmoji) else none
  | .joinedEmoji =>
    if c == '\u20E3' then some (0, .joinedKeycap)
    else if isFlagLetter c then some (1, .joinedFlagLetter)
    else if isSkinTone c then some (0, .skinTone)
    else if c.toNat == 0xE007F then some (0, .tagLetters 0)
    else if isEmoji c then some (0, .emoji)
    else none
  | .joinedKeycap => none
  | .joinedFlagLetter => if isFlagLetter c then some (-1, .joinedFlags true) else none
  | .joinedFlags even =>
    if isFlagLetter c then some (if even then 3 else -1, .joinedFlags !even)
    else if joiner then some (0, .joinedEmoji)
    else none
  | .tagLetters n =>
    if isTagLetter c && n < 6 then some (0, .tagLetters (n + 1))
    else if isTagDigit c && n < 5 then some (0, .tagDigits 1)
    else if isRegionFlag c && 3 ≤ n then some (0, .emoji)
    else none
  | .tagDigits n =>
    if isTagDigit c && n < 3 then some (0, .tagDigits (n + 1))
    else if isRegionFlag c && n == 3 then some (0, .emoji)
    else none
  | .letter l joined =>
    (l.join? joined c).map fun (columns, next) =>
      (columns, match next with
        | some l => .letter l false
        | none => .plain)

end Start

namespace After

def ofStart (s : Start) : After := ⟨s, .own⟩

/-- What the end of a text means for its last character. -/
def ending : After := ofStart .plain

/-- A character without a part in any sign, such as a space. -/
def single (c : Char) (s : Start) : Int × After :=
  if c == '\n' then (1, ofStart .lineFeed)
  else if c == '\r' && s = .lineFeed then (0, ending)
  else (1, ending)

/-- A letter keeps the marks before it, and a joiner is remembered. -/
def markBefore? (c : Char) : Start → Option Start
  | .letter l joined =>
    if l.holdsMarks && inRanges selectorRanges c.toNat then
      some (.letter l (joined || c == '\u200D'))
    else none
  | _ => none

/-- The columns that a character adds before a start that asks for no style, and the new start. -/
def plainStep (c : Char) (s : Start) : Int × After :=
  match markBefore? c s with
  | some s => (0, ofStart s)
  | none =>
    match s.join? c with
    | some (columns, s) => (columns, ofStart s)
    | none => (columns c, ofStart (.ofChar c))

/-- The columns that a character adds before a start that asks for no picture. -/
def textStep (c : Char) (a : After) : Int × After :=
  if c.toNat ≤ 0xA0 then single c a.start
  else if c == '\uFE0F' then
    let whole := a.start = .joinedEmoji || a.start = .joinedKeycap
    (0, ⟨if whole then a.start else a.start.throughStyle, .picture⟩)
  else if c == '\uFE0E' then (0, ⟨a.start.throughStyle, .text⟩)
  else if a.style = .text && hasTextStyle c then (1, ending)
  else plainStep c a.start

/-- The columns that a character adds to what follows it, and what the whole means for the character
before it. -/
def step (c : Char) (a : After) : Int × After :=
  if a.style = .picture then
    if isStyled c then
      let whole := a.start = .joinedEmoji || a.start = .joinedKeycap
      (if whole then 0 else 2, ofStart .emoji)
    else textStep c (ofStart a.start.throughStyle)
  else textStep c a

end After

/-- The columns of a text and what it means for a character before it. -/
def measured (cs : List Char) : Int × After :=
  cs.foldr (fun c (columns, a) => ((a.step c).1 + columns, (a.step c).2)) (0, .ending)

/-- The columns of a text. -/
def width (s : String) : Nat := (measured s.toList).1.toNat

/-- How far a text has come within a colour sequence. -/
inductive Escape where
  | outside
  | opened
  | inside
  deriving DecidableEq

/-- A character within a colour sequence counts as hidden unless it has no columns of its own. -/
def hiddenColumn (c : Char) : Nat :=
  if columns c = 0 || c.toNat < 0x20 || (0x7F ≤ c.toNat && c.toNat < 0xA0) then 0 else 1

/-- The columns within colour sequences, which are not shown. -/
def hidden : Escape → List Char → Nat
  | _, [] => 0
  | .outside, c :: cs => hidden (if c = '\x1b' then .opened else .outside) cs
  | .opened, c :: cs => if c = '[' then 1 + hidden .inside cs else hidden .outside cs
  | .inside, c :: cs => hiddenColumn c + hidden (if c = 'm' then .outside else .inside) cs

/-- The columns of a text that may hold colour sequences; none if these hide more columns than the
text takes, which emoji and joined letters within them can do. -/
def shownWidth? (s : String) : Option Nat :=
  let all := width s
  let unseen := hidden .outside s.toList
  if unseen ≤ all then some (all - unseen) else none

end ClientRecords.Text
