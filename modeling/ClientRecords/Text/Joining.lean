import ClientRecords.Text.Columns
/-!
Letters that join with letters before them into a sign whose width is not the sum of theirs. A text
is read from its end, so the later letter of a pair is known when the earlier one is met.
-/

namespace ClientRecords.Text

/-- What the letter just read, the later one of a pair, may join with. -/
inductive Joining where
  /-- An Arabic alef, which a lam before it takes in. -/
  | alef
  /-- A Hebrew lamed, with an alef before it and a joiner between them. -/
  | lamed
  /-- The Buginese letter ya, with a vowel sign before it. -/
  | ya
  /-- The vowel sign and the letter ya, joined. -/
  | vowelYa
  /-- A Tifinagh consonant. -/
  | consonant
  /-- A Tifinagh consonant with the sign for a joined consonant before it. -/
  | joinedConsonant
  /-- A Lisu tone letter of the second group, with one of the first before it. -/
  | tone
  /-- The Old Turkic letter orkhon i. -/
  | orkhonI
  /-- A Khmer letter that can be written below the one before it. -/
  | subscript
  deriving DecidableEq

/-- The characters without columns that stand between an alef and a lam and keep them apart. -/
def separatingRanges : List (Nat × Nat) := [
  (0x0605, 0x0605), (0x0890, 0x0891), (0x08E2, 0x08E2), (0x09BE, 0x09BE), (0x09D7, 0x09D7),
  (0x0B3E, 0x0B3E), (0x0B57, 0x0B57), (0x0BBE, 0x0BBE), (0x0BD7, 0x0BD7), (0x0CC0, 0x0CC0),
  (0x0CC2, 0x0CC2), (0x0CC7, 0x0CC8), (0x0CCA, 0x0CCB), (0x0CD5, 0x0CD6), (0x0D3E, 0x0D3E),
  (0x0D4E, 0x0D4E), (0x0D57, 0x0D57), (0x0DCF, 0x0DCF), (0x0DDF, 0x0DDF), (0x1160, 0x11FF),
  (0x180E, 0x180E), (0x1B35, 0x1B35), (0x1B3B, 0x1B3B), (0x1B3D, 0x1B3D), (0x1B43, 0x1B43),
  (0x200C, 0x200D), (0x2065, 0x2069), (0x302E, 0x302F), (0x3164, 0x3164), (0xA8FA, 0xA8FA),
  (0xD7B0, 0xD7C6), (0xD7CB, 0xD7FB), (0xFF9E, 0xFFA0), (0xFFF0, 0xFFF8), (0x111C2, 0x111C3),
  (0x1133E, 0x1133E), (0x11357, 0x11357), (0x114B0, 0x114B0), (0x114BD, 0x114BD),
  (0x115AF, 0x115AF), (0x11930, 0x11930), (0x1193F, 0x1193F), (0x11941, 0x11941),
  (0x11A3A, 0x11A3A), (0x11A84, 0x11A89), (0x11D46, 0x11D46), (0x11F02, 0x11F02),
  (0x1D165, 0x1D165), (0x1D16E, 0x1D172), (0xE0000, 0xE0000), (0xE0002, 0xE001F),
  (0xE0080, 0xE00FF), (0xE01F0, 0xE0FFF)]

/-- The marks without columns that belong to the letter before them in every script. -/
def selectorRanges : List (Nat × Nat) := [
  (0x034F, 0x034F), (0x17B4, 0x17B5), (0x180B, 0x180D), (0x180F, 0x180F), (0x200D, 0x200D),
  (0xFE00, 0xFE0F), (0xE0100, 0xE01EF)]

def alefRanges : List (Nat × Nat) := [
  (0x0622, 0x0623), (0x0625, 0x0625), (0x0627, 0x0627), (0x0671, 0x0673), (0x0675, 0x0675),
  (0x0773, 0x0774), (0x0870, 0x0882)]

def lamRanges : List (Nat × Nat) := [
  (0x0644, 0x0644), (0x06B5, 0x06B8), (0x076A, 0x076A), (0x08A6, 0x08A6), (0x08C7, 0x08C7)]

def subscriptRanges : List (Nat × Nat) := [
  (0x1780, 0x1782), (0x1784, 0x1787), (0x1789, 0x178C), (0x178E, 0x1793), (0x1795, 0x1798),
  (0x179B, 0x179D), (0x17A0, 0x17A0), (0x17A2, 0x17A2), (0x17A7, 0x17A7), (0x17AB, 0x17AC),
  (0x17AF, 0x17AF)]

def isTifinaghConsonant (c : Char) : Bool :=
  inRanges [(0x2D31, 0x2D65), (0x2D6F, 0x2D6F)] c.toNat

namespace Joining

/-- The letters that open a pair, read from the end of a text. -/
def ofChar? (c : Char) : Option Joining :=
  if inRanges alefRanges c.toNat then some .alef
  else if c == '\u05DC' then some .lamed
  else if c == '\u1A10' then some .ya
  else if isTifinaghConsonant c then some .consonant
  else if c == '\uA4FC' || c == '\uA4FD' then some .tone
  else if c.toNat == 0x10C03 then some .orkhonI
  else if inRanges subscriptRanges c.toNat then some .subscript
  else none

/-- May marks and joiners stand within a pair that the letter closes? An alef has a rule of its
own. -/
def holdsMarks (l : Joining) : Bool := l != .alef

/-- The columns that a character before the letter adds, and the letter that the two now stand for.
`joined` says whether a joiner stands between them. A sign may take back a column of the letter. -/
def join? (l : Joining) (joined : Bool) (c : Char) : Option (Int × Option Joining) :=
  match l with
  | .alef =>
    if inRanges lamRanges c.toNat then some (0, none)
    else if columns c == 0 && !inRanges separatingRanges c.toNat then some (0, some .alef)
    else none
  | .lamed => if joined && c == '\u05D0' then some (0, none) else none
  | .ya => if joined && c == '\u1A17' then some (0, some .vowelYa) else none
  | .vowelYa => if c == '\u1A15' then some (0, none) else none
  | .consonant =>
    if c == '\u2D7F' then some (1, some .joinedConsonant)
    else if joined && isTifinaghConsonant c then some (0, none)
    else none
  | .joinedConsonant => if isTifinaghConsonant c then some (-1, none) else none
  | .tone => if inRanges [(0xA4F8, 0xA4FB)] c.toNat then some (0, none) else none
  | .orkhonI => if joined && c.toNat == 0x10C32 then some (0, none) else none
  | .subscript => if c == '\u17D2' then some (-1, none) else none

end Joining

end ClientRecords.Text
