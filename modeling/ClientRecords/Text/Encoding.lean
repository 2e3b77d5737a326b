/-!
The encodings of characters in bytes, with neighbouring characters taken together: a sequence of
byte ranges stands for all the sequences of bytes from them.
-/

namespace ClientRecords.Text

/-- The bytes `first`, …, `last`. -/
structure ByteRange where
  first : UInt8
  last : UInt8
  deriving DecidableEq

/-- One range for each byte of an encoding. -/
abbrev ByteSequence := List ByteRange

/-- The bytes after the first in an encoding. -/
def laterByte : ByteRange := ⟨0x80, 0xBF⟩

/-- The encodings of all characters. The bytes after a first one at the end of its range are
narrowed: no character has a longer encoding than it needs, and surrogates are no characters. -/
def anyCharacter : List ByteSequence := [
  [⟨0x00, 0x7F⟩],
  [⟨0xC2, 0xDF⟩, laterByte],
  [⟨0xE0, 0xE0⟩, ⟨0xA0, 0xBF⟩, laterByte],
  [⟨0xE1, 0xEC⟩, laterByte, laterByte],
  [⟨0xED, 0xED⟩, ⟨0x80, 0x9F⟩, laterByte],
  [⟨0xEE, 0xEF⟩, laterByte, laterByte],
  [⟨0xF0, 0xF0⟩, ⟨0x90, 0xBF⟩, laterByte, laterByte],
  [⟨0xF1, 0xF3⟩, laterByte, laterByte, laterByte],
  [⟨0xF4, 0xF4⟩, ⟨0x80, 0x8F⟩, laterByte, laterByte]]

/-- Characters in ascending order as runs of neighbours whose encodings differ in the last byte
only. -/
def characterRuns : List Char → List (Char × Char)
  | [] => []
  | c :: cs =>
    match characterRuns cs with
    | [] => [(c, c)]
    | (first, last) :: runs =>
      if c.toNat + 1 = first.toNat && c.toNat / 64 = first.toNat / 64 then (c, last) :: runs
      else (c, c) :: (first, last) :: runs

/-- The encodings of characters in ascending order. -/
def encodings (cs : List Char) : List ByteSequence :=
  (characterRuns cs).map fun (first, last) =>
    List.zipWith ByteRange.mk (String.utf8EncodeChar first) (String.utf8EncodeChar last)

end ClientRecords.Text
