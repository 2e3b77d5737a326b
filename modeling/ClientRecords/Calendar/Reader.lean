import ClientRecords.Arithmetic
import ClientRecords.Calendar.Date
import ClientRecords.Text.Blank
import ClientRecords.Text.Digits
/-!
Times read from texts, in one of four forms: a date and a time with a zone in fixed columns; a date
and a time parted by blanks or by a `T`; or a date alone. Numbers outside of the first form may
stand after blanks and be shorter than their width.
-/

namespace ClientRecords
namespace DateTime

/-- A number of at least `least` and at most `most` digits at the start of a text. -/
def takeDigits (least most : Nat) (cs : List Char) : Option (Nat × List Char) :=
  let ds := (cs.take most).takeWhile Char.isDigit
  if ds.length < least then none else some (Text.digitsValue 10 ds, cs.drop ds.length)

/-- Drops a character that has to come next. -/
def expect (c : Char) : List Char → Option (List Char)
  | d :: cs => if c = d then some cs else none
  | [] => none

/-- Up to nine digits of a second, as nanoseconds; the digits after those are dropped. -/
def takeNanos (cs : List Char) : Option (Nat × List Char) := do
  let (n, rest) ← takeDigits 1 9 cs
  return (n * pow10 (9 - (cs.length - rest.length)), rest.dropWhile Char.isDigit)

/-- A fraction of a second, if a point follows. -/
def takeFraction : List Char → Option (Nat × List Char)
  | '.' :: cs => takeNanos cs
  | cs => some (0, cs)

/-- The time of a day in parts. The second sixty is a leap second. -/
def ofParts? (d : Date) (hour minute second nano : Nat) : Option DateTime :=
  if hour ≤ 23 && minute ≤ 59 && second ≤ 60 then
    let (second, nano) := if second == 60 then (59, nano + pow10 9) else (second, nano)
    some ⟨d.number, hour * 3600 + minute * 60 + second, nano⟩
  else none

/-- A zone as seconds ahead of universal time: `Z`, or a sign with hours and minutes. -/
def takeZone : List Char → Option (Int × List Char)
  | c :: cs =>
    if c == 'Z' || c == 'z' then some (0, cs)
    else if c == '+' || c == '-' || c == '−' then do
      let (hours, cs) ← takeDigits 2 2 cs
      let cs ← expect ':' cs
      let (minutes, cs) ← takeDigits 2 2 cs
      if 59 < minutes || 23 < hours then none
      else
        let seconds : Int := hours * 3600 + minutes * 60
        some (if c == '+' then seconds else -seconds, cs)
    else none
  | [] => none

/-- A date and a time with a zone, in columns of fixed width; the time in universal time. -/
def ofZoned? (cs : List Char) : Option DateTime := do
  let (year, cs) ← takeDigits 4 4 cs
  let cs ← expect '-' cs
  let (month, cs) ← takeDigits 2 2 cs
  let cs ← expect '-' cs
  let (day, cs) ← takeDigits 2 2 cs
  let c ← cs.head?
  if c != 'T' && c != 't' && c != ' ' then none
  let (hour, cs) ← takeDigits 2 2 cs.tail
  let cs ← expect ':' cs
  let (minute, cs) ← takeDigits 2 2 cs
  let cs ← expect ':' cs
  let (second, cs) ← takeDigits 2 2 cs
  let (nano, cs) ← takeFraction cs
  let (offset, cs) ← takeZone cs
  if !cs.isEmpty then none
  let date ← Date.of? year month day
  let local_ ← ofParts? date hour minute second nano
  return local_.minusSeconds offset

/-- A number of one or two digits after blanks. -/
def takePair (cs : List Char) : Option (Nat × List Char) := takeDigits 1 2 (Text.trimLeft cs)

/-- A year after blanks: at most four digits, or any number of digits after a sign. -/
def takeYear (cs : List Char) : Option (Int × List Char) :=
  match Text.trimLeft cs with
  | '-' :: cs => (takeDigits 1 cs.length cs).map fun (n, rest) => (-(n : Int), rest)
  | '+' :: cs => (takeDigits 1 cs.length cs).map fun (n, rest) => ((n : Int), rest)
  | cs => (takeDigits 1 4 cs).map fun (n, rest) => ((n : Int), rest)

/-- A year, a month and a day with hyphens between them. -/
def takeDate (cs : List Char) : Option (Date × List Char) := do
  let (year, cs) ← takeYear cs
  let cs ← expect '-' cs
  let (month, cs) ← takePair cs
  let cs ← expect '-' cs
  let (day, cs) ← takePair cs
  let date ← Date.of? year month day
  return (date, cs)

/-- An hour, a minute and a second with colons between them, at the end of a text. -/
def timeOn? (d : Date) (cs : List Char) : Option DateTime := do
  let (hour, cs) ← takePair cs
  let cs ← expect ':' cs
  let (minute, cs) ← takePair cs
  let cs ← expect ':' cs
  let (second, cs) ← takePair cs
  let (nano, cs) ← takeFraction cs
  if cs.isEmpty then ofParts? d hour minute second nano else none

/-- A date and a time without a zone. Blanks between them may be missing. -/
def ofLocal? (cs : List Char) : Option DateTime := do
  let (date, cs) ← takeDate cs
  match timeOn? date (Text.trimLeft cs) with
  | some t => some t
  | none => (expect 'T' cs).bind (timeOn? date)

/-- A date alone. -/
def ofDay? (cs : List Char) : Option DateTime :=
  match takeDate cs with
  | some (date, []) => some (ofDate date)
  | _ => none

/-- The time that a text denotes. -/
def ofText? (s : String) : Option DateTime :=
  let cs := s.toList
  (ofZoned? cs <|> ofLocal? cs) <|> ofDay? cs

end DateTime
end ClientRecords
