import ClientRecords.Arithmetic
import ClientRecords.Calendar.Date
/-!
Formats of dates. A format is a text in which a percent sign opens a directive; a directive may be
shorthand for several others. Directives that ask for a zone are known, but a time without a zone
cannot be written by them.
-/

namespace ClientRecords

/-- What stands in front of a number that is shorter than its width. -/
inductive Pad where
  | nothing
  | zero
  | space
  deriving DecidableEq

inductive NumberField where
  | year | century | yearOfCentury | weekYear | weekYearOfCentury | quarter | month | day
  | weekFromSunday | weekFromMonday | week | daysFromSunday | weekday | ordinal
  | hour | hour12 | minute | second | nano | timestamp
  deriving DecidableEq

inductive Directive where
  | text (cs : List Char)
  | number (field : NumberField) (pad : Pad)
  | monthName (long : Bool)
  | weekdayName (long : Bool)
  | half (upper : Bool)
  | fraction
  | fixedFraction (point : Bool) (digits : Nat)
  | zone
  deriving DecidableEq

namespace Directive

/-- A number padded with zeros. -/
def zeros (f : NumberField) : Directive := .number f .zero

def char (c : Char) : Directive := .text [c]

/-- The time in hours, minutes and seconds. -/
def clock (h : NumberField) : List Directive :=
  [zeros h, char ':', zeros .minute, char ':', zeros .second]

/-- Month, day and year in two digits each. -/
def shortDate : List Directive :=
  [zeros .month, char '/', zeros .day, char '/', zeros .yearOfCentury]

/-- The number that a letter asks for, with the padding it has by itself. -/
def number? : Char → Option (NumberField × Pad)
  | 'C' => some (.century, .zero)
  | 'G' => some (.weekYear, .zero)
  | 'H' => some (.hour, .zero)
  | 'I' => some (.hour12, .zero)
  | 'M' => some (.minute, .zero)
  | 'S' => some (.second, .zero)
  | 'U' => some (.weekFromSunday, .zero)
  | 'V' => some (.week, .zero)
  | 'W' => some (.weekFromMonday, .zero)
  | 'Y' => some (.year, .zero)
  | 'd' => some (.day, .zero)
  | 'e' => some (.day, .space)
  | 'f' => some (.nano, .zero)
  | 'g' => some (.weekYearOfCentury, .zero)
  | 'j' => some (.ordinal, .zero)
  | 'k' => some (.hour, .space)
  | 'l' => some (.hour12, .space)
  | 'm' => some (.month, .zero)
  | 'q' => some (.quarter, .nothing)
  | 's' => some (.timestamp, .nothing)
  | 'u' => some (.weekday, .nothing)
  | 'w' => some (.daysFromSunday, .nothing)
  | 'y' => some (.yearOfCentury, .zero)
  | _ => none

/-- The directives that a letter stands for. -/
def ofLetter? (c : Char) : Option (List Directive) :=
  match number? c with
  | some (f, pad) => some [.number f pad]
  | none =>
    match c with
    | 'A' => some [.weekdayName true]
    | 'B' => some [.monthName true]
    | 'D' => some shortDate
    | 'F' => some [zeros .year, char '-', zeros .month, char '-', zeros .day]
    | 'P' => some [.half false]
    | 'R' => some [zeros .hour, char ':', zeros .minute]
    | 'T' => some (clock .hour)
    | 'X' => some (clock .hour)
    | 'Z' => some [.zone]
    | 'a' => some [.weekdayName false]
    | 'b' => some [.monthName false]
    | 'h' => some [.monthName false]
    | 'c' => some ([.weekdayName false, char ' ', .monthName false, char ' ', .number .day .space,
        char ' '] ++ clock .hour ++ [char ' ', zeros .year])
    | 'n' => some [char '\n']
    | 'p' => some [.half true]
    | 'r' => some (clock .hour12 ++ [char ' ', .half true])
    | 't' => some [char '\t']
    | 'v' => some [.number .day .space, char '-', .monthName false, char '-', zeros .year]
    | 'x' => some shortDate
    | 'z' => some [.zone]
    | '+' => some [.zone]
    | '%' => some [char '%']
    | _ => none

/-- A number with a padding sign before its letter. -/
def padded? (pad : Pad) (c : Char) : Option (List Directive) :=
  (number? c).map fun (f, _) => [.number f pad]

/-- The directives after a percent sign, and how many characters they take. A padding sign may stand
before the letter of a number only. -/
def afterPercent? : List Char → Option (List Directive × Nat)
  | '-' :: c :: _ => (padded? .nothing c).map (·, 2)
  | '0' :: c :: _ => (padded? .zero c).map (·, 2)
  | '_' :: c :: _ => (padded? .space c).map (·, 2)
  | '#' :: 'z' :: _ => some ([.zone], 2)
  | ':' :: 'z' :: _ => some ([.zone], 2)
  | ':' :: ':' :: 'z' :: _ => some ([.zone], 3)
  | ':' :: ':' :: ':' :: 'z' :: _ => some ([.zone], 4)
  | '.' :: 'f' :: _ => some ([.fraction], 2)
  | '.' :: c :: 'f' :: _ => (digits? c).map fun n => ([.fixedFraction true n], 3)
  | c :: cs =>
    match digits? c with
    | some n => if cs.head? = some 'f' then some ([.fixedFraction false n], 2) else none
    | none => (ofLetter? c).map (·, 1)
  | [] => none
where
  /-- The lengths that a fraction of a second may be given. -/
  digits? : Char → Option Nat
    | '3' => some 3
    | '6' => some 6
    | '9' => some 9
    | _ => none

/-- The directives of a format after skipping some characters; none if one of them is not known. -/
def directives? : Nat → List Char → Option (List Directive)
  | _, [] => some []
  | k + 1, _ :: cs => directives? k cs
  | 0, '%' :: cs => do
    let (ds, taken) ← afterPercent? cs
    return ds ++ (← directives? taken cs)
  | 0, c :: cs => (directives? 0 cs).map (char c :: ·)

/-- The directives of a format; none if one of them is not known. -/
def ofFormat? (format : String) : Option (List Directive) := directives? 0 format.toList

def months : List String :=
  ["January", "February", "March", "April", "May", "June", "July", "August", "September",
    "October", "November", "December"]

def weekdays : List String :=
  ["Monday", "Tuesday", "Wednesday", "Thursday", "Friday", "Saturday", "Sunday"]

/-- A name in full or its first three letters. -/
def name (long : Bool) (names : List String) (k : Nat) : List Char :=
  let cs := (names.getD k "").toList
  if long then cs else cs.take 3

/-- A number of two digits. Tens beyond nine are written by the characters after the digit nine. -/
def twoDigits (pad : Pad) (n : Nat) : List Char :=
  let ones := Nat.digitChar (n % 10)
  if n < 10 then
    match pad with
    | .nothing => [ones]
    | .zero => ['0', ones]
    | .space => [' ', ones]
  else [Char.ofNat ('0'.toNat + n / 10), ones]

/-- An integer padded to a width, its sign in front of zeros and after spaces. -/
def wide (pad : Pad) (width : Nat) (plus : Bool) (i : Int) : List Char :=
  let sign := if i < 0 then ['-'] else if plus then ['+'] else []
  let ds := Nat.toDigits 10 i.natAbs
  let room := width - (sign.length + ds.length)
  match pad with
  | .nothing => sign ++ ds
  | .zero => sign ++ List.replicate room '0' ++ ds
  | .space => List.replicate room ' ' ++ sign ++ ds

/-- A year in four digits; years of another length have a sign. -/
def yearText (pad : Pad) (year : Int) : List Char :=
  if 0 ≤ year ∧ year ≤ 9999 then wide pad 4 false year else wide pad 5 true year

/-- The last two digits of a year. -/
def ofCentury (year : Int) : Nat := (year % 100).toNat

/-- An hour of the day on a clock of twelve hours. -/
def clockHour (h : Nat) : Nat := if h % 12 = 0 then 12 else h % 12

/-- The text of a number. A century is kept in one byte. -/
def numberText (t : DateTime) (pad : Pad) : NumberField → List Char
  | .year => yearText pad t.date.year
  | .century => twoDigits pad (t.date.year / 100 % 256).toNat
  | .yearOfCentury => twoDigits pad (ofCentury t.date.year)
  | .weekYear => yearText pad t.date.week.1
  | .weekYearOfCentury => twoDigits pad (ofCentury t.date.week.1)
  | .quarter => [Nat.digitChar ((t.date.month - 1) / 3 + 1)]
  | .month => twoDigits pad t.date.month
  | .day => twoDigits pad t.date.day
  | .weekFromSunday => twoDigits pad (t.date.weekOfYear 1)
  | .weekFromMonday => twoDigits pad (t.date.weekOfYear 0)
  | .week => twoDigits pad t.date.week.2
  | .daysFromSunday => [Nat.digitChar ((t.date.weekday + 1) % 7)]
  | .weekday => [Nat.digitChar (t.date.weekday + 1)]
  | .ordinal => wide pad 3 false t.date.ordinal
  | .hour => twoDigits pad (t.second / 3600)
  | .hour12 => twoDigits pad (clockHour (t.second / 3600))
  | .minute => twoDigits pad (t.second / 60 % 60)
  | .second => twoDigits pad (t.second % 60 + t.nano / pow10 9)
  | .nano => wide pad 9 false ((t.nano % pow10 9 : Nat) : Int)
  | .timestamp => wide pad 9 false t.timestamp

/-- The first digits of the fraction of a second. -/
def fractionDigits (t : DateTime) (digits : Nat) : List Char :=
  wide .zero digits false ((t.nano % pow10 9 / pow10 (9 - digits) : Nat) : Int)

/-- The fraction of a second in three, six or nine digits, whichever loses nothing; none if there is
no fraction. -/
def fractionText (t : DateTime) : List Char :=
  let nano := t.nano % pow10 9
  if nano = 0 then []
  else if nano % pow10 6 = 0 then '.' :: fractionDigits t 3
  else if nano % pow10 3 = 0 then '.' :: fractionDigits t 6
  else '.' :: fractionDigits t 9

/-- The text of a time by a directive; none where a zone is asked for. -/
def write? (t : DateTime) : Directive → Option (List Char)
  | .text cs => some cs
  | .number f pad => some (numberText t pad f)
  | .monthName long => some (name long months (t.date.month - 1))
  | .weekdayName long => some (name long weekdays t.date.weekday)
  | .half upper =>
    let afternoon := 12 ≤ t.second / 3600
    let letters := if afternoon then ['p', 'm'] else ['a', 'm']
    some (if upper then letters.map Char.toUpper else letters)
  | .fraction => some (fractionText t)
  | .fixedFraction point digits =>
    some (if point then '.' :: fractionDigits t digits else fractionDigits t digits)
  | .zone => none

/-- The text of a time by a list of directives. -/
def writeAll? (t : DateTime) (ds : List Directive) : Option String :=
  (ds.mapM (write? t)).map fun parts => String.ofList parts.flatten

end Directive

namespace DateTime

/-- A date and a time in universal time, as a time stamp with milliseconds. -/
def stamp (t : DateTime) : String :=
  let d := t.date
  let two (n : Nat) := Directive.twoDigits .zero n
  String.ofList (Directive.yearText .zero d.year ++ '-' :: two d.month ++ '-' :: two d.day
    ++ 'T' :: two (t.second / 3600) ++ ':' :: two (t.second / 60 % 60) ++ ':' :: two (t.second % 60)
    ++ '.' :: Directive.fractionDigits t 3 ++ ['Z'])

/-- The time some days later. -/
def plusDays (t : DateTime) (n : Int) : DateTime := { t with dayNumber := t.dayNumber + n }

end DateTime
end ClientRecords
