/-!
Days of the Gregorian calendar, extended to all years, and times of day. A day has a number,
counted from the first of January 1970, and both forms of a day determine each other.
-/

namespace ClientRecords

structure Date where
  year : Int
  month : Nat
  day : Nat
  deriving DecidableEq

/-- A time without a zone. A leap second counts as a nanosecond past the last of its minute, so
`nano` may reach two thousand million. -/
structure DateTime where
  dayNumber : Int
  second : Nat
  nano : Nat
  deriving DecidableEq

namespace Date

def isLeap (year : Int) : Bool := year % 4 == 0 && (year % 100 != 0 || year % 400 == 0)

def monthLength (year : Int) (month : Nat) : Nat :=
  if month == 2 then (if isLeap year then 29 else 28)
  else if month == 4 || month == 6 || month == 9 || month == 11 then 30
  else 31

/-- The years that days may lie in. -/
def inRange (year : Int) : Bool := -262143 ≤ year && year ≤ 262142

/-- The day of a year, a month and a day in the month, if there is one. -/
def of? (year : Int) (month day : Nat) : Option Date :=
  if inRange year && 1 ≤ month && month ≤ 12 && 1 ≤ day && day ≤ monthLength year month then
    some ⟨year, month, day⟩
  else none

/-- The number of the first of March of a year. The leap day ends such a year, which makes the days
before a month independent of the year. -/
def marchNumber (year : Int) : Int :=
  365 * year + year / 4 - year / 100 + year / 400 - 719468

/-- The days between the first of March and the first of a month counted from March. -/
def daysBefore (month : Nat) : Nat := (153 * month + 2) / 5

/-- The number of a day, counted from the first of January 1970. -/
def number (d : Date) : Int :=
  let year := if d.month ≤ 2 then d.year - 1 else d.year
  marchNumber year + daysBefore ((d.month + 9) % 12) + d.day - 1

/-- The day of a number. -/
def ofNumber (n : Int) : Date :=
  let shifted := n + 719468
  let era := shifted / 146097
  let inEra := (shifted % 146097).toNat
  let yearOfEra := (inEra - inEra / 1460 + inEra / 36524 - inEra / 146096) / 365
  let inYear := inEra - (365 * yearOfEra + yearOfEra / 4 - yearOfEra / 100)
  let monthFromMarch := (5 * inYear + 2) / 153
  let month := if monthFromMarch < 10 then monthFromMarch + 3 else monthFromMarch - 9
  let year := era * 400 + yearOfEra
  ⟨if month ≤ 2 then year + 1 else year, month, inYear - daysBefore monthFromMarch + 1⟩

/-- The number of a day within its year, counted from one. -/
def ordinal (d : Date) : Nat := (d.number - (Date.mk d.year 1 1).number).toNat + 1

/-- The days since the last Monday. -/
def weekday (d : Date) : Nat := ((d.number + 3) % 7).toNat

/-- The year and the number of the week of a day, a week belonging to the year of its Thursday. -/
def week (d : Date) : Int × Nat :=
  let thursday := ofNumber (d.number - d.weekday + 3)
  (thursday.year, (thursday.ordinal - 1) / 7 + 1)

/-- The number of the week of a day within its year, weeks starting `shift` days before Monday; the
days before the first full week are in week zero. -/
def weekOfYear (d : Date) (shift : Nat) : Nat :=
  (d.ordinal + 6 - (d.weekday + shift) % 7) / 7

end Date

namespace DateTime

/-- The start of a day. -/
def ofDate (d : Date) : DateTime := ⟨d.number, 0, 0⟩

def date (t : DateTime) : Date := Date.ofNumber t.dayNumber

/-- Seconds since the start of 1970, leap seconds not being counted. -/
def timestamp (t : DateTime) : Int := t.dayNumber * 86400 + t.second

/-- The time some seconds earlier; a leap second stays one. -/
def minusSeconds (t : DateTime) (n : Int) : DateTime :=
  let total := t.timestamp - n
  ⟨total / 86400, (total % 86400).toNat, t.nano⟩

end DateTime
end ClientRecords
