import ClientRecords.Calendar.Format
import ClientRecords.Calendar.Reader
import ClientRecords.Catalog
import ClientRecords.Record
/-!
Rows counted by date. A row is dated by a field, else by the time it was created, else by the time
of the query; its date is written in a format, and rows with the same text are counted together. A
row without a readable date is not counted.
-/

namespace ClientRecords
namespace Trend

/-- The text that a row is dated by. -/
def dateText (field now : String) (r : Record) : String :=
  match ([r.get? field, r.get? "created_at"].filterMap id).find? Value.isTruthy with
  | some v => v.text
  | none => now

/-- Counts a key once more. -/
def tally (counts : Catalog Nat) (key : String) : Catalog Nat :=
  counts.put key ((counts.get? key).getD 0 + 1)

/-- The key of a row, if it has a readable date; none if the format asks for a zone. -/
def key? (ds : List Directive) (field now : String) (r : Record) : Option (Option String) :=
  match DateTime.ofText? (dateText field now r) with
  | some t => (Directive.writeAll? t ds).map some
  | none => some none

/-- The number of rows for every key, in ascending order of the keys. A format with an unknown
directive counts nothing; one that asks for a zone fails on the first row with a readable date. -/
def count? (format field now : String) (rows : List Record) : Option (List (String × Nat)) :=
  match Directive.ofFormat? format with
  | none => some []
  | some ds =>
    (rows.mapM (key? ds field now)).map fun keys =>
      ((keys.filterMap id).foldl tally .empty).entries

/-- The last groups, as many as a limit allows. -/
def lastGroups {α : Type} (limit : Option Nat) (groups : List α) : List α :=
  match limit with
  | some n => groups.drop (groups.length - n)
  | none => groups

end Trend
end ClientRecords
