import ClientRecords.Query.Join
import ClientRecords.Query.Sorting
import ClientRecords.Query.Trend
/-!
The rows that a query gives. Counting, sums and groups go over the rows of the table itself; only
plain rows are joined with other tables, before the conditions are looked at. A table that is not
there has no rows.
-/

namespace ClientRecords

namespace Direction

/-- Does the first of two come strictly before the second? -/
def before : Direction → Ordering → Bool
  | .ascending, o => o == .lt
  | .descending, o => o == .gt

end Direction

/-- Why a query has no rows to give: a date format asks for a zone, which no stored date has, or the
order of the rows contradicts itself. -/
inductive Breakdown where
  | noZone
  | noOrder
  deriving DecidableEq

namespace Query

/-- The order of two field values: the natural one, else that of their loose texts. -/
def compareValues (a b : Value) : Ordering := (a.compare? b).getD (compare a.text b.text)

/-- The value that a row is sorted by; one that is missing or null counts as the empty string. -/
def sortValue (field : String) (r : Record) : Value :=
  match r.get? field with
  | some v => if v.isNull then .string "" else v
  | none => .string ""

/-- Does a row come strictly before another? -/
def rowBefore (key : SortKey) (a b : Record) : Bool :=
  key.direction.before (compareValues (sortValue key.field a) (sortValue key.field b))

/-- Is the order of some values total? That of strings is, and that of numbers and truth values,
which the empty string comes before. -/
def haveOrder (vs : List Value) : Bool :=
  let isString : Value → Bool
    | .string _ => true
    | _ => false
  let isNumeric : Value → Bool
    | .string s => s == ""
    | .null | .float .nan => false
    | _ => true
  vs.all isString || vs.all isNumeric

/-- Rows by the values of a field; none if their order is found to contradict itself. Under a total
order all ways of sorting agree, and insertion is the plainest. -/
def sortRows? (key : SortKey) (rs : List Record) : Option (List Record) :=
  if haveOrder (rs.map (sortValue key.field)) then some (sortStable (rowBefore key) rs)
  else sort? (rowBefore key) rs

/-- The part of a list that a limit and an offset leave. -/
def page {α : Type} (q : Query) (xs : List α) : List α :=
  let rest := xs.drop (q.offset.getD 0)
  match q.limit with
  | some n => rest.take n
  | none => rest

/-- The rows of the table that satisfy the conditions. -/
def filtered (d : Document) (q : Query) : List Record :=
  (d.rows q.table).filter (·.satisfies q.conditions)

/-- A count, also under the names that are always given. -/
def countRow (name : String) (n : Nat) : Record :=
  Record.ofFields ([name, "c", "total"].map (·, Value.count n))

/-- The sum over a field of rows, missing values counting as zero. -/
def sumOver (rows : List Record) (field : String) : Binary64 :=
  rows.foldl (fun sum r => sum.add (((r.get? field).map Value.numeric).getD .zero)) .zero

/-- The sums, the first one also under a short name. -/
def sumRow (rows : List Record) (columns : List SumColumn) : Record :=
  let r := Record.ofFields (columns.map fun c => (c.name, Value.number (sumOver rows c.field)))
  match columns.head?.bind fun c => r.get? c.name with
  | some v => r.put "v" v
  | none => r

/-- The value by which a row is grouped. -/
def groupValue (field : String) (r : Record) : Value :=
  match r.get? field with
  | some v => if v.isNull then .string "Unknown" else v
  | none => .string "Unknown"

/-- Counts a value into the group with its text, or opens a new group at the end. -/
def addToGroups (v : Value) : List (Value × Nat) → List (Value × Nat)
  | [] => [(v, 1)]
  | (w, n) :: gs => if w.text = v.text then (w, n + 1) :: gs else (w, n) :: addToGroups v gs

/-- The groups in the order in which they first came up, each with its first value. -/
def groupsOf (field : String) (rows : List Record) : List (Value × Nat) :=
  rows.foldl (fun gs r => addToGroups (groupValue field r) gs) []

/-- Groups sorted by their size where a sort key is given, whichever it is. -/
def sortGroups (orderBy : Option SortKey) (gs : List (Value × Nat)) : List (Value × Nat) :=
  match orderBy with
  | some key => sortStable (fun a b => key.direction.before (compare a.2 b.2)) gs
  | none => gs

/-- A group: its value and its size, also under the names that are always given. -/
def groupRow (field countName : String) (g : Value × Nat) : Record :=
  Record.ofFields
    ([(field, g.1), (countName, .count g.2), ("count", .count g.2)]
      ++ ["source", "type", "status"].map (·, g.1))

/-- A date and the number of its rows. -/
def trendRow (keyName countName : String) (g : String × Nat) : Record :=
  Record.ofFields [(keyName, .string g.1), (countName, .count g.2)]

/-- The rows themselves: joined, filtered, sorted and cut to the page. -/
def plainRows? (d : Document) (q : Query) : Option (List Record) :=
  let joined := (d.rows q.table).map fun r => q.joins.foldl (Join.apply d) r
  let kept := joined.filter (·.satisfies q.conditions)
  (match q.orderBy with
    | some key => sortRows? key kept
    | none => some kept).map q.page

/-- The rows that a query gives at the time of a stamp. -/
def rows (d : Document) (q : Query) (now : String) : Except Breakdown (List Record) :=
  match q.projection with
  | .count name => .ok [countRow name (q.filtered d).length]
  | .sums columns => .ok [sumRow (q.filtered d) columns]
  | .trend format field keyName countName =>
    match Trend.count? format field now (q.filtered d) with
    | some groups => .ok ((Trend.lastGroups q.limit groups).map (trendRow keyName countName))
    | none => .error .noZone
  | .groups field countName =>
    .ok ((q.page (sortGroups q.orderBy (groupsOf field (q.filtered d)))).map
      (groupRow field countName))
  | .rows =>
    match q.plainRows? d with
    | some rows => .ok rows
    | none => .error .noOrder

end Query
end ClientRecords
