import ClientRecords.Arithmetic
import ClientRecords.Condition.Clause
/-!
Queries: which rows of which table are read, and what is shown of them.
-/

namespace ClientRecords

/-- A table whose rows lend fields to the rows of a query, and the two fields by which a row is
looked up in it. -/
structure Join where
  table : String
  shortName : Option String
  left : String
  right : String
  deriving DecidableEq

inductive Direction where
  | ascending
  | descending
  deriving DecidableEq

structure SortKey where
  field : String
  direction : Direction
  deriving DecidableEq

/-- A sum over a field, and the name it is shown under. -/
structure SumColumn where
  field : String
  name : String
  deriving DecidableEq

/-- What is shown of the rows: their number, sums over them, their number by date or by the value
of a field, or the rows themselves. -/
inductive Projection where
  | count (name : String)
  | sums (columns : List SumColumn)
  | trend (format field keyName countName : String)
  | groups (field countName : String)
  | rows
  deriving DecidableEq

/-- A query whose parameters are not bound yet. -/
structure OpenQuery where
  projection : Projection
  table : String
  shortName : Option String
  joins : List Join
  clause : Clause
  orderBy : Option SortKey
  limit : Option Operand
  offset : Option Operand
  deriving DecidableEq

structure Query where
  projection : Projection
  table : String
  shortName : Option String
  joins : List Join
  conditions : List Condition
  orderBy : Option SortKey
  limit : Option Nat
  offset : Option Nat
  deriving DecidableEq

namespace Value

/-- The number of rows that a value stands for, the fraction being dropped; a negative number sets
no bound. -/
def rowCount? (v : Value) : Option Nat :=
  match v.numeric with
  | .finite negative m =>
    if negative && m.units != 0 then none else some (min (m.units / Binary64.one) (pow2 64 - 1))
  | _ => some 0

end Value

namespace Operand

/-- The number of rows that an operand sets; a parameter that is not given sets no bound. -/
def rowCount? (params : List Value) : Operand → Option Nat
  | .literal v => v.rowCount?
  | .param k => params[k]?.bind Value.rowCount?

end Operand

namespace OpenQuery

/-- The query with parameters in place of its operands. -/
def bind (q : OpenQuery) (mode : Mode) (params : List Value) : Except StoreError Query := do
  let conditions ← q.clause.bind mode params
  return {
    projection := q.projection
    table := q.table
    shortName := q.shortName
    joins := q.joins
    conditions := conditions
    orderBy := q.orderBy
    limit := q.limit.bind (·.rowCount? params)
    offset := q.offset.bind (·.rowCount? params) }

end OpenQuery
end ClientRecords
