import ClientRecords.Condition.Clause
/-!
Statements, before and after their parameters are bound. What a statement does to which table and
fields is settled before any parameter is known; binding supplies values and nothing else.
-/

namespace ClientRecords

/-- The value of a field of a new record: an operand, or the time stamp of the statement. -/
inductive FieldSource where
  | operand (x : Operand)
  | stamp
  deriving DecidableEq

/-- A statement whose parameters are not bound yet. Reads are kept as their text. -/
inductive OpenStatement where
  | insert (table : String) (orIgnore : Bool) (fields : List (String × FieldSource))
  | update (table : String) (assignments : List (String × Operand)) (clause : Clause)
  | delete (table : String) (clause : Clause)
  | select (text : String)
  deriving DecidableEq

/-- A statement that is ready to be carried out. -/
inductive Statement where
  | insert (table : String) (orIgnore : Bool) (record : Record)
  | update (table : String) (assignments : Record) (conditions : List Condition)
  | delete (table : String) (conditions : List Condition)
  | select (text : String) (params : List Value)
  deriving DecidableEq

namespace FieldSource

def value (params : List Value) (stamp : String) : FieldSource → Value
  | .operand x => x.value params
  | .stamp => .string stamp

end FieldSource

namespace Statement

/-- The fields of a new record that hold its time stamps. -/
def stampFields : List String := ["created_at", "updated_at"]

/-- Writes the stamp into a field unless it holds something truthy. -/
def putStamp (stamp : String) (r : Record) (field : String) : Record :=
  if r.hasTruthy field then r else r.put field (.string stamp)

/-- A new row with its time stamps. -/
def stamped (stamp : String) (r : Record) : Record := stampFields.foldl (putStamp stamp) r

/-- The record of a new row. -/
def newRecord (params : List Value) (stamp : String) (fields : List (String × FieldSource)) :
    Record :=
  stamped stamp (Record.ofFields (fields.map fun (name, x) => (name, x.value params stamp)))

/-- The fields that an update writes, the time stamp last. -/
def overlay (params : List Value) (stamp : String) (assignments : List (String × Operand)) :
    Record :=
  let r := Record.ofFields (assignments.map fun (name, x) => (name, x.value params))
  r.put "updated_at" (.string stamp)

end Statement

namespace OpenStatement

/-- The statement with parameters in place of its operands, at the time of a stamp. -/
def bind (mode : Mode) (params : List Value) (stamp : String) :
    OpenStatement → Except StoreError Statement
  | .insert table orIgnore fields =>
    .ok (.insert table orIgnore (Statement.newRecord params stamp fields))
  | .update table assignments clause =>
    (clause.bind mode params).map (.update table (Statement.overlay params stamp assignments))
  | .delete table clause => (clause.bind mode params).map (.delete table)
  | .select text => .ok (.select text params)

end OpenStatement
end ClientRecords
