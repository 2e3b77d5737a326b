import ClientRecords.Entries
import ClientRecords.Value
/-!
Records: named values in the order in which the names first came up, no name twice.
-/

namespace ClientRecords

structure Record where
  fields : Entries Value
  distinct : fields.names.Nodup
  deriving DecidableEq

namespace Record

def empty : Record := ⟨[], List.nodup_nil⟩

instance : Inhabited Record := ⟨empty⟩

def get? (r : Record) (name : String) : Option Value := r.fields.get? name

/-- Writes a field: in place if the name is present, else at the end. -/
def put (r : Record) (name : String) (v : Value) : Record :=
  ⟨r.fields.put name v, Entries.nodup_names_put r.distinct name v⟩

/-- Writes fields one after the other. -/
def putAll (r : Record) (new : Entries Value) : Record :=
  ⟨r.fields.putAll new, Entries.nodup_names_putAll r.distinct new⟩

/-- The record that writing fields one after the other gives. -/
def ofFields (fields : Entries Value) : Record := empty.putAll fields

/-- Is there a truthy value under a name? -/
def hasTruthy (r : Record) (name : String) : Bool := (r.get? name).any Value.isTruthy

def toJson (r : Record) : Json := .object (r.fields.map fun (name, v) => (name, v.toJson))

/-- The record of a JSON object. -/
def ofJson? : Json → Option Record
  | .object members => some (ofFields (members.map fun (name, j) => (name, Value.ofJson j)))
  | _ => none

@[ext] theorem ext {a b : Record} (h : a.fields = b.fields) : a = b := by
  cases a; cases b; simp_all

theorem get?_put_self (r : Record) (name : String) (v : Value) :
    (r.put name v).get? name = some v := Entries.get?_put_self ..

theorem get?_put_of_ne (r : Record) {name other : String} (v : Value) (h : name ≠ other) :
    (r.put name v).get? other = r.get? other := Entries.get?_put_of_ne _ _ h

end Record
end ClientRecords
