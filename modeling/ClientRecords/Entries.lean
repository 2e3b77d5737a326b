/-!
Lists of named values in the order in which the names first came up. Writing under a name that is
present replaces its value in place; a new name goes to the end. So the names never repeat
(`nodup_names_put`), and `put` is the only operation that changes a list.
-/

namespace ClientRecords

/-- Named values, in order. -/
abbrev Entries (α : Type) := List (String × α)

namespace Entries

variable {α : Type}

def names (es : Entries α) : List String := es.map Prod.fst

/-- The value under a name. -/
def get? : Entries α → String → Option α
  | [], _ => none
  | (k, v) :: es, name => if k = name then some v else get? es name

/-- Writes a value under a name: in place if the name is present, else at the end. -/
def put : Entries α → String → α → Entries α
  | [], name, x => [(name, x)]
  | (k, v) :: es, name, x => if k = name then (k, x) :: es else (k, v) :: put es name x

/-- Writes a list of named values one after the other. -/
def putAll (es new : Entries α) : Entries α := new.foldl (fun es e => es.put e.1 e.2) es

theorem get?_put_self (es : Entries α) (name : String) (x : α) :
    (es.put name x).get? name = some x := by
  induction es with
  | nil => simp [put, get?]
  | cons e es ih => by_cases h : e.1 = name <;> simp [put, get?, h, ih]

theorem get?_put_of_ne (es : Entries α) {name other : String} (x : α) (h : name ≠ other) :
    (es.put name x).get? other = es.get? other := by
  induction es with
  | nil => simp [put, get?, h]
  | cons e es ih =>
    by_cases he : e.1 = name
    · simp [put, get?, he, h]
    · simp [put, get?, he, ih]

theorem names_put (es : Entries α) (name : String) (x : α) :
    (es.put name x).names = if name ∈ es.names then es.names else es.names ++ [name] := by
  induction es with
  | nil => simp [put, names]
  | cons e es ih =>
    by_cases he : e.1 = name
    · simp [put, names, he]
    · simp only [names] at ih
      simp only [put, names, he, if_false, List.map_cons, ih, List.mem_cons, Ne.symm he, false_or]
      by_cases hm : name ∈ es.map Prod.fst <;> simp [hm]

theorem nodup_names_put {es : Entries α} (h : es.names.Nodup) (name : String) (x : α) :
    (es.put name x).names.Nodup := by
  rw [names_put]
  by_cases hn : name ∈ es.names
  · rwa [if_pos hn]
  · rw [if_neg hn, List.nodup_append]
    refine ⟨h, by simp, ?_⟩
    rintro a ha b hb rfl
    exact hn (List.mem_singleton.mp hb ▸ ha)

theorem nodup_names_putAll {es : Entries α} (h : es.names.Nodup) (new : Entries α) :
    (es.putAll new).names.Nodup := by
  unfold putAll
  induction new generalizing es with
  | nil => exact h
  | cons e new ih => exact ih (nodup_names_put h e.1 e.2)

end Entries
end ClientRecords
