import ClientRecords.Proofs.Record
import ClientRecords.Statement.Basic
/-!
The time stamps of a new row. A stamp that the row names keeps its place, and its value if that is
truthy; the others follow behind the fields of the row (`fields_stamped`).
-/

namespace ClientRecords
namespace Statement

/-- A field of a new row, with the stamp in the place of what is not truthy, if it is one of some
fields. -/
def restamp (stamp : String) (names : List String) (e : String × Value) : String × Value :=
  if e.1 ∈ names ∧ e.2.isTruthy = false then (e.1, .string stamp) else e

variable {stamp : String} {r : Record} {name : String} {names : List String}

theorem fst_restamp (e : String × Value) : (restamp stamp names e).1 = e.1 := by
  rw [restamp]
  split <;> rfl

theorem restamp_restamp (h : name ∉ names) (e : String × Value) :
    restamp stamp names (restamp stamp [name] e) = restamp stamp (name :: names) e := by
  by_cases hk : e.1 = name
  · subst hk
    cases ht : e.2.isTruthy <;> simp [restamp, h, ht]
  · simp [restamp, hk]

/-- One stamp is written in its place, or behind the others. -/
theorem fields_putStamp (r : Record) (name : String) : (putStamp stamp r name).fields =
    if name ∈ r.fields.names then r.fields.map (restamp stamp [name])
    else r.fields ++ [(name, .string stamp)] := by
  by_cases hmem : name ∈ r.fields.names
  · obtain ⟨⟨k, v⟩, hv, rfl⟩ := List.mem_map.mp hmem
    have hget : r.get? k = some v := Entries.get?_of_mem r.distinct hv
    have huniq : ∀ e ∈ r.fields, e.1 = k → e.2 = v := by
      rintro ⟨k', u⟩ he rfl
      exact Option.some.inj ((Entries.get?_of_mem r.distinct he).symm.trans hget)
    rw [if_pos hmem, putStamp, Record.hasTruthy, hget, Option.any_some]
    cases ht : v.isTruthy with
    | true =>
      have hsame : ∀ e ∈ r.fields, restamp stamp [k] e = e := fun e he =>
        if_neg fun ⟨hk, hf⟩ => by
          rw [huniq e he (List.mem_singleton.mp hk), ht] at hf
          cases hf
      rw [if_pos rfl]
      exact ((List.map_congr_left hsame).trans (List.map_id _)).symm
    | false =>
      have hput : (r.put k (.string stamp)).fields
          = r.fields.map fun e => if e.1 = k then (e.1, .string stamp) else e :=
        Entries.put_of_mem r.distinct hmem
      have hsame : ∀ e ∈ r.fields,
          (if e.1 = k then (e.1, .string stamp) else e) = restamp stamp [k] e := by
        intro e he
        by_cases hk : e.1 = k
        · rw [if_pos hk, restamp, if_pos ⟨List.mem_singleton.mpr hk, by rw [huniq e he hk, ht]⟩]
        · rw [if_neg hk, restamp, if_neg fun h => hk (List.mem_singleton.mp h.1)]
      rw [if_neg Bool.false_ne_true, hput]
      exact List.map_congr_left hsame
  · have hget : r.get? name = none := Entries.get?_eq_none_iff.mpr hmem
    rw [if_neg hmem, putStamp, Record.hasTruthy, hget]
    exact Entries.put_of_not_mem hmem

/-- Stamps are written in their places, and those that a record lacks behind its fields. -/
theorem fields_foldl_putStamp (hn : names.Nodup) (r : Record) :
    (names.foldl (putStamp stamp) r).fields = r.fields.map (restamp stamp names)
      ++ (names.filter (· ∉ r.fields.names)).map fun name => (name, .string stamp) := by
  induction names generalizing r with
  | nil =>
    have hsame : ∀ e ∈ r.fields, restamp stamp [] e = e := fun e _ => if_neg fun h => nomatch h.1
    simp [List.map_congr_left hsame]
  | cons name names ih =>
    obtain ⟨hname, hnames⟩ := List.nodup_cons.mp hn
    rw [List.foldl_cons, ih hnames, fields_putStamp]
    by_cases hmem : name ∈ r.fields.names
    · have hsame : Entries.names (r.fields.map (restamp stamp [name])) = r.fields.names := by
        rw [Entries.names, List.map_map]
        exact List.map_congr_left fun e _ => fst_restamp e
      rw [if_pos hmem, hsame, List.map_map, List.filter_cons_of_neg (by simpa using hmem)]
      exact congrArg (· ++ _) (List.map_congr_left fun e _ => restamp_restamp hname e)
    · have hnew : restamp stamp names (name, .string stamp) = (name, .string stamp) :=
        if_neg fun h => hname h.1
      have hold : r.fields.map (restamp stamp names)
          = r.fields.map (restamp stamp (name :: names)) := by
        refine List.map_congr_left fun e he => ?_
        have hne : e.1 ≠ name := fun h => hmem (h ▸ List.mem_map_of_mem he)
        simp [restamp, hne]
      have hfilter : names.filter (· ∉ Entries.names (r.fields ++ [(name, .string stamp)]))
          = names.filter (· ∉ r.fields.names) := by
        refine List.filter_congr fun other ho => ?_
        have hne : other ≠ name := fun h => hname (h ▸ ho)
        refine decide_eq_decide.mpr (not_congr ?_)
        rw [Entries.names_append, List.mem_append]
        simp [Entries.names, hne]
      rw [if_neg hmem, hfilter, List.filter_cons_of_pos (by simpa using hmem), List.map_append,
        hold, List.map_singleton, hnew, List.append_assoc]
      rfl

end Statement
end ClientRecords
