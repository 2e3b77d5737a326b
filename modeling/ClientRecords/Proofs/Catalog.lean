import ClientRecords.Catalog
import ClientRecords.Proofs.Record
/-!
Looking up what was written into a catalog. Entries in ascending order, written one after the other,
make a catalog as they are.
-/

namespace ClientRecords

variable {α : Type} {key other : String} {x : α}

theorem find?_insertSorted_self : ∀ es : List (String × α),
    (insertSorted key x es).find? (·.1 == key) = some (key, x)
  | [] => by simp [insertSorted]
  | (k, v) :: es => by
    rw [insertSorted]
    by_cases hlt : key < k
    · simp [hlt]
    by_cases heq : key = k
    · simp [heq]
    · rw [if_neg hlt, if_neg heq, List.find?_cons_of_neg (by simpa using Ne.symm heq),
        find?_insertSorted_self es]

theorem find?_insertSorted_of_ne (h : key ≠ other) : ∀ es : List (String × α),
    (insertSorted key x es).find? (·.1 == other) = es.find? (·.1 == other)
  | [] => by simp [insertSorted, h]
  | (k, v) :: es => by
    rw [insertSorted]
    by_cases hlt : key < k
    · rw [if_pos hlt, List.find?_cons_of_neg (by simpa using h)]
    by_cases heq : key = k
    · subst heq
      rw [if_neg hlt, if_pos rfl, List.find?_cons_of_neg (by simpa using h),
        List.find?_cons_of_neg (by simpa using h)]
    · rw [if_neg hlt, if_neg heq, List.find?_cons, List.find?_cons,
        find?_insertSorted_of_ne h es]

/-- What holds of the new entry and of those that are there holds of all. -/
theorem forall_mem_insertSorted {P : String × α → Prop} {es : List (String × α)}
    (hx : P (key, x)) (h : ∀ e ∈ es, P e) : ∀ e ∈ insertSorted key x es, P e := by
  intro e he
  rcases mem_insertSorted he with rfl | he
  · exact hx
  · exact h e he

theorem insertSorted_of_forall_lt : ∀ {es : List (String × α)}, (∀ e ∈ es, e.1 < key) →
    insertSorted key x es = es ++ [(key, x)]
  | [], _ => rfl
  | (k, v) :: es, h => by
    obtain ⟨hk, hes⟩ := List.forall_mem_cons.mp h
    have hlt : ¬key < k := fun h => String.lt_irrefl k (String.lt_trans hk h)
    have hne : key ≠ k := fun heq => String.lt_irrefl k (heq ▸ hk)
    rw [insertSorted, if_neg hlt, if_neg hne, insertSorted_of_forall_lt hes]
    rfl

namespace Catalog

theorem get?_put_self (c : Catalog α) (key : String) (x : α) : (c.put key x).get? key = some x := by
  rw [get?, put, find?_insertSorted_self]
  rfl

theorem get?_put_of_ne (c : Catalog α) (x : α) (h : key ≠ other) :
    (c.put key x).get? other = c.get? other := by
  rw [get?, put, find?_insertSorted_of_ne h, get?]

theorem contains_eq_isSome (c : Catalog α) (key : String) :
    c.contains key = (c.get? key).isSome := by
  rw [contains, get?, Option.isSome_map, List.isSome_find?]

theorem contains_put_self (c : Catalog α) (key : String) (x : α) :
    (c.put key x).contains key = true := by
  rw [contains_eq_isSome, get?_put_self]
  rfl

theorem contains_put_of_contains (c : Catalog α) (x : α) (h : c.contains other = true) :
    (c.put key x).contains other = true := by
  by_cases hk : key = other
  · rw [hk, contains_put_self]
  · rw [contains_eq_isSome, get?_put_of_ne c x hk, ← contains_eq_isSome, h]

theorem contains_put_of_ne (c : Catalog α) (x : α) (h : key ≠ other) :
    (c.put key x).contains other = c.contains other := by
  rw [contains_eq_isSome, get?_put_of_ne c x h, ← contains_eq_isSome]

theorem contains_of_mem {c : Catalog α} {e : String × α} (h : e ∈ c.entries) :
    c.contains e.1 = true := List.any_eq_true.mpr ⟨e, h, by simp⟩

theorem nodup_keys (c : Catalog α) : c.keys.Nodup := by
  refine List.pairwise_map.mpr (List.Pairwise.imp ?_ c.ascending)
  rintro a b hlt heq
  rw [heq] at hlt
  exact String.lt_irrefl b.1 hlt

theorem mem_entries_iff {c : Catalog α} : (key, x) ∈ c.entries ↔ c.get? key = some x := by
  have hget : c.get? key = Entries.get? c.entries key := (Entries.get?_eq_find? c.entries key).symm
  rw [hget]
  exact ⟨Entries.get?_of_mem c.nodup_keys, Entries.mem_of_get?⟩

/-- Ascending entries are written behind those that are there. -/
theorem entries_foldl_put : ∀ (es : List (String × α)) (c : Catalog α),
    Ascending (c.entries ++ es) →
    (es.foldl (fun c e => c.put e.1 e.2) c).entries = c.entries ++ es
  | [], c, _ => (List.append_nil c.entries).symm
  | (key, x) :: es, c, h => by
    have hlt : ∀ e ∈ c.entries, e.1 < key := fun e he =>
      (List.pairwise_append.mp h).2.2 e he (key, x) List.mem_cons_self
    have hput : (c.put key x).entries = c.entries ++ [(key, x)] := insertSorted_of_forall_lt hlt
    have hnext : Ascending ((c.put key x).entries ++ es) := by
      rw [hput, List.append_assoc]
      exact h
    rw [List.foldl_cons, entries_foldl_put es (c.put key x) hnext, hput, List.append_assoc]
    rfl

/-- A catalog is made by writing its own entries. -/
theorem foldl_put_entries (c : Catalog α) :
    c.entries.foldl (fun c e => c.put e.1 e.2) empty = c :=
  ext (entries_foldl_put c.entries empty c.ascending)

end Catalog
end ClientRecords
