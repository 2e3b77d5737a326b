/-!
Values under keys in ascending order. The keys are in strictly ascending order at any time, so two
catalogs that hold the same values under the same keys are equal.
-/

namespace ClientRecords

/-- Writes a value under a key into entries in ascending order of their keys. -/
def insertSorted {α : Type} (key : String) (x : α) : List (String × α) → List (String × α)
  | [] => [(key, x)]
  | (k, v) :: es =>
    if key < k then (key, x) :: (k, v) :: es
    else if key = k then (key, x) :: es
    else (k, v) :: insertSorted key x es

/-- The keys ascend strictly. -/
def Ascending {α : Type} (es : List (String × α)) : Prop := es.Pairwise (·.1 < ·.1)

theorem mem_insertSorted {α : Type} {key : String} {x : α} {e : String × α} :
    ∀ {es : List (String × α)}, e ∈ insertSorted key x es → e = (key, x) ∨ e ∈ es
  | [], h => .inl (List.mem_singleton.mp h)
  | (k, v) :: es, h => by
    rw [insertSorted] at h
    split at h
    · exact List.mem_cons.mp h
    · split at h
      · exact (List.mem_cons.mp h).imp_right (List.mem_cons_of_mem _)
      · rcases List.mem_cons.mp h with rfl | h
        · exact .inr List.mem_cons_self
        · exact (mem_insertSorted h).imp_right (List.mem_cons_of_mem _)

theorem ascending_insertSorted {α : Type} (key : String) (x : α) : ∀ {es : List (String × α)},
    Ascending es → Ascending (insertSorted key x es)
  | [], _ => List.pairwise_singleton _ _
  | (k, v) :: es, h => by
    obtain ⟨hk, hes⟩ := List.pairwise_cons.mp h
    rw [insertSorted]
    by_cases hlt : key < k
    · rw [if_pos hlt]
      refine List.pairwise_cons.mpr ⟨?_, h⟩
      rintro e he
      rcases List.mem_cons.mp he with rfl | he
      · exact hlt
      · exact String.lt_trans hlt (hk e he)
    by_cases heq : key = k
    · rw [if_neg hlt, if_pos heq]
      exact List.pairwise_cons.mpr ⟨fun e he => heq ▸ hk e he, hes⟩
    · rw [if_neg hlt, if_neg heq]
      refine List.pairwise_cons.mpr ⟨?_, ascending_insertSorted key x hes⟩
      rintro e he
      rcases mem_insertSorted he with rfl | he
      · exact Std.lt_of_le_of_ne (String.not_lt.mp hlt) (Ne.symm heq)
      · exact hk e he

/-- Values under keys, in ascending order of the keys. -/
structure Catalog (α : Type) where
  entries : List (String × α)
  ascending : Ascending entries

namespace Catalog

variable {α : Type}

def empty : Catalog α := ⟨[], List.Pairwise.nil⟩

instance : Inhabited (Catalog α) := ⟨empty⟩

def keys (c : Catalog α) : List String := c.entries.map Prod.fst

def get? (c : Catalog α) (key : String) : Option α :=
  (c.entries.find? (·.1 == key)).map Prod.snd

def contains (c : Catalog α) (key : String) : Bool := c.entries.any (·.1 == key)

/-- Writes a value under a key. -/
def put (c : Catalog α) (key : String) (x : α) : Catalog α :=
  ⟨insertSorted key x c.entries, ascending_insertSorted key x c.ascending⟩

@[ext] theorem ext {a b : Catalog α} (h : a.entries = b.entries) : a = b := by
  cases a; cases b; simp_all

end Catalog
end ClientRecords
