import ClientRecords.Proofs.Database.Calls
/-!
Documents that only grow: rows are put behind those that a table has, and nothing else is written.
Growth is closed under composition (`GrowsBy.trans`), and what it adds to the number of all rows is
the number of the rows that are new.
-/

namespace ClientRecords

/-- A value that is written under a key takes the place of what is there. -/
theorem total_insertSorted {α : Type} (size : α → Nat) (key : String) (x : α) :
    ∀ {es : List (String × α)}, Ascending es →
      total ((insertSorted key x es).map fun e => size e.2)
          + (((es.find? (·.1 == key)).map Prod.snd).elim 0 size)
        = total (es.map fun e => size e.2) + size x
  | [], _ => by simp [insertSorted, total]
  | (k, v) :: es, h => by
    obtain ⟨hk, hes⟩ := List.pairwise_cons.mp h
    rw [insertSorted]
    by_cases hlt : key < k
    · have hnone : ((k, v) :: es).find? (·.1 == key) = none := by
        refine List.find?_eq_none.mpr fun e he => ?_
        have hbelow : key < e.1 := by
          rcases List.mem_cons.mp he with rfl | he
          · exact hlt
          · exact String.lt_trans hlt (hk e he)
        intro heq
        rw [beq_iff_eq] at heq
        exact String.lt_irrefl key (heq ▸ hbelow)
      rw [if_pos hlt, hnone]
      simp only [List.map_cons, total, Option.map_none, Option.elim_none]
      omega
    by_cases heq : key = k
    · subst heq
      rw [if_neg hlt, if_pos rfl]
      simp only [List.find?_cons_of_pos, beq_self_eq_true, List.map_cons, total, Option.map_some,
        Option.elim_some]
      omega
    · have hrest := total_insertSorted size key x hes
      rw [if_neg hlt, if_neg heq, List.find?_cons_of_neg (by simpa using Ne.symm heq)]
      simp only [List.map_cons, total] at hrest ⊢
      omega

theorem Table.name_injective {t u : Table} (h : t.name = u.name) : t = u := by
  cases t <;> cases u <;> first | rfl | exact absurd h (by decide)

namespace Document

/-- The next document has further rows behind those of each table, and nothing else is new. -/
structure GrowsBy (d next : Document) (new : Table → List Record) : Prop where
  rows : ∀ t, next.rowsOf t = d.rowsOf t ++ new t
  others : ∀ key, isTableName key = false → next.tables.get? key = d.tables.get? key
  extras : next.extras = d.extras
  totalRows : next.totalRows = d.totalRows + total (Table.all.map fun t => (new t).length)

variable {d e next : Document} {new more : Table → List Record} {t : Table} {r : Record}

theorem GrowsBy.refl (d : Document) : d.GrowsBy d fun _ => [] where
  rows _ := (List.append_nil _).symm
  others _ _ := rfl
  extras := rfl
  totalRows := rfl

theorem GrowsBy.trans (h : d.GrowsBy e new) (hmore : e.GrowsBy next more) :
    d.GrowsBy next fun t => new t ++ more t where
  rows t := by rw [hmore.rows, h.rows, List.append_assoc]
  others key hkey := (hmore.others key hkey).trans (h.others key hkey)
  extras := hmore.extras.trans h.extras
  totalRows := by
    rw [hmore.totalRows, h.totalRows]
    simp only [Table.all, List.map_cons, List.map_nil, total, List.length_append]
    omega

theorem totalRows_eq (d : Document) :
    d.totalRows = total (d.tables.entries.map fun e => e.2.length) := by
  rw [totalRows, counts, List.map_map]
  rfl

theorem totalRows_append (d : Document) (t : Table) (r : Record) :
    (d.append t r).totalRows = d.totalRows + 1 := by
  have htotal := total_insertSorted List.length t.name (d.rowsOf t ++ [r]) d.tables.ascending
  have hold : ((d.tables.entries.find? (·.1 == t.name)).map Prod.snd).elim 0 List.length
      = (d.rowsOf t).length := by
    rw [rowsOf, Catalog.get?]
    cases (d.tables.entries.find? (·.1 == t.name)).map Prod.snd <;> rfl
  rw [hold, List.length_append, List.length_singleton] at htotal
  rw [totalRows_eq, totalRows_eq]
  exact Nat.add_right_cancel (htotal.trans (by omega))

theorem growsBy_append (d : Document) (t : Table) (r : Record) :
    d.GrowsBy (d.append t r) fun u => if u = t then [r] else [] where
  rows u := by
    by_cases hu : u = t
    · subst hu
      rw [if_pos rfl]
      exact d.rowsOf_setRows u _
    · rw [if_neg hu, List.append_nil, rowsOf, append,
        d.get?_setRows_of_ne t _ fun hname => hu (Table.name_injective hname), rowsOf]
  others key hkey := d.get?_setRows_of_ne t _ (ne_name_of_not_isTableName hkey t)
  extras := rfl
  totalRows := by
    rw [totalRows_append]
    cases t <;> rfl

end Document
end ClientRecords
