import ClientRecords.Proofs.Query.Rows
/-!
Rows with the fields that joins lend. A join leaves the fields of a row in their places and changes
nothing but the few that are shown with the joined tables (`Join.decorates_apply`), a chain of joins
does no more than its joins do one after the other (`Join.Decorates.trans`), and each row is joined
by itself. So a listing is a part of the table, in its order, with such fields put on each row
(`Query.listed_decorates`).
-/

namespace ClientRecords

namespace Record

variable {r : Record}

/-- Writing a field moves no other field. -/
theorem names_prefix_put (r : Record) (name : String) (v : Value) :
    r.fields.names <+: (r.put name v).fields.names := by
  have hnames : (r.put name v).fields.names = _ := Entries.names_put r.fields name v
  rw [hnames]
  split
  · exact List.prefix_rfl
  · exact List.prefix_append _ _

theorem hasTruthy_congr {s : Record} {name : String} (h : r.get? name = s.get? name) :
    r.hasTruthy name = s.hasTruthy name := by
  rw [hasTruthy, hasTruthy, h]

end Record

namespace Join

/-- The fields that are shown with joined tables. -/
def displayFields : List String :=
  ["assigned_name", "assigned_role", "assigned_email", "performed_by_name", "lead_name",
    "template_name"]

/-- What a chain of joins makes of a row. Its fields stay in their places, no field is changed or
added but those that are shown with joined tables and the company, which a lead lends to a row
without one, and a row that matches nothing stays as it is. -/
structure Decorates (d : Document) (joins : List Join) (row shown : Record) : Prop where
  names : row.fields.names <+: shown.fields.names
  kept : ∀ name, name ∉ displayFields → name ≠ "company" → shown.get? name = row.get? name
  company : shown.get? "company" ≠ row.get? "company" →
    row.hasTruthy "company" = false ∧ ∃ j ∈ joins, j.table = "leads"
  unmatched : (∀ j ∈ joins, ∀ joined ∈ d.rows j.table, j.matchesRow row joined = false) →
    shown = row

variable {d : Document} {j : Join} {joins more : List Join} {joined row shown last : Record}
  {name table : String}

/-! ### One join -/

theorem names_prefix_lend (joined : Record) (source target : String) (row : Record) :
    row.fields.names <+: (lend joined source target row).fields.names := by
  rw [lend]
  split
  · exact row.names_prefix_put _ _
  · exact List.prefix_rfl

theorem names_prefix_lendAll : ∀ (names : List (String × String)) (row : Record),
    row.fields.names <+: (lendAll joined names row).fields.names
  | [], _ => List.prefix_rfl
  | p :: names, row =>
    (names_prefix_lend joined p.1 p.2 row).trans (names_prefix_lendAll names _)

/-- A lead lends its company to a row without one only. -/
theorem get?_company_lendLead (h : row.hasTruthy "company" = true) :
    (lendLead joined row).get? "company" = row.get? "company" := by
  have hnamed : (lend joined "name" "lead_name" row).get? "company" = row.get? "company" :=
    get?_lend (by decide)
  have htruthy := (Record.hasTruthy_congr hnamed).trans h
  simp only [lendLead]
  rw [if_pos htruthy, hnamed]

theorem mem_displayFields_of_lent (h : name ∈ lentFields table) :
    name ∈ displayFields ∨ name = "company" ∧ table = "leads" := by
  rw [lentFields] at h
  by_cases husers : (table == "users") = true
  · rw [if_pos husers] at h
    simp only [List.mem_cons, List.not_mem_nil, or_false] at h
    rcases h with rfl | rfl | rfl | rfl <;> exact .inl (by decide)
  rw [if_neg husers] at h
  by_cases hleads : (table == "leads") = true
  · rw [if_pos hleads] at h
    simp only [List.mem_cons, List.not_mem_nil, or_false] at h
    rcases h with rfl | rfl
    · exact .inl (by decide)
    · exact .inr ⟨rfl, eq_of_beq hleads⟩
  rw [if_neg hleads] at h
  split at h
  · exact .inl (List.mem_singleton.mp h ▸ by decide)
  · cases h

/-- A join does to a row what its table lends, and nothing without a match. -/
theorem decorates_apply (d : Document) (j : Join) (row : Record) :
    Decorates d [j] row (apply d row j) where
  names := by
    rw [apply]
    cases (d.rows j.table).find? (j.matchesRow row) with
    | some joined =>
      obtain ⟨names, -, hmerge⟩ := exists_lendAll j.table joined row
      dsimp only
      rw [hmerge]
      exact names_prefix_lendAll names row
    | none => exact List.prefix_rfl
  kept := by
    intro name hdisplay hcompany
    refine get?_apply d fun hlent => ?_
    rcases mem_displayFields_of_lent hlent with h | ⟨h, -⟩
    · exact hdisplay h
    · exact hcompany h
  company := by
    intro hchanged
    have hlent : "company" ∈ lentFields j.table := by
      by_contra hnot
      exact hchanged (get?_apply d hnot)
    have htable : j.table = "leads" := by
      rcases mem_displayFields_of_lent hlent with h | ⟨-, h⟩
      · exact absurd h (by decide)
      · exact h
    refine ⟨?_, j, List.mem_cons_self, htable⟩
    by_contra htruthy
    refine hchanged ?_
    rw [apply, htable]
    cases (d.rows "leads").find? (j.matchesRow row) with
    | some joined => exact get?_company_lendLead (eq_true_of_ne_false htruthy)
    | none => rfl
  unmatched := by
    intro hnone
    have hfind : (d.rows j.table).find? (j.matchesRow row) = none :=
      List.find?_eq_none.mpr fun joined hjoined => by
        simp [hnone j List.mem_cons_self joined hjoined]
    rw [apply, hfind]

/-! ### Chains of joins -/

theorem Decorates.refl (d : Document) (row : Record) : Decorates d [] row row :=
  ⟨List.prefix_rfl, fun _ _ _ => rfl, fun h => absurd rfl h, fun _ => rfl⟩

/-- What two chains do one after the other is what the whole chain may do. A company that only the
second chain sets was not there before the first one either. -/
theorem Decorates.trans (h : Decorates d joins row shown) (hmore : Decorates d more shown last) :
    Decorates d (joins ++ more) row last where
  names := h.names.trans hmore.names
  kept name hdisplay hcompany :=
    (hmore.kept name hdisplay hcompany).trans (h.kept name hdisplay hcompany)
  company := by
    intro hchanged
    by_cases hfirst : shown.get? "company" = row.get? "company"
    · obtain ⟨hfalsy, j, hj, htable⟩ := hmore.company fun heq => hchanged (heq.trans hfirst)
      rw [Record.hasTruthy_congr hfirst] at hfalsy
      exact ⟨hfalsy, j, List.mem_append_right joins hj, htable⟩
    · obtain ⟨hfalsy, j, hj, htable⟩ := h.company hfirst
      exact ⟨hfalsy, j, List.mem_append_left more hj, htable⟩
  unmatched := by
    intro hnone
    have hfirst : shown = row := h.unmatched fun j hj => hnone j (List.mem_append_left more hj)
    rw [← hfirst] at hnone ⊢
    exact hmore.unmatched fun j hj => hnone j (List.mem_append_right joins hj)

/-- A chain of joins only decorates. -/
theorem decorates_foldl (d : Document) (joins : List Join) (row : Record) :
    Decorates d joins row (joins.foldl (apply d) row) := by
  induction joins generalizing row with
  | nil => exact .refl d row
  | cons j joins ih => exact (decorates_apply d j row).trans (ih (apply d row j))

/-- A join looks at its own table only. -/
theorem apply_congr {other : Document} (h : other.rows j.table = d.rows j.table) (row : Record) :
    apply other row j = apply d row j := by
  rw [apply, apply, h]

theorem foldl_apply_congr {other : Document}
    (h : ∀ j ∈ joins, other.rows j.table = d.rows j.table) (row : Record) :
    joins.foldl (apply other) row = joins.foldl (apply d) row := by
  induction joins generalizing row with
  | nil => rfl
  | cons j joins ih =>
    obtain ⟨hj, hjoins⟩ := List.forall_mem_cons.mp h
    rw [List.foldl_cons, List.foldl_cons, apply_congr hj, ih hjoins]

end Join

namespace Query

/-- A query for plain rows without an order and bounds lists the rows of its table that pass once
they are joined, in the order of the table. Joining is done row by row in a way that only hangs on
the joined tables, and puts nothing on a row but the fields that these lend. -/
theorem listed_decorates (d : Document) (q : Query) (hq : q.projection = .rows)
    (ho : q.orderBy = none) (hl : q.limit = none) (hs : q.offset = none) :
    ∃ decorate : Record → Record,
      (∀ row, Join.Decorates d q.joins row (decorate row)) ∧
      ∀ (other : Document) (now : String), (∀ j ∈ q.joins, other.rows j.table = d.rows j.table) →
        q.rows other now = .ok
          (((other.rows q.table).filter fun row => (decorate row).satisfies q.conditions).map
            decorate) := by
  refine ⟨fun row => q.joins.foldl (Join.apply d) row, Join.decorates_foldl d q.joins, ?_⟩
  intro other now hsame
  have hrows : q.rows other now = .ok (q.listed other) := by
    simp [rows, hq, plainRows?_eq, page, ho, hl, hs]
  have hjoined : ∀ row, q.joins.foldl (Join.apply other) row = q.joins.foldl (Join.apply d) row :=
    Join.foldl_apply_congr hsame
  rw [hrows, listed, List.filter_map]
  simp only [hjoined]
  rfl

/-- Two tasks listed with the leads they are for and the users they are assigned to. One has a lead
and a user, the other one is for a lead that is not there. -/
theorem tasks_decorated :
    let lead := Record.ofFields
      [("id", .string "l1"), ("name", .string "Acme"), ("company", .string "Acme Ltd")]
    let user := Record.ofFields [("id", .string "u1"), ("name", .string "Ann")]
    let task := Record.ofFields
      [("id", .string "t1"), ("lead_id", .string "l1"), ("assigned_to", .string "u1")]
    let stray := Record.ofFields [("id", .string "t2"), ("lead_id", .string "l9")]
    let d := ((Document.new.setRows .leads [lead]).setRows .users [user]).setRows .tasks
      [task, stray]
    let q : Query := ⟨.rows, "tasks", some "t", [⟨"leads", some "l", "lead_id", "id"⟩,
      ⟨"users", some "u", "assigned_to", "id"⟩], [], none, none, none⟩
    q.projection = .rows ∧ q.orderBy = none ∧ q.limit = none ∧ q.offset = none ∧
      ∃ decorate : Record → Record,
        (∀ row, Join.Decorates d q.joins row (decorate row)) ∧
        q.rows d "2024-05-01" = .ok [decorate task, decorate stray] ∧ decorate stray = stray := by
  intro lead user task stray d q
  have htasks : d.rows q.table = [task, stray] := by decide +kernel
  have hnone : ∀ j ∈ q.joins, ∀ joined ∈ d.rows j.table, j.matchesRow stray joined = false := by
    decide +kernel
  obtain ⟨decorate, hdecorates, hrows⟩ := listed_decorates d q rfl rfl rfl rfl
  have hlisted := hrows d "2024-05-01" fun _ _ => rfl
  rw [htasks] at hlisted
  exact ⟨rfl, rfl, rfl, rfl, decorate, hdecorates, hlisted, (hdecorates stray).unmatched hnone⟩

end Query
end ClientRecords
