import ClientRecords.Proofs.Query.Joins
import ClientRecords.Proofs.Record
import ClientRecords.Proofs.Statement.Execution
/-!
From the text of a query to its rows. What reads as a query is carried out as one, whatever its
first word could mean elsewhere. Plain rows are joined before the conditions are put to them, so
these see the fields that joins lend; apart from such fields (`Join.lentFields`) a joined row is the
stored one.
-/

namespace ClientRecords

namespace Join

/-- The fields that a joined table may lend. -/
def lentFields (table : String) : List String :=
  if table == "users" then ["assigned_name", "assigned_role", "assigned_email", "performed_by_name"]
  else if table == "leads" then ["lead_name", "company"]
  else if table == "email_templates" then ["template_name"]
  else []

variable {joined row : Record} {field : String}

theorem get?_lend {source target : String} (h : target ≠ field) :
    (lend joined source target row).get? field = row.get? field := by
  unfold lend
  split
  · exact Record.get?_put_of_ne row _ h
  · rfl

/-- Lends fields one after the other, each under a name of the row. -/
def lendAll (joined : Record) (names : List (String × String)) (row : Record) : Record :=
  names.foldl (fun row p => lend joined p.1 p.2 row) row

theorem get?_lendAll : ∀ {names : List (String × String)} {row : Record},
    (∀ p ∈ names, p.2 ≠ field) → (lendAll joined names row).get? field = row.get? field
  | [], _, _ => rfl
  | p :: names, row, h => by
    obtain ⟨hp, hnames⟩ := List.forall_mem_cons.mp h
    have hrest : (lendAll joined names (lend joined p.1 p.2 row)).get? field
        = (lend joined p.1 p.2 row).get? field := get?_lendAll hnames
    exact hrest.trans (get?_lend hp)

/-- A matching row lends some of the fields of its table, one after the other. -/
theorem exists_lendAll (table : String) (joined row : Record) :
    ∃ names : List (String × String), (∀ p ∈ names, p.2 ∈ lentFields table) ∧
      merge table joined row = lendAll joined names row := by
  by_cases husers : table = "users"
  · subst husers
    -- the two keys of the row are looked at one after the other
    simp only [merge, lendUser, beq_self_eq_true, if_true]
    split <;> split
    · exact ⟨[("name", "assigned_name"), ("role", "assigned_role"), ("email", "assigned_email"),
        ("name", "performed_by_name")], by decide, rfl⟩
    · exact ⟨[("name", "assigned_name"), ("role", "assigned_role"), ("email", "assigned_email")],
        by decide, rfl⟩
    · exact ⟨[("name", "performed_by_name")], by decide, rfl⟩
    · exact ⟨[], by decide, rfl⟩
  by_cases hleads : table = "leads"
  · subst hleads
    have hmerge : merge "leads" joined row = lendLead joined row := rfl
    rw [hmerge, lendLead]
    split
    · exact ⟨[("name", "lead_name")], by decide, rfl⟩
    · exact ⟨[("name", "lead_name"), ("company", "company")], by decide, rfl⟩
  by_cases htemplates : table = "email_templates"
  · subst htemplates
    exact ⟨[("name", "template_name")], by decide, rfl⟩
  · exact ⟨[], by simp, by simp [merge, husers, hleads, htemplates, lendAll]⟩

/-- A matching row lends nothing but the fields of its table. -/
theorem get?_merge {table : String} (h : field ∉ lentFields table) :
    (merge table joined row).get? field = row.get? field := by
  obtain ⟨names, hnames, hmerge⟩ := exists_lendAll table joined row
  rw [hmerge]
  exact get?_lendAll fun p hp he => h (he ▸ hnames p hp)

theorem get?_apply (d : Document) {j : Join} (h : field ∉ lentFields j.table) :
    (apply d row j).get? field = row.get? field := by
  unfold apply
  split
  · exact get?_merge h
  · rfl

/-- A chain of joins changes no field that none of its tables lends. -/
theorem get?_foldl (d : Document) : ∀ {joins : List Join} {row : Record},
    (∀ j ∈ joins, field ∉ lentFields j.table) →
      (joins.foldl (apply d) row).get? field = row.get? field
  | [], _, _ => rfl
  | j :: joins, row, h => by
    rw [List.foldl_cons, get?_foldl d fun i hi => h i (List.mem_cons_of_mem j hi),
      get?_apply d (h j List.mem_cons_self)]

end Join

/-- Conditions are put to the fields they test and to nothing else. -/
theorem Record.satisfies_congr {r s : Record} {cs : List Condition}
    (h : ∀ c ∈ cs, r.get? c.field = s.get? c.field) : r.satisfies cs = s.satisfies cs := by
  rw [Bool.eq_iff_iff, satisfies, satisfies, List.all_eq_true, List.all_eq_true]
  refine forall₂_congr fun c hc => ?_
  rw [Condition.holds, Condition.holds, h c hc]

namespace Query

variable {d : Document} {q : Query}

/-- The rows that a query for plain rows lists: joined, then filtered. -/
def listed (d : Document) (q : Query) : List Record :=
  ((d.rows q.table).map fun r => q.joins.foldl (Join.apply d) r).filter (·.satisfies q.conditions)

theorem plainRows?_eq (d : Document) (q : Query) : q.plainRows? d =
    (match q.orderBy with
      | some key => sortRows? key (q.listed d)
      | none => some (q.listed d)).map q.page := rfl

/-- Does a condition test a field that one of the joins may lend? -/
def TestsLent (q : Query) : Prop :=
  ∃ c ∈ q.conditions, ∃ j ∈ q.joins, c.field ∈ Join.lentFields j.table

instance : Decidable q.TestsLent := inferInstanceAs (Decidable (∃ c ∈ q.conditions, _))

/-- Do the joins leave the fields that are tested as they are, on every row? -/
def KeepsTested (d : Document) (q : Query) : Prop :=
  ∀ r ∈ d.rows q.table, ∀ c ∈ q.conditions,
    (q.joins.foldl (Join.apply d) r).get? c.field = r.get? c.field

theorem keepsTested_of_not_testsLent (d : Document) (h : ¬q.TestsLent) : q.KeepsTested d := by
  intro r _ c hc
  refine Join.get?_foldl d fun j hj hmem => ?_
  exact h ⟨c, hc, j, hj, hmem⟩

/-- Conditions on fields that are kept pick the same rows before and after the joins. -/
theorem listed_eq_map (h : q.KeepsTested d) :
    q.listed d = (q.filtered d).map fun r => q.joins.foldl (Join.apply d) r := by
  have hpick : ∀ r ∈ d.rows q.table,
      (q.joins.foldl (Join.apply d) r).satisfies q.conditions = r.satisfies q.conditions := by
    intro r hr
    exact Record.satisfies_congr (h r hr)
  rw [listed, filtered, List.filter_map]
  exact congrArg _ (List.filter_congr hpick)

end Query

/-! ### Texts -/

theorem OpenQuery.ofText_of_scan {source : String} {tokens : List Token}
    (h : Token.scan? source = some tokens) :
    ofText source = .ok (ofTokens? (OpenStatement.trimSemicolons tokens)) := by
  rw [ofText, h]

/-- What a text reads as, by its tokens. -/
theorem Query.ofText_of_scan {source : String} {mode : Mode} {params : List Value}
    {tokens : List Token} {q : OpenQuery} (hs : Token.scan? source = some tokens)
    (hq : OpenQuery.ofTokens? (OpenStatement.trimSemicolons tokens) = some q) :
    Query.ofText source mode params = (q.bind mode params).map some := by
  refine ofText_of_read ?_
  rw [OpenQuery.ofText_of_scan hs, hq]

namespace OpenStatement

variable {text : String}

/-- What reads as a query is kept as the text of a read. -/
theorem ofText_of_query {q : OpenQuery}
    (h : OpenQuery.ofText (Text.collapse text) = .ok (some q)) :
    ofText text = .ok (.select (Text.collapse text)) := by
  cases hscan : Token.scan? (Text.collapse text) with
  | none =>
    simp only [OpenQuery.ofText, hscan] at h
    cases h
  | some tokens =>
    rw [OpenQuery.ofText_of_scan hscan, Except.ok.injEq] at h
    have hselect : startsWith .select (trimSemicolons tokens) = true := by
      cases hs : startsWith .select (trimSemicolons tokens) with
      | true => rfl
      | false =>
        simp only [OpenQuery.ofTokens?, hs] at h
        cases h
    obtain ⟨t, ts, hts, ht⟩ := exists_of_startsWith hselect
    have hother : ∀ k : Keyword, k.spelling ≠ Keyword.select.spelling →
        startsWith k (trimSemicolons tokens) = false := by
      intro k hk
      rw [hts]
      show t.is k = false
      rw [Token.is_of_is ht]
      exact beq_false_of_ne hk.symm
    rw [ofText_of_scan hscan, hother .insert (by decide), hother .update (by decide),
      hother .delete (by decide)]
    rfl

end OpenStatement

/-- A text that reads as a query gives the rows of the query. -/
theorem Document.execute_of_query {d : Document} {mode : Mode} {now text : String}
    {params : List Value} {q : Query}
    (h : Query.ofText (Text.collapse text) mode params = .ok (some q)) :
    d.execute mode now text params = match q.rows d now with
      | .ok rows => .ok ⟨rows, none⟩
      | .error b => .error (.brokenOff b) := by
  obtain ⟨o, ho, hbound⟩ := exists_of_bind_eq_ok h
  cases o with
  | none => cases hbound
  | some o =>
    rw [execute_of_read (OpenStatement.ofText_of_query ho)]
    show d.evaluate mode now (Text.collapse text) params = _
    cases hrows : q.rows d now <;> simp only [evaluate, h, hrows]

end ClientRecords
