import ClientRecords.Proofs.Query.Rows
import ClientRecords.Proofs.Statement.Selection
/-!
A listing and the count of the same source. The source is all that stands behind `FROM`: a table
with its alias, joins and clauses. Both texts read the same query from it and differ in what they
show. A listing puts the conditions to the joined rows, a count to the rows of the table as they are
stored, so the two agree where the joins leave the fields that are tested as they are.
-/

namespace ClientRecords

open Token OpenQuery

variable {source : String} {mode : Mode} {params : List Value}

/-- What is shown of a source: its rows, or their number under the name `n`. -/
inductive View where
  | rows
  | count
  deriving DecidableEq

namespace View

def shown : View → List Token
  | .rows => [.star]
  | .count => [.word "COUNT", .openParen, .star, .closeParen, .word "AS", .word "n"]

def tokens (v : View) : List Token := .word "SELECT" :: (v.shown ++ [.word "FROM"])

def projection : View → Projection
  | .rows => .rows
  | .count => .count "n"

/-- The text of a query. -/
def text (source : String) : View → String
  | .rows => "SELECT * FROM " ++ source
  | .count => "SELECT COUNT(*) AS n FROM " ++ source

theorem toList_text (source : String) (v : View) :
    (v.text source).toList = spell v.tokens ++ ' ' :: source.toList := by
  have hlead : ∀ (lead : String) (ts : List Token), lead.toList = spell ts ++ [' '] →
      (lead ++ source).toList = spell ts ++ ' ' :: source.toList := by
    intro lead ts h
    rw [String.toList_append, h, List.append_assoc, List.singleton_append]
  cases v with
  | rows => exact hlead "SELECT * FROM " (View.rows.tokens) (by decide)
  | count => exact hlead "SELECT COUNT(*) AS n FROM " (View.count.tokens) (by decide)

theorem isNeat_tokens (v : View) : Text.IsNeat (spell v.tokens) := by
  have hplain : ∀ t ∈ v.tokens, t.isPlain = true := by cases v <;> decide
  refine isNeat_spell (List.cons_ne_nil _ _) fun t ht =>
    isNeat_text (.inl (hplain t ht) : IsWritable true t) ?_
  rintro s rfl
  cases v <;> simp [tokens, shown] at ht

/-- The tokens of the source do not depend on what is shown of it. -/
theorem scan?_text (source : String) (v : View) : scan? (Text.collapse (v.text source)) =
    (scanFrom false (Text.squeeze true source.toList)).map (v.tokens ++ ·) := by
  have hafter : operandAfter true v.tokens = false := by cases v <;> rfl
  rw [scan?_collapse_spell (toList_text source v) (by cases v <;> decide) (isNeat_tokens v), hafter]

theorem closed_shown (v : View) : Closed (·.is .from) v.shown := by
  cases v <;> exact ⟨by decide, by decide⟩

theorem breakTopLevel_tail (v : View) (ts : List Token) :
    breakTopLevel (·.is .from) (v.tokens ++ ts).tail = (v.shown, .word "FROM" :: ts) := by
  have htail : (v.tokens ++ ts).tail = v.shown ++ .word "FROM" :: ts := by simp [tokens]
  rw [htail]
  exact breakTopLevel_append_cons v.closed_shown (by decide)

/-- Nothing is read from a source that does not start with the name of a table. -/
theorem ofTokens?_eq_none (v : View) {ts : List Token}
    (h : ∀ w, ts.head? = some (.word w) → (Token.word w).isAny reserved = true) :
    ofTokens? (v.tokens ++ ts) = none := by
  have hstart : OpenStatement.startsWith .select (v.tokens ++ ts) = true := rfl
  simp only [ofTokens?, hstart, breakTopLevel_tail, List.tail_cons]
  cases ts with
  | nil => rfl
  | cons t ts =>
    cases t with
    | word w =>
      have hreserved := h w rfl
      simp [Token.word?, hreserved]
    | _ => rfl

/-- What is shown has no bearing on the rest of a query. -/
theorem ofTokens?_tokens (v : View) (ts : List Token) : ofTokens? (v.tokens ++ ts) =
    (ofTokens? (View.rows.tokens ++ ts)).map fun q => { q with projection := v.projection } := by
  by_cases hread : ∀ w, ts.head? = some (.word w) → (Token.word w).isAny reserved = true
  · rw [ofTokens?_eq_none v hread, ofTokens?_eq_none .rows hread]
    rfl
  · obtain ⟨w, hw, hreserved⟩ : ∃ w, ts.head? = some (.word w) ∧
        ¬(Token.word w).isAny reserved = true := by simpa using hread
    obtain ⟨after, rfl⟩ := List.head?_eq_some_iff.mp hw
    have hparts : ∀ v : View, ofTokens? (v.tokens ++ .word w :: after) =
        some (ofParts v.shown w (takeAlias after).1
          (breakTopLevel isClauseKeyword (takeAlias after).2).1
          (placeholders (v.tokens ++ .word w :: after)
            - placeholders (breakTopLevel isClauseKeyword (takeAlias after).2).2)
          (breakTopLevel isClauseKeyword (takeAlias after).2).2) := by
      intro v
      exact ofTokens?_of_parts (by decide) (breakTopLevel_tail v _)
        (eq_false_of_ne_true hreserved) rfl rfl
    have hshown : Projection.ofTokens v.shown = v.projection := by cases v <;> decide
    have hcount : placeholders (v.tokens ++ .word w :: after) =
        placeholders (View.rows.tokens ++ .word w :: after) := by
      rw [placeholders_append, placeholders_append]
      cases v <;> rfl
    rw [hparts v, hparts .rows, hcount, Option.map_some, ofParts, ofParts, hshown]

/-- Both views of a source are read alike, or none of them is. -/
theorem ofText_view (source : String) (v : View) :
    OpenQuery.ofText (Text.collapse (v.text source)) =
      (OpenQuery.ofText (Text.collapse (View.rows.text source))).map fun q =>
        q.map fun q => { q with projection := v.projection } := by
  have htrim : ∀ (v : View) (ts : List Token), OpenStatement.trimSemicolons (v.tokens ++ ts) =
      v.tokens ++ OpenStatement.trimSemicolons ts := fun v ts => by
    cases v <;> exact OpenStatement.trimSemicolons_append (List.cons_ne_nil _ _) (by decide) ts
  rw [OpenQuery.ofText, OpenQuery.ofText, scan?_text source v, scan?_text source .rows]
  cases scanFrom false (Text.squeeze true source.toList) with
  | none => rfl
  | some ts =>
    simp only [Option.map_some, htrim, Except.map]
    rw [ofTokens?_tokens]

/-- The query of a view is that of the listing, but for what it shows. -/
theorem query_text (v : View) {q : Query}
    (h : Query.ofText (Text.collapse (View.rows.text source)) mode params = .ok (some q)) :
    q.projection = .rows ∧ Query.ofText (Text.collapse (v.text source)) mode params =
      .ok (some { q with projection := v.projection }) := by
  obtain ⟨o, ho, hbound⟩ := exists_of_bind_eq_ok h
  cases o with
  | none => cases hbound
  | some o =>
    have hread : OpenQuery.ofText (Text.collapse (v.text source)) =
        .ok (some { o with projection := v.projection }) := by
      rw [ofText_view, ho]
      rfl
    have hrows : o.projection = .rows := by
      have hself := ofText_view source .rows
      rw [ho] at hself
      exact congrArg OpenQuery.projection (Option.some.inj (Except.ok.inj hself))
    rw [Query.ofText_of_read ho] at h
    rw [Query.ofText_of_read hread]
    obtain ⟨p, hp, heq⟩ := exists_of_map_eq_ok h
    obtain ⟨cs, hcs, hbind⟩ := exists_of_bind_eq_ok hp
    cases heq
    cases hbind
    refine ⟨hrows, ?_⟩
    rw [OpenQuery.bind, hcs]
    rfl

end View

namespace Document

variable (d : Document) {now : String} {q : Query}

/-- A view of a source is carried out by the query of the listing, but for what it shows. -/
theorem execute_view (v : View)
    (h : Query.ofText (Text.collapse (View.rows.text source)) mode params = .ok (some q)) :
    d.execute mode now (v.text source) params =
      match ({ q with projection := v.projection } : Query).rows d now with
      | .ok rows => .ok ⟨rows, none⟩
      | .error b => .error (.brokenOff b) :=
  execute_of_query (View.query_text v h).2

theorem execute_list
    (h : Query.ofText (Text.collapse (View.rows.text source)) mode params = .ok (some q))
    (ho : q.orderBy = none) (hl : q.limit = none) (hs : q.offset = none) :
    d.execute mode now (View.rows.text source) params = .ok ⟨q.listed d, none⟩ := by
  have hrows : ({ q with projection := View.rows.projection } : Query).rows d now =
      .ok (q.listed d) := by
    simp [Query.rows, View.projection, Query.plainRows?_eq, Query.page, Query.listed, ho, hl, hs]
  rw [execute_view d .rows h, hrows]

theorem execute_count
    (h : Query.ofText (Text.collapse (View.rows.text source)) mode params = .ok (some q)) :
    d.execute mode now (View.count.text source) params =
      .ok ⟨[Query.countRow "n" (q.filtered d).length], none⟩ := by
  rw [execute_view d .count h]
  rfl

/-- Where a listing without order and bounds is read, both views of its source succeed. The listing
shows the joined rows that satisfy the conditions and the count is that of the stored ones. The two
agree if the joins leave the tested fields as they are, and so they do unless a condition tests a
field that one of the joins may lend. -/
theorem count_of_listing {now : String}
    (h : Query.ofText (Text.collapse ("SELECT * FROM " ++ source)) mode params = .ok (some q))
    (ho : q.orderBy = none) (hl : q.limit = none) (hs : q.offset = none) :
    ∃ r : Record,
      d.execute mode now ("SELECT * FROM " ++ source) params = .ok ⟨q.listed d, none⟩ ∧
      d.execute mode now ("SELECT COUNT(*) AS n FROM " ++ source) params = .ok ⟨[r], none⟩ ∧
      r.get? "n" = some (.count (q.filtered d).length) ∧
      (q.KeepsTested d → (q.listed d).length = (q.filtered d).length) ∧
      (¬q.TestsLent → q.KeepsTested d) := by
  refine ⟨_, execute_list d h ho hl hs, execute_count d h, rfl, ?_,
    Query.keepsTested_of_not_testsLent d⟩
  intro hkeeps
  rw [Query.listed_eq_map hkeeps, List.length_map]

/-- Tasks listed with the leads they are for, by a field of their own. -/
theorem count_of_listing_by_title :
    let source := "tasks t LEFT JOIN leads l ON t.lead_id = l.id WHERE t.title = ?"
    let q : Query := ⟨.rows, "tasks", some "t", [⟨"leads", some "l", "lead_id", "id"⟩],
      [⟨"title", .compare .eq (.string "Call")⟩], none, none, none⟩
    let lead := Record.ofFields [("id", .string "l1"), ("name", .string "Acme")]
    let task := Record.ofFields [("title", .string "Call"), ("lead_id", .string "l1")]
    let d := (new.setRows .leads [lead]).setRows .tasks [task]
    Query.ofText (Text.collapse ("SELECT * FROM " ++ source)) .lenient [.string "Call"]
        = .ok (some q) ∧
      q.orderBy = none ∧ q.limit = none ∧ q.offset = none ∧ ¬q.TestsLent ∧
      ∃ r : Record,
        d.execute .lenient "2024-05-01" ("SELECT COUNT(*) AS n FROM " ++ source) [.string "Call"]
          = .ok ⟨[r], none⟩ ∧
        r.get? "n" = some (.count 1) ∧ (q.listed d).length = 1 := by
  intro source q lead task d
  let tokens : List Token :=
    [.word "SELECT", .star, .word "FROM", .word "tasks", .word "t", .word "LEFT",
      .word "JOIN", .word "leads", .word "l", .word "ON", .word "t.lead_id", .comparison .eq,
      .word "l.id", .word "WHERE", .word "t.title", .comparison .eq, .placeholder]
  have hscan : scan? (Text.collapse ("SELECT * FROM " ++ source)) = some tokens := by
    decide +kernel
  have htokens : ofTokens? (OpenStatement.trimSemicolons tokens) = some
      ⟨.rows, "tasks", some "t", [⟨"leads", some "l", "lead_id", "id"⟩],
        Clause.ofTokens 0 [.word "t.title", .comparison .eq, .placeholder], none, none, none⟩ := by
    decide +kernel
  have hq : Query.ofText (Text.collapse ("SELECT * FROM " ++ source)) .lenient [.string "Call"]
      = .ok (some q) := Query.ofText_of_scan hscan htokens
  have hlent : ¬q.TestsLent := by decide +kernel
  have hone : (q.filtered d).length = 1 := by decide +kernel
  obtain ⟨r, -, hcount, hn, hsame, hkeeps⟩ := count_of_listing d hq rfl rfl rfl
  rw [hone] at hn hsame
  exact ⟨hq, rfl, rfl, rfl, hlent, r, hcount, hn, hsame (hkeeps hlent)⟩

/-- The name of a lead is lent to a task, so only the listing finds the task by it. -/
theorem count_misses_lent :
    let source := "tasks LEFT JOIN leads ON tasks.lead_id = leads.id WHERE lead_name = 'Acme'"
    let lead := Record.ofFields [("id", .string "l1"), ("name", .string "Acme")]
    let task := Record.ofFields [("id", .string "t1"), ("lead_id", .string "l1")]
    let d := (new.setRows .leads [lead]).setRows .tasks [task]
    ∃ rows r, d.execute .lenient "2024-05-01" ("SELECT * FROM " ++ source) [] = .ok ⟨rows, none⟩ ∧
      d.execute .lenient "2024-05-01" ("SELECT COUNT(*) AS n FROM " ++ source) []
        = .ok ⟨[r], none⟩ ∧
      rows.length = 1 ∧ r.get? "n" = some (.count 0) := by
  intro source lead task d
  let q : Query := ⟨.rows, "tasks", none, [⟨"leads", none, "lead_id", "id"⟩],
    [⟨"lead_name", .compare .eq (.string "Acme")⟩], none, none, none⟩
  let tokens : List Token :=
    [.word "SELECT", .star, .word "FROM", .word "tasks", .word "LEFT", .word "JOIN",
      .word "leads", .word "ON", .word "tasks.lead_id", .comparison .eq, .word "leads.id",
      .word "WHERE", .word "lead_name", .comparison .eq, .string "Acme"]
  have hscan : scan? (Text.collapse ("SELECT * FROM " ++ source)) = some tokens := by
    decide +kernel
  have htokens : ofTokens? (OpenStatement.trimSemicolons tokens) = some
      ⟨.rows, "tasks", none, [⟨"leads", none, "lead_id", "id"⟩],
        Clause.ofTokens 0 [.word "lead_name", .comparison .eq, .string "Acme"], none, none,
        none⟩ := by
    decide +kernel
  have hq : Query.ofText (Text.collapse ("SELECT * FROM " ++ source)) .lenient [] = .ok (some q) :=
    Query.ofText_of_scan hscan htokens
  have hlisted : (q.listed d).length = 1 := by decide +kernel
  have hcounted : (Query.countRow "n" (q.filtered d).length).get? "n" = some (.count 0) := by
    decide +kernel
  exact ⟨_, _, execute_list d hq rfl rfl rfl, execute_count d hq, hlisted, hcounted⟩

end Document
end ClientRecords
