import ClientRecords.Proofs.Query.Conditions
import ClientRecords.Proofs.Query.Joins
import ClientRecords.Proofs.Query.Reader
import ClientRecords.Proofs.Query.Shown
import ClientRecords.Proofs.Statement.Execution
import ClientRecords.Proofs.Statement.Reader
/-!
Reading undoes writing. The text of a written query is scanned into the tokens it was put together
from, each cut of the reader gives one of its parts back, and the parameters go to the placeholders
they were collected for (`Select.ofText_text`).
-/

namespace ClientRecords

open Token OpenQuery

theorem OpenStatement.trimSemicolons_of_forall {ts : List Token} (h : ∀ t ∈ ts, t ≠ .semicolon) :
    trimSemicolons ts = ts :=
  trimSemicolons_of_getLast? fun hl => h _ (List.mem_of_getLast? hl) rfl

namespace Written

/-- A token that is written as it is and ends no statement. -/
def IsPart (t : Token) : Prop := t.isPlain = true ∧ t ≠ .semicolon

instance (t : Token) : Decidable (IsPart t) := inferInstanceAs (Decidable (_ ∧ _))

@[simp] theorem Name.isPart (n : Name) : IsPart n.token := ⟨n.plain, nofun⟩

@[simp] theorem Field.isPart (f : Field) : IsPart f.token := ⟨f.isPlain, nofun⟩

@[simp] theorem isPart_string (s : String) : IsPart (.string s) := ⟨rfl, nofun⟩

@[simp] theorem isPart_comparison (op : Comparison) : IsPart (.comparison op) := ⟨rfl, nofun⟩

theorem isPart_intercalate {seps : List Token} {parts : List (List Token)}
    (hs : ∀ t ∈ seps, IsPart t) (hp : ∀ part ∈ parts, ∀ t ∈ part, IsPart t) :
    ∀ t ∈ List.intercalate seps parts, IsPart t := by
  intro t ht
  rcases mem_intercalate ht with ht | ⟨part, hpart, ht⟩
  · exact hs t ht
  · exact hp part hpart t ht

theorem Source.isPart (s : Source) : ∀ t ∈ s.tokens, IsPart t := by
  cases h : s.shortName with
  | none => simp [tokens, aliasTokens, h]
  | some a => cases hm : a.marked <;> simp +decide [tokens, aliasTokens, h, Alias.tokens, hm]

theorem Join.isPart (j : Join) : ∀ t ∈ j.tokens, IsPart t := by
  have hlead : ∀ t ∈ j.lead, IsPart t := by
    rw [lead]
    cases j.outer <;> decide
  rw [tokens, List.forall_mem_append, List.forall_mem_append]
  exact ⟨⟨hlead, j.source.isPart⟩, by simp +decide⟩

theorem Shown.isPart (s : Shown) : ∀ t ∈ s.tokens, IsPart t := by
  refine isPart_intercalate (by decide) fun item hi => ?_
  cases s.isItem_of_mem hi with
  | star => decide
  | field f => simp
  | count n => simp +decide [countTokens]
  | sum c => simp +decide [Sum.tokens]
  | date format f k => simp +decide [dateTokens]

theorem isPart_setTokens (more : Nat) : ∀ t ∈ setTokens more, IsPart t := by
  have hitems : ∀ t ∈ [Token.comma, .placeholder], IsPart t := by decide
  rw [setTokens, List.forall_mem_append, List.forall_mem_cons]
  exact ⟨⟨by decide, fun t ht => hitems t (mem_placeholders ht)⟩, by decide⟩

theorem Condition.isPart (c : Condition) : ∀ t ∈ c.tokens, IsPart t := by
  refine List.forall_mem_cons.mpr ⟨c.field.isPart, ?_⟩
  cases c.test with
  | compare op v => simp +decide [Test.tokens]
  | like | isNull | isNotNull => simp +decide [Test.tokens]
  | inSet v vs => exact List.forall_mem_cons.mpr ⟨by decide, isPart_setTokens _⟩
  | notInSet v vs =>
    exact List.forall_mem_cons.mpr ⟨by decide, List.forall_mem_cons.mpr
      ⟨by decide, isPart_setTokens _⟩⟩

namespace Select

variable (q : Select)

theorem isPart_body (kind : ClauseKind) : ∀ t ∈ q.body kind, IsPart t := by
  cases kind with
  | conditions =>
    refine isPart_intercalate (by decide) fun part hp => ?_
    obtain ⟨c, _, rfl⟩ := List.mem_map.mp hp
    exact c.isPart
  | groups =>
    refine isPart_intercalate (by decide) fun part hp => ?_
    obtain ⟨f, _, rfl⟩ := List.mem_map.mp hp
    simp
  | order =>
    rw [body]
    cases q.orderBy with
    | none => simp
    | some o =>
      obtain ⟨f, d⟩ := o
      cases d <;> simp +decide [directionToken]
  | limit =>
    rw [body]
    cases q.limit <;> simp +decide
  | offset =>
    rw [body]
    cases q.offset <;> simp +decide

theorem isPart_clause (kind : ClauseKind) : ∀ t ∈ q.clause kind, IsPart t := by
  have hlead : ∀ t ∈ kind.lead, IsPart t := by cases kind <;> decide
  rw [clause]
  split
  · simp
  · exact List.forall_mem_append.mpr ⟨hlead, q.isPart_body kind⟩

theorem isPart_tokens : ∀ t ∈ q.tokens, IsPart t := by
  have hjoins : ∀ t ∈ q.joins.flatMap Join.tokens, IsPart t := fun t ht => by
    obtain ⟨j, _, ht⟩ := List.mem_flatMap.mp ht
    exact j.isPart t ht
  have hclauses : ∀ t ∈ q.kinds.flatMap q.clause, IsPart t := fun t ht => by
    obtain ⟨kind, _, ht⟩ := List.mem_flatMap.mp ht
    exact q.isPart_clause kind t ht
  simp only [tokens, List.forall_mem_cons, List.forall_mem_append]
  exact ⟨by decide, q.shown.isPart, by decide, q.source.isPart, hjoins, hclauses⟩

/-! ### The cuts of the reader -/

/-- What follows the table and its alias is nothing, a join or a clause. -/
theorem opens_rest : Opens reserved (q.joins.flatMap Join.tokens ++ q.kinds.flatMap q.clause) := by
  cases q.joins with
  | nil =>
    intro t ht
    have hclause : t.isAny clauseKeywords = true := q.opens_clauses q.kinds t ht
    rw [reserved, isAny, List.any_append, ← isAny, hclause, Bool.true_or]
  | cons j js =>
    rw [List.flatMap_cons, Join.tokens_eq, Join.lead]
    cases j.outer <;> (rintro _ ⟨⟩; decide)

/-- Placeholders stand in clauses only. -/
theorem placeholders_tokens :
    placeholders q.tokens = placeholders (q.kinds.flatMap q.clause) := by
  have hsource : ∀ s : Source, placeholders s.tokens = 0 := by
    rintro ⟨table, _ | ⟨name, _ | _⟩⟩ <;> rfl
  have hjoin : ∀ j : Join, placeholders j.tokens = 0 := fun j => by
    rw [Join.tokens, placeholders_append, placeholders_append, hsource, Join.lead]
    cases j.outer <;> rfl
  have hjoins := placeholders_flatMap_eq_zero hjoin q.joins
  have hsplit : q.tokens = (.word "SELECT" :: q.shown.tokens) ++ (.word "FROM" :: q.source.tokens)
      ++ q.joins.flatMap Join.tokens ++ q.kinds.flatMap q.clause := by simp [tokens]
  have hcons : ∀ (w : String) (ts : List Token), placeholders (.word w :: ts) = placeholders ts :=
    fun _ _ => rfl
  rw [hsplit, placeholders_append, placeholders_append, placeholders_append, hcons, hcons,
    q.shown.placeholders_tokens, hsource, hjoins, Nat.zero_add]

/-- The query before its parameters are bound. -/
def openQuery : OpenQuery :=
  ofParts q.shown.tokens q.source.table.name.text q.source.aliasName (q.joins.flatMap Join.tokens) 0
    (q.kinds.flatMap q.clause)

theorem ofTokens?_tokens : ofTokens? q.tokens = some q.openQuery := by
  have hfrom : cuts (·.is .from) 0 (.word "FROM") = true := by decide
  have htable : (Token.word q.source.table.name.text).isAny reserved = false :=
    isAny_eq_false.mpr fun k hk => q.source.table.name.is_eq_false (List.mem_append_left _ hk)
  have hseen : placeholders q.tokens - placeholders (q.kinds.flatMap q.clause) = 0 := by
    rw [placeholders_tokens, Nat.sub_self]
  have hselect : Token.is .select (.word "SELECT") = true := by decide
  have hparts := ofTokens?_of_parts hselect
    (breakTopLevel_append_cons q.shown.closed_tokens hfrom) htable
    (q.source.takeAlias_tokens q.opens_rest)
    (breakTopLevel_append_of_opens (closed_joins q.joins) (q.opens_clauses q.kinds))
  rw [openQuery, ← hseen]
  exact hparts

theorem bind_openQuery (mode : Mode) : q.openQuery.bind mode q.params = .ok q.query := by
  have hshown : q.openQuery.projection = q.shown.projection := q.shown.ofTokens_tokens
  have htable : q.openQuery.table = q.source.table.name.text := q.source.table.lowercase
  have hjoins : q.openQuery.joins = q.joins.map Join.join := readJoins_joins q.joins
  have hconditions : q.openQuery.clause.bind mode q.params
      = .ok (q.conditions.map Condition.condition) := q.bind_conditions mode
  have horder : q.openQuery.orderBy = q.query.orderBy := q.sortKey_orderBy
  have hlimit : q.openQuery.limit.bind (·.rowCount? q.params) = q.limit.map Bound.rows :=
    q.rowCount_of_bound .limit rfl rfl
  have hoffset : q.openQuery.offset.bind (·.rowCount? q.params) = q.offset.map Bound.rows :=
    q.rowCount_of_bound .offset rfl rfl
  rw [OpenQuery.bind, hconditions, hshown, htable, hjoins, horder, hlimit, hoffset]
  rfl

/-- A written query is read back as it was meant, whatever it shows, joins and asks for and in
whatever order its clauses stand. -/
theorem ofText_text (mode : Mode) : Query.ofText q.text mode q.params = .ok (some q.query) := by
  have hscan : scan? q.text = some q.tokens := scan?_spell fun t ht => (q.isPart_tokens t ht).1
  have htrim : OpenStatement.trimSemicolons q.tokens = q.tokens :=
    OpenStatement.trimSemicolons_of_forall fun t ht => (q.isPart_tokens t ht).2
  have hread : OpenQuery.ofText q.text = .ok (some q.openQuery) := by
    rw [OpenQuery.ofText, hscan, ← q.ofTokens?_tokens]
    simp only [htrim]
  rw [Query.ofText_of_read hread, q.bind_openQuery]
  rfl

-- the clauses need not stand in the order that a query is usually written in
example : Select.text
    { shown := .count ⟨"total", by decide, by decide, by decide⟩
      source := ⟨⟨⟨"leads", by decide, by decide, by decide⟩, by decide⟩, none⟩
      joins := []
      conditions := [⟨⟨none, ⟨"age", by decide, by decide, by decide⟩⟩, .inSet (.int 3) [.int 4]⟩]
      groups := []
      orderBy := none
      limit := some ⟨5, by decide⟩
      offset := none
      kinds := [.limit, .conditions, .groups, .order, .offset]
      complete := by intro k; cases k <;> decide }
    = "SELECT COUNT(*) AS total FROM leads LIMIT ? WHERE age IN (?, ?)" := by decide

end Select
end Written
end ClientRecords
