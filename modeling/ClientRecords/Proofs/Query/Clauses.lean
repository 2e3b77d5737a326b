import ClientRecords.Proofs.Query.Names
import ClientRecords.Proofs.Token.Nesting
/-!
The clauses of a written query. No word that cuts a query stands in the body of a clause, so a
clause is found by its words wherever it stands among the others, its body ends where the next
clause starts, and the placeholders before it are those of the clauses before it
(`Select.exists_findClause?`).
-/

namespace ClientRecords

open Token OpenQuery

theorem OpenQuery.findClause?_append_cons {k : Keyword} {seen : Nat} {sep : Token}
    {as bs : List Token} (h : Closed (·.is k) as) (hs : sep.is k = true) :
    findClause? k seen (as ++ sep :: bs)
      = some (seen + placeholders as, if bs.head?.any (·.is .by) then bs.tail else bs) := by
  have hcut : cuts (·.is k) 0 sep = true := cuts_of_is hs
  rw [findClause?, breakTopLevel_append_cons h hcut]

namespace Written

variable {k : Keyword}

/-- The words that a query is cut at. -/
def cutters : List Keyword := clauseKeywords ++ [.and, .from]

theorem mem_keywords_of_cutter (hk : k ∈ cutters) : k ∈ keywords := by
  revert hk
  cases k <;> decide

theorem Field.closed (f : Field) (hk : k ∈ cutters) : Closed (·.is k) [f.token] :=
  .cons rfl (f.is_eq_false (mem_keywords_of_cutter hk)) .nil

theorem closed_setTokens (p : Token → Bool) (more : Nat) : Closed p (setTokens more) := by
  have hflat : ∀ t ∈ [Token.comma, .placeholder], t.isParen = false := by decide
  exact .parens fun t ht => hflat t (mem_placeholders ht)

theorem placeholders_setTokens (more : Nat) : placeholders (setTokens more) = more + 1 := by
  have hitems : placeholders (List.intercalate [.comma] (List.replicate (more + 1) [.placeholder]))
      = more + 1 := by
    rw [placeholders_intercalate (by decide), List.flatten_replicate_singleton]
    simp [placeholders, List.countP_replicate]
  rw [setTokens, placeholders_append, placeholders, List.countP_cons_of_neg (by decide),
    ← placeholders, hitems]
  rfl

theorem Test.closed (t : Test) (hk : k ∈ cutters) : Closed (·.is k) t.tokens := by
  have hword : ∀ w ∈ ["LIKE", "IS", "NOT", "NULL", "IN"], (Token.word w).is k = false := by
    revert hk
    cases k <;> decide
  cases t with
  | compare op => exact .cons rfl rfl (.cons rfl rfl .nil)
  | like => exact .cons rfl (hword "LIKE" (by decide)) (.cons rfl rfl .nil)
  | isNull =>
    exact .cons rfl (hword "IS" (by decide)) (.cons rfl (hword "NULL" (by decide)) .nil)
  | isNotNull =>
    exact .cons rfl (hword "IS" (by decide)) (.cons rfl (hword "NOT" (by decide))
      (.cons rfl (hword "NULL" (by decide)) .nil))
  | inSet v vs => exact .cons rfl (hword "IN" (by decide)) (closed_setTokens _ _)
  | notInSet v vs =>
    exact .cons rfl (hword "NOT" (by decide)) (.cons rfl (hword "IN" (by decide))
      (closed_setTokens _ _))

theorem Test.placeholders_tokens (t : Test) : placeholders t.tokens = t.values.length := by
  cases t with
  | compare | like | isNull | isNotNull => rfl
  | inSet v vs => exact placeholders_setTokens _
  | notInSet v vs => exact placeholders_setTokens _

theorem Condition.placeholders_tokens (c : Condition) :
    placeholders c.tokens = c.test.values.length := c.test.placeholders_tokens

theorem Condition.closed (c : Condition) (hk : k ∈ cutters) : Closed (·.is k) c.tokens :=
  (c.field.closed hk).append (c.test.closed hk)

namespace Select

variable (q : Select)

theorem closed_body (kind : ClauseKind) (hk : k ∈ clauseKeywords) :
    Closed (·.is k) (q.body kind) := by
  have hcut : k ∈ cutters := List.mem_append_left _ hk
  have hand : Token.is k (.word "AND") = false := by revert hk; cases k <;> decide
  have hdir : (Token.word "ASC").is k = false ∧ (Token.word "DESC").is k = false := by
    revert hk; cases k <;> decide
  cases kind with
  | conditions =>
    refine .intercalate (.cons rfl hand .nil) fun part hp => ?_
    obtain ⟨c, _, rfl⟩ := List.mem_map.mp hp
    exact c.closed hcut
  | groups =>
    refine .intercalate (.cons rfl rfl .nil) fun part hp => ?_
    obtain ⟨f, _, rfl⟩ := List.mem_map.mp hp
    exact f.closed hcut
  | order =>
    rw [body]
    cases q.orderBy with
    | none => exact .nil
    | some o =>
      obtain ⟨f, d⟩ := o
      refine (f.closed hcut).append ?_
      cases d with
      | ascending => exact .cons rfl hdir.1 .nil
      | descending => exact .cons rfl hdir.2 .nil
  | limit =>
    rw [body]
    cases q.limit with
    | none => exact .nil
    | some => exact .cons rfl rfl .nil
  | offset =>
    rw [body]
    cases q.offset with
    | none => exact .nil
    | some => exact .cons rfl rfl .nil

/-- A clause holds no word that opens another one. -/
theorem closed_clause {kind other : ClauseKind} (hne : kind ≠ other) :
    Closed (·.is other.keyword) (q.clause kind) := by
  rw [clause]
  split
  · exact .nil
  · refine .append (.of_flat ?_) (q.closed_body kind (by cases other <;> decide))
    revert hne
    cases kind <;> cases other <;> decide

theorem closed_clauses {other : ClauseKind} {kinds : List ClauseKind} (hn : other ∉ kinds) :
    Closed (·.is other.keyword) (kinds.flatMap q.clause) := by
  rw [List.flatMap_def]
  refine .flatten fun part hp => ?_
  obtain ⟨kind, hk, rfl⟩ := List.mem_map.mp hp
  exact q.closed_clause fun h => hn (h ▸ hk)

/-- What stands behind a clause is nothing or another clause. -/
theorem opens_clauses : ∀ kinds : List ClauseKind,
    Opens clauseKeywords (kinds.flatMap q.clause)
  | [] => by rintro _ ⟨⟩
  | kind :: kinds => by
    rw [List.flatMap_cons, clause]
    split
    · exact opens_clauses kinds
    · cases kind <;> (rintro _ ⟨⟩; decide)

/-! ### Placeholders and values -/

theorem placeholders_body (kind : ClauseKind) :
    placeholders (q.body kind) = (q.values kind).length := by
  cases kind with
  | conditions =>
    rw [body, placeholders_intercalate (by decide), ← List.flatMap_def]
    exact placeholders_flatMap Condition.placeholders_tokens q.conditions
  | groups =>
    rw [body, placeholders_intercalate (by decide), ← List.flatMap_def]
    exact placeholders_flatMap_eq_zero (fun _ => rfl) q.groups
  | order =>
    rw [body]
    rcases q.orderBy with _ | ⟨f, _ | _⟩ <;> rfl
  | limit =>
    rw [body, values]
    cases q.limit <;> rfl
  | offset =>
    rw [body, values]
    cases q.offset <;> rfl

theorem placeholders_clause (kind : ClauseKind) :
    placeholders (q.clause kind) = (q.values kind).length := by
  rw [← placeholders_body, clause]
  by_cases he : (q.body kind).isEmpty = true
  · rw [if_pos he, List.isEmpty_iff.mp he]
  · rw [if_neg he, placeholders_append]
    cases kind <;> exact Nat.zero_add _

theorem placeholders_clauses (kinds : List ClauseKind) :
    placeholders (kinds.flatMap q.clause) = (kinds.flatMap q.values).length :=
  placeholders_flatMap q.placeholders_clause kinds

/-! ### Finding a clause -/

variable {kind : ClauseKind} {before after : List ClauseKind}

theorem findClause?_of_nil (kind : ClauseKind) (hb : q.body kind = []) (kinds : List ClauseKind) :
    findClause? kind.keyword 0 (kinds.flatMap q.clause) = none := by
  have hclosed : Closed (·.is kind.keyword) (kinds.flatMap q.clause) := by
    rw [List.flatMap_def]
    refine .flatten fun part hp => ?_
    obtain ⟨other, _, rfl⟩ := List.mem_map.mp hp
    by_cases ho : other = kind
    · rw [ho, clause, hb]
      exact .nil
    · exact q.closed_clause ho
  rw [findClause?, breakTopLevel_of_uncut hclosed.uncut]

theorem head?_body (kind : ClauseKind) : ∀ t ∈ (q.body kind).head?, t.is .by = false := by
  have hf : ∀ f : Field, f.token.is .by = false := fun f => f.is_eq_false (by decide)
  cases kind with
  | conditions =>
    rw [body]
    cases q.conditions with
    | nil => rintro _ ⟨⟩
    | cons c cs =>
      rw [List.map_cons, Condition.tokens, List.intercalate_cons_cons_left]
      rintro _ ⟨⟩
      exact hf c.field
  | groups =>
    rw [body]
    cases q.groups with
    | nil => rintro _ ⟨⟩
    | cons f fs =>
      rw [List.map_cons, List.intercalate_cons_cons_left]
      rintro _ ⟨⟩
      exact hf f
  | order =>
    rw [body]
    cases q.orderBy with
    | none => rintro _ ⟨⟩
    | some o => rintro _ ⟨⟩; exact hf o.1
  | limit =>
    rw [body]
    cases q.limit with
    | none => rintro _ ⟨⟩
    | some => rintro _ ⟨⟩; rfl
  | offset =>
    rw [body]
    cases q.offset with
    | none => rintro _ ⟨⟩
    | some => rintro _ ⟨⟩; rfl

/-- A clause is found behind its words, wherever it stands. -/
theorem findClause?_of_ne_nil (hb : q.body kind ≠ []) (hn : kind ∉ before) :
    findClause? kind.keyword 0 ((before ++ kind :: after).flatMap q.clause)
      = some ((before.flatMap q.values).length, q.body kind ++ after.flatMap q.clause) := by
  have hby : (q.body kind ++ after.flatMap q.clause).head?.any (·.is .by) = false := by
    obtain ⟨t, ts, ht⟩ := List.exists_cons_of_ne_nil hb
    have hhead := q.head?_body kind
    rw [ht] at hhead ⊢
    exact hhead t rfl
  have hclause : q.clause kind = kind.lead ++ q.body kind := by
    rw [clause, if_neg (by simpa using hb)]
  have hclosed := q.closed_clauses hn
  rw [List.flatMap_append, List.flatMap_cons, hclause, List.append_assoc, ← placeholders_clauses,
    ← Nat.zero_add (placeholders _)]
  generalize q.body kind ++ after.flatMap q.clause = rest at hby
  cases kind with
  | conditions | limit | offset =>
    refine (findClause?_append_cons hclosed (by decide)).trans ?_
    rw [List.append_eq, List.nil_append, hby]
    rfl
  | groups | order => exact findClause?_append_cons hclosed (by decide)

/-- The body of a clause ends where the next clause starts. -/
theorem bodyOf_append (kind : ClauseKind) (after : List ClauseKind) :
    bodyOf (q.body kind ++ after.flatMap q.clause) = q.body kind := by
  have hclosed : Closed isClauseKeyword (q.body kind) :=
    .isAny (q.closed_body kind (k := .where) (by decide)).level fun k hk => q.closed_body kind hk
  rw [bodyOf]
  exact congrArg Prod.fst (breakTopLevel_append_of_opens hclosed (q.opens_clauses after))

/-- Wherever a clause stands, it is found with the number of the values before its own. -/
theorem exists_findClause? (kind : ClauseKind) (hb : q.body kind ≠ []) : ∃ pre post rest,
    q.params = pre ++ (q.values kind ++ post) ∧
    findClause? kind.keyword 0 (q.kinds.flatMap q.clause)
      = some (pre.length, q.body kind ++ rest) ∧
    bodyOf (q.body kind ++ rest) = q.body kind := by
  obtain ⟨before, after, hk, hn⟩ := List.eq_append_cons_of_mem (q.complete kind)
  refine ⟨before.flatMap q.values, after.flatMap q.values, after.flatMap q.clause, ?_, ?_,
    q.bodyOf_append kind after⟩
  · rw [params, hk, List.flatMap_append, List.flatMap_cons]
  · rw [hk, q.findClause?_of_ne_nil hb hn]

end Select
end Written
end ClientRecords
