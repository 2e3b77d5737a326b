import ClientRecords.Proofs.Binary64.Exact
import ClientRecords.Proofs.Query.Clauses
/-!
What the clauses of a written query ask for once the parameters are bound. The values of a condition
stand together among the parameters, at the number that its first placeholder has, so each check
takes its own values (`bindFragments_readParts`).
-/

namespace ClientRecords

open Token OpenQuery

/-! ### Operands -/

theorem Operand.value_append_cons (pre post : List Value) (v : Value) :
    (Operand.param pre.length).value (pre ++ v :: post) = v := by
  simp [value]

/-- The operands of placeholders that stand together take the values that stand together. -/
theorem Operand.map_value_range (values post : List Value) : ∀ pre : List Value,
    (List.range' pre.length values.length).map (fun k => (param k).value (pre ++ (values ++ post)))
      = values := by
  induction values with
  | nil => intro pre; rfl
  | cons v vs ih =>
    intro pre
    have hrest := ih (pre ++ [v])
    rw [List.length_append, List.length_singleton, List.append_assoc,
      List.singleton_append] at hrest
    rw [List.length_cons, List.range'_succ, List.map_cons, List.cons_append,
      value_append_cons, hrest]

namespace Fragment

theorem callsDate_cons {t : Token} : ∀ {ts : List Token}, (∀ u ∈ ts, u ≠ .openParen) →
    callsDate (t :: ts) = false := by
  intro ts
  induction ts generalizing t with
  | nil => intro _; rfl
  | cons u us ih =>
    intro h
    have hstep : callsDate (t :: u :: us) = callsDate (u :: us) := by
      cases u with
      | openParen => exact absurd rfl (h .openParen List.mem_cons_self)
      | _ => rfl
    rw [hstep]
    exact ih fun v hv => h v (List.mem_cons_of_mem _ hv)

theorem items?_replicate (n : Nat) : ∀ next : Nat,
    items? next (List.replicate n [.placeholder]) = some ((List.range' next n).map .param) := by
  induction n with
  | zero => intro next; rfl
  | succ n ih =>
    intro next
    rw [List.replicate_succ, items?, ih, List.range'_succ]
    rfl

end Fragment

namespace Written

open Fragment

theorem callsDate_setTokens (t : Token) (more : Nat) : callsDate (t :: setTokens more)
    = t.isAny dateFunctions := by
  have hinside : callsDate (setTokens more) = false := by
    have hitems : ∀ u ∈ [Token.comma, .placeholder], u ≠ .openParen := by decide
    refine callsDate_cons fun u hu => ?_
    rcases List.mem_append.mp hu with hu | hu
    · exact hitems u (mem_placeholders hu)
    · rw [List.mem_singleton.mp hu]; decide
  have hstep : callsDate (t :: setTokens more)
      = (t.isAny dateFunctions || callsDate (setTokens more)) := rfl
  rw [hstep, hinside, Bool.or_false]

theorem set?_setTokens (next more : Nat) :
    set? next (setTokens more) = some ((List.range' next (more + 1)).map .param) := by
  have hparts : splitCommas (List.intercalate [.comma] (List.replicate (more + 1) [.placeholder]))
      = List.replicate (more + 1) [.placeholder] := by
    refine splitTopLevel_intercalate rfl (by simp) fun part hp => ?_
    rw [List.eq_of_mem_replicate hp]
    exact .cons rfl rfl .nil
  have hset : set? next (setTokens more)
      = items? next (splitCommas
          (List.intercalate [.comma] (List.replicate (more + 1) [.placeholder]))) := by
    rw [setTokens, List.cons_append, set?, if_pos List.getLast?_concat, List.dropLast_concat]
  rw [hset, hparts, items?_replicate]

/-! ### Conditions -/

/-- The check of a test before its parameters are bound. -/
def Test.openCheck (next : Nat) : Test → OpenCheck
  | .compare op _ => .compare op (.param next)
  | .like .. => .like (.param next)
  | .isNull => .isNull
  | .isNotNull => .isNotNull
  | .inSet _ vs => .inSet ((List.range' next (vs.length + 1)).map .param)
  | .notInSet _ vs => .notInSet ((List.range' next (vs.length + 1)).map .param)

theorem Test.check?_tokens (t : Test) (next : Nat) :
    check? next t.tokens = some (t.openCheck next) := by
  cases t with
  | compare | like | isNull | isNotNull => rfl
  | inSet v vs =>
    have hread : check? next (.word "IN" :: setTokens vs.length)
        = (set? next (setTokens vs.length)).map .inSet := by
      rw [setTokens, List.replicate_succ, List.intercalate_cons_cons_left]
      rfl
    rw [tokens, hread, set?_setTokens]
    rfl
  | notInSet v vs =>
    have hread : check? next (.word "NOT" :: .word "IN" :: setTokens vs.length)
        = (set? next (setTokens vs.length)).map .notInSet := rfl
    rw [tokens, hread, set?_setTokens]
    rfl

theorem Test.callsDate_tokens (t : Test) (f : Field) : callsDate (f.token :: t.tokens) = false := by
  cases t with
  | compare | like | isNull | isNotNull =>
    refine callsDate_cons fun u hu => ?_
    rintro rfl
    simp [tokens] at hu
  | inSet v vs => exact callsDate_setTokens (.word "IN") _
  | notInSet v vs => exact callsDate_setTokens (.word "IN") _

theorem Condition.ofTokens_tokens (c : Condition) (next : Nat) : Fragment.ofTokens next c.tokens
    = .condition c.field.name.text (c.test.openCheck next) := by
  have hfield : c.tokens.head?.bind Token.field? = some c.field.name.text := c.field.field?
  have hcheck : check? next c.tokens.tail = some (c.test.openCheck next) :=
    c.test.check?_tokens next
  rw [Fragment.ofTokens, if_neg (by rw [tokens, c.test.callsDate_tokens]; decide), hfield, hcheck]

/-- The texts of the items of a set. -/
theorem map_text_range (pre values post : List Value) :
    ((List.range' pre.length values.length).map Operand.param).map
      (fun x => (x.value (pre ++ (values ++ post))).text) = values.map Value.text := by
  have hvalues := Operand.map_value_range values post pre
  rw [List.map_map]
  conv => rhs; rw [← hvalues, List.map_map]
  rfl

theorem Test.bind_openCheck (t : Test) (pre post : List Value) :
    (t.openCheck pre.length).bind (pre ++ (t.values ++ post)) = .ok t.check := by
  cases t with
  | compare op v =>
    have hv := Operand.value_append_cons pre post v
    rw [openCheck, OpenCheck.bind, values, List.singleton_append, hv, check]
  | like v p h =>
    have hv := Operand.value_append_cons pre post v
    simp only [openCheck, OpenCheck.bind, values, List.singleton_append, hv, h, check]
  | isNull | isNotNull => rfl
  | inSet v vs =>
    have hvs := map_text_range pre (v :: vs) post
    rw [openCheck, OpenCheck.bind, values, check, ← hvs]
    rfl
  | notInSet v vs =>
    have hvs := map_text_range pre (v :: vs) post
    rw [openCheck, OpenCheck.bind, values, check, ← hvs]
    rfl

/-- Read from the number of its first parameter on, every condition takes its own values. -/
theorem bindFragments_readParts (mode : Mode) (conditions : List Condition) :
    ∀ pre post : List Value,
    Clause.bindFragments mode (pre ++ (conditions.flatMap (·.test.values) ++ post))
      (Clause.readParts pre.length (conditions.map Condition.tokens))
      = .ok (conditions.map Condition.condition) := by
  induction conditions with
  | nil => intro _ _; rfl
  | cons c cs ih =>
    intro pre post
    have hrest := ih (pre ++ c.test.values) post
    have hcheck := c.test.bind_openCheck pre (cs.flatMap (·.test.values) ++ post)
    rw [List.length_append, List.append_assoc] at hrest
    rw [List.map_cons, Clause.readParts, c.ofTokens_tokens, c.placeholders_tokens,
      List.flatMap_cons, List.append_assoc, Clause.bindFragments, hcheck, hrest]
    rfl

/-! ### The clauses of a query -/

namespace Select

variable (q : Select)

theorem bind_conditions (mode : Mode) :
    (match findClause? .where 0 (q.kinds.flatMap q.clause) with
      | some (next, body) => Clause.ofTokens next (bodyOf body)
      | none => .always).bind mode q.params = .ok (q.conditions.map Condition.condition) := by
  by_cases hb : q.body .conditions = []
  · have hnone : q.conditions = [] := by
      cases hc : q.conditions with
      | nil => rfl
      | cons c cs =>
        rw [body, hc, List.map_cons, Condition.tokens, List.intercalate_cons_cons_left] at hb
        cases hb
    have hfind : findClause? .where 0 (q.kinds.flatMap q.clause) = none :=
      q.findClause?_of_nil .conditions hb q.kinds
    rw [hfind, hnone]
    rfl
  · obtain ⟨pre, post, rest, hparams, hfind, hbody⟩ := q.exists_findClause? .conditions hb
    have hne : q.conditions.map Condition.tokens ≠ [] := by
      intro he
      exact hb (by rw [body, he]; rfl)
    have hparts : Clause.parts (q.body .conditions) = q.conditions.map Condition.tokens := by
      rw [Clause.parts, if_neg (by simpa using hb)]
      refine splitTopLevel_intercalate (by decide) hne fun part hp => ?_
      obtain ⟨c, _, rfl⟩ := List.mem_map.mp hp
      exact c.closed (by decide)
    have hcond : findClause? .where 0 (q.kinds.flatMap q.clause)
        = some (pre.length, q.body .conditions ++ rest) := hfind
    simp only [hcond, hbody, Clause.ofTokens, hparts, Clause.bind]
    rw [hparams]
    exact bindFragments_readParts mode q.conditions pre post

theorem sortKey_orderBy :
    ((findClause? .order 0 (q.kinds.flatMap q.clause)).bind fun (_, body) => sortKey? (bodyOf body))
      = q.query.orderBy := by
  rw [query]
  cases ho : q.orderBy with
  | none =>
    have hfind : findClause? .order 0 (q.kinds.flatMap q.clause) = none :=
      q.findClause?_of_nil .order (by rw [body, ho]; rfl) q.kinds
    rw [hfind]
    rfl
  | some o =>
    obtain ⟨f, d⟩ := o
    have hkey : q.body .order = [f.token, directionToken d] := by rw [body, ho]; rfl
    obtain ⟨pre, _, rest, -, hfind, hbody⟩ := q.exists_findClause? .order (by simp [hkey])
    have horder : findClause? .order 0 (q.kinds.flatMap q.clause)
        = some (pre.length, q.body .order ++ rest) := hfind
    have hsort : sortKey? (bodyOf (q.body .order ++ rest)) = some ⟨f.name.text, d⟩ := by
      rw [hbody, hkey, ← f.bareField_word]
      cases d <;> rfl
    rw [horder]
    exact hsort

/-- A clause that holds one placeholder sets the number of rows that its value is. -/
theorem rowCount_of_bound (kind : ClauseKind) {b : Option Bound}
    (hbody : q.body kind = b.elim [] fun _ => [.placeholder])
    (hvalues : q.values kind = b.toList.map Bound.value) :
    ((findClause? kind.keyword 0 (q.kinds.flatMap q.clause)).bind fun (next, body) =>
        body.head?.bind (·.operand? next)).bind (·.rowCount? q.params)
      = b.map Bound.rows := by
  cases b with
  | none =>
    rw [q.findClause?_of_nil kind hbody]
    rfl
  | some b =>
    obtain ⟨pre, post, rest, hparams, hfind, -⟩ := q.exists_findClause? kind (by simp [hbody])
    have hvalue : q.params[pre.length]? = some b.value := by
      rw [hparams, hvalues]
      simp
    have hrows : (Operand.param pre.length).rowCount? q.params = some b.rows := by
      rw [Operand.rowCount?, hvalue, Option.bind_some, Bound.value, Value.rowCount?_ofNat b.exact]
    rw [hfind, hbody]
    exact hrows

end Select
end Written
end ClientRecords
