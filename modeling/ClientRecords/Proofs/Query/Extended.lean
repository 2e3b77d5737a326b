import ClientRecords.Proofs.Query.Clauses
import ClientRecords.Proofs.Query.Joins
import ClientRecords.Proofs.Query.Reader
import ClientRecords.Proofs.Statement.Positions
/-!
Clauses written behind a query. If the query closes its parentheses and has no order and no page of
its own (`TakesPage`), the reader cuts it as before, and the clauses behind it set the order and the
page of what it reads and nothing else (`ofTokens?_append`).
-/

namespace ClientRecords

open Token

namespace OpenQuery

variable {ts us : List Token} {k : Keyword} {seen : Nat}

/-- The tokens behind the table of a query. -/
def behindTable (ts : List Token) : List Token := (breakTopLevel (·.is .from) ts.tail).2.drop 2

/-- The words that open the clauses of the order and of the page. -/
def pageKeywords : List Keyword := [.order, .limit, .offset]

/-- Can the order and the page be written behind a query? Its last token is no semicolon, no alias
is left out behind `AS`, and behind the table all parentheses are closed and none of these clauses
stands there already. -/
structure TakesPage (ts : List Token) : Prop where
  unended : ts.getLast? ≠ some .semicolon
  named : ∀ t, behindTable ts = [t] → t.is .as = false
  closed : Closed (·.isAny pageKeywords) (takeAlias (behindTable ts)).2

/-! ### The cuts of the reader -/

theorem breakTopLevel_append_of_found {p : Token → Bool} {part rest : List Token} {sep : Token}
    (h : breakTopLevel p ts = (part, sep :: rest)) (us : List Token) :
    breakTopLevel p (ts ++ us) = (part, sep :: (rest ++ us)) := by
  rcases breakTopLevel_cases p ts with ⟨-, hb⟩ | ⟨part', sep', rest', rfl, hc, hs, hb⟩
  · rw [hb] at h
    cases h
  · rw [hb] at h
    cases h
    rw [List.append_assoc, List.cons_append]
    exact breakTopLevel_append_cons hc hs

/-- A cut list is at its start again behind the cut. -/
theorem depthOver_of_breakTopLevel {p : Token → Bool} {part rest : List Token} {sep : Token}
    (h : breakTopLevel p ts = (part, sep :: rest)) :
    depthOver 0 (sep :: rest) = depthOver 0 ts ∧ depthOver 0 rest = depthOver 0 ts := by
  rcases breakTopLevel_cases p ts with ⟨-, hb⟩ | ⟨part', sep', rest', rfl, hc, hs, hb⟩
  · rw [hb] at h
    cases h
  · rw [hb] at h
    cases h
    simp only [cuts, Bool.and_eq_true, Bool.not_eq_true'] at hs
    rw [depthOver_append, hc.level, depthOver_cons, depthAfter_of_not_paren 0 hs.1.1]
    exact ⟨rfl, rfl⟩

theorem takeAlias_append (hn : ∀ t, ts = [t] → t.is .as = false) (ho : Opens reserved us) :
    takeAlias (ts ++ us) = ((takeAlias ts).1, (takeAlias ts).2 ++ us) := by
  cases ts with
  | nil => exact takeAlias_of_opens ho
  | cons t ts =>
    cases has : t.is .as with
    | true =>
      cases ts with
      | nil =>
        rw [hn t rfl] at has
        cases has
      | cons u ts => simp [takeAlias, has]
    | false =>
      cases t with
      | word w =>
        simp only [List.cons_append, takeAlias, has]
        cases Token.isAny reserved (.word w) <;> rfl
      | _ => rfl

/-- The joins end where they did, and the clauses go on. -/
theorem breakClauses_append (hl : depthOver 0 ts = 0) (ho : Opens clauseKeywords us) :
    breakTopLevel isClauseKeyword (ts ++ us) =
      ((breakTopLevel isClauseKeyword ts).1, (breakTopLevel isClauseKeyword ts).2 ++ us) := by
  rcases hb : breakTopLevel isClauseKeyword ts with ⟨part, _ | ⟨sep, rest⟩⟩
  · rcases breakTopLevel_cases isClauseKeyword ts with ⟨hu, hb'⟩ | ⟨_, _, _, _, _, _, hb'⟩
    · rw [hb'] at hb
      cases hb
      exact breakTopLevel_append_of_opens ⟨hu, hl⟩ ho
    · rw [hb'] at hb
      cases hb
  · exact breakTopLevel_append_of_found hb us

theorem bodyOf_append (hl : depthOver 0 ts = 0) (ho : Opens clauseKeywords us) :
    bodyOf (ts ++ us) = bodyOf ts := by
  rw [bodyOf, breakClauses_append hl ho]
  rfl

theorem is_by_of_opens (ho : Opens clauseKeywords us) : us.head?.any (·.is .by) = false := by
  rw [Option.any_eq_false]
  intro t ht
  obtain ⟨k, hk, hkt⟩ := List.any_eq_true.mp (ho t ht)
  rw [is_of_is hkt]
  clear hkt
  revert k
  decide

/-- A clause that is found stays the first of its kind and keeps its body. -/
theorem findClause?_append_of_some {next : Nat} {body : List Token}
    (h : findClause? k seen ts = some (next, body)) (hl : depthOver 0 ts = 0)
    (ho : Opens clauseKeywords us) :
    ∃ longer, findClause? k seen (ts ++ us) = some (next, longer) ∧
      bodyOf longer = bodyOf body := by
  rw [findClause?] at h ⊢
  rcases hb : breakTopLevel (·.is k) ts with ⟨before, _ | ⟨t, rest⟩⟩
  · rw [hb] at h
    cases h
  · have hrest : depthOver 0 rest = 0 := (depthOver_of_breakTopLevel hb).2.trans hl
    rw [hb] at h
    obtain ⟨rfl, rfl⟩ := Prod.mk.inj (Option.some.inj h)
    rw [breakTopLevel_append_of_found hb]
    cases rest with
    | nil =>
      have hlonger : bodyOf ([] ++ us) = bodyOf [] := bodyOf_append rfl ho
      exact ⟨us, by simp only [List.nil_append, is_by_of_opens ho]; rfl, hlonger⟩
    | cons u rest =>
      cases hu : u.is .by with
      | true =>
        have hby : u.isAny [.by] = true := by simpa [isAny] using hu
        rw [depthOver_cons, depthAfter_of_not_paren 0 (isParen_of_isAny hby)] at hrest
        exact ⟨rest ++ us, by simp [hu], by simpa [hu] using bodyOf_append hrest ho⟩
      | false => exact ⟨u :: rest ++ us, by simp [hu], by simpa [hu] using bodyOf_append hrest ho⟩

theorem findClause?_eq_none_iff :
    findClause? k seen ts = none ↔ findTopLevel (·.is k) ts = none := by
  rw [findClause?]
  rcases breakTopLevel_cases (·.is k) ts with ⟨hu, hb⟩ | ⟨part, sep, rest, hts, hc, hs, hb⟩
  · rw [hb]
    exact iff_of_true rfl hu
  · have hfound : findTopLevel (·.is k) ts ≠ none := by
      rw [hts, findTopLevel, findFrom_append hc.uncut, hc.level, findFrom_cons_of_cuts hs]
      exact Option.some_ne_none _
    rw [hb]
    exact iff_of_false (Option.some_ne_none _) hfound

/-- A clause that is not found is looked for in what follows. -/
theorem findClause?_append_of_closed (h : Closed (·.is k) ts) (us : List Token) :
    findClause? k seen (ts ++ us) = findClause? k (seen + placeholders ts) us := by
  rw [findClause?, findClause?]
  rcases breakTopLevel_cases (·.is k) us with ⟨hu, hb⟩ | ⟨part, sep, rest, rfl, hc, hs, hb⟩
  · have hnone : findTopLevel (·.is k) (ts ++ us) = none := by
      rw [findTopLevel, findFrom_append_eq_none_iff, h.level]
      exact ⟨h.uncut, hu⟩
    rw [hb, breakTopLevel_of_uncut hnone]
  · rw [hb, ← List.append_assoc, breakTopLevel_append_cons (h.append hc) hs]
    simp only [placeholders_append, Nat.add_assoc]

/-- The order that clauses set. -/
def clauseOrder (seen : Nat) (clauses : List Token) : Option SortKey :=
  (findClause? .order seen clauses).bind fun (_, body) => sortKey? (bodyOf body)

/-- The number of rows or of skipped rows that clauses set. -/
def clauseBound (k : Keyword) (seen : Nat) (clauses : List Token) : Option Operand :=
  (findClause? k seen clauses).bind fun (next, body) => body.head?.bind (·.operand? next)

theorem clauseOrder_append_of_closed (h : Closed (·.is .order) ts) (us : List Token) :
    clauseOrder seen (ts ++ us) = clauseOrder (seen + placeholders ts) us := by
  rw [clauseOrder, findClause?_append_of_closed h, clauseOrder]

theorem clauseBound_append_of_closed (h : Closed (·.is k) ts) (us : List Token) :
    clauseBound k seen (ts ++ us) = clauseBound k (seen + placeholders ts) us := by
  rw [clauseBound, findClause?_append_of_closed h, clauseBound]

/-! ### A whole query -/

/-- A part of a closed list behind one of its cuts is closed, too. -/
theorem closed_of_breakTopLevel {p r : Token → Bool} (h : Closed r ts) :
    Closed r (breakTopLevel p ts).2 := by
  rcases breakTopLevel_cases p ts with ⟨-, hb⟩ | ⟨part, sep, rest, rfl, hc, -, hb⟩
  · rw [hb]
    exact .nil
  · have hu := h.uncut
    have hl := h.level
    rw [findTopLevel, findFrom_append_eq_none_iff, hc.level] at hu
    rw [depthOver_append, hc.level] at hl
    rw [hb]
    exact ⟨hu.2, hl⟩

/-- Clauses that follow others set what those leave open. -/
theorem ofParts_append {shown joinTokens clauses : List Token} {table : String}
    {shortName : Option String} (hp : Closed (·.isAny pageKeywords) clauses)
    (ho : Opens clauseKeywords us) (hw : findTopLevel (·.is .where) us = none) :
    ofParts shown table shortName joinTokens seen (clauses ++ us) =
      { ofParts shown table shortName joinTokens seen clauses with
        orderBy := clauseOrder (seen + placeholders clauses) us
        limit := clauseBound .limit (seen + placeholders clauses) us
        offset := clauseBound .offset (seen + placeholders clauses) us } := by
  have hclosed : ∀ k ∈ pageKeywords, Closed (·.is k) clauses := fun k hk => by
    have himp : ∀ t : Token, t.is k = true → t.isAny pageKeywords = true := fun t ht =>
      List.any_eq_true.mpr ⟨k, hk, ht⟩
    exact ⟨findFrom_eq_none_of_imp himp hp.uncut, hp.level⟩
  have hwhere : (ofParts shown table shortName joinTokens seen (clauses ++ us)).clause
      = (ofParts shown table shortName joinTokens seen clauses).clause := by
    simp only [ofParts]
    cases hf : findClause? .where seen clauses with
    | some found =>
      obtain ⟨next, body⟩ := found
      obtain ⟨longer, hlonger, hbody⟩ := findClause?_append_of_some hf hp.level ho
      simp only [hlonger, hbody]
    | none =>
      have hopen : Closed (·.is .where) clauses := ⟨findClause?_eq_none_iff.mp hf, hp.level⟩
      have hnone : findClause? .where seen (clauses ++ us) = none := by
        rw [findClause?_append_of_closed hopen, findClause?_eq_none_iff.mpr hw]
      simp only [hnone]
  rw [ofParts, OpenQuery.mk.injEq]
  exact ⟨rfl, rfl, rfl, rfl, hwhere, clauseOrder_append_of_closed (hclosed .order (by decide)) us,
    clauseBound_append_of_closed (hclosed .limit (by decide)) us,
    clauseBound_append_of_closed (hclosed .offset (by decide)) us⟩

/-- Clauses behind a query set its order and its page, and nothing else changes. -/
theorem ofTokens?_append {q : OpenQuery} (h : ofTokens? ts = some q) (hp : TakesPage ts)
    (ho : Opens clauseKeywords us) (hw : findTopLevel (·.is .where) us = none) :
    ofTokens? (ts ++ us) = some { q with
      orderBy := clauseOrder (placeholders ts) us
      limit := clauseBound .limit (placeholders ts) us
      offset := clauseBound .offset (placeholders ts) us } := by
  cases reads_of_ofTokens? h with
  | @mk select source shown tail after rest joinTokens clauses table shortName hs hf hr ha hc =>
    have hbehind : behindTable (select :: tail) = after := by
      rw [behindTable, List.tail_cons, hf]
      rfl
    have hclosed : Closed (·.isAny pageKeywords) rest := by
      have hrest := hp.closed
      rwa [hbehind, ha] at hrest
    have hclauses : Closed (·.isAny pageKeywords) clauses := by
      have hcut : Closed _ (breakTopLevel isClauseKeyword rest).2 := closed_of_breakTopLevel hclosed
      rwa [hc] at hcut
    have hreserved : Opens reserved us := fun t ht => by
      obtain ⟨k, hk, hkt⟩ := List.any_eq_true.mp (ho t ht)
      exact List.any_eq_true.mpr ⟨k, List.mem_append_left _ hk, hkt⟩
    -- each cut of the reader leaves the new clauses behind what it left before
    have hfrom : breakTopLevel (·.is .from) (tail ++ us)
        = (shown, source :: .word table :: (after ++ us)) := breakTopLevel_append_of_found hf us
    have halias : takeAlias (after ++ us) = (shortName, rest ++ us) := by
      rw [takeAlias_append (fun t ht => hp.named t (hbehind.trans ht)) hreserved, ha]
    have hbreak : breakTopLevel isClauseKeyword (rest ++ us) = (joinTokens, clauses ++ us) := by
      rw [breakClauses_append hclosed.level ho, hc]
    have hseen : placeholders (select :: (tail ++ us)) - placeholders (clauses ++ us)
        = placeholders (select :: tail) - placeholders clauses := by
      rw [← List.cons_append, placeholders_append, placeholders_append, Nat.add_sub_add_right]
    have htotal : placeholders (select :: tail) - placeholders clauses + placeholders clauses
        = placeholders (select :: tail) := by
      have hclausesOf : clausesOf (select :: tail) = clauses := by
        simp only [clausesOf, List.tail_cons, hf, List.drop_succ_cons, List.drop_zero, ha, hc]
      obtain ⟨front, hfront⟩ := clausesOf_suffix (select :: tail)
      have hcount := congrArg placeholders hfront
      rw [placeholders_append, hclausesOf] at hcount
      omega
    rw [List.cons_append, ofTokens?_of_parts hs hfrom hr halias hbreak, hseen,
      ofParts_append hclauses ho hw, htotal]

end OpenQuery
end ClientRecords
