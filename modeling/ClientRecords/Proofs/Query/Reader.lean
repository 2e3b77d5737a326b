import ClientRecords.Proofs.Statement.Reader
import ClientRecords.Query.Reader
/-!
The reader of queries, one cut at a time. A list of tokens is cut at `FROM`, behind the alias of the
table and at the first clause, and the query is put together from these parts
(`ofTokens?_of_parts`).
-/

namespace ClientRecords

open Token

variable {ts : List Token}

namespace OpenQuery

/-- The query put together from its parts: what is shown, the table and its alias, the tokens of the
joins, and the clauses with the number of placeholders before them. -/
def ofParts (shown : List Token) (table : String) (shortName : Option String)
    (joinTokens : List Token) (seen : Nat) (clauses : List Token) : OpenQuery :=
  { projection := Projection.ofTokens shown
    table := Text.lowercase table
    shortName := shortName
    joins := readJoins joinTokens
    clause := match findClause? .where seen clauses with
      | some (next, body) => Clause.ofTokens next (bodyOf body)
      | none => .always
    orderBy := (findClause? .order seen clauses).bind fun (_, body) => sortKey? (bodyOf body)
    limit := (findClause? .limit seen clauses).bind fun (next, body) =>
      body.head?.bind (·.operand? next)
    offset := (findClause? .offset seen clauses).bind fun (next, body) =>
      body.head?.bind (·.operand? next) }

theorem ofTokens?_of_parts {select source : Token}
    {shown after rest joinTokens clauses : List Token}
    {table : String} {shortName : Option String} (hs : select.is .select = true)
    (hf : breakTopLevel (·.is .from) ts = (shown, source :: .word table :: after))
    (hr : (Token.word table).isAny reserved = false) (ha : takeAlias after = (shortName, rest))
    (hc : breakTopLevel isClauseKeyword rest = (joinTokens, clauses)) :
    ofTokens? (select :: ts) = some (ofParts shown table shortName joinTokens
      (placeholders (select :: ts) - placeholders clauses) clauses) := by
  have hstart : OpenStatement.startsWith .select (select :: ts) = true := hs
  have hname : (Token.word table).word? = some table := rfl
  simp only [ofTokens?, hstart, List.tail_cons, hf, List.head?_cons, List.drop_succ_cons,
    List.drop_zero, ha, hc]
  simp only [hname, hr, ofParts, Option.bind_eq_bind, Option.bind_some]
  rfl

/-- A query as it is read from its parts. -/
inductive Reads : List Token → OpenQuery → Prop
  | mk {select source : Token} {shown us after rest joinTokens clauses : List Token}
      {table : String} {shortName : Option String} (hs : select.is .select = true)
      (hf : breakTopLevel (·.is .from) us = (shown, source :: .word table :: after))
      (hr : (Token.word table).isAny reserved = false) (ha : takeAlias after = (shortName, rest))
      (hc : breakTopLevel isClauseKeyword rest = (joinTokens, clauses)) :
      Reads (select :: us) (ofParts shown table shortName joinTokens
        (placeholders (select :: us) - placeholders clauses) clauses)

/-- What reads as a query has the parts of one. -/
theorem reads_of_ofTokens? {q : OpenQuery} (h : ofTokens? ts = some q) : Reads ts q := by
  unfold ofTokens? at h
  simp only [Option.bind_eq_bind] at h
  cases hstart : OpenStatement.startsWith .select ts with
  | false =>
    rw [hstart] at h
    cases h
  | true =>
    rw [hstart, Bool.not_true, if_neg Bool.false_ne_true] at h
    obtain ⟨name, hname, h⟩ := Option.bind_eq_some_iff.mp h
    obtain ⟨table, htable, h⟩ := Option.bind_eq_some_iff.mp h
    cases hreserved : name.isAny reserved with
    | true =>
      rw [hreserved] at h
      cases h
    | false =>
      rw [hreserved, if_neg Bool.false_ne_true] at h
      obtain rfl := Option.some.inj h
      obtain ⟨select, us, rfl, hs⟩ := OpenStatement.exists_of_startsWith hstart
      rw [List.tail_cons] at hname ⊢
      rcases hf : breakTopLevel (·.is .from) us with ⟨shown, _ | ⟨source, _ | ⟨t, after⟩⟩⟩
      · rw [hf] at hname
        cases hname
      · rw [hf] at hname
        cases hname
      · rw [hf] at hname
        obtain rfl := Option.some.inj hname
        cases t with
        | word w =>
          obtain rfl := Option.some.inj htable
          exact .mk hs hf hreserved rfl rfl
        | _ => cases htable

end OpenQuery
end ClientRecords
