import ClientRecords.Proofs.Query.Reader
import ClientRecords.Proofs.Statement.Execution
import ClientRecords.Proofs.Statement.Reader
import ClientRecords.Proofs.Text.Tidy
import ClientRecords.Proofs.Token.Sign
/-!
One clause in four statements. A query, a count, a removal and an update that end with the same
clause find it in different ways: up to the next clause, or up to the end of the statement. If the
clause stands for itself, all four read the same conditions from it (`execute_statement`).
-/

namespace ClientRecords

open Token

variable {ts : List Token}

namespace Statement

/-- The statements that a clause picks rows for, up to the word before the clause. -/
inductive Use where
  | list
  | count
  | remove
  | mark
  deriving DecidableEq

namespace Use

/-- The tokens before the clause. -/
def tokens (t : Table) : Use → List Token
  | .list => [.word "SELECT", .star, .word "FROM", .word t.name, .word "WHERE"]
  | .count => [.word "SELECT", .word "COUNT", .openParen, .star, .closeParen, .word "AS", .word "n",
    .word "FROM", .word t.name, .word "WHERE"]
  | .remove => [.word "DELETE", .word "FROM", .word t.name, .word "WHERE"]
  | .mark => [.word "UPDATE", .word t.name, .word "SET", .word "x", .comparison .eq, .number "1",
    .word "WHERE"]

/-- The text before the clause. -/
def lead (t : Table) : Use → String
  | .list => "SELECT * FROM " ++ t.name
  | .count => "SELECT COUNT(*) AS n FROM " ++ t.name
  | .remove => "DELETE FROM " ++ t.name
  | .mark => "UPDATE " ++ t.name ++ " SET x = 1"

/-- The statement on a table with a clause. -/
def statement (t : Table) (clause : String) (u : Use) : String := u.lead t ++ " WHERE " ++ clause

theorem isPlain_tokens (t : Table) (u : Use) : ∀ x ∈ u.tokens t, x.isPlain = true := by
  cases t <;> cases u <;> decide

theorem operandAfter_tokens (t : Table) (u : Use) : operandAfter true (u.tokens t) = false := by
  cases u <;> rfl

theorem toList_lead (t : Table) (u : Use) :
    (u.lead t).toList ++ " WHERE".toList = spell (u.tokens t) := by
  have hle : ∀ a b : String, ∀ c : List Char, (a ++ b).toList ++ c = a.toList ++ (b.toList ++ c) :=
    fun a b c => by rw [String.toList_append, List.append_assoc]
  cases u with
  | list | count | remove => exact hle _ t.name _
  | mark => exact (hle ("UPDATE " ++ t.name) _ _).trans (hle _ t.name _)

theorem toList_statement (t : Table) (clause : String) (u : Use) :
    (u.statement t clause).toList = spell (u.tokens t) ++ ' ' :: clause.toList := by
  have hw : " WHERE ".toList = " WHERE".toList ++ [' '] := by decide
  rw [statement, String.toList_append, String.toList_append, hw, ← toList_lead]
  simp

theorem isNeat_tokens (t : Table) (u : Use) : Text.IsNeat (spell (u.tokens t)) := by
  refine isNeat_spell (by cases u <;> simp [tokens]) fun x hx =>
    isNeat_text (.inl (isPlain_tokens t u x hx) : IsWritable true x) ?_
  rintro s rfl
  cases u <;> simp [tokens] at hx

/-- A clause is scanned as it stands, except that no operand may start it. -/
theorem scan?_statement (t : Table) (u : Use) {clause : String}
    (hw : Text.collapse clause = clause) :
    scan? (Text.collapse (u.statement t clause)) =
      ((scan? clause).map parted).map (u.tokens t ++ ·) := by
  have hclause :
      scanFrom false (Text.squeeze true clause.toList) = scanFrom false clause.toList := by
    rw [← scanFrom_collapse, hw]
  rw [scan?_collapse_spell (toList_statement t clause u) (isPlain_tokens t u) (isNeat_tokens t u),
    operandAfter_tokens, hclause, scanFrom_false, scan?]

end Use
end Statement

namespace OpenQuery

/-- A clause stands for itself if no other clause starts in it and the word `BY` does not start
it. -/
structure Alone (ts : List Token) : Prop where
  uncut : findTopLevel isClauseKeyword ts = none
  start : OpenStatement.startsWith .by ts = false

namespace Alone

theorem parted (h : Alone ts) : Alone (parted ts) := by
  obtain he | ⟨ds, us, rfl, he⟩ := parted_cases ts
  · rwa [he]
  · rw [he]
    have hus := (findFrom_cons_eq_none_iff.mp h.uncut).2
    exact ⟨findFrom_cons_eq_none_iff.mpr ⟨rfl, findFrom_cons_eq_none_iff.mpr ⟨rfl, hus⟩⟩, rfl⟩

theorem trimSemicolons (h : Alone ts) : Alone (OpenStatement.trimSemicolons ts) := by
  obtain ⟨rest, hr⟩ := OpenStatement.exists_append_trimSemicolons ts
  refine ⟨?_, ?_⟩
  · have hu := h.uncut
    rw [hr, findTopLevel, findFrom_append_eq_none_iff] at hu
    exact hu.1
  · have hs := h.start
    rw [hr] at hs
    cases ht : OpenStatement.trimSemicolons ts with
    | nil => rfl
    | cons t us => rwa [ht] at hs

theorem findClause?_eq_none (h : Alone ts) {k : Keyword} (hk : k ∈ clauseKeywords) (hw : k ≠ .where)
    (seen : Nat) : findClause? k seen (.word "WHERE" :: ts) = none := by
  have hnot : Token.is k (.word "WHERE") = false := by revert hk hw; cases k <;> decide
  have hnone : findTopLevel (·.is k) (.word "WHERE" :: ts) = none := by
    refine findFrom_cons_eq_none_iff.mpr ⟨by simp [cuts, hnot], ?_⟩
    have himp : ∀ t : Token, t.is k = true → isClauseKeyword t = true := fun t ht =>
      List.any_eq_true.mpr ⟨k, hk, ht⟩
    exact findFrom_eq_none_of_imp himp h.uncut
  rw [findClause?, breakTopLevel_of_uncut hnone]

theorem findClause?_where (h : Alone ts) (seen : Nat) :
    findClause? .where seen (.word "WHERE" :: ts) = some (seen, ts) := by
  have hstart : ts.head?.any (·.is .by) = false := h.start
  have hb : breakTopLevel (·.is .where) (.word "WHERE" :: ts) = ([], .word "WHERE" :: ts) := rfl
  rw [findClause?, hb]
  simp [hstart, placeholders]

theorem bodyOf_eq (h : Alone ts) : bodyOf ts = ts := by
  rw [bodyOf, breakTopLevel_of_uncut h.uncut]

end Alone

/-- The query of a list of tokens that ends with such a clause. -/
theorem ofTokens?_where (h : Alone ts) (t : Table) {shown : List Token}
    (hs : Closed (·.is .from) shown) (hp : placeholders shown = 0) :
    ofTokens? (.word "SELECT" :: (shown ++ .word "FROM" :: .word t.name :: .word "WHERE" :: ts)) =
      some ⟨Projection.ofTokens shown, t.name, none, [], Clause.ofTokens 0 ts, none, none,
        none⟩ := by
  have hfrom : breakTopLevel (·.is .from)
        (shown ++ .word "FROM" :: .word t.name :: .word "WHERE" :: ts)
      = (shown, .word "FROM" :: .word t.name :: .word "WHERE" :: ts) :=
    breakTopLevel_append_cons hs (by decide)
  have hname : (Token.word t.name).isAny reserved = false ∧ Text.lowercase t.name = t.name := by
    cases t <;> decide
  have hseen : placeholders (.word "SELECT" :: (shown ++ .word "FROM" :: .word t.name ::
      .word "WHERE" :: ts)) - placeholders (.word "WHERE" :: ts) = 0 := by
    simp [placeholders] at hp ⊢
    omega
  have hclauses : breakTopLevel isClauseKeyword (.word "WHERE" :: ts) = ([], .word "WHERE" :: ts) :=
    rfl
  have hnone : ∀ k ∈ [Keyword.order, .limit, .offset],
      findClause? k 0 (.word "WHERE" :: ts) = none := fun k hk =>
    h.findClause?_eq_none (by revert hk; cases k <;> decide) (by rintro rfl; revert hk; decide) 0
  rw [ofTokens?_of_parts (by decide) hfrom hname.1 rfl hclauses, hseen, ofParts, hname.2,
    h.findClause?_where, hnone .order (by decide), hnone .limit (by decide),
    hnone .offset (by decide)]
  simp only [h.bodyOf_eq]
  rfl

end OpenQuery

namespace Statement
namespace Use

theorem readDelete_remove (t : Table) (ts : List Token) :
    OpenStatement.readDelete (Use.remove.tokens t ++ ts) =
      .ok (.delete t.name (Clause.ofTokens 0 ts)) := by
  cases t <;> rfl

theorem readUpdate_mark (t : Table) (ts : List Token) :
    OpenStatement.readUpdate (Use.mark.tokens t ++ ts) =
      .ok (.update t.name [("x", .literal (.int 1))] (Clause.ofTokens 0 ts)) := by
  cases t <;> rfl

/-- What is shown by the uses that are queries. -/
def projection : Use → Projection
  | .count => .count "n"
  | _ => .rows

theorem ofTokens?_query (h : OpenQuery.Alone ts) (t : Table) {u : Use}
    (hu : u = .list ∨ u = .count) :
    OpenQuery.ofTokens? (u.tokens t ++ ts) =
      some ⟨u.projection, t.name, none, [], Clause.ofTokens 0 ts, none, none, none⟩ := by
  rcases hu with rfl | rfl
  · exact OpenQuery.ofTokens?_where h t (.cons rfl rfl .nil) rfl
  · have hshown : Closed (·.is .from)
        [.word "COUNT", .openParen, .star, .closeParen, .word "AS", .word "n"] :=
      ⟨by decide, by decide⟩
    exact OpenQuery.ofTokens?_where h t hshown rfl

theorem trimSemicolons_tokens (t : Table) (u : Use) (ts : List Token) :
    OpenStatement.trimSemicolons (u.tokens t ++ ts) =
      u.tokens t ++ OpenStatement.trimSemicolons ts := by
  cases u <;> exact OpenStatement.trimSemicolons_append (by simp [tokens]) (by simp [tokens]) ts

/-- What a use of a clause does to a document, given the conditions of the clause. -/
def outcome (d : Document) (t : Table) (now : String) (cs : List Condition) : Use → Outcome
  | .list => ⟨(d.rowsOf t).filter (·.satisfies cs), none⟩
  | .count => ⟨[Query.countRow "n" ((d.rowsOf t).filter (·.satisfies cs)).length], none⟩
  | .remove => ⟨[], some (d.delete t cs)⟩
  | .mark => ⟨[], some (d.update t (overlay [] now [("x", .literal (.int 1))]) cs)⟩

section

variable {clause : String} {body : List Token} (d : Document) (t : Table) (mode : Mode)
  (now : String) (params : List Value)

theorem rows_query (d : Document) (t : Table) (now : String) (cs : List Condition) {u : Use}
    (hu : u = .list ∨ u = .count) :
    Query.rows d ⟨u.projection, t.name, none, [], cs, none, none, none⟩ now =
      .ok (u.outcome d t now cs).rows := by
  rcases hu with rfl | rfl
  · simp [Query.rows, projection, Query.plainRows?, d.rows_name, Query.page, outcome]
  · simp [Query.rows, projection, Query.filtered, d.rows_name, outcome]

/-- The two queries read the clause from the text as a whole. -/
theorem execute_query (u : Use) (hu : u = .list ∨ u = .count)
    (hread : OpenStatement.ofText (u.statement t clause) =
      .ok (.select (Text.collapse (u.statement t clause))))
    (hquery : OpenQuery.ofText (Text.collapse (u.statement t clause)) =
      .ok (some ⟨u.projection, t.name, none, [], Clause.ofTokens 0 body, none, none, none⟩)) :
    d.execute mode now (u.statement t clause) params =
      match (Clause.ofTokens 0 body).bind mode params with
      | .error e => .error (.refused e)
      | .ok cs => .ok (u.outcome d t now cs) := by
  have hbind : ∀ c : Clause, OpenQuery.bind ⟨u.projection, t.name, none, [], c, none, none, none⟩
      mode params = (c.bind mode params).map fun cs =>
        ⟨u.projection, t.name, none, [], cs, none, none, none⟩ := fun c => by
    rw [OpenQuery.bind]
    cases c.bind mode params <;> rfl
  rw [Document.execute_of_read hread]
  show d.evaluate mode now _ params = _
  rw [Document.evaluate_of_read hquery, hbind]
  cases (Clause.ofTokens 0 body).bind mode params with
  | error e => rfl
  | ok cs =>
    simp only [Except.map, rows_query d t now cs hu]
    rcases hu with rfl | rfl <;> rfl

/-- A removal reads the clause as it stands, whatever words are in it. -/
theorem execute_remove (hw : Text.collapse clause = clause) (hs : scan? clause = some ts) :
    d.execute mode now (Use.remove.statement t clause) params =
      match (Clause.ofTokens 0 (OpenStatement.trimSemicolons (parted ts))).bind mode params with
      | .error e => .error (.refused e)
      | .ok cs => .ok (Use.remove.outcome d t now cs) := by
  have hscan : scan? (Text.collapse (Use.remove.statement t clause)) =
      some (Use.remove.tokens t ++ parted ts) := by
    rw [scan?_statement t .remove hw, hs]
    rfl
  have hread := OpenStatement.ofText_of_scan hscan
  rw [trimSemicolons_tokens] at hread
  generalize OpenStatement.trimSemicolons (parted ts) = body at hread ⊢
  rw [Document.execute_of_read (hread.trans (readDelete_remove t body)), OpenStatement.bind]
  cases (Clause.ofTokens 0 body).bind mode params with
  | error e => rfl
  | ok cs => exact Document.write_name t _

/-- Every use of a clause goes by the conditions of the same tokens. -/
theorem execute_statement (hw : Text.collapse clause = clause) (hs : scan? clause = some ts)
    (h : OpenQuery.Alone ts) (u : Use) :
    d.execute mode now (u.statement t clause) params =
      match (Clause.ofTokens 0 (OpenStatement.trimSemicolons (parted ts))).bind mode params with
      | .error e => .error (.refused e)
      | .ok cs => .ok (u.outcome d t now cs) := by
  have hscan : scan? (Text.collapse (u.statement t clause)) = some (u.tokens t ++ parted ts) := by
    rw [scan?_statement t u hw, hs]
    rfl
  have hread := OpenStatement.ofText_of_scan hscan
  have hquery : u = .list ∨ u = .count → OpenQuery.ofText (Text.collapse (u.statement t clause)) =
      .ok (some ⟨u.projection, t.name, none, [],
        Clause.ofTokens 0 (OpenStatement.trimSemicolons (parted ts)), none, none, none⟩) := by
    intro hu
    simp only [OpenQuery.ofText, hscan, trimSemicolons_tokens]
    rw [ofTokens?_query h.parted.trimSemicolons t hu]
  rw [trimSemicolons_tokens] at hread
  generalize hbody : OpenStatement.trimSemicolons (parted ts) = body at hread hquery ⊢
  cases u with
  | list => exact execute_query d t mode now params .list (.inl rfl) hread (hquery (.inl rfl))
  | count => exact execute_query d t mode now params .count (.inr rfl) hread (hquery (.inr rfl))
  | remove => exact hbody ▸ execute_remove d t mode now params hw hs
  | mark =>
    rw [Document.execute_of_read (hread.trans (readUpdate_mark t body)), OpenStatement.bind]
    cases (Clause.ofTokens 0 body).bind mode params with
    | error e => rfl
    | ok cs => exact Document.write_name t _

end

/-- The four statements are refused alike, or they agree on the rows that the clause picks: those a
query lists are, in their order, the rows a removal takes out and an update writes into, and their
number is the count. -/
def SameRows (d : Document) (t : Table) (mode : Mode) (now : String) (params : List Value)
    (clause : String) : Prop :=
  (∃ e, ∀ u : Use, d.execute mode now (u.statement t clause) params = .error (.refused e)) ∨
  ∃ picked : Record → Bool,
    d.execute mode now (Use.list.statement t clause) params =
      .ok ⟨(d.rowsOf t).filter picked, none⟩ ∧
    (∃ r : Record, d.execute mode now (Use.count.statement t clause) params = .ok ⟨[r], none⟩ ∧
      r.get? "n" = some (.count ((d.rowsOf t).filter picked).length)) ∧
    d.execute mode now (Use.remove.statement t clause) params =
      .ok ⟨[], some (d.setRows t ((d.rowsOf t).filter (!picked ·)))⟩ ∧
    d.execute mode now (Use.mark.statement t clause) params =
      .ok ⟨[], some (d.setRows t ((d.rowsOf t).map fun r =>
        if picked r then r.putAll [("x", .int 1), ("updated_at", .string now)] else r))⟩

/-- A clause picks the same rows whatever it is used for. The rows that a SELECT lists are those
that a count counts, a DELETE removes and an UPDATE changes, or all four are refused with one
error. -/
theorem sameRows (d : Document) (t : Table) (mode : Mode) (now : String) (params : List Value)
    {clause : String} (hw : Text.collapse clause = clause) (hs : scan? clause = some ts)
    (h : OpenQuery.Alone ts) : SameRows d t mode now params clause := by
  have hall := execute_statement d t mode now params hw hs h
  cases hb : (Clause.ofTokens 0 (OpenStatement.trimSemicolons (parted ts))).bind mode params with
  | error e => exact .inl ⟨e, fun u => by rw [hall u, hb]⟩
  | ok cs =>
    simp only [hb] at hall
    exact .inr ⟨(·.satisfies cs), hall .list, ⟨_, hall .count, rfl⟩, hall .remove, hall .mark⟩

theorem sameRows_by_name : SameRows
    (Document.new.setRows .leads [Record.ofFields [("name", .string "Ann")]]) .leads .strict
    "2024-05-01" [.string "Ann"] "name = ?" := by
  have hs : scan? "name = ?" = some [.word "name", .comparison .eq, .placeholder] := by cbv
  exact sameRows _ .leads .strict "2024-05-01" [.string "Ann"] (by decide) hs
    ⟨by decide, by decide⟩

end Use
end Statement
end ClientRecords
