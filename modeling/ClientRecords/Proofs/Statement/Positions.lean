import ClientRecords.Proofs.Condition.Positions
import ClientRecords.Proofs.Statement.Execution
import ClientRecords.Proofs.Statement.Reader
import ClientRecords.Query.Reader
/-!
Where the parameters of reads and deletes go. The clauses of a read may come in any order behind a
list of what is shown and behind joins, all of which may hold placeholders. The body of a clause is
the end of the tokens of the statement, so what stands before it is what the statement starts with,
and each placeholder of a condition, of `LIMIT` and of `OFFSET` takes the parameter whose number is
the number of placeholders before it in the whole statement.
-/

namespace ClientRecords

open Token

/-- The number of rows that a token asks for behind other tokens of its statement; a parameter that
is not given asks for none. -/
def rowsAt (params : List Value) (before : List Token) (t : Token) : Option Nat :=
  if t = .placeholder then params[placeholders before]?.bind Value.rowCount?
  else t.literal?.bind Value.rowCount?

namespace OpenQuery

/-- The tokens of a query from its first clause on. -/
def clausesOf (ts : List Token) : List Token :=
  let source := (breakTopLevel (·.is .from) ts.tail).2
  (breakTopLevel isClauseKeyword (takeAlias (source.drop 2)).2).2

/-- The tokens of a query from the body of a clause on. -/
def fromBody? (k : Keyword) (ts : List Token) : Option (List Token) :=
  (findClause? k 0 (clausesOf ts)).map Prod.snd

end OpenQuery

open OpenQuery

/-- The conditions of a query are those of its clause of conditions, if it has one. -/
inductive FiltersBy (params : List Value) (ts : List Token) : List Condition → Prop
  | all (h : fromBody? .where ts = none) : FiltersBy params ts []
  | clause {before body : List Token} {cs : List Condition} (h : fromBody? .where ts = some body)
      (hts : ts = before ++ body) (hc : Compiles params before (bodyOf body) cs) :
      FiltersBy params ts cs

/-- The number of rows that a clause of a query sets is the one that its first token asks for. -/
inductive PagesBy (params : List Value) (k : Keyword) (ts : List Token) : Option Nat → Prop
  | absent (h : ∀ body ∈ fromBody? k ts, body = []) : PagesBy params k ts none
  | given {before rest : List Token} {t : Token} (h : fromBody? k ts = some (t :: rest))
      (hts : ts = before ++ t :: rest) : PagesBy params k ts (rowsAt params before t)

/-- A query takes its parameters by the places of their placeholders. -/
structure QueryBinds (params : List Value) (ts : List Token) (q : Query) : Prop where
  conditions : FiltersBy params ts q.conditions
  limit : PagesBy params .limit ts q.limit
  offset : PagesBy params .offset ts q.offset

/-- The conditions of a delete are those of what follows `WHERE`. -/
inductive DeleteBinds (params : List Value) : List Token → List Condition → Prop
  | all {d f t : Token} : DeleteBinds params [d, f, t] []
  | clause {d f t w : Token} {clause : List Token} {cs : List Condition} (hw : w.is .where = true)
      (hc : Compiles params [d, f, t, w] clause cs) :
      DeleteBinds params (d :: f :: t :: w :: clause) cs

variable {params : List Value} {ts clauses : List Token} {k : Keyword} {seen : Nat}

/-! ### Clauses behind the rest of a query -/

theorem Token.breakTopLevel_append (p : Token → Bool) (ts : List Token) :
    (breakTopLevel p ts).1 ++ (breakTopLevel p ts).2 = ts := by
  rw [breakTopLevel]
  cases findTopLevel p ts with
  | none => exact List.append_nil ts
  | some i => exact List.take_append_drop i ts

theorem Token.of_breakTopLevel {p : Token → Bool} {before rest : List Token} {t : Token}
    (h : breakTopLevel p ts = (before, t :: rest)) : p t = true := by
  rcases breakTopLevel_cases p ts with ⟨-, hb⟩ | ⟨part, sep, more, -, -, hs, hb⟩
  · rw [hb] at h
    cases h
  · rw [hb] at h
    obtain ⟨-, h⟩ := Prod.mk.inj h
    obtain ⟨rfl, -⟩ := List.cons.inj h
    exact of_cuts hs

namespace OpenQuery

theorem takeAlias_suffix (ts : List Token) : (takeAlias ts).2 <:+ ts := by
  cases ts with
  | nil => exact List.suffix_rfl
  | cons t ts =>
    unfold takeAlias
    dsimp only
    split
    · exact (List.tail_suffix ts).trans (List.suffix_cons t ts)
    · split
      · split
        · exact List.suffix_rfl
        · exact List.suffix_cons _ ts
      · exact List.suffix_rfl

theorem breakTopLevel_suffix (p : Token → Bool) (ts : List Token) :
    (breakTopLevel p ts).2 <:+ ts := ⟨_, breakTopLevel_append p ts⟩

theorem clausesOf_suffix (ts : List Token) : clausesOf ts <:+ ts :=
  (breakTopLevel_suffix _ _).trans <| (takeAlias_suffix _).trans <| (List.drop_suffix 2 _).trans <|
    (breakTopLevel_suffix _ _).trans (List.tail_suffix ts)

/-- A clause that is found is the end of the list, and its number counts the placeholders before
its body. -/
theorem exists_of_findClause? {next : Nat} {body : List Token}
    (h : findClause? k seen clauses = some (next, body)) :
    ∃ before, clauses = before ++ body ∧ next = seen + placeholders before := by
  have happend := breakTopLevel_append (·.is k) clauses
  rw [findClause?] at h
  rcases hb : breakTopLevel (·.is k) clauses with ⟨before, _ | ⟨t, rest⟩⟩
  · rw [hb] at h
    cases h
  · have ht : placeholders [t] = 0 := placeholders_of_is (of_breakTopLevel hb)
    rw [hb] at h happend
    obtain ⟨rfl, hbody⟩ := Prod.mk.inj (Option.some.inj h)
    by_cases hby : rest.head?.any (·.is .by) = true
    · rw [if_pos hby] at hbody
      subst hbody
      cases rest with
      | nil => cases hby
      | cons u rest =>
        have hu : placeholders [u] = 0 := placeholders_of_is hby
        refine ⟨before ++ [t, u], by simpa using happend.symm, ?_⟩
        rw [placeholders_append, placeholders_cons_of ht, hu, Nat.add_zero]
    · rw [if_neg hby] at hbody
      subst hbody
      refine ⟨before ++ [t], by simpa using happend.symm, ?_⟩
      rw [placeholders_append, ht, Nat.add_zero]

theorem map_snd_findClause? (k : Keyword) (seen : Nat) (clauses : List Token) :
    (findClause? k seen clauses).map Prod.snd = (findClause? k 0 clauses).map Prod.snd := by
  rw [findClause?, findClause?]
  rcases breakTopLevel (·.is k) clauses with ⟨before, _ | ⟨t, rest⟩⟩ <;> rfl

/-- A clause of a query as the reader finds it, behind the placeholders before the first clause. -/
def located? (k : Keyword) (ts : List Token) : Option (Nat × List Token) :=
  findClause? k (placeholders ts - placeholders (clausesOf ts)) (clausesOf ts)

/-- The number that a clause is found with is the number of all placeholders before its body. -/
theorem located?_cases (k : Keyword) (ts : List Token) :
    located? k ts = none ∧ fromBody? k ts = none ∨
    ∃ before body, located? k ts = some (placeholders before, body) ∧
      fromBody? k ts = some body ∧ ts = before ++ body := by
  have hbody : (located? k ts).map Prod.snd = fromBody? k ts := map_snd_findClause? k _ _
  obtain ⟨head, hhead⟩ := clausesOf_suffix ts
  have hseen : placeholders ts - placeholders (clausesOf ts) = placeholders head := by
    have hcount := congrArg placeholders hhead
    rw [placeholders_append] at hcount
    omega
  cases hf : located? k ts with
  | none =>
    rw [hf] at hbody
    exact .inl ⟨rfl, hbody.symm⟩
  | some found =>
    obtain ⟨next, body⟩ := found
    obtain ⟨before, hclauses, rfl⟩ := exists_of_findClause? hf
    rw [hf] at hbody
    refine .inr ⟨head ++ before, body, ?_, hbody.symm, ?_⟩
    · rw [placeholders_append, hseen]
    · rw [List.append_assoc, ← hclauses, hhead]

/-- The clauses that a query is read from. -/
theorem clauses_of_ofTokens? {q : OpenQuery} (h : ofTokens? ts = some q) :
    q.clause = (match located? .where ts with
        | some (next, body) => Clause.ofTokens next (bodyOf body)
        | none => .always) ∧
      q.limit = ((located? .limit ts).bind fun c => c.2.head?.bind (·.operand? c.1)) ∧
      q.offset = ((located? .offset ts).bind fun c => c.2.head?.bind (·.operand? c.1)) := by
  unfold ofTokens? at h
  simp only [Option.bind_eq_bind] at h
  split at h
  · cases h
  · obtain ⟨name, hname, h⟩ := Option.bind_eq_some_iff.mp h
    obtain ⟨table, htable, h⟩ := Option.bind_eq_some_iff.mp h
    split at h
    · cases h
    · obtain rfl := Option.some.inj h
      exact ⟨rfl, rfl, rfl⟩

theorem bind_rowCount? (before : List Token) (t : Token) :
    (t.operand? (placeholders before)).bind (·.rowCount? params) = rowsAt params before t := by
  by_cases ht : t = .placeholder
  · subst ht
    rfl
  · rw [operand?_of_ne ht, rowsAt, if_neg ht, Option.bind_map]
    rfl

theorem pagesBy_located? (k : Keyword) (ts : List Token) : PagesBy params k ts
    (((located? k ts).bind fun c => c.2.head?.bind (·.operand? c.1)).bind
      (·.rowCount? params)) := by
  rcases located?_cases k ts with ⟨hf, hb⟩ | ⟨before, body, hf, hb, hts⟩
  · rw [hf]
    refine .absent fun body hbody => ?_
    rw [hb] at hbody
    cases hbody
  · rw [hf]
    cases body with
    | nil =>
      refine .absent fun body hbody => ?_
      rw [hb] at hbody
      exact (Option.some.inj hbody).symm
    | cons t rest =>
      rw [Option.bind_some, List.head?_cons, Option.bind_some, bind_rowCount?]
      exact .given hb hts

theorem queryBinds_of_bind {q : OpenQuery} {mode : Mode} {bound : Query}
    (h : ofTokens? ts = some q) (hb : q.bind mode params = .ok bound) :
    QueryBinds params ts bound := by
  obtain ⟨hclause, hlimit, hoffset⟩ := clauses_of_ofTokens? h
  cases hcs : q.clause.bind mode params with
  | error e =>
    rw [OpenQuery.bind, hcs] at hb
    cases hb
  | ok cs =>
    rw [OpenQuery.bind, hcs] at hb
    obtain rfl := Except.ok.inj hb
    rw [hclause] at hcs
    refine ⟨?_, ?_, ?_⟩
    · rcases located?_cases .where ts with ⟨hf, hbody⟩ | ⟨before, body, hf, hbody, hts⟩
      · rw [hf] at hcs
        obtain rfl := Except.ok.inj hcs
        exact .all hbody
      · rw [hf] at hcs
        exact .clause hbody hts (Clause.compiles_of_bind before (bodyOf body) cs hcs)
    · rw [hlimit]
      exact pagesBy_located? .limit ts
    · rw [hoffset]
      exact pagesBy_located? .offset ts

theorem queryBinds_of_ofText {text : String} {mode : Mode} {q : Query}
    (h : Query.ofText text mode params = .ok (some q)) :
    ∃ tokens, scan? text = some tokens ∧
      QueryBinds params (OpenStatement.trimSemicolons tokens) q := by
  obtain ⟨tokens, o, hscan, hread, hb⟩ := Query.exists_of_ofText h
  exact ⟨tokens, hscan, queryBinds_of_bind hread hb⟩

end OpenQuery

namespace OpenStatement

theorem deleteBinds_of_readsDelete {all : List Token} {table : String} {clause : Clause}
    {mode : Mode} {cs : List Condition} (h : ReadsDelete all (.delete table clause))
    (hb : clause.bind mode params = .ok cs) : DeleteBinds params all cs := by
  cases h with
  | all hall =>
    obtain rfl := Except.ok.inj hb
    rw [hall]
    exact .all
  | @clause d f v w ts hall hd hf hv =>
    have hlead : placeholders [d, f, .word w, v] = 0 := by
      rw [placeholders_cons_of_is hd, placeholders_cons_of_is hf, placeholders_cons_of rfl,
        placeholders_of_is hv]
    rw [← hlead] at hb
    rw [hall]
    exact .clause hv (Clause.compiles_of_bind [d, f, .word w, v] ts cs hb)

end OpenStatement

namespace Statement

theorem deleteBinds_of_ofText {source stamp table : String} {mode : Mode} {cs : List Condition}
    (h : ofText source mode params stamp = .ok (.delete table cs)) :
    ∃ tokens, scan? (Text.collapse source) = some tokens ∧
      DeleteBinds params (OpenStatement.trimSemicolons tokens) cs := by
  obtain ⟨tokens, _, hscan, hr, hb⟩ := exists_of_ofText h
  obtain _ | _ | ⟨_, hb⟩ | _ := hb
  cases hr with
  | insert h => cases h
  | update h => cases h
  | delete h => exact ⟨tokens, hscan, OpenStatement.deleteBinds_of_readsDelete h hb⟩

/-- Whatever else a read or a delete holds, each placeholder of its conditions and of its limit and
offset takes the parameter whose number is the number of placeholders before it in the whole
statement, and a clause takes as many parameters as it holds placeholders. -/
theorem placeholders_take_params (mode : Mode) (params : List Value) :
    (∀ text q, Query.ofText text mode params = .ok (some q) →
      ∃ tokens, scan? text = some tokens ∧
        QueryBinds params (OpenStatement.trimSemicolons tokens) q) ∧
    (∀ source stamp table cs, ofText source mode params stamp = .ok (.delete table cs) →
      ∃ tokens, scan? (Text.collapse source) = some tokens ∧
        DeleteBinds params (OpenStatement.trimSemicolons tokens) cs) ∧
    ∀ clause, Clause.consumed clause = placeholders clause :=
  ⟨fun _ _ => OpenQuery.queryBinds_of_ofText, fun _ _ _ _ => deleteBinds_of_ofText,
    Clause.consumed_eq_placeholders⟩

theorem placeholders_take_params_scattered :
    let params := [.int 0, .int 1, .int 2, .int 3, .int 4, .string "Won"]
    let text :=
      "SELECT ? FROM t JOIN u ON ? LIMIT ? WHERE date(x) = ? AND a OR ? AND b IN ('x', ?) OFFSET ?"
    let q : Query := ⟨.rows, "t", none, [], [⟨"b", .inSet ["x", "Won"]⟩], none, some 2, none⟩
    let delete := "DELETE FROM t WHERE a OR ? AND b = ?"
    let cs : List Condition := [⟨"b", .compare .eq (.int 1)⟩]
    (Query.ofText text .lenient params = .ok (some q) ∧
      ∃ tokens, scan? text = some tokens ∧
        QueryBinds params (OpenStatement.trimSemicolons tokens) q) ∧
    ofText delete .lenient params "" = .ok (.delete "t" cs) ∧
      ∃ tokens, scan? (Text.collapse delete) = some tokens ∧
        DeleteBinds params (OpenStatement.trimSemicolons tokens) cs := by
  intro params text q delete cs
  have hquery : Query.ofText text .lenient params = .ok (some q) := by
    have hscan : scan? text = some [.word "SELECT", .placeholder, .word "FROM", .word "t",
        .word "JOIN", .word "u", .word "ON", .placeholder,
        .word "LIMIT", .placeholder, .word "WHERE", .word "date", .openParen, .word "x",
        .closeParen, .comparison .eq, .placeholder, .word "AND", .word "a", .word "OR",
        .placeholder, .word "AND", .word "b", .word "IN", .openParen, .string "x", .comma,
        .placeholder, .closeParen, .word "OFFSET", .placeholder] := by
      simp only [text]
      cbv
    have hopen : OpenQuery.ofText text = .ok (some ⟨.rows, "t", none, [],
        ⟨[.ignored, .unrecognized [.word "a", .word "OR", .placeholder],
          .condition "b" (.inSet [.literal (.string "x"), .param 5])]⟩,
        none, some (.param 2), some (.param 6)⟩) := by
      rw [OpenQuery.ofText, hscan]
      exact congrArg Except.ok (by decide)
    have hclause : Clause.bind ⟨[.ignored, .unrecognized [.word "a", .word "OR", .placeholder],
        .condition "b" (.inSet [.literal (.string "x"), .param 5])]⟩ .lenient params
      = .ok q.conditions := rfl
    have hlimit : (Operand.param 2).rowCount? params = some 2 := by
      have hparam : params[2]? = some (.int 2) := rfl
      have hrows : Value.rowCount? (.int 2) = some 2 := by decide +kernel
      rw [Operand.rowCount?, hparam, Option.bind_some, hrows]
    rw [Query.ofText_of_read hopen, OpenQuery.bind, hclause, Option.bind_some, hlimit]
    rfl
  have hdelete : ofText delete .lenient params "" = .ok (.delete "t" cs) := by
    have hscan : scan? (Text.collapse delete) = some [.word "DELETE", .word "FROM", .word "t",
        .word "WHERE", .word "a", .word "OR", .placeholder, .word "AND", .word "b",
        .comparison .eq, .placeholder] := by
      simp only [delete]
      cbv
    rw [ofText, OpenStatement.ofText_of_scan hscan]
    rfl
  obtain ⟨hqueries, hdeletes, _⟩ := placeholders_take_params .lenient params
  exact ⟨⟨hquery, hqueries text q hquery⟩, hdelete, hdeletes delete "" "t" cs hdelete⟩

end Statement
end ClientRecords
