import ClientRecords.Proofs.Query.Rows
import ClientRecords.Proofs.Statement.Selection
/-!
Names in quotes. The scanner makes one kind of token of bare words and of names in quotes, so a
quoted name that is spelled like a keyword is taken for the keyword wherever one is looked for. In a
clause that compares a quoted name with a parameter, four words take the condition away, and five
more hide it from a query. Under every other name both statements go by the field
(`quoted_name_iff`).
-/

namespace ClientRecords

open Token

namespace Statement

/-- Does the field of a row have the text of a value? A missing field has the empty text. -/
def hasTextOf (x : String) (v : Value) (r : Record) : Bool :=
  (r.get? x).elim "" Value.text == v.text

/-- The clause that compares a name in quotes with a parameter. -/
def byQuoted (x : String) : String := "\"" ++ x ++ "\" = ?"

/-- A removal by the quoted name takes out exactly the rows whose field has the text. -/
def RemovesBy (x : String) : Prop :=
  ∀ (d : Document) (t : Table) (v : Value) (now : String),
    d.execute .lenient now (Use.remove.statement t (byQuoted x)) [v] =
      .ok ⟨[], some (d.setRows t ((d.rowsOf t).filter (!hasTextOf x v ·)))⟩

/-- A query by the quoted name lists exactly the rows whose field has the text. -/
def ListsBy (x : String) : Prop :=
  ∀ (d : Document) (t : Table) (v : Value) (now : String),
    d.execute .lenient now (Use.list.statement t (byQuoted x)) [v] =
      .ok ⟨(d.rowsOf t).filter (hasTextOf x v), none⟩

/-- The words that are no field of a condition. -/
def conditionWords : List Keyword := [.and, .null, .true, .false]

/-- The words that a query looks for at the end of a clause, and behind the word that opens it. -/
def clauseWords : List Keyword := .by :: OpenQuery.clauseKeywords

/-! ### The tokens -/

/-- The tokens of the clause. -/
def quotedTokens (x : String) : List Token := [.word x, .comparison .eq, .placeholder]

section

variable {x : String}

theorem toList_byQuoted (x : String) :
    (byQuoted x).toList = ('"' :: (x.toList ++ ['"'])) ++ ' ' :: ['=', ' ', '?'] := by
  simp [byQuoted]

theorem collapse_byQuoted (hx : Text.isTidy x.toList = true) :
    Text.collapse (byQuoted x) = byQuoted x := by
  refine Text.collapse_of_isNeat ?_
  rw [toList_byQuoted]
  have hquoted := Text.IsNeat.between (c := '"') (by decide) hx
  exact hquoted.spaced ⟨by decide, ⟨'=', rfl, by decide⟩, ⟨'?', rfl, by decide⟩⟩

theorem scan?_byQuoted (hx : '"' ∉ x.toList) : scan? (byQuoted x) = some (quotedTokens x) := by
  have hrest : scanFrom false [' ', '=', ' ', '?'] = some [.comparison .eq, .placeholder] := by
    decide +kernel
  have htake : take? true ('"' :: (x.toList ++ '"' :: [' ', '=', ' ', '?'])) =
      some (.word x, [' ', '=', ' ', '?']) := by
    rw [take?, takeQuoted_eq_some_iff.mpr ⟨rfl, hx⟩]
    exact congrArg (fun w => some (Token.word w, _)) String.ofList_toList
  rw [scan?, toList_byQuoted, List.cons_append, List.append_assoc, List.singleton_append,
    scanFrom_of_take (skip_of_not_separator (by decide) (by simp)) htake]
  exact congrArg _ hrest

/-- A removal reads the clause as it stands. -/
theorem execute_remove_byQuoted (hq : '"' ∉ x.toList) (hx : Text.isTidy x.toList = true)
    (d : Document) (t : Table) (now : String) (params : List Value) :
    d.execute .lenient now (Use.remove.statement t (byQuoted x)) params =
      match (Clause.ofTokens 0 (quotedTokens x)).bind .lenient params with
      | .error e => .error (.refused e)
      | .ok cs => .ok (Use.remove.outcome d t now cs) := by
  have htrim : OpenStatement.trimSemicolons (parted (quotedTokens x)) = quotedTokens x := rfl
  have hremove := Use.execute_remove d t .lenient now params (collapse_byQuoted hx)
    (scan?_byQuoted hq)
  rwa [htrim] at hremove

/-! ### The condition -/

theorem literal?_word_isNone (x : String) : (Token.word x).literal?.isNone =
    !(Token.word x).isAny [.null, .true, .false] := by
  have hword : (Token.word x).literal? = if (Token.word x).is .null then some .null
      else if (Token.word x).is .true then some (.bool true)
      else if (Token.word x).is .false then some (.bool false) else none := rfl
  rw [hword]
  cases hnull : (Token.word x).is .null <;> cases htrue : (Token.word x).is .true <;>
    cases hfalse : (Token.word x).is .false <;> simp [isAny, hnull, htrue, hfalse]

/-- A name without a point is its own field, unless it is a value. -/
theorem field?_word (hp : '.' ∉ x.toList) : (Token.word x).field? =
    if (Token.word x).isAny [.null, .true, .false] then none else some x := by
  have hbare : bareField x = x :=
    (bareField_of_append (List.nil_append _).symm hp (.inl rfl)).trans String.ofList_toList
  rw [field?, literal?_word_isNone, hbare]
  cases (Token.word x).isAny [.null, .true, .false] <;> rfl

/-- A fragment with the name at its start compares the field that the name is read as, if any. -/
theorem fragment_quotedTokens (x : String) : Fragment.ofTokens 0 (quotedTokens x) =
    match (Token.word x).field? with
    | some field => .condition field (.compare .eq (.param 0))
    | none => if Fragment.holdsAlways (quotedTokens x) then .ignored
      else .unrecognized (quotedTokens x) := rfl

/-- In front of an `AND` of its own the name stands in no part, and a value names no field. -/
theorem ofTokens_quotedTokens (hp : '.' ∉ x.toList) : Clause.ofTokens 0 (quotedTokens x) =
    if (Token.word x).is .and then
      ⟨[.unrecognized [], .unrecognized [.comparison .eq, .placeholder]]⟩
    else if (Token.word x).isAny [.null, .true, .false] then ⟨[.unrecognized (quotedTokens x)]⟩
    else ⟨[.condition x (.compare .eq (.param 0))]⟩ := by
  cases hand : (Token.word x).is .and with
  | true =>
    have hparts : Clause.parts (quotedTokens x) = [[], [.comparison .eq, .placeholder]] := by
      have hcut : cuts (·.is .and) 0 (.word x) = true := hand
      rw [Clause.parts, if_neg (by simp [quotedTokens]), quotedTokens, splitTopLevel, splitFrom,
        if_pos hcut]
      rfl
    rw [Clause.ofTokens, hparts]
    rfl
  | false =>
    have hparts : Clause.parts (quotedTokens x) = [quotedTokens x] := by
      have hcut : ¬cuts (·.is .and) 0 (.word x) = true := Bool.eq_false_iff.mp hand
      rw [Clause.parts, if_neg (by simp [quotedTokens]), quotedTokens, splitTopLevel, splitFrom,
        if_neg hcut]
      rfl
    rw [Clause.ofTokens, hparts, if_neg (by simp)]
    have hnever : Fragment.holdsAlways (quotedTokens x) = false := by
      have hparam : Token.placeholder.literal? = none := rfl
      rw [quotedTokens, Fragment.holdsAlways, hparam]
      cases (Token.word x).literal? <;> rfl
    rw [Clause.readParts, Clause.readParts, fragment_quotedTokens, field?_word hp, hnever]
    cases (Token.word x).isAny [.null, .true, .false] <;> rfl

theorem bind_quotedTokens (hp : '.' ∉ x.toList) (v : Value) :
    (Clause.ofTokens 0 (quotedTokens x)).bind .lenient [v] =
      .ok (if (Token.word x).isAny conditionWords then [] else [⟨x, .compare .eq v⟩]) := by
  have hany : (Token.word x).isAny conditionWords =
      ((Token.word x).is .and || (Token.word x).isAny [.null, .true, .false]) := rfl
  rw [ofTokens_quotedTokens hp, hany]
  cases (Token.word x).is .and <;> cases (Token.word x).isAny [.null, .true, .false] <;> rfl

/-! ### The query -/

theorem alone_quotedTokens (h : (Token.word x).isAny clauseWords = false) :
    OpenQuery.Alone (quotedTokens x) := by
  obtain ⟨hby, hclause⟩ := Bool.or_eq_false_iff.mp (h : (_ || _) = false)
  refine ⟨?_, hby⟩
  refine findFrom_cons_eq_none_iff.mpr ⟨?_, rfl⟩
  exact hclause

/-- The tokens behind the name. -/
def quotedRest : List Token := [.comparison .eq, .placeholder]

theorem findClause?_quotedTokens {j : Keyword} (hj : Token.is j (.word "WHERE") = false) :
    OpenQuery.findClause? j 0 (.word "WHERE" :: quotedTokens x) =
      if (Token.word x).is j then some (0, quotedRest) else none := by
  have hwhere : ¬cuts (·.is j) 0 (.word "WHERE") = true := by simp [cuts, hj]
  have hname : cuts (·.is j) (depthAfter 0 (.word "WHERE")) (.word x) = (Token.word x).is j := rfl
  have hfind : findTopLevel (·.is j) (.word "WHERE" :: quotedTokens x) =
      if (Token.word x).is j then some 1 else none := by
    rw [findTopLevel, findFrom, if_neg hwhere, quotedTokens, findFrom, hname]
    cases (Token.word x).is j <;> rfl
  rw [OpenQuery.findClause?, breakTopLevel, hfind]
  cases (Token.word x).is j <;> rfl

theorem bodyOf_quotedTokens (h : OpenQuery.isClauseKeyword (.word x) = true) :
    OpenQuery.bodyOf (quotedTokens x) = [] := by
  have hcut : cuts OpenQuery.isClauseKeyword 0 (.word x) = true := h
  have hfind : findTopLevel OpenQuery.isClauseKeyword (quotedTokens x) = some 0 := if_pos hcut
  rw [OpenQuery.bodyOf, breakTopLevel, hfind]
  rfl

/-- A query takes such a word for the start of another clause, or skips it, and asks for nothing. -/
theorem ofTokens?_of_clauseWord (h : (Token.word x).isAny clauseWords = true) (t : Table) :
    ∃ c orderBy, OpenQuery.ofTokens? (Use.list.tokens t ++ quotedTokens x) =
        some ⟨.rows, t.name, none, [], c, orderBy, none, none⟩ ∧
      ∀ params, c.bind .lenient params = .ok [] := by
  have hname : (Token.word t.name).isAny OpenQuery.reserved = false ∧
      Text.lowercase t.name = t.name := by
    cases t <;> decide
  let source : List Token := .word "FROM" :: .word t.name :: .word "WHERE" :: quotedTokens x
  have hselect : (Token.word "SELECT").is .select = true := by decide
  have hfrom : breakTopLevel (·.is .from) ([.star] ++ source) = ([.star], source) :=
    breakTopLevel_append_cons (.cons rfl rfl .nil) rfl
  have hclauses : breakTopLevel OpenQuery.isClauseKeyword (.word "WHERE" :: quotedTokens x) =
      ([], .word "WHERE" :: quotedTokens x) := rfl
  have hseen : placeholders (.word "SELECT" :: ([.star] ++ source)) -
      placeholders (.word "WHERE" :: quotedTokens x) = 0 := by
    simp [source, placeholders]
  have hread : OpenQuery.ofTokens? (Use.list.tokens t ++ quotedTokens x) =
      some (OpenQuery.ofParts [.star] t.name none [] 0 (.word "WHERE" :: quotedTokens x)) := by
    rw [← hseen]
    exact OpenQuery.ofTokens?_of_parts hselect hfrom hname.1 rfl hclauses
  have hwhere : OpenQuery.findClause? .where 0 (.word "WHERE" :: quotedTokens x) =
      some (0, if (Token.word x).is .by then quotedRest else quotedTokens x) := by
    rw [OpenQuery.findClause?]
    rfl
  let body := if (Token.word x).is .by then quotedRest else quotedTokens x
  refine ⟨Clause.ofTokens 0 (OpenQuery.bodyOf body),
    (OpenQuery.findClause? .order 0 (.word "WHERE" :: quotedTokens x)).bind
      fun found => OpenQuery.sortKey? (OpenQuery.bodyOf found.2), ?_, ?_⟩
  · rw [hread, OpenQuery.ofParts, hwhere, hname.2, findClause?_quotedTokens (j := .limit) rfl,
      findClause?_quotedTokens (j := .offset) rfl]
    cases (Token.word x).is .limit <;> cases (Token.word x).is .offset <;> rfl
  · intro params
    cases hby : (Token.word x).is .by with
    | true =>
      simp only [body, hby, if_true]
      rfl
    | false =>
      have hclause : OpenQuery.isClauseKeyword (.word x) = true :=
        (Bool.or_eq_true_iff.mp (h : (_ || _) = true)).resolve_left (by simp [hby])
      simp only [body, hby, Bool.false_eq_true, if_false, bodyOf_quotedTokens hclause]
      rfl

/-! ### The rows -/

theorem satisfies_byName (x : String) (v : Value) (r : Record) :
    r.satisfies [⟨x, .compare .eq v⟩] = hasTextOf x v r := by
  simp [Record.satisfies, Condition.holds, Check.passes, Comparison.holds, hasTextOf]

theorem removesBy_of_isAny_eq_false (hq : '"' ∉ x.toList) (hp : '.' ∉ x.toList)
    (hx : Text.isTidy x.toList = true) (h : (Token.word x).isAny conditionWords = false) :
    RemovesBy x := by
  intro d t v now
  rw [execute_remove_byQuoted hq hx, bind_quotedTokens hp, h]
  simp only [Bool.false_eq_true, if_false, Use.outcome, Document.delete, satisfies_byName]

theorem execute_list_byQuoted (hq : '"' ∉ x.toList) (hp : '.' ∉ x.toList)
    (hx : Text.isTidy x.toList = true) (h : (Token.word x).isAny clauseWords = false)
    (d : Document) (t : Table) (v : Value) (now : String) :
    d.execute .lenient now (Use.list.statement t (byQuoted x)) [v] =
      .ok (Use.list.outcome d t now
        (if (Token.word x).isAny conditionWords then [] else [⟨x, .compare .eq v⟩])) := by
  have hall := Use.execute_statement d t .lenient now [v] (collapse_byQuoted hx)
    (scan?_byQuoted hq) (alone_quotedTokens h) .list
  have htrim : OpenStatement.trimSemicolons (parted (quotedTokens x)) = quotedTokens x := rfl
  rw [hall, htrim, bind_quotedTokens hp]

theorem listsBy_of_isAny_eq_false (hq : '"' ∉ x.toList) (hp : '.' ∉ x.toList)
    (hx : Text.isTidy x.toList = true) (h : (Token.word x).isAny conditionWords = false)
    (hc : (Token.word x).isAny clauseWords = false) : ListsBy x := by
  intro d t v now
  rw [execute_list_byQuoted hq hp hx hc, h]
  simp only [Bool.false_eq_true, if_false, Use.outcome, satisfies_byName]

/-! ### The words that are no names -/

/-- A document with one lead, which has no fields. -/
def lone : Document := Document.new.setRows .leads [Record.ofFields []]

theorem not_removesBy (hq : '"' ∉ x.toList) (hp : '.' ∉ x.toList)
    (hx : Text.isTidy x.toList = true) (h : (Token.word x).isAny conditionWords = true) :
    ¬RemovesBy x := by
  intro hall
  have hlone := hall lone .leads (.string "a") ""
  rw [execute_remove_byQuoted hq hx, bind_quotedTokens hp, h] at hlone
  have hwritten : lone.delete .leads [] = lone.setRows .leads
      ((lone.rowsOf .leads).filter (!hasTextOf x (.string "a") ·)) :=
    Option.some.inj (congrArg Outcome.written (Except.ok.inj hlone))
  have hlead : lone.rowsOf .leads = [Record.ofFields []] := Document.new.rowsOf_setRows .leads _
  have hrows := congrArg (·.rowsOf .leads) hwritten
  simp only [Document.delete, Document.rowsOf_setRows, hlead] at hrows
  cases hrows

/-- A query that asks for nothing lists the lead. -/
theorem not_listsBy_of_execute (now : String)
    (h : lone.execute .lenient now (Use.list.statement .leads (byQuoted x)) [.string "a"] =
      .ok ⟨[Record.ofFields []], none⟩) : ¬ListsBy x := by
  intro hall
  have hlisted := congrArg (Except.map Outcome.rows)
    ((hall lone .leads (.string "a") now).symm.trans h)
  cases hlisted

theorem not_listsBy (hq : '"' ∉ x.toList) (hp : '.' ∉ x.toList)
    (hx : Text.isTidy x.toList = true)
    (h : (Token.word x).isAny (conditionWords ++ clauseWords) = true) : ¬ListsBy x := by
  refine not_listsBy_of_execute "" ?_
  cases hc : (Token.word x).isAny clauseWords with
  | false =>
    have hcondition : (Token.word x).isAny conditionWords = true := by
      rw [isAny, List.any_append, Bool.or_eq_true] at h
      exact h.resolve_right (Bool.eq_false_iff.mp hc)
    rw [execute_list_byQuoted hq hp hx hc, hcondition]
    rfl
  | true =>
    obtain ⟨c, orderBy, hread, hbind⟩ := ofTokens?_of_clauseWord hc .leads
    have hscan : scan? (Text.collapse (Use.list.statement .leads (byQuoted x))) =
        some (Use.list.tokens .leads ++ quotedTokens x) := by
      rw [Use.scan?_statement .leads .list (collapse_byQuoted hx), scan?_byQuoted hq]
      rfl
    have htrim : OpenStatement.trimSemicolons (Use.list.tokens .leads ++ quotedTokens x) =
        Use.list.tokens .leads ++ quotedTokens x := Use.trimSemicolons_tokens .leads .list _
    rw [← htrim] at hread
    have hquery : Query.ofText (Text.collapse (Use.list.statement .leads (byQuoted x))) .lenient
        [.string "a"] = .ok (some ⟨.rows, "leads", none, [], [], orderBy, none, none⟩) := by
      rw [Query.ofText_of_scan hscan hread, OpenQuery.bind, hbind]
      rfl
    have hrows : Query.rows lone ⟨.rows, "leads", none, [], [], orderBy, none, none⟩ "" =
        .ok [Record.ofFields []] := by
      have hlead : lone.rows "leads" = [Record.ofFields []] :=
        (lone.rows_name .leads).trans (Document.new.rowsOf_setRows .leads _)
      have hlisted : Query.listed lone ⟨.rows, "leads", none, [], [], orderBy, none, none⟩ =
          [Record.ofFields []] := by
        rw [Query.listed, hlead]
        rfl
      rw [Query.rows, Query.plainRows?_eq, hlisted]
      cases orderBy <;> rfl
    rw [Document.execute_of_query hquery, hrows]

/-- The scanner takes a name in quotes for a bare word. A removal by a quoted name goes by the field
exactly if the name is not spelled like `AND` or one of the values `NULL`, `TRUE` and `FALSE`, and a
query exactly if it is not spelled like `BY` or a word that opens a clause either. -/
theorem quoted_name_iff (hq : '"' ∉ x.toList) (hp : '.' ∉ x.toList)
    (hx : Text.isTidy x.toList = true) :
    (RemovesBy x ↔ (Token.word x).isAny conditionWords = false) ∧
      (ListsBy x ↔ (Token.word x).isAny (conditionWords ++ clauseWords) = false) := by
  refine ⟨⟨fun hall => ?_, removesBy_of_isAny_eq_false hq hp hx⟩, ⟨fun hall => ?_, fun h => ?_⟩⟩
  · exact Bool.eq_false_iff.mpr fun h => not_removesBy hq hp hx h hall
  · exact Bool.eq_false_iff.mpr fun h => not_listsBy hq hp hx h hall
  · rw [isAny, List.any_append, Bool.or_eq_false_iff] at h
    exact listsBy_of_isAny_eq_false hq hp hx h.1 h.2

end

/-- A name of two words goes by its field in both statements. -/
theorem quoted_first_name : '"' ∉ "first name".toList ∧ '.' ∉ "first name".toList ∧
    Text.isTidy "first name".toList = true ∧ RemovesBy "first name" ∧ ListsBy "first name" := by
  have hq : '"' ∉ "first name".toList := by decide
  have hp : '.' ∉ "first name".toList := by decide
  have hx : Text.isTidy "first name".toList = true := by decide
  have hboth := quoted_name_iff hq hp hx
  exact ⟨hq, hp, hx, hboth.1.mpr (by decide), hboth.2.mpr (by decide)⟩

/-- The name `and` is taken for the word between two conditions: every lead is removed, and not only
the one whose field has the text. -/
theorem quoted_and_removes_all :
    let rows := [Record.ofFields [("id", .string "l1"), ("and", .string "x")],
      Record.ofFields [("id", .string "l2"), ("and", .string "y")]]
    let d := Document.new.setRows .leads rows
    d.execute .lenient "2024-05-01" "DELETE FROM leads WHERE \"and\" = ?" [.string "x"] =
        .ok ⟨[], some (d.setRows .leads [])⟩ ∧
      (d.rowsOf .leads).filter (!hasTextOf "and" (.string "x") ·) ≠ [] ∧ ¬RemovesBy "and" := by
  intro rows d
  have hq : '"' ∉ "and".toList := by decide
  have hp : '.' ∉ "and".toList := by decide
  have hx : Text.isTidy "and".toList = true := by decide
  have hother : rows.filter (!hasTextOf "and" (.string "x") ·) ≠ [] := by decide
  refine ⟨?_, by rwa [Document.rowsOf_setRows], not_removesBy hq hp hx (by decide)⟩
  have htext : "DELETE FROM leads WHERE \"and\" = ?" =
      Use.remove.statement .leads (byQuoted "and") := by decide
  have hand : (Token.word "and").isAny conditionWords = true := by decide
  rw [htext, execute_remove_byQuoted hq hx, bind_quotedTokens hp, hand, ← Document.delete_nil]
  rfl

end Statement
end ClientRecords
