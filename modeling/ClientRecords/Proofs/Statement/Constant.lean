import ClientRecords.Proofs.Condition.Conjunction
import ClientRecords.Proofs.Condition.Positions
import ClientRecords.Proofs.Statement.Selection
/-!
Comparisons of two spelled out values behind a clause. One that holds asks nothing. One that does
not hold is no part that the reader knows: strict mode refuses it, and lenient mode leaves it out,
so it keeps no row from a statement (`constant_beside_clause`).
-/

namespace ClientRecords

open Token

/-- Does a comparison of two values by their loose texts hold? Only (in)equality goes by texts. -/
def Comparison.holdsTexts : Comparison → Value → Value → Bool
  | .eq, a, b => a.text == b.text
  | .ne, a, b => a.text != b.text
  | _, _, _ => false

/-- The comparison of two spelled out values. -/
def constantTokens (l : Token) (op : Comparison) (r : Token) : List Token := [l, .comparison op, r]

variable {mode : Mode} {params : List Value} {l r sep : Token} {a b : Value} {op : Comparison}
  {as ts : List Token} {start : Nat}

/-! ### The comparison -/

/-- A comparison of two values names no field. -/
theorem Fragment.ofTokens_constantTokens (next : Nat) (hl : l.literal? = some a)
    (hr : r.literal? = some b) : ofTokens next (constantTokens l op r) =
      if op.holdsTexts a b then .ignored else .unrecognized (constantTokens l op r) := by
  have hdate : callsDate (constantTokens l op r) = false := by
    refine callsDate_cons fun u hu => ?_
    rintro rfl
    simp only [List.mem_cons, List.not_mem_nil, or_false] at hu
    rcases hu with hu | rfl
    · cases hu
    · cases hr
  have hfield : (constantTokens l op r).head?.bind Token.field? = none := by
    cases l with
    | word w => simp [constantTokens, field?, hl]
    | _ => rfl
  have hholds : holdsAlways (constantTokens l op r) = op.holdsTexts a b := by
    rw [constantTokens, holdsAlways, hl, hr]
    cases op <;> rfl
  rw [ofTokens, hdate, hfield, hholds]
  rfl

theorem closed_constantTokens {k : Keyword} (hk : k ∉ [Keyword.null, .true, .false])
    (hl : l.literal? = some a) (hr : r.literal? = some b) :
    Closed (·.is k) (constantTokens l op r) := by
  have hparen : ∀ {t : Token} {v : Value}, t.literal? = some v → t.isParen = false := by
    intro t v ht
    cases t with
    | openParen | closeParen => cases ht
    | _ => rfl
  exact .cons (hparen hl) (not_is_of_literal? hl hk)
    (.cons rfl rfl (.cons (hparen hr) (not_is_of_literal? hr hk) .nil))

namespace Clause

theorem fragments_constantTokens (hl : l.literal? = some a) (hr : r.literal? = some b) :
    (ofTokens start (constantTokens l op r)).fragments =
      [if op.holdsTexts a b then .ignored else .unrecognized (constantTokens l op r)] := by
  have hclosed : Closed (·.is .and) (constantTokens l op r) :=
    closed_constantTokens (by decide) hl hr
  have hparts : parts (constantTokens l op r) = [constantTokens l op r] :=
    splitFrom_of_uncut hclosed.uncut
  rw [ofTokens, hparts, readParts, readParts, Fragment.ofTokens_constantTokens _ hl hr]

/-- Behind a clause the comparison changes nothing, except that strict mode refuses one that does
not hold. -/
theorem bind_constant (hs : sep.is .and = true) (hne : as ≠ []) (hd : depthOver 0 as = 0)
    (hl : l.literal? = some a) (hr : r.literal? = some b) :
    (ofTokens start (as ++ sep :: constantTokens l op r)).bind mode params =
      if mode = .lenient ∨ op.holdsTexts a b = true then (ofTokens start as).bind mode params
      else ((ofTokens start as).bind mode params).bind fun _ =>
        .error (.unsupportedFragment (constantTokens l op r)) := by
  have hid : ∀ x : Except StoreError (List Condition),
      (x.bind fun cs => .ok (cs ++ [])) = x := by
    rintro (e | cs)
    · rfl
    · exact congrArg Except.ok (List.append_nil cs)
  have hconstant : constantTokens l op r ≠ [] := List.cons_ne_nil _ _
  rw [bind, fragments_append start hs hne hconstant hd, bindFragments_append,
    fragments_constantTokens hl hr]
  -- what the comparison adds: nothing, or in strict mode the refusal if it does not hold
  cases op.holdsTexts a b <;> cases mode
  · exact hid _
  · rfl
  · exact hid _
  · exact hid _

end Clause

/-! ### The sign at the start -/

namespace Token

theorem parted_append (hne : ts ≠ []) (us : List Token) : parted (ts ++ us) = parted ts ++ us := by
  obtain ⟨t, ts, rfl⟩ := List.exists_cons_of_ne_nil hne
  cases t with
  | number n =>
    rw [List.cons_append, parted, parted]
    split <;> rfl
  | _ => rfl

theorem parted_ne_nil (hne : ts ≠ []) : parted ts ≠ [] := by
  obtain he | ⟨ds, us, -, he⟩ := parted_cases ts
  · rwa [he]
  · exact he ▸ List.cons_ne_nil _ _

theorem depthOver_parted (depth : Nat) (ts : List Token) :
    depthOver depth (parted ts) = depthOver depth ts := by
  obtain he | ⟨ds, us, rfl, he⟩ := parted_cases ts
  · rw [he]
  · rw [he]
    rfl

/-- The token behind the sign is a number, so the last token stays one or stays what it is. -/
theorem getLast?_parted (h : ts.getLast? ≠ some .semicolon) :
    (parted ts).getLast? ≠ some .semicolon := by
  obtain he | ⟨ds, us, rfl, he⟩ := parted_cases ts
  · rwa [he]
  · rw [he]
    cases us with
    | nil => exact nofun
    | cons u us => exact h

end Token

/-! ### The statements -/

namespace OpenQuery

theorem Alone.append_constant (h : Alone as) (hs : sep.is .and = true) (hne : as ≠ [])
    (hd : depthOver 0 as = 0) (hl : l.literal? = some a) (hr : r.literal? = some b) :
    Alone (as ++ sep :: constantTokens l op r) := by
  have hconstant : Closed isClauseKeyword (constantTokens l op r) := by
    have hkeyword : ∀ k ∈ clauseKeywords, Closed (·.is k) (constantTokens l op r) := fun k hk =>
      closed_constantTokens (by revert hk; cases k <;> decide) hl hr
    exact .isAny (hkeyword .where (by decide)).level hkeyword
  have hsep : isClauseKeyword sep = false :=
    isAny_eq_false.mpr fun k hk => (is_of_is hs k).trans (by revert hk; cases k <;> decide)
  have hbehind : Closed isClauseKeyword (sep :: constantTokens l op r) := by
    obtain ⟨w, rfl⟩ : ∃ w, sep = .word w := by
      cases sep with
      | word w => exact ⟨w, rfl⟩
      | _ => cases hs
    exact hconstant.cons rfl hsep
  refine ⟨findFrom_append_eq_none_iff.mpr ⟨h.uncut, ?_⟩, ?_⟩
  · rw [hd]
    exact hbehind.uncut
  · cases as with
    | nil => exact absurd rfl hne
    | cons t as => exact h.start

end OpenQuery

namespace Statement

/-- The clause that a statement takes from its text has no semicolon at its end, with the comparison
or without. -/
theorem execute_append_constant {clause whole : String} (d : Document) (t : Table) (now : String)
    (u : Use) (params : List Value) (hs : sep.is .and = true) (hne : as ≠ [])
    (hd : depthOver 0 as = 0) (hl : l.literal? = some a) (hr : r.literal? = some b)
    (hc : Text.collapse clause = clause) (hcs : scan? clause = some as)
    (hw : Text.collapse whole = whole)
    (hws : scan? whole = some (as ++ sep :: constantTokens l op r)) (halone : OpenQuery.Alone as)
    (hlast : as.getLast? ≠ some .semicolon) :
    d.execute .lenient now (u.statement t whole) params =
      d.execute .lenient now (u.statement t clause) params := by
  have hshorter : OpenStatement.trimSemicolons (parted as) = parted as :=
    OpenStatement.trimSemicolons_of_getLast? (getLast?_parted hlast)
  have hlonger : OpenStatement.trimSemicolons (parted (as ++ sep :: constantTokens l op r)) =
      parted as ++ sep :: constantTokens l op r := by
    have hend : (parted as ++ sep :: constantTokens l op r).getLast? = some r := by
      simp [constantTokens]
    rw [parted_append hne]
    refine OpenStatement.trimSemicolons_of_getLast? (hend ▸ ?_)
    rintro ⟨rfl⟩
    cases hr
  have hdepth : depthOver 0 (parted as) = 0 := by rw [depthOver_parted, hd]
  rw [Use.execute_statement d t .lenient now params hc hcs halone u,
    Use.execute_statement d t .lenient now params hw hws (halone.append_constant hs hne hd hl hr) u,
    hshorter, hlonger, Clause.bind_constant hs (parted_ne_nil hne) hdepth hl hr,
    if_pos (.inl rfl)]

/-- A comparison of two spelled out values behind a clause, `AND` standing between them. In lenient
mode the clause binds as it does without the comparison, and so a query, a count, a removal and an
update do what they do without it, whether it holds or not. In strict mode this is so if it holds,
and if it does not hold the clause is refused. -/
theorem constant_beside_clause (hs : sep.is .and = true) (hne : as ≠ []) (hd : depthOver 0 as = 0)
    (hl : l.literal? = some a) (hr : r.literal? = some b) (op : Comparison) (params : List Value) :
    (∀ start, (Clause.ofTokens start (as ++ sep :: constantTokens l op r)).bind .lenient params =
      (Clause.ofTokens start as).bind .lenient params) ∧
    (∀ (d : Document) (t : Table) (now clause whole : String) (u : Use),
      Text.collapse clause = clause → scan? clause = some as →
      Text.collapse whole = whole → scan? whole = some (as ++ sep :: constantTokens l op r) →
      OpenQuery.Alone as → as.getLast? ≠ some .semicolon →
      d.execute .lenient now (u.statement t whole) params =
        d.execute .lenient now (u.statement t clause) params) ∧
    ∀ start, (Clause.ofTokens start (as ++ sep :: constantTokens l op r)).bind .strict params =
      if op.holdsTexts a b then (Clause.ofTokens start as).bind .strict params
      else ((Clause.ofTokens start as).bind .strict params).bind fun _ =>
        .error (.unsupportedFragment (constantTokens l op r)) := by
  refine ⟨fun start => ?_, ?_, fun start => ?_⟩
  · rw [Clause.bind_constant hs hne hd hl hr, if_pos (.inl rfl)]
  · intro d t now clause whole u hc hcs hw hws halone hlast
    exact execute_append_constant d t now u params hs hne hd hl hr hc hcs hw hws halone hlast
  · rw [Clause.bind_constant hs hne hd hl hr]
    simp

/-- The comparison does not hold, and the lead is listed as it is without the comparison. -/
theorem ann_beside_one_is_two :
    let d := Document.new.setRows .leads [Record.ofFields [("name", .string "Ann")]]
    let as : List Token := [.word "name", .comparison .eq, .placeholder]
    Token.is .and (.word "AND") = true ∧ as ≠ [] ∧ depthOver 0 as = 0 ∧
      (Token.number "1").literal? = some (.int 1) ∧ (Token.number "2").literal? = some (.int 2) ∧
      d.execute .lenient "2024-05-01" (Use.list.statement .leads "name = ? AND 1 = 2")
          [.string "Ann"] =
        d.execute .lenient "2024-05-01" (Use.list.statement .leads "name = ?") [.string "Ann"] := by
  intro d as
  have hs : Token.is .and (.word "AND") = true := by decide
  have hne : as ≠ [] := List.cons_ne_nil _ _
  have hd : depthOver 0 as = 0 := by decide
  have hl : (Token.number "1").literal? = some (.int 1) := by decide
  have hr : (Token.number "2").literal? = some (.int 2) := by decide
  have hclause : scan? "name = ?" = some as := by decide +kernel
  have hwhole : scan? "name = ? AND 1 = 2"
      = some (as ++ .word "AND" :: constantTokens (.number "1") .eq (.number "2")) := by
    decide +kernel
  have hall := (constant_beside_clause hs hne hd hl hr .eq [.string "Ann"]).2.1
  exact ⟨hs, hne, hd, hl, hr, hall d .leads "2024-05-01" _ _ .list (by decide) hclause (by decide)
    hwhole ⟨by decide, by decide⟩ (by decide)⟩

/-- The comparison does not hold, and the lead is removed all the same. Every part of the clause
before it is recognised. -/
theorem one_is_two_removes_ann :
    let d := Document.new.setRows .leads [Record.ofFields [("name", .string "Ann")]]
    let as : List Token := [.word "name", .comparison .eq, .placeholder]
    let source := "DELETE FROM leads WHERE name = ? AND 1 = 2"
    (Clause.ofTokens 0 as).fragments = [.condition "name" (.compare .eq (.param 0))] ∧
      scan? source = some (Use.remove.tokens .leads ++
        (as ++ .word "AND" :: constantTokens (.number "1") .eq (.number "2"))) ∧
      Comparison.eq.holdsTexts (.int 1) (.int 2) = false ∧
      d.execute .lenient "2024-05-01" source [.string "Ann"] =
        .ok ⟨[], some (d.setRows .leads [])⟩ ∧ d.rowsOf .leads ≠ [] := by
  intro d as source
  have hs : source = Use.remove.statement .leads "name = ? AND 1 = 2" := by decide
  have hscan : scan? "name = ? AND 1 = 2"
      = some (as ++ .word "AND" :: constantTokens (.number "1") .eq (.number "2")) := by
    decide +kernel
  refine ⟨by decide +kernel, by decide +kernel, by decide, ?_, by decide⟩
  rw [hs, Use.execute_remove d .leads .lenient "2024-05-01" _ (by decide) hscan]
  rfl

end Statement
end ClientRecords
