import ClientRecords.Proofs.Query.Conditions
import ClientRecords.Proofs.Statement.Quoted
/-!
Removals by a set of parameters. A list of one parameter or more is read item by item, and a row
goes by the texts of all of them. Between the parentheses of an empty list there is one item without
a token, which is no value: the clause is not recognised, so a removal of the rows in the set takes
out every row (`removes_by_set_iff`).
-/

namespace ClientRecords

open Token

namespace Statement

/-- The rows that a set is written for: those with their field in it, or those without. -/
inductive Side where
  | inside
  | outside
  deriving DecidableEq

namespace Side

/-- The words before the set. -/
def words : Side → String
  | .inside => " IN "
  | .outside => " NOT IN "

def tokens : Side → List Token
  | .inside => [.word "IN"]
  | .outside => [.word "NOT", .word "IN"]

/-- The clause that looks for a field on one side of a set of parameters. -/
def clause (s : Side) (x : String) (n : Nat) : String :=
  x ++ s.words ++ "(" ++ ", ".intercalate (List.replicate n "?") ++ ")"

/-- Is a row on a side of the set of some values? It is inside if its field has the text of one of
them. -/
def picks (x : String) (vs : List Value) (r : Record) : Side → Bool
  | .inside => vs.any (hasTextOf x · r)
  | .outside => !vs.any (hasTextOf x · r)

end Side

/-- A removal of the rows on a side of a set takes out exactly these and leaves the others in
order. -/
def RemovesBySet (s : Side) (x : String) (d : Document) (t : Table) (now : String)
    (vs : List Value) : Prop :=
  d.execute .lenient now (Use.remove.statement t (s.clause x vs.length)) vs =
    .ok ⟨[], some (d.setRows t ((d.rowsOf t).filter fun r => !s.picks x vs r))⟩

/-- Any number of placeholders within parentheses. -/
def listTokens (n : Nat) : List Token :=
  .openParen :: (List.intercalate [.comma] (List.replicate n [.placeholder]) ++ [.closeParen])

/-- The tokens of the clause. -/
def Side.clauseTokens (s : Side) (x : String) (n : Nat) : List Token :=
  .word x :: (s.tokens ++ listTokens n)

section

variable {x : String}

/-! ### The tokens -/

theorem spellAfter_placeholders (n : Nat) : spellAfter .openParen
      (List.intercalate [.comma] (List.replicate n [.placeholder]) ++ [.closeParen]) =
    List.intercalate [',', ' '] (List.replicate n ['?']) ++ [')'] := by
  have hlist := @spellAfter_list [] (List.replicate n .placeholder) fun x hx =>
    (List.eq_of_mem_replicate hx) ▸ rfl
  rwa [List.map_replicate, List.map_replicate] at hlist

theorem toList_clause (s : Side) (x : String) (n : Nat) :
    (s.clause x n).toList = spell (s.clauseTokens x n) := by
  have hitems : (", ".intercalate (List.replicate n "?")).toList =
      List.intercalate [',', ' '] (List.replicate n ['?']) := by
    rw [String.toList_intercalate, List.map_replicate]
    rfl
  have hspell : spell (s.clauseTokens x n) =
      x.toList ++ (s.words.toList ++ '(' ::
        (List.intercalate [',', ' '] (List.replicate n ['?']) ++ [')'])) := by
    rw [← spellAfter_placeholders]
    cases s <;> rfl
  rw [hspell]
  simp [Side.clause, hitems]

/-- The tokens other than the name. -/
def signs : List Token :=
  [.word "NOT", .word "IN", .openParen, .comma, .placeholder, .closeParen]

theorem mem_clauseTokens {s : Side} {n : Nat} {t : Token} (h : t ∈ s.clauseTokens x n) :
    t = .word x ∨ t ∈ signs := by
  have hwords : ∀ u ∈ s.tokens, u ∈ signs := by cases s <;> decide
  have hitems : ∀ u ∈ [Token.comma, .placeholder], u ∈ signs := by decide
  simp only [Side.clauseTokens, listTokens, List.mem_cons, List.mem_append, List.not_mem_nil,
    or_false] at h
  rcases h with rfl | h | rfl | h | rfl
  · exact .inl rfl
  · exact .inr (hwords t h)
  · exact .inr (by decide)
  · exact .inr (hitems t (mem_placeholders h))
  · exact .inr (by decide)

theorem isPlain_clauseTokens (hx : (Token.word x).isPlain = true) (s : Side) (n : Nat) :
    ∀ t ∈ s.clauseTokens x n, t.isPlain = true := by
  have hsigns : ∀ t ∈ signs, t.isPlain = true := by decide
  intro t ht
  obtain rfl | ht := mem_clauseTokens ht
  · exact hx
  · exact hsigns t ht

theorem collapse_clause (hx : (Token.word x).isPlain = true) (s : Side) (n : Nat) :
    Text.collapse (s.clause x n) = s.clause x n := by
  refine collapse_of_spell (toList_clause s x n) (List.cons_ne_nil _ _)
    (isPlain_clauseTokens hx s n) ?_
  rintro t ht w rfl
  obtain h | h := mem_clauseTokens ht
  · cases h
  · simp [signs] at h

theorem scan?_clause (hx : (Token.word x).isPlain = true) (s : Side) (n : Nat) :
    scan? (s.clause x n) = some (s.clauseTokens x n) := by
  have hscan := scan?_spell (isPlain_clauseTokens hx s n)
  rwa [← toList_clause, String.ofList_toList] at hscan

/-! ### The condition -/

theorem field?_clauseTokens (hp : '.' ∉ x.toList)
    (hx : (Token.word x).isAny conditionWords = false) (s : Side) (n : Nat) :
    (s.clauseTokens x n).head?.bind Token.field? = some x := by
  have hvalue : (Token.word x).isAny [.null, .true, .false] = false :=
    (Bool.or_eq_false_iff.mp (hx : (_ || _) = false)).2
  exact (field?_word hp).trans (by rw [hvalue]; rfl)

theorem ofTokens_clauseTokens (hand : (Token.word x).is .and = false) (s : Side) (n : Nat) :
    Clause.ofTokens 0 (s.clauseTokens x n) = ⟨[Fragment.ofTokens 0 (s.clauseTokens x n)]⟩ := by
  have hset : Closed (·.is .and) (listTokens n) := by
    refine .parens fun t ht => ?_
    have hflat : ∀ u ∈ [Token.comma, .placeholder], u.isParen = false := by decide
    exact hflat t (mem_placeholders ht)
  have hwords : Closed (·.is .and) s.tokens := by cases s <;> exact ⟨by decide, by decide⟩
  have hclosed : Closed (·.is .and) (s.clauseTokens x n) := (hwords.append hset).cons rfl hand
  have hparts : Clause.parts (s.clauseTokens x n) = [s.clauseTokens x n] :=
    splitFrom_of_uncut hclosed.uncut
  rw [Clause.ofTokens, hparts, Clause.readParts, Clause.readParts]

/-- The test of a set of one value or more. -/
def Side.test (v : Value) (vs : List Value) : Side → Written.Test
  | .inside => .inSet v vs
  | .outside => .notInSet v vs

/-- A set of one value or more is read as a test of the field. -/
theorem bind_clauseTokens_cons (hp : '.' ∉ x.toList)
    (hx : (Token.word x).isAny conditionWords = false) (s : Side) (v : Value) (vs : List Value) :
    (Clause.ofTokens 0 (s.clauseTokens x (v :: vs).length)).bind .lenient (v :: vs) =
      .ok [⟨x, (s.test v vs).check⟩] := by
  have hand : (Token.word x).is .and = false :=
    (Bool.or_eq_false_iff.mp (hx : (_ || _) = false)).1
  have hdate : Fragment.callsDate (s.clauseTokens x (v :: vs).length) = false := by
    cases s <;> exact Written.callsDate_setTokens (.word "IN") vs.length
  have hcheck : Fragment.check? 0 (s.clauseTokens x (v :: vs).length).tail =
      some ((s.test v vs).openCheck 0) := by
    rw [← Written.Test.check?_tokens]
    cases s <;> rfl
  have hbind := (s.test v vs).bind_openCheck [] []
  have hvalues : [] ++ ((s.test v vs).values ++ []) = v :: vs := by
    rw [List.append_nil]
    cases s <;> rfl
  rw [hvalues] at hbind
  rw [ofTokens_clauseTokens hand, Fragment.ofTokens, hdate, field?_clauseTokens hp hx, hcheck]
  simp only [Bool.false_eq_true, if_false, Clause.bind, Clause.bindFragments]
  exact hbind ▸ rfl

/-- An empty set is no set: its clause is not recognised. -/
theorem bind_clauseTokens_nil (hp : '.' ∉ x.toList)
    (hx : (Token.word x).isAny conditionWords = false) (s : Side) :
    (Clause.ofTokens 0 (s.clauseTokens x 0)).bind .lenient [] = .ok [] := by
  have hand : (Token.word x).is .and = false :=
    (Bool.or_eq_false_iff.mp (hx : (_ || _) = false)).1
  rw [ofTokens_clauseTokens hand, Fragment.ofTokens, field?_clauseTokens hp hx]
  cases s <;> rfl

theorem satisfies_set (x : String) (v : Value) (vs : List Value) (r : Record) (s : Side) :
    r.satisfies [⟨x, (s.test v vs).check⟩] = s.picks x (v :: vs) r := by
  have hany : ((v :: vs).map Value.text).contains ((r.get? x).elim "" Value.text) =
      (v :: vs).any (hasTextOf x · r) := by
    rw [List.contains_eq_any_beq, List.any_map]
    rfl
  cases s with
  | inside => exact (Bool.and_true _).trans hany
  | outside => exact (Bool.and_true _).trans (congrArg (!·) hany)

/-! ### The rows -/

theorem execute_remove_clause (hx : (Token.word x).isPlain = true) (s : Side) (d : Document)
    (t : Table) (now : String) (vs : List Value) :
    d.execute .lenient now (Use.remove.statement t (s.clause x vs.length)) vs =
      match (Clause.ofTokens 0 (s.clauseTokens x vs.length)).bind .lenient vs with
      | .error e => .error (.refused e)
      | .ok cs => .ok (Use.remove.outcome d t now cs) := by
  have hremove := Use.execute_remove d t .lenient now vs (collapse_clause hx s vs.length)
    (scan?_clause hx s vs.length)
  have htrim : OpenStatement.trimSemicolons (parted (s.clauseTokens x vs.length)) =
      s.clauseTokens x vs.length := by
    refine OpenStatement.trimSemicolons_of_getLast? ?_
    have hend : (s.clauseTokens x vs.length).getLast? = some .closeParen := by
      simp [Side.clauseTokens, listTokens, List.getLast?_cons, List.getLast?_append]
    exact hend ▸ nofun
  rwa [htrim] at hremove

variable (hx : (Token.word x).isPlain = true) (hp : '.' ∉ x.toList)
  (hk : (Token.word x).isAny conditionWords = false)

include hx hp hk

theorem removesBySet_cons (s : Side) (d : Document) (t : Table) (now : String) (v : Value)
    (vs : List Value) : RemovesBySet s x d t now (v :: vs) := by
  rw [RemovesBySet, execute_remove_clause hx, bind_clauseTokens_cons hp hk]
  simp only [Use.outcome, Document.delete, satisfies_set]

theorem execute_remove_empty (s : Side) (d : Document) (t : Table) (now : String) :
    d.execute .lenient now (Use.remove.statement t (s.clause x 0)) [] =
      .ok ⟨[], some (d.setRows t [])⟩ := by
  have hremove := execute_remove_clause hx s d t now []
  rw [List.length_nil, bind_clauseTokens_nil hp hk] at hremove
  rw [hremove, ← Document.delete_nil]
  rfl

/-- By the empty set a removal of the rows inside is right only where there are none. -/
theorem removesBySet_inside_nil_iff (d : Document) (t : Table) (now : String) :
    RemovesBySet .inside x d t now [] ↔ d.rowsOf t = [] := by
  have hkept : (d.rowsOf t).filter (fun r => !Side.inside.picks x [] r) = d.rowsOf t :=
    List.filter_eq_self.mpr fun _ _ => rfl
  rw [RemovesBySet, List.length_nil, execute_remove_empty hx hp hk, hkept]
  constructor
  · intro h
    have hsame : d.setRows t [] = d.setRows t (d.rowsOf t) := by injections
    have hrows := congrArg (·.rowsOf t) hsame
    simp only [Document.rowsOf_setRows] at hrows
    exact hrows.symm
  · intro hnone
    rw [hnone]

theorem removesBySet_outside_nil (d : Document) (t : Table) (now : String) :
    RemovesBySet .outside x d t now [] := by
  have hgone : (d.rowsOf t).filter (fun r => !Side.outside.picks x [] r) = [] :=
    List.filter_eq_nil_iff.mpr fun _ _ => nofun
  rw [RemovesBySet, List.length_nil, execute_remove_empty hx hp hk, hgone]

/-- The rows outside of a set are removed as they are written, whatever the length of the set. Those
inside are, unless the set is empty and the table is not: by an empty set every row is removed. -/
theorem removes_by_set_iff (d : Document) (t : Table) (now : String) (vs : List Value) :
    (RemovesBySet .inside x d t now vs ↔ vs ≠ [] ∨ d.rowsOf t = []) ∧
    RemovesBySet .outside x d t now vs ∧
    d.execute .lenient now (Use.remove.statement t (Side.inside.clause x 0)) [] =
      .ok ⟨[], some (d.setRows t [])⟩ := by
  have hempty := execute_remove_empty hx hp hk .inside d t now
  cases vs with
  | nil =>
    have hinside := removesBySet_inside_nil_iff hx hp hk d t now
    exact ⟨by simp [hinside], removesBySet_outside_nil hx hp hk d t now, hempty⟩
  | cons v vs =>
    have hset (s : Side) := removesBySet_cons hx hp hk s d t now v vs
    exact ⟨iff_of_true (hset .inside) (.inl nofun), hset .outside, hempty⟩

end

/-- Two of three leads are removed by their names. -/
theorem two_names_removed :
    let d := Document.new.setRows .leads [Record.ofFields [("name", .string "Ann")],
      Record.ofFields [("name", .string "Bob")], Record.ofFields [("name", .int 7)]]
    (Token.word "name").isPlain = true ∧ '.' ∉ "name".toList ∧
      (Token.word "name").isAny conditionWords = false ∧
      Use.remove.statement .leads (Side.inside.clause "name" 2) =
        "DELETE FROM leads WHERE name IN (?, ?)" ∧
      RemovesBySet .inside "name" d .leads "2024-05-01" [.string "7", .string "Ann"] ∧
      ((d.rowsOf .leads).filter fun r =>
        !Side.inside.picks "name" [.string "7", .string "Ann"] r) =
          [Record.ofFields [("name", .string "Bob")]] := by
  intro d
  have hx : (Token.word "name").isPlain = true := by decide
  have hp : '.' ∉ "name".toList := by decide
  have hk : (Token.word "name").isAny conditionWords = false := by decide
  have hboth := removes_by_set_iff hx hp hk d .leads "2024-05-01" [.string "7", .string "Ann"]
  exact ⟨hx, hp, hk, by decide, hboth.1.mpr (.inl nofun), by decide⟩

/-- No lead has its name in the empty set, and every lead is removed. -/
theorem empty_set_removes_all :
    let rows := [Record.ofFields [("id", .string "l1")]]
    let d := Document.new.setRows .leads rows
    Use.remove.statement .leads (Side.inside.clause "id" 0) = "DELETE FROM leads WHERE id IN ()" ∧
      d.execute .lenient "2024-05-01" "DELETE FROM leads WHERE id IN ()" [] =
        .ok ⟨[], some (d.setRows .leads [])⟩ ∧
      (rows.filter fun r => !Side.inside.picks "id" [] r) = rows ∧
      ¬RemovesBySet .inside "id" d .leads "2024-05-01" [] := by
  intro rows d
  have hx : (Token.word "id").isPlain = true := by decide
  have hp : '.' ∉ "id".toList := by decide
  have hk : (Token.word "id").isAny conditionWords = false := by decide
  have htext : Use.remove.statement .leads (Side.inside.clause "id" 0) =
      "DELETE FROM leads WHERE id IN ()" := by decide
  have hall := execute_remove_empty hx hp hk .inside d .leads "2024-05-01"
  have hright := removesBySet_inside_nil_iff hx hp hk d .leads "2024-05-01"
  refine ⟨htext, by rwa [htext] at hall, by decide, fun h => ?_⟩
  have hnone : d.rowsOf .leads = [] := hright.mp h
  rw [Document.rowsOf_setRows] at hnone
  exact absurd hnone (List.cons_ne_nil _ _)

end Statement
end ClientRecords
