import Mathlib.Data.List.Forall2
import ClientRecords.Proofs.Condition.Binding
import ClientRecords.Proofs.Record
import ClientRecords.Proofs.Statement.Execution
import ClientRecords.Proofs.Statement.Reader
/-!
What parameters can change in a statement. A text is read before any parameter is known, and binding
puts values in the places of operands, so under any two lists of parameters a text gives statements
of one shape (`params_keep_shape`): they do the same to the same fields of the same table, and their
conditions ask the same of the same fields. The relation is told constructor by constructor, and
every step of binding keeps it.
-/

namespace ClientRecords

/-- Two checks ask the same, whatever values they ask it of. -/
inductive Check.SameShape : Check → Check → Prop
  | compare (op : Comparison) (v w : Value) : SameShape (.compare op v) (.compare op w)
  | like (p q : Pattern) : SameShape (.like p) (.like q)
  | isNull : SameShape .isNull .isNull
  | isNotNull : SameShape .isNotNull .isNotNull
  | inSet {xs ys : List String} (h : xs.length = ys.length) : SameShape (.inSet xs) (.inSet ys)
  | notInSet {xs ys : List String} (h : xs.length = ys.length) :
      SameShape (.notInSet xs) (.notInSet ys)

/-- Two conditions ask the same of one field. -/
structure Condition.SameShape (c d : Condition) : Prop where
  field : c.field = d.field
  check : c.check.SameShape d.check

/-- Two records have fields of the same names in the same order. -/
def Record.SameNames (r s : Record) : Prop := r.fields.names = s.fields.names

/-- Two statements do the same to the same fields, under conditions that ask the same. -/
inductive Statement.SameShape : Statement → Statement → Prop
  | insert {table : String} {orIgnore : Bool} {r s : Record} (h : r.SameNames s) :
      SameShape (.insert table orIgnore r) (.insert table orIgnore s)
  | update {table : String} {r s : Record} {cs ds : List Condition} (h : r.SameNames s)
      (hc : List.Forall₂ Condition.SameShape cs ds) :
      SameShape (.update table r cs) (.update table s ds)
  | delete {table : String} {cs ds : List Condition}
      (hc : List.Forall₂ Condition.SameShape cs ds) :
      SameShape (.delete table cs) (.delete table ds)
  | select (text : String) (params others : List Value) :
      SameShape (.select text params) (.select text others)

/-- Two queries show the same of the same tables in the same order, under conditions that ask the
same. -/
structure Query.SameShape (q r : Query) : Prop where
  projection : q.projection = r.projection
  table : q.table = r.table
  shortName : q.shortName = r.shortName
  joins : q.joins = r.joins
  conditions : List.Forall₂ Condition.SameShape q.conditions r.conditions
  orderBy : q.orderBy = r.orderBy

variable {mode : Mode} {params others : List Value} {stamp later : String}

/-! ### Records -/

theorem Entries.names_putAll_congr {α : Type} {es fs new more : Entries α}
    (h : es.names = fs.names) (hn : new.names = more.names) :
    (es.putAll new).names = (fs.putAll more).names := by
  rw [names_putAll, names_putAll, h, hn]

namespace Record

theorem sameNames_ofFields {fields more : Entries Value} (h : fields.names = more.names) :
    (ofFields fields).SameNames (ofFields more) :=
  Entries.names_putAll_congr rfl h

theorem SameNames.put {r s : Record} (h : r.SameNames s) (name : String) (v w : Value) :
    (r.put name v).SameNames (s.put name w) := by
  show (r.fields.put name v).names = (s.fields.put name w).names
  rw [Entries.names_put, Entries.names_put, h]

end Record

namespace Statement

theorem names_putStamp (r : Record) (name : String) :
    (putStamp stamp r name).fields.names =
      if name ∈ r.fields.names then r.fields.names else r.fields.names ++ [name] := by
  rw [putStamp]
  by_cases ht : r.hasTruthy name = true
  · -- a truthy field is there, so the names stay as they are
    obtain ⟨v, hv, -⟩ := (Option.any_eq_true _ _).mp ht
    have hmem : name ∈ r.fields.names := by
      by_contra hnot
      have hnone : r.get? name = none := Entries.get?_eq_none_iff.mpr hnot
      rw [hnone] at hv
      cases hv
    rw [if_pos ht, if_pos hmem]
  · rw [if_neg ht]
    exact Entries.names_put r.fields name _

theorem sameNames_stamped {r s : Record} (h : r.SameNames s) :
    (stamped stamp r).SameNames (stamped later s) := by
  unfold stamped
  induction stampFields generalizing r s with
  | nil => exact h
  | cons name names ih =>
    refine ih ?_
    show (putStamp stamp r name).fields.names = (putStamp later s name).fields.names
    rw [names_putStamp, names_putStamp, h]

theorem sameNames_newRecord (fields : List (String × FieldSource)) :
    (newRecord params stamp fields).SameNames (newRecord others later fields) := by
  refine sameNames_stamped (Record.sameNames_ofFields ?_)
  simp only [Entries.names, List.map_map]
  rfl

theorem sameNames_overlay (assignments : List (String × Operand)) :
    (overlay params stamp assignments).SameNames (overlay others later assignments) := by
  refine Record.SameNames.put (Record.sameNames_ofFields ?_) ..
  simp only [Entries.names, List.map_map]
  rfl

end Statement

/-! ### Conditions -/

theorem OpenCheck.sameShape_of_bind {check : OpenCheck} {b c : Check}
    (hb : check.bind params = .ok b) (hc : check.bind others = .ok c) : b.SameShape c := by
  cases check with
  | compare op x =>
    cases hb
    cases hc
    exact .compare op _ _
  | like x =>
    rw [bind] at hb hc
    split at hb
    · split at hc
      · cases hb
        cases hc
        exact .like _ _
      · cases hc
    · cases hb
  | isNull =>
    cases hb
    cases hc
    exact .isNull
  | isNotNull =>
    cases hb
    cases hc
    exact .isNotNull
  | inSet xs =>
    cases hb
    cases hc
    exact .inSet (by rw [List.length_map, List.length_map])
  | notInSet xs =>
    cases hb
    cases hc
    exact .notInSet (by rw [List.length_map, List.length_map])

namespace Clause

theorem Binds.sameShape {fs : List Fragment} {cs ds : List Condition} (hc : Binds mode params fs cs)
    (hd : Binds mode others fs ds) : List.Forall₂ Condition.SameShape cs ds := by
  induction hc generalizing ds with
  | nil =>
    cases hd
    exact .nil
  | condition hb _ ih =>
    cases hd with
    | condition hb' hr => exact .cons ⟨rfl, OpenCheck.sameShape_of_bind hb hb'⟩ (ih hr)
  | ignored _ ih =>
    cases hd with
    | ignored hr => exact ih hr
  | dropped _ _ ih =>
    cases hd with
    | dropped _ hr => exact ih hr

theorem sameShape_of_bind {c : Clause} {cs ds : List Condition} (hc : c.bind mode params = .ok cs)
    (hd : c.bind mode others = .ok ds) : List.Forall₂ Condition.SameShape cs ds :=
  (binds_of_bindFragments hc).sameShape (binds_of_bindFragments hd)

end Clause

/-! ### Statements and queries -/

theorem OpenStatement.BindsTo.sameShape {o : OpenStatement} {s t : Statement}
    (hs : BindsTo mode params stamp o s) (ht : BindsTo mode others later o t) :
    s.SameShape t := by
  cases hs with
  | insert table orIgnore fields =>
    cases ht
    exact .insert (Statement.sameNames_newRecord fields)
  | update table assignments hc =>
    obtain _ | ⟨_, _, hd⟩ := ht
    exact .update (Statement.sameNames_overlay assignments) (Clause.sameShape_of_bind hc hd)
  | delete table hc =>
    obtain _ | _ | ⟨_, hd⟩ := ht
    exact .delete (Clause.sameShape_of_bind hc hd)
  | select text =>
    cases ht
    exact .select text params others

theorem OpenQuery.sameShape_of_bind {o : OpenQuery} {q r : Query} (hq : o.bind mode params = .ok q)
    (hr : o.bind mode others = .ok r) : q.SameShape r := by
  obtain ⟨cs, hc, hq⟩ := exists_of_bind_eq_ok hq
  obtain ⟨ds, hd, hr⟩ := exists_of_bind_eq_ok hr
  obtain rfl := Except.ok.inj hq
  obtain rfl := Except.ok.inj hr
  exact ⟨rfl, rfl, rfl, rfl, Clause.sameShape_of_bind hc hd, rfl⟩

theorem Query.sameShape_of_ofText {text : String} {q r : Option Query}
    (hq : ofText text mode params = .ok q) (hr : ofText text mode others = .ok r) :
    Option.Rel SameShape q r := by
  cases ho : OpenQuery.ofText text with
  | error e =>
    rw [ofText, ho] at hq
    cases hq
  | ok o =>
    cases o with
    | none =>
      rw [ofText, ho] at hq hr
      cases hq
      cases hr
      exact .none
    | some o =>
      rw [ofText_of_read ho] at hq hr
      obtain ⟨_, hb, rfl⟩ := exists_of_map_eq_ok hq
      obtain ⟨_, hc, rfl⟩ := exists_of_map_eq_ok hr
      exact .some (OpenQuery.sameShape_of_bind hb hc)

namespace Statement

theorem sameShape_of_ofText {source : String} {s t : Statement}
    (hs : ofText source mode params stamp = .ok s) (ht : ofText source mode others later = .ok t) :
    s.SameShape t := by
  obtain ⟨o, ho, hs⟩ := exists_of_bind_eq_ok hs
  obtain ⟨o', ho', ht⟩ := exists_of_bind_eq_ok ht
  obtain rfl : o = o' := Except.ok.inj (ho.symm.trans ho')
  exact (OpenStatement.bindsTo_of_bind hs).sameShape (OpenStatement.bindsTo_of_bind ht)

/-- Parameters change values and bounds and nothing else: under any two lists of them a text gives
statements of one shape, and queries of one shape. -/
theorem params_keep_shape (mode : Mode) (params others : List Value) :
    (∀ source stamp later s t, ofText source mode params stamp = .ok s →
      ofText source mode others later = .ok t → s.SameShape t) ∧
    ∀ text q r, Query.ofText text mode params = .ok q → Query.ofText text mode others = .ok r →
      Option.Rel Query.SameShape q r :=
  ⟨fun _ _ _ _ _ => sameShape_of_ofText, fun _ _ _ => Query.sameShape_of_ofText⟩

theorem params_keep_shape_missing :
    let insert := "INSERT INTO leads (created_at, id) VALUES (?, ?)"
    let select := "SELECT * FROM leads WHERE id IN (?, 'x') LIMIT ?"
    let params := [Value.null]
    let others := [.string "2024", .int 5, .int 7]
    let s : Statement := .insert "leads" false <| .ofFields
      [("created_at", .string "now"), ("id", .null), ("updated_at", .string "now")]
    let t : Statement := .insert "leads" false <| .ofFields
      [("created_at", .string "2024"), ("id", .int 5), ("updated_at", .string "later")]
    let q : Query := ⟨.rows, "leads", none, [], [⟨"id", .inSet ["", "x"]⟩], none, none, none⟩
    let r : Query := ⟨.rows, "leads", none, [], [⟨"id", .inSet ["2024", "x"]⟩], none, some 5, none⟩
    (ofText insert .strict params "now" = .ok s ∧ ofText insert .strict others "later" = .ok t ∧
      s.SameShape t) ∧
    Query.ofText select .strict params = .ok (some q) ∧
      Query.ofText select .strict others = .ok (some r) ∧ q.SameShape r := by
  intro insert select params others s t q r
  have hinsert : OpenStatement.ofText insert = .ok (.insert "leads" false
      [("created_at", .operand (.param 0)), ("id", .operand (.param 1))]) := by
    have hscan : Token.scan? (Text.collapse insert) = some [.word "INSERT", .word "INTO",
        .word "leads", .openParen, .word "created_at", .comma, .word "id", .closeParen,
        .word "VALUES", .openParen, .placeholder, .comma, .placeholder, .closeParen] := by
      simp only [insert]
      cbv
    rw [OpenStatement.ofText_of_scan hscan]
    rfl
  have hselect : OpenQuery.ofText select = .ok (some ⟨.rows, "leads", none, [],
      ⟨[.condition "id" (.inSet [.param 0, .literal (.string "x")])]⟩, none,
      some (.param 1), none⟩) := by
    have hscan : Token.scan? select = some [.word "SELECT", .star, .word "FROM", .word "leads",
        .word "WHERE", .word "id", .word "IN", .openParen, .placeholder, .comma, .string "x",
        .closeParen, .word "LIMIT", .placeholder] := by
      simp only [select]
      cbv
    rw [OpenQuery.ofText, hscan]
    exact congrArg Except.ok (by decide)
  have hs : ofText insert .strict params "now" = .ok s := by
    rw [ofText, hinsert]
    rfl
  have ht : ofText insert .strict others "later" = .ok t := by
    rw [ofText, hinsert]
    rfl
  have hq : Query.ofText select .strict params = .ok (some q) := by
    rw [Query.ofText_of_read hselect]
    rfl
  have hr : Query.ofText select .strict others = .ok (some r) := by
    have hlimit : (Operand.param 1).rowCount? others = some 5 := by
      have hparam : others[1]? = some (.int 5) := rfl
      have hrows : Value.rowCount? (.int 5) = some 5 := by decide +kernel
      rw [Operand.rowCount?, hparam, Option.bind_some, hrows]
    rw [Query.ofText_of_read hselect, OpenQuery.bind, Option.bind_some, hlimit]
    rfl
  obtain ⟨hstatements, hqueries⟩ := params_keep_shape .strict params others
  have hshape := hqueries select (some q) (some r) hq hr
  refine ⟨⟨hs, ht, hstatements insert "now" "later" s t hs ht⟩, hq, hr, ?_⟩
  cases hshape with
  | some h => exact h

end Statement
end ClientRecords
