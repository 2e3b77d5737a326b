import ClientRecords.Proofs.Record
import ClientRecords.Proofs.Statement.Spelled
import ClientRecords.Proofs.Statement.Stamps
/-!
Reading undoes writing for the statements that write. The readers cut the tokens of a written
statement where they were put together, and the parameters go to the placeholders in the order of
the text (`Change.ofText_written`).
-/

namespace ClientRecords

open Token

/-! ### Parameters by their numbers -/

/-- Two lists of parameters give the same values, what is not given being null. -/
def SameParams (params others : List Value) : Prop :=
  ∀ k, params.getD k .null = others.getD k .null

namespace SameParams

variable {params others : List Value}

theorem value (h : SameParams params others) (x : Operand) : x.value params = x.value others := by
  cases x with
  | literal => rfl
  | param k => exact h k

theorem bind_check (h : SameParams params others) (c : OpenCheck) :
    c.bind params = c.bind others := by
  cases c <;> simp only [OpenCheck.bind, h.value]

theorem bindFragments (h : SameParams params others) (mode : Mode) (fs : List Fragment) :
    Clause.bindFragments mode params fs = Clause.bindFragments mode others fs := by
  induction fs with
  | nil => rfl
  | cons f fs ih => cases f <;> simp only [Clause.bindFragments, h.bind_check, ih]

theorem bind_clause (h : SameParams params others) (mode : Mode) (c : Clause) :
    c.bind mode params = c.bind mode others := h.bindFragments mode c.fragments

theorem value_source (h : SameParams params others) (stamp : String) (x : FieldSource) :
    x.value params stamp = x.value others stamp := by
  cases x with
  | operand x => exact h.value x
  | stamp => rfl

/-- A statement that writes is the same; one that reads keeps the parameters themselves. -/
theorem bind_statement (h : SameParams params others) (mode : Mode) (stamp : String)
    {s : OpenStatement} (hs : ∀ text, s ≠ .select text) :
    s.bind mode params stamp = s.bind mode others stamp := by
  cases s with
  | insert name orIgnore fields =>
    simp only [OpenStatement.bind, Statement.newRecord, h.value_source]
  | update name assignments clause =>
    simp only [OpenStatement.bind, Statement.overlay, h.value, h.bind_clause]
  | delete name clause => simp only [OpenStatement.bind, h.bind_clause]
  | select text => exact absurd rfl (hs text)

end SameParams

/-- The parameters begin with some values, the last of which may be left out where they are null. -/
def StartsWith (values params : List Value) : Prop :=
  ∀ k v, values[k]? = some v → params.getD k .null = v

/-- Such parameters are the values and others behind them. -/
theorem StartsWith.exists_append {values params : List Value} (h : StartsWith values params) :
    ∃ post, SameParams params (values ++ post) := by
  refine ⟨params.drop values.length, fun k => ?_⟩
  by_cases hk : k < values.length
  · rw [h k _ (List.getElem?_eq_getElem hk), List.getD_eq_getElem?_getD,
      List.getElem?_append_left hk, List.getElem?_eq_getElem hk, Option.getD_some]
  · rw [List.getD_eq_getElem?_getD, List.getD_eq_getElem?_getD,
      List.getElem?_append_right (by omega), List.getElem?_drop]
    congr 2
    omega

/-! ### The cuts of the readers -/

namespace Written

open OpenStatement

theorem Name.bareField (n : Name) : Token.bareField n.text = n.text :=
  Field.bareField_word ⟨none, n⟩

/-- The operand of an item, `next` being the number of the next parameter. -/
def Item.operand (next : Nat) : Item → Operand
  | .param _ => .param next
  | i => .literal (i.value "")

/-- The source of a field of a new record. -/
def Item.source (next : Nat) : Item → FieldSource
  | .now => .stamp
  | i => .operand (i.operand next)

/-- What items are read as one after the other, from a number of the next parameter on. -/
def read {α : Type} (f : Nat → Item → α) : Nat → List Item → List α
  | _, [] => []
  | next, i :: is => f next i :: read f (next + i.values.length) is

namespace Item

/-- An item that spells out its value. -/
structure IsLiteral (i : Item) : Prop where
  token : i.token ≠ .placeholder
  literal : i.token.literal? = some (i.value "")
  timeless : i.token.is .currentTimestamp = false
  isNow : i.isNow = false
  values : i.values = []
  value : ∀ stamp, i.value stamp = i.value ""
  source : ∀ next, i.source next = .operand (.literal (i.value ""))
  operand : ∀ next, i.operand next = .literal (i.value "")

/-- An item is a placeholder, the time, or spells out its value. -/
theorem cases_of_item (i : Item) : (∃ v, i = .param v) ∨ i = .now ∨ i.IsLiteral := by
  cases i with
  | param v => exact .inl ⟨v, rfl⟩
  | now => exact .inr (.inl rfl)
  | integer i =>
    exact .inr (.inr ⟨nofun, literal?_ofInt64 i, rfl, rfl, rfl, fun _ => rfl, fun _ => rfl,
      fun _ => rfl⟩)
  | bool b =>
    have hb : (Item.bool b).token.literal? = some (.bool b) ∧
        (Item.bool b).token.is .currentTimestamp = false := by cases b <;> decide
    exact .inr (.inr ⟨nofun, hb.1, hb.2, rfl, rfl, fun _ => rfl, fun _ => rfl, fun _ => rfl⟩)
  | null =>
    exact .inr (.inr ⟨nofun, by decide, by decide, rfl, rfl, fun _ => rfl, fun _ => rfl,
      fun _ => rfl⟩)
  | string s =>
    exact .inr (.inr ⟨nofun, rfl, rfl, rfl, rfl, fun _ => rfl, fun _ => rfl, fun _ => rfl⟩)

end Item

theorem Item.isParen_token (i : Item) : i.token.isParen = false := by cases i <;> rfl

theorem Item.is_where (i : Item) : i.token.is .where = false := by
  cases i with
  | bool b => cases b <;> decide
  | null | now => decide
  | param | integer | string => rfl

theorem Item.ne_comma (i : Item) : (i.token == .comma) = false := by cases i <;> rfl

theorem length_read {α : Type} (f : Nat → Item → α) (is : List Item) :
    ∀ next, (read f next is).length = is.length := by
  induction is with
  | nil => exact fun _ => rfl
  | cons i is ih => exact fun next => congrArg (· + 1) (ih _)

theorem sources?_tokens (is : List Item) : ∀ next,
    sources? next (is.map fun i => [i.token]) = some (read Item.source next is) := by
  induction is with
  | nil => exact fun _ => rfl
  | cons i is ih =>
    intro next
    rw [List.map_cons]
    rcases i.cases_of_item with ⟨v, rfl⟩ | rfl | h
    · rw [Item.token, sources?, ih (next + 1)]
      rfl
    · have hnow : Token.is .currentTimestamp (.word "CURRENT_TIMESTAMP") = true := by decide
      rw [Item.token, sources?, if_pos hnow, ih next]
      · rfl
      · exact nofun
    · rw [sources?, h.timeless, if_neg Bool.false_ne_true, h.literal, ih next, read, h.values,
        h.source]
      · rfl
      · exact h.token

/-- An item takes its value from among the parameters, the values before it standing first. -/
theorem value_operand (i : Item) (hn : i.isNow = false) (stamp : String) (pre post : List Value) :
    (i.operand pre.length).value (pre ++ (i.values ++ post)) = i.value stamp := by
  rcases i.cases_of_item with ⟨v, rfl⟩ | rfl | h
  · exact Operand.value_append_cons pre post v
  · cases hn
  · rw [h.operand, Operand.value, h.value stamp]

theorem value_source (i : Item) (stamp : String) (pre post : List Value) :
    (i.source pre.length).value (pre ++ (i.values ++ post)) stamp = i.value stamp := by
  cases hn : i.isNow with
  | true => cases i <;> first | rfl | cases hn
  | false =>
    have hsource : i.source pre.length = .operand (i.operand pre.length) := by
      cases i <;> first | rfl | cases hn
    rw [hsource, FieldSource.value, value_operand i hn stamp]

namespace Assignments

variable (a : Assignments)

theorem splitCommas_list {f : Name × Item → List Token} (h : ∀ e, Closed (· == .comma) (f e)) :
    splitCommas (a.list f) = a.items.map f := by
  refine splitTopLevel_intercalate rfl (by simpa using a.nonempty) fun part hp => ?_
  obtain ⟨e, _, rfl⟩ := List.mem_map.mp hp
  exact h e

theorem forall_mem_list {f : Name × Item → List Token} {p : Token → Prop} (hc : p .comma)
    (h : ∀ e, ∀ t ∈ f e, p t) : ∀ t ∈ a.list f, p t := by
  intro t ht
  rcases mem_intercalate ht with ht | ⟨part, hp, ht⟩
  · rwa [List.mem_singleton.mp ht]
  · obtain ⟨e, _, rfl⟩ := List.mem_map.mp hp
    exact h e t ht

theorem columns?_columnTokens : (splitCommas a.columnTokens).mapM column? = some a.names := by
  have hcut : splitCommas a.columnTokens = a.items.map fun e => [e.1.token] :=
    a.splitCommas_list fun e => .cons rfl rfl .nil
  have hcolumn : (column? ∘ fun e : Name × Item => [e.1.token]) = fun e => some e.1.text :=
    funext fun e => congrArg some e.1.bareField
  rw [hcut, List.mapM_map, hcolumn]
  exact List.mapM_pure

theorem fieldSources_itemTokens : fieldSources a.names (splitCommas a.itemTokens)
    = a.names.zip (read Item.source 0 (a.items.map Prod.snd)) := by
  have hcut : splitCommas a.itemTokens = (a.items.map Prod.snd).map fun i => [i.token] := by
    rw [List.map_map]
    exact a.splitCommas_list fun e => .cons e.2.isParen_token e.2.ne_comma .nil
  have hlength : (read Item.source 0 (a.items.map Prod.snd)).length = a.names.length := by
    rw [length_read, List.length_map, names, List.length_map]
  simp only [fieldSources, hcut, sources?_tokens, if_pos hlength]

end Assignments

theorem readInsert_tokens (orIgnore : Bool) (t : TableWord) (a : Assignments) :
    readInsert (Change.insert orIgnore t a).tokens = .ok (.insert (Text.lowercase t.name) orIgnore
      (a.names.zip (read Item.source 0 (a.items.map Prod.snd)))) := by
  have hmod : takeModifier (Change.insert orIgnore t a).tokens
      (Change.insert orIgnore t a).tokens.tail
      = .ok (orIgnore, .word "INTO" :: .word t.name :: (Change.insert orIgnore t a).rest) := by
    cases orIgnore <;> rfl
  have hfirst : parenthesised? (Change.insert orIgnore t a).rest
      = some (a.columnTokens, .word "VALUES" :: .openParen :: (a.itemTokens ++ [.closeParen])) :=
    parenthesised?_append (a.forall_mem_list rfl fun e => by simp [Name.token, isParen]) _
  have hsecond : parenthesised? (.openParen :: (a.itemTokens ++ [.closeParen]))
      = some (a.itemTokens, []) :=
    parenthesised?_append (a.forall_mem_list rfl fun e => by simpa using e.2.isParen_token) _
  have hinto : startsWith .into (.word "INTO" :: .word t.name :: (Change.insert orIgnore t a).rest)
      = true := rfl
  have hvalues : startsWith .values
      (.word "VALUES" :: .openParen :: (a.itemTokens ++ [.closeParen])) = true := rfl
  unfold readInsert
  rw [hmod]
  simp only [Bind.bind, Except.bind, hinto, List.tail_cons, List.drop_succ_cons, List.drop_zero,
    hfirst, hsecond, hvalues, a.columns?_columnTokens, a.fieldSources_itemTokens]
  rfl

/-- The assignments that are read, from a number of the next parameter on. The time is left out. -/
def assigned : Nat → List (Name × Item) → List (String × Operand)
  | _, [] => []
  | next, e :: es =>
    if e.2.isNow then assigned next es
    else (e.1.text, e.2.operand next) :: assigned (next + e.2.values.length) es

theorem readAssignments_tokens (all : List Token) (es : List (Name × Item)) : ∀ next,
    readAssignments all next (es.map fun e => [e.1.token, .comparison .eq, e.2.token])
      = .ok (assigned next es, next + (es.flatMap fun e => e.2.values).length) := by
  induction es with
  | nil => exact fun _ => rfl
  | cons e es ih =>
    intro next
    obtain ⟨n, i⟩ := e
    rw [List.map_cons, Name.token]
    rcases i.cases_of_item with ⟨v, rfl⟩ | rfl | h
    · have hrest := ih (next + 1)
      have hcount : next + 1 + (es.flatMap fun e => e.2.values).length
          = next + (((n, Item.param v) :: es).flatMap fun e => e.2.values).length := by
        rw [List.flatMap_cons, List.length_append, ← Nat.add_assoc]
        rfl
      rw [Item.token, readAssignments, if_neg (by decide), hrest, n.bareField, hcount]
      rfl
    · have hrest := ih next
      rw [Item.token, readAssignments, if_pos (by decide), hrest]
      · rfl
      · intro h
        cases h
    · have hrest := ih next
      have hnow : [i.token].any (·.is .currentTimestamp) = false := by
        rw [List.any_cons, h.timeless]
        rfl
      have hcount : (((n, i) :: es).flatMap fun e => e.2.values).length
          = (es.flatMap fun e => e.2.values).length := by
        rw [List.flatMap_cons, h.values, List.nil_append]
      have hassigned : assigned next ((n, i) :: es)
          = (n.text, .literal (i.value "")) :: assigned next es := by
        rw [assigned, if_neg (by rw [h.isNow]; decide), h.operand, h.values]
        rfl
      rw [readAssignments, if_neg (by rw [hnow]; decide), hcount, hassigned]
      · simp only [h.literal, hrest, n.bareField]
        rfl
      · exact h.token

/-- The clause starts at its word, wherever the assignments end. -/
theorem breakTopLevel_setTokens (a : Assignments) (cs : List Condition) :
    breakTopLevel (·.is .where) (a.setTokens ++ whereTokens cs)
      = (a.setTokens, whereTokens cs) := by
  have hclosed : Closed (·.is .where) a.setTokens := by
    refine .of_flat (a.forall_mem_list ⟨rfl, rfl⟩ fun e t ht => ?_)
    simp only [List.mem_cons, List.not_mem_nil, or_false] at ht
    rcases ht with rfl | rfl | rfl
    · exact ⟨rfl, e.1.is_eq_false (by decide)⟩
    · exact ⟨rfl, rfl⟩
    · exact ⟨e.2.isParen_token, e.2.is_where⟩
  cases cs with
  | nil =>
    have hnone : whereTokens [] = [] := rfl
    rw [hnone, List.append_nil, breakTopLevel_of_uncut hclosed.uncut]
  | cons c cs => exact breakTopLevel_append_cons hclosed (by decide)

theorem readUpdate_tokens (t : TableWord) (a : Assignments)
    (free : ∀ e ∈ a.items, e.1.text ≠ "updated_at") (cs : List Condition) :
    readUpdate (Change.update t a free cs).tokens = .ok (.update (Text.lowercase t.name)
      (assigned 0 a.items) (Clause.ofTokens a.values.length (whereTokens cs).tail)) := by
  have hcut : splitCommas a.setTokens
      = a.items.map fun e => [e.1.token, .comparison .eq, e.2.token] :=
    a.splitCommas_list fun e =>
      .cons rfl rfl (.cons rfl rfl (.cons e.2.isParen_token e.2.ne_comma .nil))
  have hne : a.setTokens.isEmpty = false := by
    obtain ⟨e, es, he⟩ := List.exists_cons_of_ne_nil a.nonempty
    rw [Assignments.setTokens, Assignments.list, he, List.map_cons, List.intercalate_cons_cons_left]
    rfl
  have hset : startsWith .set (.word "SET" :: (a.setTokens ++ whereTokens cs)) = true := rfl
  have htokens : (Change.update t a free cs).tokens
      = .word "UPDATE" :: .word t.name :: .word "SET" :: (a.setTokens ++ whereTokens cs) := rfl
  have hread := readAssignments_tokens (Change.update t a free cs).tokens a.items 0
  rw [Nat.zero_add] at hread
  rw [htokens] at hread ⊢
  unfold readUpdate
  simp only [Bind.bind, Except.bind, List.tail_cons, List.drop_succ_cons, List.drop_zero, hset,
    breakTopLevel_setTokens, hne, hcut, hread]
  rfl

theorem readDelete_tokens (t : TableWord) (cs : List Condition) :
    readDelete (Change.delete t cs).tokens
      = .ok (.delete (Text.lowercase t.name) (Clause.ofTokens 0 (whereTokens cs).tail)) := by
  cases cs <;> rfl

/-- What a written clause asks for under parameters that hold its values. -/
theorem bind_whereTokens (mode : Mode) (cs : List Condition) (pre post : List Value) :
    (Clause.ofTokens pre.length (whereTokens cs).tail).bind mode
      (pre ++ (cs.flatMap (·.test.values) ++ post)) = .ok (cs.map Condition.condition) := by
  have hparts : Clause.parts (whereTokens cs).tail = cs.map Condition.tokens := by
    cases cs with
    | nil => rfl
    | cons c cs =>
      have hne : (List.intercalate [.word "AND"] ((c :: cs).map Condition.tokens)).isEmpty
          = false := by
        rw [List.map_cons, Condition.tokens, List.intercalate_cons_cons_left]
        rfl
      have htail : (whereTokens (c :: cs)).tail
          = List.intercalate [.word "AND"] ((c :: cs).map Condition.tokens) := rfl
      rw [htail, Clause.parts, if_neg (by rw [hne]; decide)]
      refine splitTopLevel_intercalate (by decide) (List.cons_ne_nil _ _) fun part hp => ?_
      obtain ⟨d, _, rfl⟩ := List.mem_map.mp hp
      exact d.closed (by decide)
  rw [Clause.ofTokens, hparts]
  exact bindFragments_readParts mode cs pre post

/-! ### Records -/

namespace Assignments

variable (stamp : String)

/-- The columns take the values of their items. -/
theorem map_value_zip (es : List (Name × Item)) (pre post : List Value) :
    ((es.map fun e => e.1.text).zip (read Item.source pre.length (es.map Prod.snd))).map
      (fun (name, x) => (name, x.value (pre ++ ((es.flatMap fun e => e.2.values) ++ post)) stamp))
      = es.map fun e => (e.1.text, e.2.value stamp) := by
  induction es generalizing pre with
  | nil => rfl
  | cons e es ih =>
    have hrest := ih (pre ++ e.2.values)
    have hvalue := value_source e.2 stamp pre ((es.flatMap fun e => e.2.values) ++ post)
    rw [List.length_append, List.append_assoc] at hrest
    rw [List.flatMap_cons, List.append_assoc, List.map_cons, List.map_cons, List.map_cons, read,
      List.zip_cons_cons, List.map_cons, hrest]
    exact congrArg (fun v => (e.1.text, v) :: _) hvalue

/-- The assignments take the values of their items. -/
theorem map_value_assigned (es : List (Name × Item)) (pre post : List Value) :
    (assigned pre.length es).map
      (fun (name, x) => (name, x.value (pre ++ ((es.flatMap fun e => e.2.values) ++ post))))
      = (es.filter fun e => !e.2.isNow).map fun e => (e.1.text, e.2.value stamp) := by
  induction es generalizing pre with
  | nil => rfl
  | cons e es ih =>
    have hrest := ih (pre ++ e.2.values)
    rw [List.length_append, List.append_assoc] at hrest
    rw [List.flatMap_cons, List.append_assoc, assigned]
    cases hn : e.2.isNow with
    | true =>
      have hv : e.2.values = [] := by
        revert hn
        cases e.2 <;> simp [Item.isNow, Item.values]
      rw [hv] at hrest ⊢
      rw [if_pos rfl, List.filter_cons_of_neg (by simp [hn])]
      exact hrest
    | false =>
      have hvalue := value_operand e.2 hn stamp pre ((es.flatMap fun e => e.2.values) ++ post)
      rw [if_neg Bool.false_ne_true, List.filter_cons_of_pos (by simp [hn]), List.map_cons,
        List.map_cons, hrest]
      exact congrArg (fun v => (e.1.text, v) :: _) hvalue

variable (a : Assignments)

theorem newRecord_eq (post : List Value) :
    Statement.newRecord (a.values ++ post) stamp
      (a.names.zip (read Item.source 0 (a.items.map Prod.snd)))
      = ⟨a.newFields stamp, a.nodup_names_newFields stamp⟩ := by
  have hvalues := map_value_zip stamp a.items [] post
  have hnames : Entries.names (a.items.map fun e => (e.1.text, e.2.value stamp)) = a.names := by
    rw [Entries.names, List.map_map]
    rfl
  have hfields : (Record.ofFields (a.items.map fun e => (e.1.text, e.2.value stamp))).fields
      = a.items.map fun e => (e.1.text, e.2.value stamp) :=
    Record.fields_ofFields (by rw [hnames]; exact a.distinct)
  have hnew : (a.items.map fun e => (e.1.text, e.2.value stamp)).map
      (Statement.restamp stamp Statement.stampFields)
      = a.items.map fun e => (e.1.text, e.2.newValue stamp e.1.text) := by
    rw [List.map_map]
    refine List.map_congr_left fun e _ => ?_
    rw [Function.comp_apply, Statement.restamp, Item.newValue]
    split <;> rfl
  refine Record.ext ?_
  rw [Statement.newRecord, Statement.stamped, Statement.fields_foldl_putStamp (by decide)]
  have hrow : Record.ofFields ((a.names.zip (read Item.source 0 (a.items.map Prod.snd))).map
      fun (name, x) => (name, x.value (a.values ++ post) stamp))
      = Record.ofFields (a.items.map fun e => (e.1.text, e.2.value stamp)) :=
    congrArg Record.ofFields hvalues
  rw [hrow, hfields, hnew, hnames]
  rfl

theorem overlay_eq (post : List Value) (h : ∀ e ∈ a.items, e.1.text ≠ "updated_at") :
    Statement.overlay (a.values ++ post) stamp (assigned 0 a.items)
      = ⟨a.updateFields stamp, a.nodup_names_updateFields stamp h⟩ := by
  have hvalues := map_value_assigned stamp a.items [] post
  have hdistinct := a.nodup_names_updateFields stamp h
  rw [updateFields, Entries.names_append, List.nodup_append] at hdistinct
  have hfields := Record.fields_ofFields hdistinct.1
  have hlast : "updated_at" ∉ Entries.names
      ((a.items.filter fun e => !e.2.isNow).map fun e => (e.1.text, e.2.value stamp)) := fun hm =>
    hdistinct.2.2 _ hm _ List.mem_cons_self rfl
  refine Record.ext ?_
  have hrow : Record.ofFields ((assigned 0 a.items).map
      fun (name, x) => (name, x.value (a.values ++ post))) = _ := congrArg Record.ofFields hvalues
  rw [Statement.overlay, hrow]
  exact (congrArg (Entries.put · "updated_at" (.string stamp)) hfields).trans
    (Entries.put_of_not_mem hlast)

end Assignments

namespace Change

variable (w : Change)

/-- The statement before its parameters are bound. -/
def openStatement : Change → OpenStatement
  | .insert orIgnore t a => .insert (Text.lowercase t.name) orIgnore
    (a.names.zip (read Item.source 0 (a.items.map Prod.snd)))
  | .update t a _ cs => .update (Text.lowercase t.name) (assigned 0 a.items)
    (Clause.ofTokens a.values.length (whereTokens cs).tail)
  | .delete t cs => .delete (Text.lowercase t.name) (Clause.ofTokens 0 (whereTokens cs).tail)

theorem ofText_openStatement : OpenStatement.ofText w.text = .ok w.openStatement := by
  have hscan : scan? (Text.collapse w.text) = some w.tokens := by rw [w.collapse_text, w.scan?_text]
  have htrim : trimSemicolons w.tokens = w.tokens := by
    refine trimSemicolons_of_forall ?_
    rw [tokens, List.forall_mem_append, List.forall_mem_cons]
    exact ⟨fun t ht => (w.isInner_lead t ht).2, nofun, fun t ht => (w.isInner_rest t ht).2⟩
  rw [ofText_of_scan hscan, htrim]
  cases w with
  | insert orIgnore t a =>
    have hstart : startsWith .insert (Change.insert orIgnore t a).tokens = true := by
      cases orIgnore <;> rfl
    rw [if_pos hstart]
    exact readInsert_tokens orIgnore t a
  | update t a free cs => exact readUpdate_tokens t a free cs
  | delete t cs => exact readDelete_tokens t cs

theorem bind_openStatement (mode : Mode) (stamp : String) (post : List Value) :
    w.openStatement.bind mode (w.values ++ post) stamp = .ok (w.statement stamp) := by
  cases w with
  | insert orIgnore t a =>
    rw [openStatement, OpenStatement.bind, values, a.newRecord_eq]
    rfl
  | update t a free cs =>
    have hclause := bind_whereTokens mode cs a.values post
    rw [openStatement, OpenStatement.bind, values, List.append_assoc, hclause,
      a.overlay_eq _ _ free]
    rfl
  | delete t cs =>
    have hclause := bind_whereTokens mode cs [] post
    rw [List.nil_append, List.length_nil] at hclause
    rw [openStatement, OpenStatement.bind, values, hclause]
    rfl

/-- A written statement is read back as it was meant, whatever it writes and asks for. -/
theorem ofText_written (mode : Mode) {params : List Value} (stamp : String)
    (h : StartsWith w.values params) :
    Statement.ofText w.text mode params stamp = .ok (w.statement stamp) := by
  obtain ⟨post, hpost⟩ := h.exists_append
  have hbind : w.openStatement.bind mode params stamp
      = w.openStatement.bind mode (w.values ++ post) stamp :=
    hpost.bind_statement mode stamp (by cases w <;> exact nofun)
  rw [Statement.ofText, w.ofText_openStatement]
  exact hbind.trans (w.bind_openStatement mode stamp post)

/-- The parameters that are not given are null. -/
theorem ofText_written_short :
    let name (text : String) (plain : (Token.word text).isPlain = true) (bare : '.' ∉ text.toList)
      (free : (Token.word text).isAny keywords = false) : Name := ⟨text, plain, bare, free⟩
    let w := Change.update ⟨"Leads", "Leads", .plain (by decide)⟩
      ⟨[(name "age" (by decide) (by decide) (by decide), .integer (-5)),
        (name "note" (by decide) (by decide) (by decide), .string "O'Neil, x" (by decide)),
        (name "seen" (by decide) (by decide) (by decide), .now),
        (name "kind" (by decide) (by decide) (by decide), .param (.int 1))],
        by decide, by decide⟩ (by decide)
      [⟨⟨none, name "id" (by decide) (by decide) (by decide)⟩, .compare .ge (.int 2)⟩,
        ⟨⟨none, name "city" (by decide) (by decide) (by decide)⟩, .inSet .null [.null]⟩]
    w.text = "UPDATE Leads SET age = -5, note = 'O''Neil, x', seen = CURRENT_TIMESTAMP, kind = ?"
      ++ " WHERE id >= ? AND city IN (?, ?)" ∧
    Statement.ofText w.text .strict [.int 1, .int 2] "2024-05-01"
      = .ok (w.statement "2024-05-01") := by
  intro name w
  refine ⟨by decide, ofText_written w .strict "2024-05-01" fun k v h => ?_⟩
  rcases k with _ | _ | _ | _ | k
  all_goals
    cases h
    try rfl

end Change
end Written
end ClientRecords
