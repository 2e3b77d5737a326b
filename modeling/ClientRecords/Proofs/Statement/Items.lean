import ClientRecords.Proofs.Condition.Positions
import ClientRecords.Proofs.Statement.Execution
import ClientRecords.Proofs.Statement.Reader
import ClientRecords.Proofs.Statement.Stamps
/-!
Where the fields of a new row come from. Each column takes the value of its own item: a spelled out
value, the current time, or the parameter whose number is the number of placeholders before it in
the whole statement. This holds as long as every item is one of these and there are as many items
as columns. One other item among them, and all columns take the parameters in order instead, those
whose own items are placeholders or spelled out values as well (`ColumnValues`).
-/

namespace ClientRecords

open Token

/-- The items of a list of values that stand for a value. -/
inductive IsItem : List Token → Prop
  | placeholder : IsItem [.placeholder]
  | stamp {t : Token} (ht : t.is .currentTimestamp = true) : IsItem [t]
  | literal {t : Token} {v : Value} (ht : t.literal? = some v) : IsItem [t]

/-- The value of an item that stands behind other tokens of its statement. -/
inductive Supplies (params : List Value) (stamp : String) (before : List Token) :
    Token → Value → Prop
  | operand {t : Token} {v : Value} (hv : Gives params before t v) :
      Supplies params stamp before t v
  | stamp {t : Token} (ht : t.is .currentTimestamp = true) :
      Supplies params stamp before t (.string stamp)

/-- The values of a list of items with commas between them. -/
inductive Fills (params : List Value) (stamp : String) :
    List Token → List Token → List Value → Prop
  | last {before : List Token} {t : Token} {v : Value} (ht : Supplies params stamp before t v) :
      Fills params stamp before [t] [v]
  | step {before rest : List Token} {t : Token} {v : Value} {vs : List Value}
      (ht : Supplies params stamp before t v)
      (hr : Fills params stamp (before ++ [t, .comma]) rest vs) :
      Fills params stamp before (t :: .comma :: rest) (v :: vs)

/-- The values of the columns of an insert: those of the items, or the parameters in order if the
items are not as many as the columns or one of them stands for no value. -/
inductive ColumnValues (params : List Value) (stamp : String) (before items : List Token)
    (count : Nat) : List Value → Prop
  | items {vs : List Value} (hn : vs.length = count) (h : Fills params stamp before items vs) :
      ColumnValues params stamp before items count vs
  | params
      (h : (splitCommas items).length ≠ count ∨ ∃ item ∈ splitCommas items, ¬ IsItem item) :
      ColumnValues params stamp before items count
        ((List.range count).map fun k => params.getD k .null)

/-- The parts of an insert: what stands before its items, its columns and its items. Columns and
items end at the parenthesis that closes the one before them. -/
inductive InsertParts (ts : List Token) : List Token → List String → List Token → Prop
  | mk {words columnTokens values items rest : List Token} {v : Token} {columns : List String}
      (hts : ts = words ++ .openParen :: (columnTokens ++ .closeParen :: v :: values))
      (hw : ∀ t ∈ words, ∃ w, t = .word w)
      (hp : parenthesised? (.openParen :: (columnTokens ++ .closeParen :: v :: values))
        = some (columnTokens, v :: values))
      (hc : (splitCommas columnTokens).mapM OpenStatement.column? = some columns)
      (hq : parenthesised? values = some (items, rest)) :
      InsertParts ts (words ++ .openParen :: (columnTokens ++ [.closeParen, v, .openParen]))
        columns items

variable {params : List Value} {stamp : String} {before part ts items : List Token}
  {parts : List (List Token)} {columns : List String} {xs : List FieldSource} {vs : List Value}
  {next count : Nat}

/-! ### The parts of an insert -/

theorem Token.exists_word_of_is {t : Token} {k : Keyword} (h : t.is k = true) :
    ∃ w, t = .word w := by
  cases t with
  | word w => exact ⟨w, rfl⟩
  | _ => cases h

theorem words_inj {as bs cs ds : List Token} (ha : ∀ t ∈ as, ∃ w, t = .word w)
    (hb : ∀ t ∈ bs, ∃ w, t = .word w) (h : as ++ .openParen :: cs = bs ++ .openParen :: ds) :
    as = bs ∧ cs = ds := by
  induction as generalizing bs with
  | nil =>
    cases bs with
    | nil => exact ⟨rfl, (List.cons.inj h).2⟩
    | cons t bs =>
      obtain ⟨w, rfl⟩ := hb t List.mem_cons_self
      cases h
  | cons t as ih =>
    obtain ⟨⟨w, rfl⟩, has⟩ := List.forall_mem_cons.mp ha
    cases bs with
    | nil => cases h
    | cons u bs =>
      obtain ⟨rfl, htail⟩ := List.cons.inj h
      obtain ⟨rfl, hrest⟩ := ih has (List.forall_mem_cons.mp hb).2 htail
      exact ⟨rfl, hrest⟩

/-- A statement has the parts of an insert in one way. -/
theorem InsertParts.unique {other more : List Token} {names : List String}
    (h : InsertParts ts before columns items) (h' : InsertParts ts other names more) :
    before = other ∧ columns = names ∧ items = more := by
  obtain @⟨_, _, _, _, _, _, _, rfl, hw, hp, hc, hq⟩ := h
  obtain @⟨_, _, _, _, _, _, _, hts, hw', hp', hc', hq'⟩ := h'
  obtain ⟨rfl, hrest⟩ := words_inj hw hw' hts
  rw [hrest] at hp
  obtain ⟨rfl, htail⟩ := Prod.mk.inj (Option.some.inj (hp.symm.trans hp'))
  obtain ⟨rfl, rfl⟩ := List.cons.inj htail
  obtain ⟨rfl, -⟩ := Prod.mk.inj (Option.some.inj (hq.symm.trans hq'))
  obtain rfl := Option.some.inj (hc.symm.trans hc')
  exact ⟨rfl, rfl, rfl⟩

namespace OpenStatement

/-! ### The items -/

theorem ReadsSources.length_eq (h : ReadsSources next parts xs) : xs.length = parts.length := by
  induction h with
  | nil => rfl
  | param _ ih | stamp _ _ ih | literal _ _ ih => rw [List.length_cons, List.length_cons, ih]

theorem eq_none_of_bind_cons {x : FieldSource} {xs : Option (List FieldSource)}
    (h : (xs.bind fun xs => some (x :: xs)) = none) : xs = none := by
  cases xs with
  | none => rfl
  | some xs => cases h

/-- Items are not read only if one of them stands for no value. -/
theorem exists_not_isItem (h : sources? next parts = none) : ∃ part ∈ parts, ¬ IsItem part := by
  fun_induction sources? next parts
  case case1 => cases h
  case case2 next items ih =>
    obtain ⟨part, hmem, hnot⟩ := ih (Option.map_eq_none_iff.mp h)
    exact ⟨part, List.mem_cons_of_mem _ hmem, hnot⟩
  case case3 ih =>
    obtain ⟨part, hmem, hnot⟩ := ih (eq_none_of_bind_cons h)
    exact ⟨part, List.mem_cons_of_mem _ hmem, hnot⟩
  case case4 next t items hp _ ht ih =>
    cases hv : t.literal? with
    | none =>
      refine ⟨[t], List.mem_cons_self, ?_⟩
      rintro (_ | h | h)
      · exact hp rfl
      · exact ht h
      · rw [hv] at h
        cases h
    | some v =>
      rw [hv] at h
      obtain ⟨part, hmem, hnot⟩ := ih (eq_none_of_bind_cons h)
      exact ⟨part, List.mem_cons_of_mem _ hmem, hnot⟩
  case case5 _ parts hnil hplaceholder hsingle =>
    obtain ⟨part, rest, rfl⟩ := List.exists_cons_of_ne_nil hnil
    refine ⟨part, List.mem_cons_self, ?_⟩
    rintro (_ | _ | _)
    · exact hplaceholder rest rfl
    · exact hsingle _ rest rfl
    · exact hsingle _ rest rfl

/-- The first item supplies what is read from it, and the others are read from behind it. -/
theorem ReadsSources.exists_supplies
    (h : ReadsSources (placeholders before) (part :: parts) xs) :
    ∃ t x zs, part = [t] ∧ xs = x :: zs ∧ Supplies params stamp before t (x.value params stamp) ∧
      ReadsSources (placeholders (before ++ [t])) parts zs := by
  cases h with
  | @param _ _ zs hr =>
    refine ⟨.placeholder, _, zs, rfl, rfl, .operand .param, ?_⟩
    rw [placeholders_append]
    exact hr
  | @stamp _ t _ zs ht hr =>
    refine ⟨t, _, zs, rfl, rfl, .stamp ht, ?_⟩
    rw [placeholders_append, placeholders_of_is ht]
    exact hr
  | @literal _ t v _ zs ht hr =>
    refine ⟨t, _, zs, rfl, rfl, .operand (.literal ht), ?_⟩
    rw [placeholders_append, placeholders_of_literal? ht]
    exact hr

/-- Items that are read from the number of placeholders before them on supply what is read. The
induction is on the parts that the list is cut into. -/
theorem ReadsSources.fills (hcut : CutInto (· == .comma) ts parts)
    (h : ReadsSources (placeholders before) parts xs) :
    Fills params stamp before ts (xs.map (·.value params stamp)) := by
  induction hcut generalizing before xs with
  | last =>
    obtain ⟨t, x, zs, rfl, rfl, ht, hr⟩ := h.exists_supplies
    cases hr
    exact .last ht
  | @step _ rest sep parts _ hs _ ih =>
    obtain rfl := eq_comma_of_cuts hs
    obtain ⟨t, x, zs, rfl, rfl, ht, hr⟩ := h.exists_supplies
    have hnext : placeholders (before ++ [t]) = placeholders (before ++ [t, .comma]) := by
      rw [placeholders_append, placeholders_append]
      cases t <;> rfl
    rw [hnext] at hr
    exact .step ht (ih hr)

/-- The columns of a new row with the values that they take. -/
theorem exists_columnValues (hn : placeholders before = 0) (columns : List String)
    (items : List Token) : ∃ vs, ColumnValues params stamp before items columns.length vs ∧
      (fieldSources columns (splitCommas items)).map (fun (name, x) => (name, x.value params stamp))
        = columns.zip vs := by
  have hzip (xs : List FieldSource) :
      (columns.zip xs).map (fun (name, x) => (name, x.value params stamp))
        = columns.zip (xs.map (·.value params stamp)) := List.zip_map_right.symm
  have horder : (columns.mapIdx fun k name => (name, FieldSource.operand (.param k))).map
        (fun (name, x) => (name, x.value params stamp))
      = columns.zip ((List.range columns.length).map fun k => params.getD k .null) := by
    refine List.ext_getElem (by simp) fun k _ _ => ?_
    simp [FieldSource.value, Operand.value]
  rw [fieldSources]
  cases hs : sources? 0 (splitCommas items) with
  | none => exact ⟨_, .params (.inr (exists_not_isItem hs)), horder⟩
  | some xs =>
    have hr := readsSources_of_sources? hs
    dsimp only
    -- the reader compares the number of values, which is that of the items
    by_cases hlen : xs.length = columns.length
    · rw [if_pos hlen]
      rw [← hn] at hr
      have hfills : Fills params stamp before items (xs.map (·.value params stamp)) :=
        hr.fills (cutInto_splitTopLevel _ items)
      exact ⟨_, .items (by rw [List.length_map, hlen]) hfills, hzip xs⟩
    · rw [if_neg hlen]
      rw [hr.length_eq] at hlen
      exact ⟨_, .params (.inl hlen), horder⟩

/-! ### The tokens before the items -/

theorem placeholders_words (h : ∀ t ∈ ts, ∃ w, t = .word w) : placeholders ts = 0 := by
  refine List.countP_eq_zero.mpr fun t ht => ?_
  obtain ⟨w, rfl⟩ := h t ht
  simp

theorem eq_word_of_column? {name : String} (h : column? part = some name) :
    ∃ w, part = [.word w] := by
  unfold column? at h
  split at h
  · exact ⟨_, rfl⟩
  · cases h

theorem total_placeholders_columns (h : parts.mapM column? = some columns) :
    total (parts.map placeholders) = 0 := by
  induction parts generalizing columns with
  | nil => rfl
  | cons part parts ih =>
    rw [List.mapM_cons] at h
    obtain ⟨name, hname, h⟩ := Option.bind_eq_some_iff.mp h
    obtain ⟨names, hnames, -⟩ := Option.bind_eq_some_iff.mp h
    obtain ⟨w, rfl⟩ := eq_word_of_column? hname
    rw [List.map_cons, total, ih hnames]
    rfl

/-- The columns of an insert hold no placeholders. -/
theorem placeholders_columns (h : (splitCommas ts).mapM column? = some columns) :
    placeholders ts = 0 := by
  have hcomma : ∀ t : Token, (t == .comma) = true → placeholders [t] = 0 := by
    intro t ht
    rw [beq_iff_eq.mp ht]
    rfl
  rw [← Clause.total_placeholders_of_cutInto hcomma (cutInto_splitTopLevel _ ts)]
  exact total_placeholders_columns h

theorem Modifier.words {orIgnore : Bool} {modifier : List Token} (h : Modifier orIgnore modifier) :
    ∀ t ∈ modifier, ∃ w, t = .word w := by
  cases h with
  | none => simp
  | orIgnore ho hi => simp [exists_word_of_is ho, exists_word_of_is hi]

/-- The tokens of an insert up to its table are words. -/
theorem Modifier.words_up_to {i n : Token} {orIgnore : Bool} {modifier : List Token}
    (h : Modifier orIgnore modifier) (hi : i.is .insert = true) (hn : n.is .into = true)
    (table : String) : ∀ t ∈ i :: (modifier ++ [n, .word table]), ∃ w, t = .word w := by
  simp only [List.mem_cons, List.mem_append, List.not_mem_nil, or_false]
  rintro t (rfl | ht | rfl | rfl)
  · exact exists_word_of_is hi
  · exact h.words t ht
  · exact exists_word_of_is hn
  · exact ⟨table, rfl⟩

theorem ReadsInsert.exists_parts {all : List Token} {table : String} {orIgnore : Bool}
    {fields : List (String × FieldSource)} (h : ReadsInsert all (.insert table orIgnore fields)) :
    ∃ before columns items, InsertParts all before columns items ∧ placeholders before = 0 ∧
      fields = fieldSources columns (splitCommas items) := by
  cases h with
  | @mk i n v modifier columnTokens _ items _ _ w columns hall hi hm hn hp hc hv hq =>
    have hwords : ∀ t ∈ i :: (modifier ++ [n, .word w]), ∃ w, t = .word w := hm.words_up_to hi hn w
    have hlead : placeholders (columnTokens ++ [.closeParen, v, .openParen]) = 0 := by
      rw [placeholders_append, placeholders_columns hc, placeholders_cons_of rfl,
        placeholders_cons_of_is hv]
      rfl
    refine ⟨_, columns, items, .mk (by simp [hall]) hwords hp hc hq, ?_, rfl⟩
    rw [placeholders_append, placeholders_words hwords, placeholders_cons_of rfl, hlead]

end OpenStatement

theorem ColumnValues.length_eq (h : ColumnValues params stamp before items count vs) :
    vs.length = count := by
  cases h with
  | items hn => exact hn
  | params => simp

namespace Statement

/-- The record of a new row whose columns are distinct. -/
theorem fields_stamped_zip (hc : columns.Nodup) (hn : vs.length = columns.length) :
    (stamped stamp (Record.ofFields (columns.zip vs))).fields
      = (columns.zip vs).map (restamp stamp stampFields)
        ++ (stampFields.filter (· ∉ columns)).map fun name => (name, .string stamp) := by
  have hnames : Entries.names (columns.zip vs) = columns := List.map_fst_zip (Nat.le_of_eq hn.symm)
  have hfields : (Record.ofFields (columns.zip vs)).fields = columns.zip vs :=
    Record.fields_ofFields (hnames.symm ▸ hc)
  rw [stamped, fields_foldl_putStamp (by decide), hfields, hnames]

/-- The columns of an insert take the values of their items one by one, unless one item stands for
no value or they are not as many; then they take the parameters in order. A time stamp is written in
place of what is not truthy, and behind the columns if none holds it. -/
theorem inserts_take_items {source table : String} {mode : Mode} {orIgnore : Bool}
    {record : Record} (h : ofText source mode params stamp = .ok (.insert table orIgnore record)) :
    ∃ tokens before columns items, scan? (Text.collapse source) = some tokens ∧
      InsertParts (OpenStatement.trimSemicolons tokens) before columns items ∧
      (columns.Nodup → ∃ vs, ColumnValues params stamp before items columns.length vs ∧
        record.fields = (columns.zip vs).map (restamp stamp stampFields)
          ++ (stampFields.filter (· ∉ columns)).map fun name => (name, .string stamp)) := by
  obtain ⟨tokens, _, hscan, hr, hb⟩ := exists_of_ofText h
  obtain ⟨_, _, fields⟩ | _ | _ | _ := hb
  cases hr with
  | insert h =>
    obtain ⟨before, columns, items, hparts, hbefore, rfl⟩ := h.exists_parts
    refine ⟨tokens, before, columns, items, hscan, hparts, fun hc => ?_⟩
    obtain ⟨vs, hvs, hfields⟩ := OpenStatement.exists_columnValues hbefore columns items
    refine ⟨vs, hvs, ?_⟩
    rw [newRecord, hfields]
    exact fields_stamped_zip hc hvs.length_eq
  | update h => cases h
  | delete h => cases h

theorem inserts_take_items_missing :
    let params := [Value.string "l1"]
    let source := "INSERT INTO leads (id, status, created_at) VALUES (?, 'New', ?)"
    let columns := ["id", "status", "created_at"]
    let record := Record.ofFields [("id", .string "l1"), ("status", .string "New"),
      ("created_at", .string "now"), ("updated_at", .string "now")]
    ofText source .strict params "now" = .ok (.insert "leads" false record) ∧
      ∃ tokens before items vs, scan? (Text.collapse source) = some tokens ∧
        InsertParts (OpenStatement.trimSemicolons tokens) before columns items ∧
        ColumnValues params "now" before items columns.length vs ∧
        record.fields = (columns.zip vs).map (restamp "now" stampFields)
          ++ (stampFields.filter (· ∉ columns)).map fun name => (name, .string "now") := by
  intro params source columns record
  have hscan : scan? (Text.collapse source) = some [.word "INSERT", .word "INTO", .word "leads",
      .openParen, .word "id", .comma, .word "status", .comma, .word "created_at", .closeParen,
      .word "VALUES", .openParen, .placeholder, .comma, .string "New", .comma, .placeholder,
      .closeParen] := by
    simp only [source]
    cbv
  have hparse : ofText source .strict params "now" = .ok (.insert "leads" false record) := by
    rw [ofText, OpenStatement.ofText_of_scan hscan]
    rfl
  obtain ⟨tokens, before, names, items, htokens, hparts, hvalues⟩ := inserts_take_items hparse
  obtain rfl := Option.some.inj (hscan.symm.trans htokens)
  have hlist : (splitCommas [.word "id", .comma, .word "status", .comma, .word "created_at"]).mapM
      OpenStatement.column? = some columns := by decide
  obtain ⟨-, rfl, -⟩ := hparts.unique
    (@InsertParts.mk _ [.word "INSERT", .word "INTO", .word "leads"] _ _ _ _ _ _ rfl (by simp) rfl
      hlist rfl)
  obtain ⟨vs, hvs, hfields⟩ := hvalues (by decide)
  exact ⟨hparse, _, before, items, vs, hscan, hparts, hvs, hfields⟩

/-- Beside an item that stands for no value a spelled out one is lost: its column takes the
parameter of its own number. -/
theorem literal_lost_beside_call :
    let source := "INSERT INTO tasks (title, id) VALUES ('Call', lower('T1'))"
    let call : List Token := [.word "lower", .openParen, .string "T1", .closeParen]
    let record := Record.ofFields [("title", .null), ("id", .null), ("created_at", .string "now"),
      ("updated_at", .string "now")]
    ofText source .strict [] "now" = .ok (.insert "tasks" false record) ∧
      ∃ tokens before items, scan? (Text.collapse source) = some tokens ∧
        InsertParts (OpenStatement.trimSemicolons tokens) before ["title", "id"] items ∧
        splitCommas items = [[.string "Call"], call] ∧
        (Token.string "Call").literal? = some (.string "Call") ∧
        record.get? "title" ≠ some (.string "Call") := by
  intro source call record
  have hscan : scan? (Text.collapse source) = some [.word "INSERT", .word "INTO", .word "tasks",
      .openParen, .word "title", .comma, .word "id", .closeParen, .word "VALUES", .openParen,
      .string "Call", .comma, .word "lower", .openParen, .string "T1", .closeParen,
      .closeParen] := by
    simp only [source]
    cbv
  have hlist : (splitCommas [.word "title", .comma, .word "id"]).mapM OpenStatement.column?
      = some ["title", "id"] := by decide
  refine ⟨?_, _, _, _, hscan, @InsertParts.mk _ [.word "INSERT", .word "INTO", .word "tasks"] _ _ _
    _ _ _ rfl (by simp) rfl hlist rfl, rfl, rfl, by decide⟩
  rw [ofText, OpenStatement.ofText_of_scan hscan]
  rfl

end Statement
end ClientRecords
