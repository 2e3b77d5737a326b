import ClientRecords.Calendar.Format
import ClientRecords.Proofs.Database.Duplicates
import ClientRecords.Proofs.Statement.Layout
import ClientRecords.Proofs.Statement.Membership
/-!
A row that is inserted under a new id and then selected by it. The insert names its columns and has
a placeholder for each value; whatever the columns are, it is scanned and read as it is written, so
the row holds the values in the order of the columns and the time stamps behind them. A select by
the id goes by its text, and so finds that row alone (`inserted_row_is_found`).
-/

namespace ClientRecords

open Token

/-- A name that needs no quotes and has no qualifier. -/
structure IsPlainName (x : String) : Prop where
  plain : (Token.word x).isPlain = true
  bare : '.' ∉ x.toList

variable {columns : List String} {values : List Value} {x : String} {t : Table} {id : Value}

theorem IsPlainName.bareField_eq (h : IsPlainName x) : bareField x = x :=
  (bareField_of_append (List.nil_append _).symm h.bare (.inl rfl)).trans String.ofList_toList

theorem DateTime.stamp_ne_empty (clock : DateTime) : clock.stamp ≠ "" := by
  intro h
  have hnil : clock.stamp.toList = [] := by rw [h]; rfl
  simp [stamp] at hnil

namespace Statement

/-- The insert of one row, with a placeholder for each column. -/
def insertText (t : Table) (columns : List String) : String :=
  "INSERT INTO " ++ t.name ++ " (" ++ ", ".intercalate columns ++ ") VALUES (" ++
    ", ".intercalate (List.replicate columns.length "?") ++ ")"

/-- The tokens of the insert from its second list on. -/
def valuesTokens (n : Nat) : List Token := .word "VALUES" :: listTokens n

/-- The tokens of the insert. -/
def insertTokens (t : Table) (columns : List String) : List Token :=
  [.word "INSERT", .word "INTO", .word t.name, .openParen] ++
    (OpenStatement.nameTokens columns ++ .closeParen :: valuesTokens columns.length)

/-- The tokens of the insert other than the columns. -/
def insertSigns (t : Table) : List Token :=
  [.word "INSERT", .word "INTO", .word t.name, .openParen, .comma, .closeParen, .word "VALUES",
    .placeholder]

/-! ### The tokens -/

theorem spell_insertTokens (t : Table) (columns : List String) :
    spell (insertTokens t columns) = ("INSERT INTO " ++ t.name ++ " (").toList ++
      spellAfter .openParen
        (OpenStatement.nameTokens columns ++ .closeParen :: valuesTokens columns.length) := by
  cases t <;> rfl

theorem toList_insertText (t : Table) (columns : List String) :
    (insertText t columns).toList = spell (insertTokens t columns) := by
  have hnames : (", ".intercalate columns).toList =
      List.intercalate [',', ' '] (columns.map fun x => (Token.word x).text.toList) := by
    rw [String.toList_intercalate]
    rfl
  have hitems : (", ".intercalate (List.replicate columns.length "?")).toList =
      List.intercalate [',', ' '] (List.replicate columns.length ['?']) := by
    rw [String.toList_intercalate, List.map_replicate]
    rfl
  have hvalues : spellAfter .closeParen (valuesTokens columns.length) =
      " VALUES (".toList ++ (List.intercalate [',', ' '] (List.replicate columns.length ['?'])
        ++ [')']) := by
    rw [← spellAfter_placeholders]
    rfl
  have hlist : spellAfter .openParen
      (OpenStatement.nameTokens columns ++ .closeParen :: valuesTokens columns.length) =
      (", ".intercalate columns).toList
        ++ ')' :: spellAfter .closeParen (valuesTokens columns.length) := by
    have h := @spellAfter_list (valuesTokens columns.length) (columns.map Token.word)
      (List.forall_mem_map.mpr fun _ _ => rfl)
    rw [List.map_map, List.map_map] at h
    exact hnames ▸ h
  rw [spell_insertTokens, hlist, hvalues, ← hitems]
  unfold insertText
  simp only [String.toList_append, List.append_assoc]
  rfl

/-- What holds of the columns and of the other tokens holds of every token. -/
theorem forall_mem_insertTokens {p : Token → Prop} (hcolumns : ∀ c ∈ columns, p (.word c))
    (hsigns : ∀ u ∈ insertSigns t, p u) : ∀ u ∈ insertTokens t columns, p u := by
  have hcomma : p .comma := hsigns _ (by simp [insertSigns])
  intro u hu
  simp only [insertTokens, valuesTokens, listTokens, List.mem_append, List.mem_cons,
    List.not_mem_nil, or_false] at hu
  rcases hu with hlead | hnames | rfl | rfl | rfl | hitems | rfl
  · refine hsigns u ?_
    simp only [insertSigns, List.mem_cons]
    tauto
  · rcases mem_intercalate hnames with h | ⟨part, hpart, h⟩
    · rw [List.mem_singleton.mp h]
      exact hcomma
    · obtain ⟨c, hc, rfl⟩ := List.mem_map.mp hpart
      rw [List.mem_singleton.mp h]
      exact hcolumns c hc
  · exact hsigns _ (by simp [insertSigns])
  · exact hsigns _ (by simp [insertSigns])
  · exact hsigns _ (by simp [insertSigns])
  · have hmem := mem_placeholders hitems
    refine hsigns u ?_
    simp only [insertSigns, List.mem_cons] at hmem ⊢
    tauto
  · exact hsigns _ (by simp [insertSigns])

theorem scan?_insertText (h : ∀ c ∈ columns, IsPlainName c) :
    scan? (Text.collapse (insertText t columns)) = some (insertTokens t columns) := by
  have hplain : ∀ u ∈ insertTokens t columns, u.isPlain = true :=
    forall_mem_insertTokens (fun c hc => (h c hc).plain) (by cases t <;> decide)
  have hword : ∀ u ∈ insertTokens t columns, ∀ w, u ≠ .string w :=
    forall_mem_insertTokens (fun _ _ => nofun) fun u hu w hw => by
      subst hw
      simp [insertSigns] at hu
  have hcollapse : Text.collapse (insertText t columns) = insertText t columns :=
    collapse_of_spell (toList_insertText t columns) (List.cons_ne_nil _ _) hplain hword
  have hscan := scan?_spell hplain
  rw [← toList_insertText, String.ofList_toList] at hscan
  rw [hcollapse, hscan]

/-! ### The record -/

/-- Placeholders take the parameters in order. -/
theorem sources?_placeholders (n : Nat) : ∀ next,
    OpenStatement.sources? next (List.replicate n [.placeholder])
      = some ((List.range' next n).map fun k => .operand (.param k)) := by
  induction n with
  | zero => exact fun _ => rfl
  | succ n ih =>
    intro next
    rw [List.replicate_succ, OpenStatement.sources?, ih (next + 1)]
    rfl

/-- As many placeholders as there are columns give each column the parameter of its number. -/
theorem fieldSources_placeholders (hne : columns ≠ []) :
    OpenStatement.fieldSources columns (splitCommas (List.intercalate [.comma]
      (List.replicate columns.length [.placeholder])))
    = columns.zip ((List.range' 0 columns.length).map fun k => .operand (.param k)) := by
  have hsplit : splitCommas (List.intercalate [.comma] (List.replicate columns.length
      [Token.placeholder])) = List.replicate columns.length [.placeholder] := by
    refine splitTopLevel_intercalate rfl (by simpa using hne) fun part hpart => ?_
    obtain rfl := List.eq_of_mem_replicate hpart
    exact .cons rfl rfl .nil
  simp [OpenStatement.fieldSources, hsplit, sources?_placeholders]

theorem ofText_insertText (t : Table) (hne : columns ≠ []) (h : ∀ c ∈ columns, IsPlainName c) :
    OpenStatement.ofText (insertText t columns) = .ok (.insert t.name false (columns.zip
      ((List.range' 0 columns.length).map fun k => .operand (.param k)))) := by
  have htrim : OpenStatement.trimSemicolons (insertTokens t columns) = insertTokens t columns := by
    refine OpenStatement.trimSemicolons_of_getLast? ?_
    simp [insertTokens, valuesTokens, listTokens, List.getLast?_cons, List.getLast?_append]
  have hflat : ∀ u ∈ List.intercalate [Token.comma] (List.replicate columns.length [.placeholder]),
      u.isParen = false := fun u hu => by
    have hsigns : ∀ w ∈ [Token.comma, .placeholder], w.isParen = false := by decide
    exact hsigns u (mem_placeholders hu)
  have hbalanced := (parenthesised?_eq_some_iff.mp (parenthesised?_append hflat [])).2
  have hbare : columns.map bareField = columns :=
    (List.map_congr_left fun c hc => (h c hc).bareField_eq).trans (List.map_id _)
  have hname : Text.lowercase t.name = t.name := by cases t <;> decide
  have hread : OpenStatement.readInsert (insertTokens t columns) = .ok (.insert
      (Text.lowercase t.name) false (OpenStatement.fieldSources (columns.map bareField)
        (splitCommas _))) :=
    OpenStatement.readInsert_layout .none (by decide) hne (by decide) hbalanced
  have hinsert : Token.is .insert (.word "INSERT") = true := by decide
  have hstart : OpenStatement.startsWith .insert (insertTokens t columns) = true := hinsert
  rw [OpenStatement.ofText_of_scan (scan?_insertText h), htrim, if_pos hstart, hread, hname, hbare,
    fieldSources_placeholders hne]

/-- The record of the insert: the values in the order of the columns, with its time stamps. -/
theorem newRecord_zip (now : String) (hn : values.length = columns.length) :
    newRecord values now (columns.zip ((List.range' 0 columns.length).map
      fun k => .operand (.param k))) = stamped now (Record.ofFields (columns.zip values)) := by
  have hvalues : ((List.range' 0 columns.length).map fun k => FieldSource.operand (.param k)).map
      (FieldSource.value values now) = values := by
    have h := Operand.map_value_range values [] []
    rw [List.append_nil, List.nil_append, List.length_nil, hn] at h
    rw [List.map_map]
    exact h
  have hzip : (columns.zip ((List.range' 0 columns.length).map
      fun k => FieldSource.operand (.param k))).map (Prod.map id (FieldSource.value values now))
      = columns.zip values :=
    List.zip_map_right.symm.trans (congrArg columns.zip hvalues)
  exact congrArg (fun fields => stamped now (Record.ofFields fields)) hzip

end Statement

namespace Document

theorem execute_insertText (d : Document) (t : Table) (mode : Mode) (now : String)
    (hne : columns ≠ []) (h : ∀ c ∈ columns, IsPlainName c)
    (hn : values.length = columns.length) :
    d.execute mode now (Statement.insertText t columns) values
      = .ok ⟨[], some (d.append t (Statement.stamped now (Record.ofFields (columns.zip values))))⟩
      := by
  rw [execute_of_read (Statement.ofText_insertText t hne h), OpenStatement.bind,
    Statement.newRecord_zip now hn]
  exact write_name t _

/-- A select by the id goes by its text. -/
theorem execute_byId (d : Document) (t : Table) (mode : Mode) (now : String) (id : Value) :
    d.execute mode now (Statement.Use.list.statement t "id = ?") [id]
      = .ok ⟨(d.rowsOf t).filter (Statement.hasTextOf "id" id), none⟩ := by
  have hs : scan? "id = ?" = some [.word "id", .comparison .eq, .placeholder] := by cbv
  have hselect := Statement.Use.execute_statement d t mode now [id] (by decide) hs
    ⟨by decide, by decide⟩ .list
  have hconditions : (Clause.ofTokens 0 (OpenStatement.trimSemicolons (parted
      [.word "id", .comparison .eq, .placeholder]))).bind mode [id]
      = .ok [⟨"id", .compare .eq id⟩] := by
    cases mode <;> rfl
  rw [hselect, hconditions]
  simp only [Statement.Use.outcome, Statement.satisfies_byName]

end Document

namespace Database

/-- After a row is inserted under an id that no row of its table has, a select by the id finds that
row and no other. It holds the values under their columns in order, then the time stamps that are no
columns; a time stamp is what the row was given if that is truthy, and the time of the insert
otherwise. It is the last row of its table, and nothing else is changed. -/
theorem inserted_row_is_found (db : Database) (t : Table) (now later : DateTime)
    (hdistinct : columns.Nodup) (hplain : ∀ c ∈ columns, IsPlainName c)
    (hlength : values.length = columns.length) (hid : ("id", id) ∈ columns.zip values)
    (hnew : ∀ row ∈ db.document.rowsOf t, (row.get? "id").elim "" Value.text ≠ id.text) :
    now.stamp ≠ "" ∧ ∃ next r,
      db.execute now.stamp (Statement.insertText t columns) values = (.ok [], next) ∧
      db.Appends next t r ∧
      r.fields = (columns.zip values).map (Statement.restamp now.stamp Statement.stampFields)
        ++ (Statement.stampFields.filter (· ∉ columns)).map
          (fun name => (name, .string now.stamp)) ∧
      next.execute later.stamp (Statement.Use.list.statement t "id = ?") [id]
        = (.ok [r], next) := by
  have hne : columns ≠ [] := by
    rintro rfl
    cases hid
  have hfields := @Statement.fields_stamped_zip now.stamp columns values hdistinct hlength
  have hinsert := db.document.execute_insertText t db.mode now.stamp hne hplain hlength
  generalize Statement.stamped now.stamp (Record.ofFields (columns.zip values)) = r
    at hfields hinsert
  have happends := appends_replace db t r
  have hfound : r.get? "id" = some id := by
    refine Entries.get?_of_mem r.distinct ?_
    rw [hfields]
    have hstamp : "id" ∉ Statement.stampFields := by decide
    exact List.mem_append_left _ (List.mem_map.mpr ⟨_, hid, if_neg fun h => hstamp h.1⟩)
  refine ⟨now.stamp_ne_empty, db.replace (db.document.append t r), r, ?_, happends, hfields, ?_⟩
  · exact execute_of_ok hinsert
  · have hold : (db.document.rowsOf t).filter (Statement.hasTextOf "id" id) = [] :=
      List.filter_eq_nil_iff.mpr fun row hrow => by
        simpa [Statement.hasTextOf] using hnew row hrow
    have hlast : Statement.hasTextOf "id" id r = true := by simp [Statement.hasTextOf, hfound]
    rw [execute_eq, Document.execute_byId, happends.rows, List.filter_append, hold,
      List.filter_cons_of_pos hlast]
    rfl

/-- The columns are in an order of their own, the id is a number, and one time stamp is given as
null. -/
theorem lead_inserted_and_found :
    let rows := [Record.ofFields [("id", .string "l1")], Record.ofFields [("name", .int 7)]]
    let db : Database := ⟨Document.new.setRows .leads rows, .strict, .memory 0⟩
    let columns := ["name", "id", "created_at"]
    let values := [.string "Ann", .int 7, .null]
    let now : DateTime := ⟨19844, 43200, 0⟩
    let later : DateTime := ⟨19845, 0, 0⟩
    let stamp := Value.string now.stamp
    Statement.insertText .leads columns =
        "INSERT INTO leads (name, id, created_at) VALUES (?, ?, ?)" ∧
      columns.Nodup ∧ (∀ c ∈ columns, IsPlainName c) ∧ values.length = columns.length ∧
      ("id", .int 7) ∈ columns.zip values ∧
      (∀ row ∈ db.document.rowsOf .leads, (row.get? "id").elim "" Value.text ≠ "7") ∧
      ∃ next r,
        db.execute now.stamp (Statement.insertText .leads columns) values = (.ok [], next) ∧
        db.Appends next .leads r ∧
        r.fields = [("name", .string "Ann"), ("id", .int 7), ("created_at", stamp),
          ("updated_at", stamp)] ∧
        next.execute later.stamp (Statement.Use.list.statement .leads "id = ?") [.int 7]
          = (.ok [r], next) := by
  intro rows db columns values now later stamp
  have hdistinct : columns.Nodup := by decide
  have hplain : ∀ c ∈ columns, IsPlainName c := by
    intro c hc
    have hall : ∀ c ∈ columns, (Token.word c).isPlain = true ∧ '.' ∉ c.toList := by decide
    exact ⟨(hall c hc).1, (hall c hc).2⟩
  have hid : ("id", .int 7) ∈ columns.zip values := by decide
  have hnew : ∀ row ∈ db.document.rowsOf .leads,
      (row.get? "id").elim "" Value.text ≠ (Value.int 7).text := by decide +kernel
  obtain ⟨-, next, r, hinsert, happends, hfields, hselect⟩ :=
    inserted_row_is_found db .leads now later hdistinct hplain rfl hid hnew
  have htext : Statement.insertText .leads columns =
      "INSERT INTO leads (name, id, created_at) VALUES (?, ?, ?)" := by decide
  exact ⟨htext, hdistinct, hplain, rfl, hid, hnew, next, r, hinsert, happends, hfields, hselect⟩

end Database
end ClientRecords
