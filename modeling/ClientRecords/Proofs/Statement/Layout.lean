import ClientRecords.Proofs.Statement.Execution
import ClientRecords.Proofs.Statement.Items
import ClientRecords.Proofs.Token.Parentheses
/-!
The layout of an insert. The reader goes from word to word and takes two groups of tokens, so a text
that starts with `INSERT` is accepted exactly if its tokens are laid out as an insert up to the end
of the second group, and is malformed otherwise (`insert_accepted_iff`). What stands behind that
group is not looked at: further rows of values are lost without an error.
-/

namespace ClientRecords

open Token

namespace OpenStatement

/-- Names with commas between them. -/
def nameTokens (names : List String) : List Token :=
  List.intercalate [.comma] (names.map fun w => [.word w])

/-- The tokens of an insert with those behind its values: `INSERT [OR IGNORE] INTO`, a table, the
names of the columns within parentheses, `VALUES` and a group of items. -/
inductive InsertLayout : List Token → List Token → Prop
  | mk {i n v : Token} {modifier items rest : List Token} {orIgnore : Bool} {table : String}
      {columns : List String} (hi : i.is .insert = true) (hm : Modifier orIgnore modifier)
      (hn : n.is .into = true) (hc : columns ≠ []) (hv : v.is .values = true)
      (hb : Balanced items) :
    InsertLayout (i :: (modifier ++ n :: .word table :: .openParen :: (nameTokens columns ++
      .closeParen :: v :: .openParen :: (items ++ .closeParen :: rest)))) rest

variable {all ts rest more : List Token} {columns names : List String} {orIgnore : Bool}
  {modifier : List Token} {e : StoreError}

/-! ### Names -/

theorem isParen_of_mem_nameTokens {t : Token} (h : t ∈ nameTokens names) : t.isParen = false := by
  rcases mem_intercalate h with h | ⟨part, hp, h⟩
  · rw [List.mem_singleton.mp h]
    rfl
  · obtain ⟨w, _, rfl⟩ := List.mem_map.mp hp
    rw [List.mem_singleton.mp h]
    rfl

theorem mapM_column?_nameTokens (h : names ≠ []) :
    (splitCommas (nameTokens names)).mapM column? = some (names.map bareField) := by
  have hcut : splitCommas (nameTokens names) = names.map fun w => [.word w] := by
    refine splitTopLevel_intercalate rfl (by simpa using h) fun part hp => ?_
    obtain ⟨w, _, rfl⟩ := List.mem_map.mp hp
    exact .cons rfl rfl .nil
  have hcolumn : (column? ∘ fun w => [Token.word w]) = fun w => some (bareField w) := rfl
  rw [hcut, List.mapM_map, hcolumn]
  exact List.mapM_pure

/-- Parts with commas between them are the list that they are cut from. -/
theorem intercalate_of_cutInto {parts : List (List Token)} (h : CutInto (· == .comma) ts parts) :
    List.intercalate [.comma] parts = ts := by
  induction h with
  | last => simp
  | step _ hs hr ih =>
    obtain rfl := eq_comma_of_cuts hs
    cases hr <;> rw [List.intercalate_cons_cons, ih] <;> simp

theorem exists_words_of_mapM_column? {parts : List (List Token)}
    (h : parts.mapM column? = some columns) :
    ∃ names : List String, parts = names.map fun w => [.word w] := by
  induction parts generalizing columns with
  | nil => exact ⟨[], rfl⟩
  | cons part parts ih =>
    rw [List.mapM_cons] at h
    obtain ⟨name, hname, h⟩ := Option.bind_eq_some_iff.mp h
    obtain ⟨others, hothers, -⟩ := Option.bind_eq_some_iff.mp h
    obtain ⟨w, rfl⟩ := eq_word_of_column? hname
    obtain ⟨names, rfl⟩ := ih hothers
    exact ⟨w :: names, rfl⟩

/-- A list whose parts are columns is a list of names. -/
theorem exists_nameTokens (h : (splitCommas ts).mapM column? = some columns) :
    ∃ names, names ≠ [] ∧ ts = nameTokens names := by
  obtain ⟨names, hnames⟩ := exists_words_of_mapM_column? h
  have hts := intercalate_of_cutInto (cutInto_splitTopLevel (· == .comma) ts)
  have hparts : splitTopLevel (· == .comma) ts = names.map fun w => [.word w] := hnames
  refine ⟨names, ?_, by rw [nameTokens, ← hparts, hts]⟩
  rintro rfl
  exact splitFrom_ne_nil _ 0 ts hparts

/-! ### What is read -/

theorem takeModifier_append {n : Token} (hm : Modifier orIgnore modifier) (hn : n.is .into = true) :
    takeModifier all (modifier ++ n :: ts) = .ok (orIgnore, n :: ts) := by
  cases hm with
  | none =>
    have hor : startsWith .or (n :: ts) = false := is_of_is hn .or
    rw [takeModifier, List.nil_append, hor]
    rfl
  | @orIgnore o i ho hi =>
    have hor : startsWith .or ([o, i] ++ n :: ts) = true := ho
    have hignore : startsWith .ignore ([o, i] ++ n :: ts).tail = true := hi
    rw [takeModifier, if_pos hor, if_pos hignore]
    rfl

/-- What is laid out as an insert is read, whatever follows. -/
theorem readInsert_layout {i n v : Token} {items : List Token} {table : String}
    (hm : Modifier orIgnore modifier) (hn : n.is .into = true) (hc : columns ≠ [])
    (hv : v.is .values = true) (hb : Balanced items) :
    readInsert (i :: (modifier ++ n :: .word table :: .openParen :: (nameTokens columns ++
      .closeParen :: v :: .openParen :: (items ++ .closeParen :: rest)))) = .ok (.insert
        (Text.lowercase table) orIgnore (fieldSources (columns.map bareField)
          (splitCommas items))) := by
  have hinto : startsWith .into (n :: .word table :: .openParen :: (nameTokens columns ++
      .closeParen :: v :: .openParen :: (items ++ .closeParen :: rest))) = true := hn
  have hvalues : startsWith .values (v :: .openParen :: (items ++ .closeParen :: rest)) = true := hv
  have hfirst : parenthesised? (.openParen :: (nameTokens columns ++
      .closeParen :: v :: .openParen :: (items ++ .closeParen :: rest)))
        = some (nameTokens columns, v :: .openParen :: (items ++ .closeParen :: rest)) :=
    parenthesised?_append (fun _ => isParen_of_mem_nameTokens) _
  have hsecond : parenthesised? (.openParen :: (items ++ .closeParen :: rest))
      = some (items, rest) := parenthesised?_eq_some_iff.mpr ⟨rfl, hb⟩
  unfold readInsert
  rw [List.tail_cons, takeModifier_append hm hn]
  simp only [Bind.bind, Except.bind, hinto, List.tail_cons, List.drop_succ_cons, List.drop_zero,
    hfirst, hsecond, hvalues, mapM_column?_nameTokens hc]
  rfl

theorem InsertLayout.exists_readInsert (h : InsertLayout all rest) :
    ∃ table orIgnore fields, readInsert all = .ok (.insert table orIgnore fields) := by
  cases h with
  | mk hi hm hn hc hv hb => exact ⟨_, _, _, readInsert_layout hm hn hc hv hb⟩

theorem exists_layout_of_readInsert {s : OpenStatement} (hi : startsWith .insert all = true)
    (h : readInsert all = .ok s) : ∃ rest, InsertLayout all rest := by
  cases readsInsert_of_readInsert hi h with
  | mk hall hi hm hn hp hc hv hq =>
    obtain ⟨names, hne, rfl⟩ := exists_nameTokens hc
    obtain ⟨rfl, hb⟩ := parenthesised?_eq_some_iff.mp hq
    subst hall
    exact ⟨_, .mk hi hm hn hne hv hb⟩

theorem exists_defect_of_takeModifier (h : takeModifier all ts = .error e) :
    ∃ defect, e = .malformed defect all := by
  rw [takeModifier] at h
  split at h
  · split at h
    · cases h
    · cases h
      exact ⟨_, rfl⟩
  · cases h

/-- Whatever is missing, the statement is malformed. -/
theorem exists_defect_of_readInsert (h : readInsert all = .error e) :
    ∃ defect, e = .malformed defect all := by
  unfold readInsert at h
  cases hm : takeModifier all all.tail with
  | error e' =>
    rw [hm] at h
    cases h
    exact exists_defect_of_takeModifier hm
  | ok x =>
    rw [hm] at h
    simp only [Bind.bind, Except.bind, Pure.pure, Except.pure] at h
    repeat' split at h
    all_goals cases h
    all_goals exact ⟨_, rfl⟩

/-! ### What stands behind -/

/-- A statement that is laid out as an insert has words up to its first group, and the tokens behind
its second one follow. -/
theorem InsertLayout.exists_groups (h : InsertLayout all rest) :
    ∃ words behind columnTokens values items v, all = words ++ .openParen :: behind ∧
      (∀ t ∈ words, ∃ w, t = .word w) ∧
      parenthesised? (.openParen :: behind) = some (columnTokens, v :: values) ∧
      parenthesised? values = some (items, rest) := by
  cases h with
  | @mk i n v modifier items _ _ table columns hi hm hn hc hv hb =>
    have hall : i :: (modifier ++ n :: .word table :: .openParen :: (nameTokens columns ++
          .closeParen :: v :: .openParen :: (items ++ .closeParen :: rest)))
        = (i :: (modifier ++ [n, .word table])) ++ .openParen :: (nameTokens columns ++
          .closeParen :: v :: .openParen :: (items ++ .closeParen :: rest)) := by
      simp
    exact ⟨_, _, _, _, _, _, hall, hm.words_up_to hi hn table,
      parenthesised?_append (fun _ => isParen_of_mem_nameTokens) _,
      parenthesised?_eq_some_iff.mpr ⟨rfl, hb⟩⟩

/-- The groups end where they end, so there is one way to lay a statement out. -/
theorem InsertLayout.unique (h : InsertLayout all rest) (h' : InsertLayout all more) :
    rest = more := by
  obtain ⟨words, behind, _, values, _, _, hall, hwords, hfirst, hsecond⟩ := h.exists_groups
  obtain ⟨words', behind', _, values', _, _, hall', hwords', hfirst', hsecond'⟩ := h'.exists_groups
  obtain ⟨-, rfl⟩ := words_inj hwords hwords' (hall.symm.trans hall')
  obtain ⟨-, htail⟩ := Prod.mk.inj (Option.some.inj (hfirst.symm.trans hfirst'))
  obtain ⟨-, rfl⟩ := List.cons.inj htail
  exact (Prod.mk.inj (Option.some.inj (hsecond.symm.trans hsecond'))).2

end OpenStatement

namespace Statement

open OpenStatement

variable {source : String} {tokens : List Token}

/-- An insert is bound whatever its parameters are, so only its layout decides. -/
theorem ofText_of_startsWith_insert (hscan : scan? (Text.collapse source) = some tokens)
    (hi : startsWith .insert tokens = true) (mode : Mode) (params : List Value) (stamp : String) :
    startsWith .insert (trimSemicolons tokens) = true ∧
      ofText source mode params stamp
        = (readInsert (trimSemicolons tokens)).bind (·.bind mode params stamp) := by
  obtain ⟨t, us, rfl, ht⟩ := exists_of_startsWith hi
  have hne : t ≠ .semicolon := by
    rintro rfl
    cases ht
  have htrim : trimSemicolons (t :: us) = t :: trimSemicolons us :=
    trimSemicolons_append (List.cons_ne_nil t []) hne us
  have hstart : startsWith .insert (trimSemicolons (t :: us)) = true := by
    rw [htrim]
    exact ht
  refine ⟨hstart, ?_⟩
  rw [ofText, OpenStatement.ofText_of_scan hscan, if_pos hstart]
  rfl

/-- A text that starts with `INSERT` is accepted exactly if its tokens, but for the semicolons at
the end, are laid out as an insert up to the end of a list of values, and is malformed exactly if
they are not. It is a whole insert exactly if nothing stands behind the list. -/
theorem insert_accepted_iff (hscan : scan? (Text.collapse source) = some tokens)
    (hi : startsWith .insert tokens = true) (mode : Mode) (params : List Value) (stamp : String) :
    let ts := trimSemicolons tokens
    ((∃ table orIgnore r, ofText source mode params stamp = .ok (.insert table orIgnore r)) ↔
      ∃ rest, InsertLayout ts rest) ∧
    ((∃ defect, ofText source mode params stamp = .error (.malformed defect ts)) ↔
      ¬∃ rest, InsertLayout ts rest) ∧
    ∀ rest, InsertLayout ts rest → (InsertLayout ts [] ↔ rest = []) := by
  intro ts
  obtain ⟨hstart, htext⟩ := ofText_of_startsWith_insert hscan hi mode params stamp
  have hwhole : ∀ rest, InsertLayout ts rest → (InsertLayout ts [] ↔ rest = []) := fun rest h =>
    ⟨fun hnil => h.unique hnil, fun hrest => hrest ▸ h⟩
  cases hread : readInsert ts with
  | error e =>
    obtain ⟨defect, rfl⟩ := exists_defect_of_readInsert hread
    have hnone : ¬∃ rest, InsertLayout ts rest := by
      rintro ⟨rest, h⟩
      obtain ⟨_, _, _, hok⟩ := h.exists_readInsert
      rw [hread] at hok
      cases hok
    have herror : ofText source mode params stamp = .error (.malformed defect ts) := by
      rw [htext, hread]
      rfl
    refine ⟨⟨?_, fun h => absurd h hnone⟩, ⟨fun _ => hnone, fun _ => ⟨defect, herror⟩⟩, hwhole⟩
    rintro ⟨_, _, _, hok⟩
    rw [herror] at hok
    cases hok
  | ok s =>
    have hlaid : ∃ rest, InsertLayout ts rest := exists_layout_of_readInsert hstart hread
    obtain ⟨rest, h⟩ := hlaid
    obtain ⟨table, orIgnore, fields, hok⟩ := h.exists_readInsert
    have haccepted : ofText source mode params stamp
        = .ok (.insert table orIgnore (newRecord params stamp fields)) := by
      rw [htext, hok]
      rfl
    refine ⟨⟨fun _ => ⟨rest, h⟩, fun _ => ⟨_, _, _, haccepted⟩⟩, ⟨?_, fun hnone => ?_⟩, hwhole⟩
    · rintro ⟨_, herror⟩
      rw [haccepted] at herror
      cases herror
    · exact absurd ⟨rest, h⟩ hnone

/-- The items hold a group of their own, and two semicolons end the text. -/
theorem insert_accepted_grouped :
    let source := "INSERT OR IGNORE INTO Users (id, u.age) VALUES (?, max((1), 2)); ;"
    let tokens : List Token := [.word "INSERT", .word "OR", .word "IGNORE", .word "INTO",
      .word "Users", .openParen, .word "id", .comma, .word "u.age", .closeParen, .word "VALUES",
      .openParen, .placeholder, .comma, .word "max", .openParen, .openParen, .number "1",
      .closeParen, .comma, .number "2", .closeParen, .closeParen, .semicolon, .semicolon]
    scan? (Text.collapse source) = some tokens ∧ startsWith .insert tokens = true ∧
      InsertLayout (trimSemicolons tokens) [] ∧ ∃ table orIgnore r,
        ofText source .strict [.string "u1"] "2024-05-01" = .ok (.insert table orIgnore r) := by
  intro source tokens
  have hscan : scan? (Text.collapse source) = some tokens := by decide +kernel
  have hi : startsWith .insert tokens = true := by decide
  have hitems : Balanced [.placeholder, .comma, .word "max", .openParen, .openParen, .number "1",
      .closeParen, .comma, .number "2", .closeParen] :=
    .cons rfl (.cons rfl (.cons rfl (.group
      (.group (.cons rfl .nil) (.cons rfl (.cons rfl .nil))) .nil)))
  have hlayout : InsertLayout (trimSemicolons tokens) [] :=
    @InsertLayout.mk (.word "INSERT") (.word "INTO") (.word "VALUES") _ _ _ true "Users"
      ["id", "u.age"] (by decide) (.orIgnore (by decide) (by decide)) (by decide) (by decide)
      (by decide) hitems
  exact ⟨hscan, hi, hlayout,
    (insert_accepted_iff hscan hi .strict [.string "u1"] "2024-05-01").1.mpr ⟨[], hlayout⟩⟩

/-- A second row of values stands behind the list: the statement is no whole insert, but it is
accepted, and only the first row is added. -/
theorem second_row_is_lost :
    let source := "INSERT INTO leads (id) VALUES ('a'), ('b')"
    let tokens : List Token := [.word "INSERT", .word "INTO", .word "leads", .openParen,
      .word "id", .closeParen, .word "VALUES", .openParen, .string "a", .closeParen, .comma,
      .openParen, .string "b", .closeParen]
    let row := Record.ofFields [("id", .string "a"), ("created_at", .string "2024-05-01"),
      ("updated_at", .string "2024-05-01")]
    scan? (Text.collapse source) = some tokens ∧ startsWith .insert tokens = true ∧
      ¬InsertLayout (trimSemicolons tokens) [] ∧
      ofText source .lenient [] "2024-05-01" = .ok (.insert "leads" false row) ∧
      Document.new.execute .lenient "2024-05-01" source [] =
        .ok ⟨[], some (Document.new.setRows .leads [row])⟩ := by
  intro source tokens row
  have hscan : scan? (Text.collapse source) = some tokens := by decide +kernel
  have hlayout : InsertLayout (trimSemicolons tokens) [.comma, .openParen, .string "b",
      .closeParen] :=
    @InsertLayout.mk (.word "INSERT") (.word "INTO") (.word "VALUES") _ _ _ false "leads" ["id"]
      (by decide) .none (by decide) (by decide) (by decide) (.cons rfl .nil)
  have hread : ofText source .lenient [] "2024-05-01" = .ok (.insert "leads" false row) := by
    rw [ofText, OpenStatement.ofText_of_scan hscan]
    rfl
  refine ⟨hscan, by decide, fun hwhole => ?_, hread, ?_⟩
  · cases hwhole.unique hlayout
  · have hrow : Document.new.insert? .leads false row
        = some (Document.new.setRows .leads [row]) := rfl
    rw [Document.execute, hread, ← hrow]
    exact Document.write_name .leads (Document.new.insert? · false row)

end Statement
end ClientRecords
