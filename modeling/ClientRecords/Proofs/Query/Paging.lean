import ClientRecords.Proofs.Query.Extended
import ClientRecords.Proofs.Query.RoundTrip
import ClientRecords.Proofs.Query.Rows
import ClientRecords.Proofs.Query.SortKeys
import ClientRecords.Proofs.Token.Appended
/-!
Sorted listings and their pages. An order and a page written behind the text of a query are read as
those of the query, whatever the text holds before them (`Query.ofText_append`), so the rows come
sorted by the field, and the pages of one size cut them without a gap and without an overlap
(`Query.sorted_in_pages`).
-/

namespace ClientRecords

open Token OpenQuery

/-! ### Texts -/

namespace Direction

def word : Direction → String
  | .ascending => "ASC"
  | .descending => "DESC"

end Direction

/-- A text with an order behind it; without a direction the rows are to go up. -/
def ordered (base field : String) (dir : Option Direction) : String :=
  base ++ " ORDER BY " ++ field ++ dir.elim "" (" " ++ ·.word)

/-- A text with a limit and an offset behind it. -/
def paged (text : String) (limit offset : Nat) : String :=
  text ++ " LIMIT " ++ toString limit ++ " OFFSET " ++ toString offset

/-- The rows of the page of a number, all pages being of one size. -/
def pageOf {α : Type} (rows : List α) (size number : Nat) : List α :=
  (rows.drop (number * size)).take size

/-- Can an order and a page be written behind a text? It ends outside of quotes and comments, and
its tokens leave room for them. -/
structure GoesOn (text : String) : Prop where
  plain : Context.after .plain (Text.collapse text).toList = .plain
  takes : ∀ ts, scan? (Text.collapse text) = some ts → TakesPage ts

/-- Can rows be sorted by a name? It is a plain name without a point, and none of the words that
mean something else in an order. -/
structure IsSortName (field : String) : Prop where
  plain : (Token.word field).isPlain = true
  bare : '.' ∉ field.toList
  free : (Token.word field).isAny (.asc :: .desc :: clauseKeywords) = false

/-! ### Pages -/

/-- Pages put end to end are the start of the list that they cut. -/
theorem flatMap_pageOf {α : Type} (rows : List α) (size : Nat) : ∀ count : Nat,
    (List.range count).flatMap (pageOf rows size) = rows.take (count * size)
  | 0 => by simp
  | count + 1 => by
    rw [List.range_succ, List.flatMap_append, flatMap_pageOf rows size count, Nat.succ_mul,
      List.take_add, List.flatMap_singleton, pageOf]

/-! ### Tokens -/

/-- What the rows are to be sorted by. -/
def keyTokens (field : String) (dir : Option Direction) : List Token :=
  .word field :: (dir.map Written.directionToken).toList

def orderTokens (field : String) (dir : Option Direction) : List Token :=
  .word "ORDER" :: .word "BY" :: keyTokens field dir

def pageTokens (limit offset : Nat) : List Token :=
  [.word "LIMIT", .number (toString limit), .word "OFFSET", .number (toString offset)]

variable {base field : String} {dir : Option Direction} {limit offset : Nat}

theorem ordered_eq : ordered base field dir
    = base ++ " " ++ String.ofList (spell (orderTokens field dir)) := by
  rw [← String.toList_inj]
  rcases dir with _ | _ | _ <;>
    simp [ordered, orderTokens, keyTokens, spell, spellAfter_cons, isTight, closeUp, Token.text,
      Direction.word, Written.directionToken]

theorem paged_eq : paged (ordered base field dir) limit offset
    = base ++ " " ++ String.ofList (spell (orderTokens field dir ++ pageTokens limit offset)) := by
  rw [← String.toList_inj]
  rcases dir with _ | _ | _ <;>
    simp [paged, ordered, orderTokens, keyTokens, pageTokens, spell, spellAfter_cons, isTight,
      closeUp, Token.text, Direction.word, Written.directionToken]

/-- A name or a number that is written as it is. -/
def IsBare (t : Token) : Prop := t.isPlain = true ∧ ((∃ w, t = .word w) ∨ ∃ n, t = .number n)

theorem isBare_pageTokens : ∀ t ∈ pageTokens limit offset, IsBare t := by
  intro t ht
  simp only [pageTokens, List.mem_cons, List.not_mem_nil, or_false] at ht
  rcases ht with rfl | rfl | rfl | rfl
  · exact ⟨by decide, .inl ⟨_, rfl⟩⟩
  · exact ⟨isPlain_natural limit, .inr ⟨_, rfl⟩⟩
  · exact ⟨by decide, .inl ⟨_, rfl⟩⟩
  · exact ⟨isPlain_natural offset, .inr ⟨_, rfl⟩⟩

namespace IsSortName

theorem closed_keyTokens (hf : IsSortName field) {k : Keyword} (hk : k ∈ clauseKeywords) :
    Closed (·.is k) (keyTokens field dir) := by
  have hfield : (Token.word field).is k = false :=
    isAny_eq_false.mp hf.free k (List.mem_cons_of_mem _ (List.mem_cons_of_mem _ hk))
  refine .cons rfl hfield (.of_flat ?_)
  revert hk
  rcases dir with _ | _ | _ <;> cases k <;> decide

theorem isBare_orderTokens (hf : IsSortName field) : ∀ t ∈ orderTokens field dir, IsBare t := by
  intro t ht
  simp only [orderTokens, keyTokens, List.mem_cons] at ht
  rcases ht with rfl | rfl | rfl | ht
  · exact ⟨by decide, .inl ⟨_, rfl⟩⟩
  · exact ⟨by decide, .inl ⟨_, rfl⟩⟩
  · exact ⟨hf.plain, .inl ⟨_, rfl⟩⟩
  · rcases dir with _ | _ | _
    · cases ht
    · exact List.mem_singleton.mp ht ▸ ⟨by decide, .inl ⟨_, rfl⟩⟩
    · exact List.mem_singleton.mp ht ▸ ⟨by decide, .inl ⟨_, rfl⟩⟩

/-- The key and its direction are read as they are written. -/
theorem sortKey?_keyTokens (hf : IsSortName field) :
    sortKey? (keyTokens field dir) = some ⟨field, dir.getD .ascending⟩ := by
  have hbare : bareField field = field :=
    (bareField_of_append rfl hf.bare (.inl rfl)).trans String.ofList_toList
  have hasc : (Token.word field).is .asc = false := isAny_eq_false.mp hf.free _ (by decide)
  have hdesc : (Token.word field).is .desc = false := isAny_eq_false.mp hf.free _ (by decide)
  rcases dir with _ | _ | _
  · have hsplit : splitCommas (keyTokens field none) = [[.word field]] := rfl
    simp [sortKey?, hsplit, hasc, hdesc, hbare]
  · exact congrArg (fun w => some (SortKey.mk w .ascending)) hbare
  · exact congrArg (fun w => some (SortKey.mk w .descending)) hbare

theorem closed_orderTokens (hf : IsSortName field) {k : Keyword} (hk : k ∈ clauseKeywords)
    (ho : k ≠ .order) : Closed (·.is k) (orderTokens field dir) := by
  have hwords : Token.is k (.word "ORDER") = false ∧ Token.is k (.word "BY") = false := by
    revert hk ho
    cases k <;> decide
  exact .cons rfl hwords.1 (.cons rfl hwords.2 (hf.closed_keyTokens hk))

/-- The order is found with its key, whatever clauses follow it. -/
theorem order_found (hf : IsSortName field) (dir : Option Direction) (seen : Nat)
    {rest : List Token} (hr : Opens clauseKeywords rest) :
    clauseOrder seen (orderTokens field dir ++ rest) = some ⟨field, dir.getD .ascending⟩ := by
  have hfind : findClause? .order seen (orderTokens field dir ++ rest)
      = some (seen, keyTokens field dir ++ rest) :=
    findClause?_append_cons .nil (by decide)
  have hclosed : Closed isClauseKeyword (keyTokens field dir) :=
    .isAny (hf.closed_keyTokens (k := .order) (by decide)).level fun k hk =>
      hf.closed_keyTokens hk
  have hbody : bodyOf (keyTokens field dir ++ rest) = keyTokens field dir := by
    rw [bodyOf_append hclosed.level hr, bodyOf, breakTopLevel_of_uncut hclosed.uncut]
  simp only [clauseOrder, hfind, Option.bind_some, hbody, hf.sortKey?_keyTokens]

end IsSortName

/-- A number behind the word for a bound is what the bound is set to. -/
theorem bound_found {k : Keyword} {before rest : List Token} (hc : Closed (·.is k) before)
    {w : String} (hw : (Token.word w).is k = true) (seen : Nat) {n : Nat} (hn : n < pow2 63) :
    clauseBound k seen (before ++ .word w :: .number (toString n) :: rest)
      = some (.literal (.int (Int64.ofNat n))) := by
  have hfind : findClause? k seen (before ++ .word w :: .number (toString n) :: rest)
      = some (seen + placeholders before, .number (toString n) :: rest) :=
    findClause?_append_cons hc hw
  have hoperand : ∀ next, (Token.number (toString n)).operand? next
      = some (.literal (.int (Int64.ofNat n))) := fun next => by
    rw [operand?, literal?_natural hn]
    · rfl
    · nofun
  simp only [clauseBound, hfind, Option.bind_some, List.head?_cons, hoperand]

/-! ### Reading -/

/-- The order and the page of a query stay what they are set to. -/
theorem OpenQuery.bind_of_page {mode : Mode} {params : List Value} {o : OpenQuery} {q : Query}
    {orderBy : Option SortKey} {limit offset : Option Operand} (h : o.bind mode params = .ok q) :
    { o with orderBy := orderBy, limit := limit, offset := offset }.bind mode params = .ok { q with
      orderBy := orderBy
      limit := limit.bind (·.rowCount? params)
      offset := offset.bind (·.rowCount? params) } := by
  obtain ⟨cs, hcs, hq⟩ := exists_of_bind_eq_ok h
  cases hq
  rw [OpenQuery.bind, hcs]
  rfl

namespace Query

variable {mode : Mode} {now : String} {params : List Value} {q : Query} {us : List Token}

/-- A text that reads as a query, with clauses written behind it, reads as the query with the order
and the page that the clauses set. -/
theorem ofText_append (hb : GoesOn base)
    (hq : Query.ofText (Text.collapse base) mode params = .ok (some q)) (hne : us ≠ [])
    (hp : ∀ t ∈ us, IsBare t) (ho : Opens clauseKeywords us)
    (hw : findTopLevel (·.is .where) us = none) :
    ∃ seen, Query.ofText (Text.collapse (base ++ " " ++ String.ofList (spell us))) mode params
      = .ok (some { q with
        orderBy := clauseOrder seen us
        limit := (clauseBound .limit seen us).bind (·.rowCount? params)
        offset := (clauseBound .offset seen us).bind (·.rowCount? params) }) := by
  obtain ⟨ts, o, hscan, hread, hbind⟩ := exists_of_ofText hq
  have htakes := hb.takes ts hscan
  have hneat : Text.IsNeat (spell us) := isNeat_spell hne fun t ht => by
    refine isNeat_text (b := true) (.inl (hp t ht).1) ?_
    rintro s rfl
    rcases (hp _ ht).2 with ⟨_, he⟩ | ⟨_, he⟩ <;> cases he
  rw [OpenStatement.trimSemicolons_of_getLast? htakes.unended] at hread
  have hlast : (ts ++ us).getLast? ≠ some .semicolon := by
    rw [List.getLast?_append, List.getLast?_eq_some_getLast hne]
    intro hl
    have hsemicolon : us.getLast hne = .semicolon := Option.some.inj hl
    rcases (hp _ (List.getLast_mem hne)).2 with ⟨_, he⟩ | ⟨_, he⟩ <;>
      (rw [hsemicolon] at he; cases he)
  have hbase : Text.collapse base ≠ "" := by
    intro he
    have hempty : scan? "" = some [] := scanFrom_of_skip_nil rfl
    rw [he, hempty] at hscan
    cases hscan
    cases hread
  have hlonger := scan?_append hb.plain hscan hbase (fun t ht => (hp t ht).1) hneat
  have htokens := ofTokens?_append hread htakes ho hw
  rw [← OpenStatement.trimSemicolons_of_getLast? hlast] at htokens
  refine ⟨placeholders ts, ?_⟩
  rw [Query.ofText_of_scan hlonger htokens, bind_of_page hbind]
  rfl

/-- An order behind the text is the order of the query, and what follows it sets the page. -/
theorem ofText_append_order (hb : GoesOn base) (hf : IsSortName field) (dir : Option Direction)
    (hq : Query.ofText (Text.collapse base) mode params = .ok (some q))
    (hp : ∀ t ∈ us, IsBare t) (ho : Opens clauseKeywords us) (hw : Closed (·.is .where) us) :
    ∃ seen, Query.ofText (Text.collapse
          (base ++ " " ++ String.ofList (spell (orderTokens field dir ++ us)))) mode params
      = .ok (some { q with
        orderBy := some ⟨field, dir.getD .ascending⟩
        limit := (clauseBound .limit seen us).bind (·.rowCount? params)
        offset := (clauseBound .offset seen us).bind (·.rowCount? params) }) := by
  have hne : orderTokens field dir ++ us ≠ [] := List.cons_ne_nil _ _
  have hbare : ∀ t ∈ orderTokens field dir ++ us, IsBare t := fun t ht =>
    (List.mem_append.mp ht).elim (hf.isBare_orderTokens t) (hp t)
  have hopens : Opens clauseKeywords (orderTokens field dir ++ us) := by
    rintro _ ⟨⟩
    decide
  have hclosed : ∀ k ∈ clauseKeywords, k ≠ .order → Closed (·.is k) (orderTokens field dir) :=
    fun k => hf.closed_orderTokens
  obtain ⟨seen, hread⟩ := ofText_append hb hq hne hbare hopens
    ((hclosed .where (by decide) (by decide)).append hw).uncut
  refine ⟨seen + placeholders (orderTokens field dir), ?_⟩
  rw [hread, hf.order_found dir seen ho,
    clauseBound_append_of_closed (hclosed .limit (by decide) (by decide)),
    clauseBound_append_of_closed (hclosed .offset (by decide) (by decide))]

theorem ofText_ordered (hb : GoesOn base) (hf : IsSortName field) (dir : Option Direction)
    (hq : Query.ofText (Text.collapse base) mode params = .ok (some q)) :
    Query.ofText (Text.collapse (ordered base field dir)) mode params = .ok (some { q with
      orderBy := some ⟨field, dir.getD .ascending⟩, limit := none, offset := none }) := by
  obtain ⟨seen, hread⟩ := ofText_append_order hb hf dir hq (List.forall_mem_nil _) nofun .nil
  rw [List.append_nil] at hread
  rw [ordered_eq, hread]
  rfl

theorem ofText_paged (hb : GoesOn base) (hf : IsSortName field) (dir : Option Direction)
    (hq : Query.ofText (Text.collapse base) mode params = .ok (some q)) (hl : limit ≤ pow2 53)
    (ho : offset ≤ pow2 53) :
    Query.ofText (Text.collapse (paged (ordered base field dir) limit offset)) mode params
      = .ok (some { q with
        orderBy := some ⟨field, dir.getD .ascending⟩
        limit := some limit
        offset := some offset }) := by
  have hopens : Opens clauseKeywords (pageTokens limit offset) := by
    rintro _ ⟨⟩
    decide
  have hwhere : Closed (·.is .where) (pageTokens limit offset) :=
    .cons rfl (by decide) (.cons rfl rfl (.cons rfl (by decide) (.cons rfl rfl .nil)))
  have hbefore : Closed (·.is .offset) [.word "LIMIT", .number (toString limit)] :=
    .cons rfl (by decide) (.cons rfl rfl .nil)
  have hlt : ∀ n, n ≤ pow2 53 → n < pow2 63 := fun n hn => Nat.lt_of_le_of_lt hn (by decide)
  obtain ⟨seen, hread⟩ := ofText_append_order hb hf dir hq isBare_pageTokens hopens hwhere
  have hlimit : clauseBound .limit seen (pageTokens limit offset)
      = some (.literal (.int (Int64.ofNat limit))) :=
    bound_found .nil (by decide : (Token.word "LIMIT").is .limit = true) seen (hlt limit hl)
  have hoffset : clauseBound .offset seen (pageTokens limit offset)
      = some (.literal (.int (Int64.ofNat offset))) :=
    bound_found hbefore (by decide : (Token.word "OFFSET").is .offset = true) seen (hlt offset ho)
  have hcount : ∀ n, n ≤ pow2 53 →
      Operand.rowCount? params (.literal (.int (Int64.ofNat n))) = some n := fun n hn => by
    rw [Operand.rowCount?, Value.rowCount?_ofNat hn]
  rw [paged_eq, hread, hlimit, hoffset, Option.bind_some, Option.bind_some, hcount limit hl,
    hcount offset ho]

/-! ### Rows -/

/-- A listing that has an order gives its rows sorted, and of these what the bounds leave. -/
theorem execute_of_sorted (d : Document) {text : String} {key : SortKey} {rows : List Record}
    (hq : Query.ofText (Text.collapse text) mode params = .ok (some q)) (hp : q.projection = .rows)
    (ho : q.orderBy = some key) (hs : sortRows? key (q.listed d) = some rows) :
    d.execute mode now text params = .ok ⟨q.page rows, none⟩ := by
  have hrows : q.rows d now = .ok (q.page rows) := by
    simp only [Query.rows, hp, plainRows?_eq, ho, hs, Option.map_some]
  rw [Document.execute_of_query hq, hrows]

/-- A query for plain rows with an order behind it lists the rows that it lists without one, sorted
by the field and with equal ones as they stood, if the field holds texts only or exact integers
only. The pages of a size, asked for one after the other, are the pages of that list, and those up
to its end make it up. -/
theorem sorted_in_pages (d : Document) (dir : Option Direction)
    (hq : Query.ofText (Text.collapse base) mode params = .ok (some q))
    (hrows : q.projection = .rows) (hb : GoesOn base) (hf : IsSortName field)
    (hkeys : HoldsTexts field (q.listed d) ∨ HoldsIntegers field (q.listed d)) :
    ∃ rows, d.execute mode now (ordered base field dir) params = .ok ⟨rows, none⟩ ∧
      (HoldsTexts field (q.listed d) →
        StablySorted (dir.getD .ascending).Orders (Record.textOf field) (q.listed d) rows) ∧
      (HoldsIntegers field (q.listed d) →
        StablySorted (dir.getD .ascending).Orders (Record.integerOf field) (q.listed d) rows) ∧
      ∀ size, size ≤ pow2 53 →
        (∀ number, number * size ≤ pow2 53 →
          d.execute mode now (paged (ordered base field dir) size (number * size)) params
            = .ok ⟨pageOf rows size number, none⟩) ∧
        ∀ count, rows.length ≤ count * size →
          (List.range count).flatMap (pageOf rows size) = rows := by
  obtain ⟨rows, hsorted, htexts, hintegers⟩ := sortRows?_stable field (dir.getD .ascending) hkeys
  refine ⟨rows, ?_, htexts, hintegers,
    fun size hsize => ⟨fun number hnumber => ?_, fun count hcount => ?_⟩⟩
  · exact execute_of_sorted d (ofText_ordered hb hf dir hq) hrows rfl hsorted
  · exact execute_of_sorted d (ofText_paged hb hf dir hq hsize hnumber) hrows rfl hsorted
  · rw [flatMap_pageOf, List.take_of_length_le hcount]

/-- Tasks listed by a name that a lead lends them, the last names first, three on a page. -/
theorem tasks_by_lead_in_pages :
    let base := "SELECT * FROM tasks LEFT JOIN leads ON tasks.lead_id = leads.id WHERE done = ?"
    let text := ordered base "lead_name" (some .descending)
    let q : Query := ⟨.rows, "tasks", none, [⟨"leads", none, "lead_id", "id"⟩],
      [⟨"done", .compare .eq (.bool false)⟩], none, none, none⟩
    let lead := fun id name => Record.ofFields [("id", .string id), ("name", .string name)]
    let task := fun lead => Record.ofFields [("done", .bool false), ("lead_id", lead)]
    let d := (Document.new.setRows .leads [lead "l1" "Acme", lead "l2" "Bolt"]).setRows .tasks
      [task (.string "l1"), task .null, task (.string "l2"), task (.string "l1")]
    Query.ofText (Text.collapse base) .lenient [.bool false] = .ok (some q) ∧
      GoesOn base ∧ IsSortName "lead_name" ∧ HoldsTexts "lead_name" (q.listed d) ∧
      ∃ rows, d.execute .lenient "2024-05-01" text [.bool false] = .ok ⟨rows, none⟩ ∧
        rows.length = 4 ∧
        StablySorted Direction.descending.Orders (Record.textOf "lead_name") (q.listed d) rows ∧
        d.execute .lenient "2024-05-01" (paged text 3 3) [.bool false]
          = .ok ⟨pageOf rows 3 1, none⟩ ∧
        (List.range 2).flatMap (pageOf rows 3) = rows := by
  intro base text q lead task d
  let tokens : List Token :=
    [.word "SELECT", .star, .word "FROM", .word "tasks", .word "LEFT", .word "JOIN",
      .word "leads", .word "ON", .word "tasks.lead_id", .comparison .eq, .word "leads.id",
      .word "WHERE", .word "done", .comparison .eq, .placeholder]
  have hscan : scan? (Text.collapse base) = some tokens := by decide +kernel
  have htokens : ofTokens? (OpenStatement.trimSemicolons tokens) = some
      ⟨.rows, "tasks", none, [⟨"leads", none, "lead_id", "id"⟩],
        Clause.ofTokens 0 [.word "done", .comparison .eq, .placeholder], none, none, none⟩ := by
    decide +kernel
  have hq : Query.ofText (Text.collapse base) .lenient [.bool false] = .ok (some q) :=
    Query.ofText_of_scan hscan htokens
  have hbehind : (behindTable tokens).length ≠ 1 := by decide
  have hb : GoesOn base := ⟨by decide +kernel, fun ts hts => by
    rw [hscan] at hts
    cases hts
    exact ⟨by decide, fun t ht => absurd (congrArg List.length ht) hbehind, by decide, by decide⟩⟩
  have hf : IsSortName "lead_name" := ⟨by decide, by decide, by decide⟩
  have htexts : HoldsTexts "lead_name" (q.listed d) := by decide +kernel
  have hfour : (q.listed d).length = 4 := by decide +kernel
  obtain ⟨rows, hlist, hsorted, -, hpages⟩ :=
    sorted_in_pages d (some .descending) hq rfl hb hf (.inl htexts)
  have hlength : rows.length = 4 := (hsorted htexts).perm.length_eq.trans hfour
  obtain ⟨hpage, hall⟩ := hpages 3 (by decide)
  exact ⟨hq, hb, hf, htexts, rows, hlist, hlength, hsorted htexts, hpage 1 (by decide),
    hall 2 (by omega)⟩

end Query
end ClientRecords
