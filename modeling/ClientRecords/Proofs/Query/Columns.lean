import ClientRecords.Proofs.Query.Groups
import ClientRecords.Proofs.Query.Rows
/-!
The columns that a query asks for where it counts, sums or counts by groups, beside the names that
its rows always have. Those are written behind the columns that are asked for, so a column can be
displaced, and in three ways only (`Displaced`): a later sum is named `v`, the rows are grouped by a
field named `count`, or the groups are counted under the name of one of the fields that always show
the group. In all other rows every column holds what was asked for (`columns_shown_iff`).
-/

namespace ClientRecords

namespace Projection

/-- The names that a projection asks for. -/
def names : Projection → List String
  | .count name => [name]
  | .sums columns => columns.map (·.name)
  | .trend _ _ keyName countName => [keyName, countName]
  | .groups field countName => [field, countName]
  | .rows => []

end Projection

namespace Query

/-- The sums that are asked for, each under its name. -/
def sumColumns (rows : List Record) (columns : List SumColumn) : Entries Value :=
  columns.map fun c => (c.name, Value.number (sumOver rows c.field))

/-- The columns that a query asks for in each of its rows, with the values that belong there. -/
inductive Asks (q : Query) (d : Document) : List (Entries Value) → Prop
  | count {name : String} (h : q.projection = .count name) :
      Asks q d [[(name, .count (q.filtered d).length)]]
  | sums {columns : List SumColumn} (h : q.projection = .sums columns) :
      Asks q d [sumColumns (q.filtered d) columns]
  | groups {field countName : String} (h : q.projection = .groups field countName) :
      Asks q d ((q.page (sortGroups q.orderBy (groupsOf field (q.filtered d)))).map fun g =>
        [(field, g.1), (countName, .count g.2)])

/-- A row that holds every column under its name. -/
def Shows (columns : Entries Value) (r : Record) : Prop := ∀ c ∈ columns, r.get? c.1 = some c.2

/-- How a column that is asked for is displaced by another value under the same name. -/
inductive Displaced : Projection → Entries Value → Prop
  | laterSum {sums : List SumColumn} {first later : String × Value} {rest : Entries Value}
      (hlater : later ∈ rest) (hname : later.1 = "v") (hne : first.2 ≠ later.2) :
      Displaced (.sums sums) (first :: rest)
  | groupedCount {field countName : String} {v n : Value} (hname : field = "count") (hne : v ≠ n) :
      Displaced (.groups field countName) [(field, v), (countName, n)]
  | countedGroup {field countName : String} {v n : Value}
      (hname : countName ∈ ["source", "type", "status"]) (hne : v ≠ n) :
      Displaced (.groups field countName) [(field, v), (countName, n)]

variable {d : Document} {q : Query} {rows : List Record} {columns : List SumColumn}
  {field countName : String} {g : Value × Nat}

/-! ### One row -/

theorem get?_put (r : Record) (name other : String) (v : Value) :
    (r.put name v).get? other = if name = other then some v else r.get? other := by
  by_cases h : name = other
  · rw [if_pos h]
    exact h ▸ r.get?_put_self name v
  · rw [if_neg h]
    exact r.get?_put_of_ne v h

/-- Fields under distinct names are all shown. -/
theorem shows_ofFields {fields : Entries Value} (h : fields.names.Nodup) :
    Shows fields (Record.ofFields fields) := by
  intro c hc
  rw [Record.get?, Record.fields_ofFields h]
  exact Entries.get?_of_mem h hc

/-- All names of a count show the same. -/
theorem shows_countRow (name : String) (n : Nat) :
    Shows [(name, .count n)] (countRow name n) := by
  intro c hc
  obtain rfl := List.mem_singleton.mp hc
  rw [countRow, Record.get?_ofFields]
  by_cases htotal : "total" = name <;> by_cases hc : "c" = name <;>
    simp [Entries.get?, htotal, hc]

theorem names_sumColumns (rows : List Record) (columns : List SumColumn) :
    (sumColumns rows columns).names = columns.map (·.name) := by
  rw [sumColumns, Entries.names, List.map_map]
  rfl

/-- The first sum is written once more under its short name. -/
theorem sumRow_cons {c : SumColumn} {cs : List SumColumn}
    (h : ((c :: cs).map (·.name)).Nodup) : sumRow rows (c :: cs) =
      (Record.ofFields (sumColumns rows (c :: cs))).put "v"
        (Value.number (sumOver rows c.field)) := by
  have hshows := shows_ofFields (names_sumColumns rows _ ▸ h)
  have hfirst : (Record.ofFields (sumColumns rows (c :: cs))).get? c.name
      = some (Value.number (sumOver rows c.field)) := hshows _ List.mem_cons_self
  rw [sumRow]
  simp only [List.head?_cons, Option.bind_some]
  rw [← sumColumns, hfirst]

theorem shows_sumRow_iff (h : (columns.map (·.name)).Nodup) :
    Shows (sumColumns rows columns) (sumRow rows columns) ↔
      ¬Displaced (.sums columns) (sumColumns rows columns) := by
  cases columns with
  | nil => exact iff_of_true (List.forall_mem_nil _) nofun
  | cons c cs =>
    have hshows := shows_ofFields (names_sumColumns rows _ ▸ h)
    rw [sumRow_cons h]
    constructor
    · rintro hput (⟨hlater, hname, hne⟩)
      have hget := hput _ (List.mem_cons_of_mem _ hlater)
      rw [get?_put, if_pos hname.symm] at hget
      exact hne (Option.some.inj hget)
    · intro hnot e he
      rw [get?_put]
      by_cases hname : "v" = e.1
      · rw [if_pos hname]
        rcases List.mem_cons.mp he with rfl | hlater
        · rfl
        · refine congrArg some (Classical.not_not.mp fun hne => ?_)
          exact hnot (.laterSum hlater hname.symm hne)
      · rw [if_neg hname]
        exact hshows e he

theorem get?_groupRow_field (h : field ≠ countName) : (groupRow field countName g).get? field =
    some (if field = "count" then .count g.2 else g.1) := by
  simp only [groupRow, Record.get?_ofFields]
  by_cases hcount : field = "count"
  · subst hcount
    rfl
  · simp [Entries.get?, Ne.symm hcount, Ne.symm h, hcount]

theorem get?_groupRow_countName : (groupRow field countName g).get? countName =
    some (if countName ∈ ["source", "type", "status"] then g.1 else .count g.2) := by
  simp only [groupRow, Record.get?_ofFields]
  by_cases hname : countName ∈ ["source", "type", "status"]
  · rw [if_pos hname]
    simp only [List.mem_cons, List.not_mem_nil, or_false] at hname
    rcases hname with rfl | rfl | rfl <;> rfl
  · rw [if_neg hname]
    simp only [List.mem_cons, List.not_mem_nil, or_false, not_or] at hname
    obtain ⟨hsource, htype, hstatus⟩ := hname
    simp [Entries.get?, Ne.symm hsource, Ne.symm htype, Ne.symm hstatus]

theorem shows_groupRow_iff (h : field ≠ countName) :
    Shows [(field, g.1), (countName, .count g.2)] (groupRow field countName g) ↔
      ¬Displaced (.groups field countName) [(field, g.1), (countName, .count g.2)] := by
  have hshows : Shows [(field, g.1), (countName, .count g.2)] (groupRow field countName g) ↔
      (field = "count" → g.1 = .count g.2) ∧
        (countName ∈ ["source", "type", "status"] → g.1 = .count g.2) := by
    rw [Shows, List.forall_mem_cons, List.forall_mem_singleton, get?_groupRow_field h,
      get?_groupRow_countName, Option.some.injEq, Option.some.injEq]
    refine and_congr ?_ ?_
    · split <;> simp_all [eq_comm]
    · split <;> simp_all
  rw [hshows]
  constructor
  · rintro ⟨hcount, hgroup⟩ (_ | ⟨hname, hne⟩ | ⟨hname, hne⟩)
    · exact hne (hcount hname)
    · exact hne (hgroup hname)
  · intro hnot
    exact ⟨fun hname => Classical.not_not.mp fun hne => hnot (.groupedCount hname hne),
      fun hname => Classical.not_not.mp fun hne => hnot (.countedGroup hname hne)⟩

/-! ### All rows -/

/-- A query that counts, sums or counts by groups under distinct names has its rows, and each of
them holds every column that is asked for unless one is displaced. -/
theorem columns_shown_iff {asked : List (Entries Value)} (now : String) (h : q.Asks d asked)
    (hdistinct : q.projection.names.Nodup) :
    ∃ rows, q.rows d now = .ok rows ∧
      List.Forall₂ (fun columns r => Shows columns r ↔ ¬Displaced q.projection columns)
        asked rows := by
  cases h with
  | @count name hq =>
    refine ⟨[countRow name (q.filtered d).length], by simp only [rows, hq], .cons ?_ .nil⟩
    refine iff_of_true (shows_countRow name _) fun hdisplaced => ?_
    rw [hq] at hdisplaced
    cases hdisplaced
  | @sums columns hq =>
    rw [hq] at hdistinct ⊢
    refine ⟨[sumRow (q.filtered d) columns], by simp only [rows, hq], .cons ?_ .nil⟩
    exact shows_sumRow_iff hdistinct
  | @groups field countName hq =>
    rw [hq] at hdistinct ⊢
    have hne : field ≠ countName := by simpa [Projection.names] using hdistinct
    have hrows : q.rows d now = .ok ((q.page (sortGroups q.orderBy
        (groupsOf field (q.filtered d)))).map (groupRow field countName)) := by simp only [rows, hq]
    refine ⟨_, hrows, ?_⟩
    rw [List.forall₂_map_left_iff, List.forall₂_map_right_iff, List.forall₂_same]
    exact fun g _ => shows_groupRow_iff hne

/-- Two sums under names of their own, the second one of a field that is text on some row. -/
theorem two_sums_shown :
    let lead := fun worth open_ => Record.ofFields [("worth", worth), ("open", open_)]
    let d := Document.new.setRows .leads [lead (.int 3) (.int 1), lead (.int 4) (.string "x")]
    let q : Query := ⟨.sums [⟨"worth", "v"⟩, ⟨"open", "n"⟩], "leads", none, [], [], none, none,
      none⟩
    let asked : List (Entries Value) := [[("v", .int 7), ("n", .int 1)]]
    q.Asks d asked ∧ q.projection.names.Nodup ∧
      ∃ r, q.rows d "2024-05-01" = .ok [r] ∧ Shows [("v", .int 7), ("n", .int 1)] r := by
  intro lead d q asked
  have hasks : q.Asks d asked := by
    have hsums : sumColumns (q.filtered d) [⟨"worth", "v"⟩, ⟨"open", "n"⟩]
        = [("v", .int 7), ("n", .int 1)] := by decide +kernel
    have hasked := Asks.sums (q := q) (d := d) rfl
    rwa [hsums] at hasked
  have hdistinct : q.projection.names.Nodup := by decide
  obtain ⟨rows, hrows, hshown⟩ := columns_shown_iff "2024-05-01" hasks hdistinct
  obtain ⟨r, rest, hrow, hrest, rfl⟩ := List.forall₂_cons_left_iff.mp hshown
  obtain rfl := List.forall₂_nil_left_iff.mp hrest
  refine ⟨hasks, hdistinct, r, hrows, hrow.mpr ?_⟩
  rintro (⟨hlater, hname, -⟩)
  rw [List.mem_singleton.mp hlater] at hname
  exact absurd hname (by decide)

/-- One lead is counted by its status under the name `type`: the row that the statement gives has
the status there, not the count. -/
theorem status_displaces_count :
    let text := "SELECT status, COUNT(*) AS type FROM leads GROUP BY status"
    let q : Query := ⟨.groups "status" "type", "leads", none, [], [], none, none, none⟩
    let d := Document.new.setRows .leads [.ofFields [("status", .string "New")]]
    let row := Record.ofFields [("status", .string "New"), ("type", .string "New"),
      ("count", .int 1), ("source", .string "New")]
    Query.ofText text .lenient [] = .ok (some q) ∧ q.projection.names.Nodup ∧
      q.Asks d [[("status", .string "New"), ("type", .int 1)]] ∧
      q.rows d "2024-05-01" = .ok [row] ∧
      ¬List.Forall₂ Shows [[("status", .string "New"), ("type", .int 1)]] [row] := by
  intro text q d row
  have hscan : Token.scan? text = some [.word "SELECT", .word "status", .comma, .word "COUNT",
      .openParen, .star, .closeParen, .word "AS", .word "type", .word "FROM", .word "leads",
      .word "GROUP", .word "BY", .word "status"] := by decide +kernel
  have hread : Query.ofText text .lenient [] = .ok (some q) :=
    ofText_of_scan (q := ⟨.groups "status" "type", "leads", none, [], .always, none, none, none⟩)
      hscan (by decide +kernel)
  have hasks : q.Asks d [[("status", .string "New"), ("type", .int 1)]] := by
    have hgroups : (q.page (sortGroups q.orderBy (groupsOf "status" (q.filtered d)))).map
        (fun g => [("status", g.1), ("type", .count g.2)])
          = [[("status", .string "New"), ("type", .int 1)]] := by decide +kernel
    have hasked := Asks.groups (q := q) (d := d) rfl
    rwa [hgroups] at hasked
  refine ⟨hread, by decide, hasks, by decide +kernel, fun h => ?_⟩
  cases h with
  | cons hshows _ =>
    have htype := hshows ("type", .int 1) (by decide)
    exact absurd htype (by decide +kernel)

end Query
end ClientRecords
