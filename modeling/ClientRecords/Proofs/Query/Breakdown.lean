import ClientRecords.Proofs.Query.Rows
/-!
When a statement is broken off. Reading, binding and writing always come to an end with an outcome
or a refusal; only a query can break off while it goes over its rows, and it does so in two ways
(`Query.BreaksOff`): its date format asks for a zone and some row has a readable date, or it sorts
more than twenty rows of mixed kinds and their order is found to contradict itself.
-/

namespace ClientRecords

theorem mapM_eq_none_iff {α β : Type} {f : α → Option β} : ∀ {xs : List α},
    xs.mapM f = none ↔ ∃ x ∈ xs, f x = none
  | [] => by simp
  | x :: xs => by
    rw [List.mapM_cons]
    cases hx : f x with
    | none => simp [hx]
    | some y =>
      cases hxs : xs.mapM f with
      | none =>
        obtain ⟨z, hz, hfz⟩ := mapM_eq_none_iff.mp hxs
        simp only [Option.bind_eq_bind, Option.bind_some, Option.bind_none, true_iff]
        exact ⟨z, List.mem_cons_of_mem x hz, hfz⟩
      | some ys =>
        simp only [Option.bind_eq_bind, Option.bind_some, Option.pure_def, reduceCtorEq, false_iff]
        rintro ⟨z, hz, hfz⟩
        rcases List.mem_cons.mp hz with rfl | hz
        · rw [hx] at hfz
          cases hfz
        · have hnone := mapM_eq_none_iff.mpr ⟨z, hz, hfz⟩
          rw [hxs] at hnone
          cases hnone

/-! ### Dates -/

namespace Directive

variable {t : DateTime} {ds : List Directive}

theorem write?_eq_none_iff {x : Directive} : write? t x = none ↔ x = .zone := by
  cases x <;> simp [write?]

/-- A time is written by every list of directives none of which asks for a zone. -/
theorem writeAll?_eq_none_iff : writeAll? t ds = none ↔ .zone ∈ ds := by
  rw [writeAll?, Option.map_eq_none_iff, mapM_eq_none_iff]
  constructor
  · rintro ⟨x, hx, hwrite⟩
    exact write?_eq_none_iff.mp hwrite ▸ hx
  · intro hz
    exact ⟨.zone, hz, rfl⟩

end Directive

namespace Trend

variable {field now : String} {ds : List Directive}

/-- Has a row a readable date? -/
def IsDated (field now : String) (r : Record) : Prop :=
  (DateTime.ofText? (dateText field now r)).isSome

theorem key?_eq_none_iff {r : Record} :
    key? ds field now r = none ↔ IsDated field now r ∧ .zone ∈ ds := by
  rw [key?, IsDated]
  cases DateTime.ofText? (dateText field now r) with
  | none => simp
  | some t => simp [Directive.writeAll?_eq_none_iff]

/-- Counting fails if the format is known, asks for a zone and there is a date to write. -/
theorem count?_eq_none_iff {format : String} {rows : List Record} :
    count? format field now rows = none ↔
      ∃ ds, Directive.ofFormat? format = some ds ∧ .zone ∈ ds ∧
        ∃ r ∈ rows, IsDated field now r := by
  rw [count?]
  cases Directive.ofFormat? format with
  | none => simp
  | some ds =>
    simp only [Option.map_eq_none_iff, mapM_eq_none_iff, key?_eq_none_iff, Option.some.injEq,
      exists_eq_left']
    constructor
    · rintro ⟨r, hr, hdated, hzone⟩
      exact ⟨hzone, r, hr, hdated⟩
    · rintro ⟨hzone, r, hr, hdated⟩
      exact ⟨r, hr, hdated, hzone⟩

end Trend

/-! ### Queries -/

/-- Short lists are always sorted. -/
theorem length_of_sort?_eq_none {α : Type} {before : α → α → Bool} {xs : List α}
    (h : sort? before xs = none) : 20 < xs.length := by
  rcases Nat.lt_or_ge 20 xs.length with hlt | hle
  · exact hlt
  · rw [sort?, if_pos hle] at h
    cases h

namespace Query

variable {d : Document} {q : Query} {now : String} {b : Breakdown}

theorem sortRows?_eq_none_iff {key : SortKey} {rs : List Record} :
    sortRows? key rs = none ↔
      haveOrder (rs.map (sortValue key.field)) = false ∧ sort? (rowBefore key) rs = none := by
  rw [sortRows?]
  cases haveOrder (rs.map (sortValue key.field)) <;> simp

/-- How a query breaks off. -/
inductive BreaksOff (q : Query) (d : Document) (now : String) : Breakdown → Prop
  | noZone {format field keyName countName : String} {ds : List Directive} {r : Record}
      (hp : q.projection = .trend format field keyName countName)
      (hf : Directive.ofFormat? format = some ds) (hz : .zone ∈ ds)
      (hr : r ∈ q.filtered d) (hd : Trend.IsDated field now r) : BreaksOff q d now .noZone
  | noOrder {key : SortKey} (hp : q.projection = .rows) (hk : q.orderBy = some key)
      (hl : 20 < (q.listed d).length)
      (ho : haveOrder ((q.listed d).map (sortValue key.field)) = false)
      (hs : sort? (rowBefore key) (q.listed d) = none) : BreaksOff q d now .noOrder

theorem plainRows?_eq_none_iff : q.plainRows? d = none ↔
    ∃ key, q.orderBy = some key ∧ sortRows? key (q.listed d) = none := by
  rw [plainRows?_eq, Option.map_eq_none_iff]
  cases q.orderBy <;> simp

theorem rows_eq_error_iff : q.rows d now = .error b ↔ q.BreaksOff d now b := by
  constructor
  · intro h
    unfold rows at h
    cases hp : q.projection with
    | count name | sums columns | groups field countName =>
      rw [hp] at h
      cases h
    | trend format field keyName countName =>
      rw [hp] at h
      cases hc : Trend.count? format field now (q.filtered d) with
      | some groups =>
        simp only [hc] at h
        cases h
      | none =>
        simp only [hc] at h
        cases h
        obtain ⟨ds, hf, hz, r, hr, hd⟩ := Trend.count?_eq_none_iff.mp hc
        exact .noZone hp hf hz hr hd
    | rows =>
      rw [hp] at h
      cases hrows : q.plainRows? d with
      | some rows =>
        simp only [hrows] at h
        cases h
      | none =>
        simp only [hrows] at h
        cases h
        obtain ⟨key, hk, hsort⟩ := plainRows?_eq_none_iff.mp hrows
        obtain ⟨ho, hs⟩ := sortRows?_eq_none_iff.mp hsort
        exact .noOrder hp hk (length_of_sort?_eq_none hs) ho hs
  · rintro (⟨hp, hf, hz, hr, hd⟩ | ⟨hp, hk, hl, ho, hs⟩)
    · have hc := Trend.count?_eq_none_iff.mpr ⟨_, hf, hz, _, hr, hd⟩
      simp only [rows, hp, hc]
    · have hrows := plainRows?_eq_none_iff.mpr ⟨_, hk, sortRows?_eq_none_iff.mpr ⟨ho, hs⟩⟩
      simp only [rows, hp, hrows]

end Query

/-! ### Statements -/

namespace Document

variable {d : Document} {mode : Mode} {now text : String} {params : List Value}

theorem evaluate_eq_brokenOff_iff {b : Breakdown} :
    d.evaluate mode now text params = .error (.brokenOff b) ↔
      ∃ q, Query.ofText text mode params = .ok (some q) ∧ q.BreaksOff d now b := by
  rw [evaluate]
  cases Query.ofText text mode params with
  | error e => simp
  | ok read =>
    cases read with
    | none => simp
    | some q =>
      simp only [Except.ok.injEq, Option.some.injEq, exists_eq_left', ← Query.rows_eq_error_iff]
      cases q.rows d now <;> simp

theorem not_brokenOff_write {name : String} {change : Table → Option Document} {b : Breakdown} :
    write name change ≠ .error (.brokenOff b) := by
  rw [write]
  split <;> simp

/-- Only a text that reads as a query is broken off. -/
theorem execute_eq_brokenOff_iff {b : Breakdown} :
    d.execute mode now text params = .error (.brokenOff b) ↔
      ∃ q, Query.ofText (Text.collapse text) mode params = .ok (some q) ∧ q.BreaksOff d now b := by
  constructor
  · intro h
    rw [execute] at h
    cases hs : Statement.ofText text mode params now with
    | error e =>
      simp only [hs] at h
      cases h
    | ok s =>
      simp only [hs] at h
      obtain ⟨tokens, o, -, hreads, hbinds⟩ := Statement.exists_of_ofText hs
      cases hbinds with
      | insert | update | delete => exact absurd h not_brokenOff_write
      | select source =>
        have hsource : source = Text.collapse text := by
          cases hreads with
          | select => rfl
          | insert h => cases h
          | update h => cases h
          | delete h => cases h
        exact evaluate_eq_brokenOff_iff.mp (hsource ▸ h)
  · rintro ⟨q, hq, hb⟩
    rw [execute_of_query hq, Query.rows_eq_error_iff.mpr hb]

/-- A statement has an outcome or is refused, whatever its text and its parameters are, unless it
reads as a query that breaks off. -/
theorem execute_ok_or_refused_iff (d : Document) (mode : Mode) (now text : String)
    (params : List Value) :
    (∃ o, d.execute mode now text params = .ok o) ∨
        (∃ e, d.execute mode now text params = .error (.refused e)) ↔
      ¬∃ q b, Query.ofText (Text.collapse text) mode params = .ok (some q) ∧
        q.BreaksOff d now b := by
  constructor
  · rintro h ⟨q, b, hq, hb⟩
    have hbroken := execute_eq_brokenOff_iff.mpr ⟨q, hq, hb⟩
    rcases h with ⟨o, ho⟩ | ⟨e, he⟩
    · rw [ho] at hbroken
      cases hbroken
    · rw [he] at hbroken
      cases hbroken
  · intro h
    cases hx : d.execute mode now text params with
    | ok o => exact .inl ⟨o, rfl⟩
    | error f =>
      cases f with
      | refused e => exact .inr ⟨e, rfl⟩
      | brokenOff b =>
        obtain ⟨q, hq, hb⟩ := execute_eq_brokenOff_iff.mp hx
        exact absurd ⟨q, b, hq, hb⟩ h

/-- One row with a date is enough for a format that asks for a zone. -/
theorem zone_breaks_off :
    let r := Record.ofFields [("id", .string "l1"), ("created_at", .string "2024-01-05")]
    (new.setRows .leads [r]).execute .lenient "2024-05-01"
        "SELECT strftime('%z', created_at) AS k, COUNT(*) AS n FROM leads" []
      = .error (.brokenOff .noZone) := by
  intro r
  let tokens : List Token :=
    [.word "SELECT", .word "strftime", .openParen, .string "%z", .comma, .word "created_at",
      .closeParen, .word "AS", .word "k", .comma, .word "COUNT", .openParen, .star, .closeParen,
      .word "AS", .word "n", .word "FROM", .word "leads"]
  have hscan : Token.scan? (Text.collapse
      "SELECT strftime('%z', created_at) AS k, COUNT(*) AS n FROM leads") = some tokens := by
    decide +kernel
  have htokens : OpenQuery.ofTokens? (OpenStatement.trimSemicolons tokens) = some
      ⟨.trend "%z" "created_at" "k" "n", "leads", none, [], .always, none, none, none⟩ := by
    decide +kernel
  have hread : Query.ofText (Text.collapse _) .lenient [] = .ok (some
      ⟨.trend "%z" "created_at" "k" "n", "leads", none, [], [], none, none, none⟩) :=
    Query.ofText_of_scan hscan htokens
  refine execute_eq_brokenOff_iff.mpr ⟨_, hread, ?_⟩
  have hformat : Directive.ofFormat? "%z" = some [.zone] := by decide +kernel
  have hdated : Trend.IsDated "created_at" "2024-05-01" r := by
    unfold Trend.IsDated
    decide +kernel
  exact .noZone rfl hformat List.mem_cons_self (by decide +kernel) hdated

end Document
end ClientRecords
