import Mathlib.Algebra.BigOperators.Group.List.Lemmas
import Mathlib.Data.List.DropRight
import Mathlib.Data.List.Induction
import ClientRecords.Proofs.Arithmetic
import ClientRecords.Proofs.Catalog
import ClientRecords.Proofs.Query.Breakdown
/-!
Rows counted by date. The catalog of counts holds, after any number of keys, each of them with the
number of times it came up (`get?_foldl_tally`). So the rows with a readable date are parted by the
texts of their dates, which are listed in ascending order, each with the number of its rows
(`countsDates_tally`), and a limit leaves the last of them (`trends_partition`).
-/

namespace ClientRecords

/-- The loose text of a field, empty if the field is missing. -/
def Record.looseText (r : Record) (name : String) : String :=
  ((r.get? name).map Value.text).getD ""

namespace Trend

/-- The text that a row is dated by: a field if it is truthy, else the time at which the row was
created if that is truthy, else the time of the query. -/
def stamp (field now : String) (r : Record) : String :=
  if r.hasTruthy field then r.looseText field
  else if r.hasTruthy "created_at" then r.looseText "created_at"
  else now

/-- The date of a row in a format, if the row has a readable date. -/
def dateKey? (ds : List Directive) (field now : String) (r : Record) : Option String :=
  (DateTime.ofText? (stamp field now r)).bind fun t => Directive.writeAll? t ds

/-- Rows with a date, counted by it: every date once, in ascending order, with the number of its
rows. -/
structure CountsDates (date? : Record → Option String) (rows : List Record)
    (groups : List (String × Nat)) : Prop where
  ascending : Ascending groups
  dates : ∀ date, date ∈ groups.map Prod.fst ↔ ∃ r ∈ rows, date? r = some date
  sizes : ∀ g ∈ groups, g.2 = rows.countP (date? · == some g.1)

/-- A row that shows a date and the number of its rows, and nothing else. -/
def ShowsDate (keyName countName : String) (r : Record) (g : String × Nat) : Prop :=
  r.fields = [(keyName, .string g.1), (countName, .count g.2)]

variable {field now key : String} {ds : List Directive} {r : Record} {rows : List Record}
  {keys : List String} {date? : Record → Option String}

/-! ### Dates -/

theorem dateText_eq_stamp (field now : String) (r : Record) :
    dateText field now r = stamp field now r := by
  unfold dateText stamp Record.hasTruthy Record.looseText
  generalize r.get? field = written
  generalize r.get? "created_at" = created
  cases created with
  | none =>
    cases written with
    | none => rfl
    | some v => by_cases hv : v.isTruthy = true <;> simp [hv]
  | some c =>
    cases written with
    | none => by_cases hc : c.isTruthy = true <;> simp [hc]
    | some v =>
      by_cases hv : v.isTruthy = true
      · simp [hv]
      · by_cases hc : c.isTruthy = true <;> simp [hv, hc]

/-- Without a zone to ask for, every row that has a readable date has a key. -/
theorem isSome_dateKey? (hz : .zone ∉ ds) (field now : String) (r : Record) :
    (dateKey? ds field now r).isSome = (DateTime.ofText? (stamp field now r)).isSome := by
  rw [dateKey?]
  cases DateTime.ofText? (stamp field now r) with
  | none => rfl
  | some t =>
    have hwritten : Directive.writeAll? t ds ≠ none := mt Directive.writeAll?_eq_none_iff.mp hz
    rw [Option.bind_some, Option.isSome_some]
    exact Option.isSome_iff_ne_none.mpr hwritten

theorem key?_eq (hz : .zone ∉ ds) (field now : String) (r : Record) :
    key? ds field now r = some (dateKey? ds field now r) := by
  have hsome := isSome_dateKey? hz field now r
  rw [key?, dateText_eq_stamp]
  rw [dateKey?] at hsome ⊢
  cases ht : DateTime.ofText? (stamp field now r) with
  | none => rfl
  | some t =>
    rw [ht, Option.bind_some, Option.isSome_some] at hsome
    obtain ⟨key, hkey⟩ := Option.isSome_iff_exists.mp hsome
    simp [hkey]

/-! ### Counts -/

/-- One more key is counted once more, and no other count changes. -/
theorem get?_tally (counts : Catalog Nat) (key other : String) : (tally counts key).get? other =
    if key = other then some ((counts.get? key).getD 0 + 1) else counts.get? other := by
  rw [tally]
  by_cases heq : key = other
  · rw [if_pos heq, heq, Catalog.get?_put_self]
  · rw [if_neg heq]
    exact Catalog.get?_put_of_ne _ _ heq

/-- After any number of keys each of them has the number of times it came up. -/
theorem get?_foldl_tally (keys : List String) (key : String) :
    (keys.foldl tally .empty).get? key = if key ∈ keys then some (keys.count key) else none := by
  induction keys using List.reverseRecOn with
  | nil => rfl
  | append_singleton keys k ih =>
    rw [List.foldl_append, List.foldl_cons, List.foldl_nil, get?_tally]
    by_cases hk : k = key
    · subst hk
      rw [ih]
      by_cases hmem : k ∈ keys
      · simp [hmem]
      · simp [hmem, List.count_eq_zero_of_not_mem hmem]
    · simp [hk, ih, Ne.symm hk]

theorem mem_entries_tally {n : Nat} :
    (key, n) ∈ (keys.foldl tally .empty).entries ↔ key ∈ keys ∧ n = keys.count key := by
  rw [Catalog.mem_entries_iff, get?_foldl_tally]
  by_cases hmem : key ∈ keys
  · rw [if_pos hmem, Option.some.injEq, eq_comm]
    exact (and_iff_right hmem).symm
  · simp [hmem]

/-- The keys of some rows, counted. -/
theorem countsDates_tally (date? : Record → Option String) (rows : List Record) :
    CountsDates date? rows ((rows.filterMap date?).foldl tally .empty).entries where
  ascending := Catalog.ascending _
  dates date := by
    simp only [List.mem_map, Prod.exists, mem_entries_tally]
    constructor
    · rintro ⟨k, -, ⟨hmem, -⟩, rfl⟩
      exact List.mem_filterMap.mp hmem
    · intro hdate
      exact ⟨date, _, ⟨List.mem_filterMap.mpr hdate, rfl⟩, rfl⟩
  sizes := by
    rintro ⟨key, n⟩ hg
    obtain ⟨-, rfl⟩ := mem_entries_tally.mp hg
    exact List.count_filterMap ..

theorem CountsDates.nodup {groups : List (String × Nat)} (h : CountsDates date? rows groups) :
    (groups.map Prod.fst).Nodup := Catalog.nodup_keys ⟨groups, h.ascending⟩

/-- Every row with a date is counted once. -/
theorem CountsDates.total_eq {groups : List (String × Nat)} (h : CountsDates date? rows groups) :
    total (groups.map Prod.snd) = rows.countP fun r => (date? r).isSome := by
  let keys := rows.filterMap date?
  have hkeys : (groups.map Prod.fst).Perm keys.dedup := by
    refine (List.perm_ext_iff_of_nodup h.nodup keys.nodup_dedup).mpr fun key => ?_
    rw [h.dates, List.mem_dedup, List.mem_filterMap]
  have hsizes : groups.map Prod.snd = (groups.map Prod.fst).map (keys.count ·) := by
    rw [List.map_map]
    refine List.map_congr_left fun g hg => ?_
    rw [h.sizes g hg]
    exact List.count_filterMap.symm
  calc total (groups.map Prod.snd)
      = ((groups.map Prod.fst).map (keys.count ·)).sum := by
        rw [total_eq_foldr, ← List.sum_eq_foldr, hsizes]
    _ = (keys.dedup.map (keys.count ·)).sum := (hkeys.map _).sum_eq
    _ = keys.length := List.sum_map_count_dedup_eq_length keys
    _ = rows.countP fun r => (date? r).isSome := List.length_filterMap_eq_countP

/-- Counting gives a count of every date, whatever the rows are. -/
theorem exists_count? {format : String} (hf : Directive.ofFormat? format = some ds)
    (hz : .zone ∉ ds) (field now : String) (rows : List Record) :
    ∃ groups, count? format field now rows = some groups ∧
      CountsDates (dateKey? ds field now) rows groups := by
  have hkeys : rows.mapM (key? ds field now) = some (rows.map (dateKey? ds field now)) := by
    rw [funext fun r => key?_eq hz field now r]
    exact List.mapM_pure
  refine ⟨_, ?_, countsDates_tally (dateKey? ds field now) rows⟩
  simp [count?, hf, hkeys, List.filterMap_map]

end Trend

namespace Query

open Trend

theorem showsDate_trendRow {keyName countName : String} (hne : keyName ≠ countName)
    (g : String × Nat) : ShowsDate keyName countName (trendRow keyName countName g) g :=
  Record.fields_ofFields (by simpa [Entries.names] using hne)

/-- Where the counts exist they are the rows, up to the limit. -/
theorem rows_of_counted {d : Document} {q : Query} {now format field keyName countName : String}
    {groups : List (String × Nat)} (hq : q.projection = .trend format field keyName countName)
    (hcount : count? format field now (q.filtered d) = some groups) :
    q.rows d now = .ok ((lastGroups q.limit groups).map (trendRow keyName countName)) := by
  simp only [rows, hq, hcount]

/-- A query that counts by date lists the dates of the rows that pass in ascending order, each once
and with the number of its rows, and with every row that has a readable date under one of them. A
limit leaves the last of these rows. -/
theorem trends_partition (d : Document) (q : Query) (now : String)
    {format field keyName countName : String} {ds : List Directive}
    (hq : q.projection = .trend format field keyName countName) (hne : keyName ≠ countName)
    (hf : Directive.ofFormat? format = some ds) (hz : .zone ∉ ds) :
    ∃ groups shown,
      CountsDates (dateKey? ds field now) (q.filtered d) groups ∧
      total (groups.map Prod.snd) =
        (q.filtered d).countP (fun r => (DateTime.ofText? (stamp field now r)).isSome) ∧
      List.Forall₂ (ShowsDate keyName countName) shown groups ∧
      ({ q with limit := none } : Query).rows d now = .ok shown ∧
      ∀ n, ({ q with limit := some n } : Query).rows d now = .ok (shown.rtake n) := by
  obtain ⟨groups, hcount, hgroups⟩ := exists_count? hf hz field now (q.filtered d)
  have hlimit : ∀ limit, ({ q with limit := limit } : Query).rows d now =
      .ok ((lastGroups limit groups).map (trendRow keyName countName)) :=
    fun limit => rows_of_counted hq hcount
  refine ⟨groups, groups.map (trendRow keyName countName), hgroups, ?_, ?_, hlimit none, ?_⟩
  · rw [hgroups.total_eq]
    simp only [isSome_dateKey? hz]
  · rw [List.forall₂_map_left_iff, List.forall₂_same]
    intro g _
    exact showsDate_trendRow hne g
  · intro n
    rw [hlimit, lastGroups, List.rtake, List.map_drop, List.length_map]

/-- Five leads by the month in which they were closed: two of February, one that was never closed
and counts for the month it came up in, one without any date that counts for the month of the query,
and one that is not counted as its date cannot be read. Two months are shown. -/
theorem leads_by_month :
    let lead := fun closed => Record.ofFields
      [("closed_at", closed), ("created_at", .string "2024-01-05T08:00:00Z")]
    let d := Document.new.setRows .leads [lead (.string "2024-02-10"), lead .null,
      lead (.string "2024-02-01 09:30:00"), lead (.string "soon"), Record.ofFields []]
    let q : Query := ⟨.trend "%Y-%m" "closed_at" "month" "n", "leads", none, [], [], none, some 2,
      none⟩
    let ds : List Directive := [.number .year .zero, .text ['-'], .number .month .zero]
    q.projection = .trend "%Y-%m" "closed_at" "month" "n" ∧ "month" ≠ "n" ∧
      Directive.ofFormat? "%Y-%m" = some ds ∧ .zone ∉ ds ∧
      ∃ groups shown,
        CountsDates (dateKey? ds "closed_at" "2024-05-01") (q.filtered d) groups ∧
        total (groups.map Prod.snd) = 4 ∧
        List.Forall₂ (ShowsDate "month" "n") shown groups ∧
        ({ q with limit := none } : Query).rows d "2024-05-01" = .ok shown ∧
        q.rows d "2024-05-01" = .ok (shown.rtake 2) := by
  intro lead d q ds
  have hformat : Directive.ofFormat? "%Y-%m" = some ds := by decide +kernel
  have hfour : (q.filtered d).countP
      (fun r => (DateTime.ofText? (stamp "closed_at" "2024-05-01" r)).isSome) = 4 := by
    decide +kernel
  obtain ⟨groups, shown, hgroups, htotal, hshown, hall, hlast⟩ :=
    trends_partition d q "2024-05-01" rfl (by decide : "month" ≠ "n") hformat (by decide)
  exact ⟨rfl, by decide, hformat, by decide, groups, shown, hgroups, htotal.trans hfour, hshown,
    hall, hlast 2⟩

end Query
end ClientRecords
