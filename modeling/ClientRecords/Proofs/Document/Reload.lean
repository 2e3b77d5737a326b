import ClientRecords.Document
import ClientRecords.Proofs.Catalog
import ClientRecords.Proofs.Database.Calls
import ClientRecords.Proofs.Json.Finite
/-!
Documents read back from their own JSON. Reading sorts the members of an object into tables and
other values by what they hold, and turns nested values in rows into texts. A document comes back as
it was if its rows hold finite numbers, no table of the closed set is missing, and its other values
are not such as would be read as tables (`Storable`, `ofJson?_toJson`). What is loaded is of this
kind, and stays so whatever rows are written into the tables of the closed set.
-/

namespace ClientRecords

namespace Value

/-- Is a value finite, if it is a number? -/
def isFinite : Value → Bool
  | .float x => x.isFinite
  | _ => true

variable {v : Value} {j : Json}

theorem ofJson_toJson (h : v.isFinite = true) : ofJson v.toJson = v := by
  cases v with
  | int i => rw [toJson, ofJson, if_pos ⟨i.minValue_le_toInt, i.toInt_le⟩, Int64.ofInt_toInt]
  | float x =>
    have hx : x.isFinite = true := h
    rw [toJson, if_pos hx, ofJson]
  | null | bool | string => rfl

theorem isFinite_toJson (v : Value) : v.toJson.isFinite = true := by
  cases v with
  | int i =>
    rw [toJson, Json.isFinite]
    exact Binary64.isFinite_ofInt64 i
  | float x =>
    rw [toJson]
    split
    · assumption
    · rfl
  | null | bool | string => rfl

theorem isFinite_ofJson (h : j.isFinite = true) : (ofJson j).isFinite = true := by
  cases j with
  | int i =>
    rw [ofJson]
    split
    · rfl
    · exact h
  | float x => exact h
  | _ => rfl

end Value

namespace Record

/-- Are all numbers in a row finite? -/
def IsFinite (r : Record) : Prop := ∀ e ∈ r.fields, e.2.isFinite = true

variable {r : Record} {j : Json}

theorem ofJson?_toJson (h : r.IsFinite) : ofJson? r.toJson = some r := by
  have hfields : (r.fields.map fun e => (e.1, e.2.toJson)).map (fun m => (m.1, Value.ofJson m.2))
      = r.fields := by
    rw [List.map_map]
    refine (List.map_congr_left fun e he => ?_).trans (List.map_id _)
    exact Prod.ext rfl (Value.ofJson_toJson (h e he))
  have hread : ofJson? r.toJson = some (ofFields
      ((r.fields.map fun e => (e.1, e.2.toJson)).map fun m => (m.1, Value.ofJson m.2))) := rfl
  rw [hread, hfields]
  exact congrArg some (ext (fields_ofFields r.distinct))

theorem isFinite_toJson (r : Record) : r.toJson.isFinite = true := by
  rw [toJson, Json.isFinite, Json.membersFinite_eq_true_iff]
  intro m hm
  obtain ⟨e, _, rfl⟩ := List.mem_map.mp hm
  exact e.2.isFinite_toJson

theorem isFinite_putAll {new : Entries Value} (h : r.IsFinite)
    (hnew : ∀ e ∈ new, e.2.isFinite = true) : (r.putAll new).IsFinite :=
  @Entries.forall_mem_putAll Value r.fields new (fun v => v.isFinite = true) h hnew

theorem isFinite_ofFields {fields : Entries Value} (h : ∀ e ∈ fields, e.2.isFinite = true) :
    (ofFields fields).IsFinite := isFinite_putAll (List.forall_mem_nil _) h

theorem isFinite_of_ofJson? (hj : j.isFinite = true) (h : ofJson? j = some r) : r.IsFinite := by
  cases j with
  | object members =>
    obtain rfl := Option.some.inj h
    rw [Json.isFinite, Json.membersFinite_eq_true_iff] at hj
    refine isFinite_ofFields fun e he => ?_
    obtain ⟨m, hm, rfl⟩ := List.mem_map.mp he
    exact Value.isFinite_ofJson (hj m hm)
  | _ => cases h

end Record

namespace Document

variable {d : Document} {rows : List Record} {j : Json}

theorem allRows?_map_toJson (h : ∀ r ∈ rows, r.IsFinite) :
    allRows? (.array (rows.map Record.toJson)) = some rows := by
  rw [allRows?]
  induction rows with
  | nil => rfl
  | cons r rows ih =>
    obtain ⟨hr, hrows⟩ := List.forall_mem_cons.mp h
    rw [List.map_cons, List.mapM_cons, Record.ofJson?_toJson hr, ih hrows]
    rfl

theorem isFinite_of_allRows? (hj : j.isFinite = true) (h : allRows? j = some rows) :
    ∀ r ∈ rows, r.IsFinite := by
  cases j with
  | array items =>
    rw [Json.isFinite, Json.itemsFinite_eq_true_iff] at hj
    rw [allRows?] at h
    induction items generalizing rows with
    | nil =>
      obtain rfl := Option.some.inj h
      exact List.forall_mem_nil _
    | cons item items ih =>
      obtain ⟨hitem, hitems⟩ := List.forall_mem_cons.mp hj
      rw [List.mapM_cons] at h
      obtain ⟨r, hr, h⟩ := Option.bind_eq_some_iff.mp h
      obtain ⟨rs, hrs, h⟩ := Option.bind_eq_some_iff.mp h
      obtain rfl := Option.some.inj h
      exact List.forall_mem_cons.mpr
        ⟨Record.isFinite_of_ofJson? hitem hr, ih hitems hrs⟩
  | _ => cases h

theorem isFinite_of_mem_someRows (hj : j.isFinite = true) : ∀ r ∈ someRows j, r.IsFinite := by
  cases j with
  | array items =>
    rw [Json.isFinite, Json.itemsFinite_eq_true_iff] at hj
    intro r hr
    obtain ⟨item, hitem, hread⟩ := List.mem_filterMap.mp hr
    exact Record.isFinite_of_ofJson? (hj item hitem) hread
  | _ => exact List.forall_mem_nil _

/-- Tables and other values are told apart by what they hold: rows hold finite numbers, and what is
no table would not be read as one. -/
structure Sorted (d : Document) : Prop where
  rows : ∀ e ∈ d.tables.entries, ∀ r ∈ e.2, r.IsFinite
  finite : ∀ e ∈ d.extras.entries, e.2.isFinite = true
  noRows : ∀ e ∈ d.extras.entries, allRows? e.2 = none
  unnamed : ∀ e ∈ d.extras.entries, isTableName e.1 = false
  apart : ∀ e ∈ d.extras.entries, d.tables.contains e.1 = false

/-- A document that reading its JSON gives back. -/
structure Storable (d : Document) : Prop extends Sorted d where
  complete : ∀ t : Table, d.tables.contains t.name = true

/-! ### Reading back -/

/-- The member of an object that a table becomes. -/
def tableMember (e : String × List Record) : String × Json := (e.1, .array (e.2.map Record.toJson))

theorem foldl_addMember_tables : ∀ (es : List (String × List Record)) (d : Document),
    (∀ e ∈ es, ∀ r ∈ e.2, r.IsFinite) → (es.map tableMember).foldl addMember d
      = { d with tables := es.foldl (fun c e => c.put e.1 e.2) d.tables }
  | [], _, _ => rfl
  | (name, rows) :: es, d, h => by
    obtain ⟨hrows, hes⟩ := List.forall_mem_cons.mp h
    have hadd : addMember d (tableMember (name, rows))
        = { d with tables := d.tables.put name rows } := by
      rw [addMember, tableMember, allRows?_map_toJson hrows]
    rw [List.map_cons, List.foldl_cons, hadd, foldl_addMember_tables es _ hes]
    rfl

theorem foldl_addMember_extras : ∀ (es : List (String × Json)) (d : Document),
    (∀ e ∈ es, allRows? e.2 = none ∧ isTableName e.1 = false) → es.foldl addMember d
      = { d with extras := es.foldl (fun c e => c.put e.1 e.2) d.extras }
  | [], _, _ => rfl
  | (key, j) :: es, d, h => by
    obtain ⟨⟨hnone, hname⟩, hes⟩ := List.forall_mem_cons.mp h
    have hadd : addMember d (key, j) = { d with extras := d.extras.put key j } := by
      simp only [addMember, hnone, hname, Bool.false_eq_true, if_false]
    rw [List.foldl_cons, hadd, foldl_addMember_extras es _ hes]
    rfl

theorem ensureTables_of_complete (h : ∀ t : Table, d.tables.contains t.name = true) :
    d.ensureTables = d := by
  rw [ensureTables]
  induction Table.all with
  | nil => rfl
  | cons t ts ih => rw [List.foldl_cons, ensureTable, if_pos (h t), ih]

theorem Storable.toJson_eq (h : d.Storable) :
    d.toJson = .object (d.tables.entries.map tableMember ++ d.extras.entries) := by
  have hextras : d.extras.entries.filter (fun e => !d.tables.contains e.1) = d.extras.entries :=
    List.filter_eq_self.mpr fun e he => by rw [h.apart e he]; rfl
  rw [toJson]
  exact congrArg Json.object (congrArg (d.tables.entries.map tableMember ++ ·) hextras)

/-- A storable document is read back from its JSON as it was. -/
theorem Storable.ofJson?_toJson (h : d.Storable) : ofJson? d.toJson = some d := by
  have hextras : ∀ e ∈ d.extras.entries, allRows? e.2 = none ∧ isTableName e.1 = false :=
    fun e he => ⟨h.noRows e he, h.unnamed e he⟩
  rw [h.toJson_eq, ofJson?, List.foldl_append, foldl_addMember_tables _ _ h.rows,
    foldl_addMember_extras _ _ hextras]
  have htables : d.tables.entries.foldl (fun c e => c.put e.1 e.2) blank.tables = d.tables :=
    d.tables.foldl_put_entries
  have hrest : d.extras.entries.foldl (fun c e => c.put e.1 e.2) blank.extras = d.extras :=
    d.extras.foldl_put_entries
  rw [htables, hrest]
  exact congrArg some (ensureTables_of_complete h.complete)

theorem Storable.isFinite_toJson (h : d.Storable) : d.toJson.isFinite = true := by
  rw [h.toJson_eq, Json.isFinite, Json.membersFinite_eq_true_iff]
  intro m hm
  rcases List.mem_append.mp hm with hm | hm
  · obtain ⟨e, _, rfl⟩ := List.mem_map.mp hm
    rw [tableMember, Json.isFinite, Json.itemsFinite_eq_true_iff]
    intro j hj
    obtain ⟨r, _, rfl⟩ := List.mem_map.mp hj
    exact r.isFinite_toJson
  · exact h.finite m hm

/-! ### Writing tables and other values -/

namespace Sorted

variable {key : String}

theorem blank : Sorted blank :=
  ⟨List.forall_mem_nil _, List.forall_mem_nil _, List.forall_mem_nil _, List.forall_mem_nil _,
    List.forall_mem_nil _⟩

theorem putTable (h : d.Sorted) (hrows : ∀ r ∈ rows, r.IsFinite)
    (hkey : d.extras.contains key = false) :
    Sorted { d with tables := d.tables.put key rows } where
  rows := forall_mem_insertSorted hrows h.rows
  finite := h.finite
  noRows := h.noRows
  unnamed := h.unnamed
  apart e he := by
    have hne : key ≠ e.1 := by
      rintro rfl
      rw [Catalog.contains_of_mem he] at hkey
      cases hkey
    exact (Catalog.contains_put_of_ne _ rows hne).trans (h.apart e he)

theorem putExtra (h : d.Sorted) (hj : j.isFinite = true) (hnone : allRows? j = none)
    (hname : isTableName key = false) (hkey : d.tables.contains key = false) :
    Sorted { d with extras := d.extras.put key j } where
  rows := h.rows
  finite := forall_mem_insertSorted hj h.finite
  noRows := forall_mem_insertSorted hnone h.noRows
  unnamed := forall_mem_insertSorted hname h.unnamed
  apart := forall_mem_insertSorted hkey h.apart

theorem not_contains_name (h : d.Sorted) (t : Table) : d.extras.contains t.name = false := by
  refine Bool.eq_false_iff.mpr fun hthere => ?_
  obtain ⟨e, he, hname⟩ := List.any_eq_true.mp hthere
  exact ne_name_of_not_isTableName (h.unnamed e he) t (beq_iff_eq.mp hname)

/-- New rows in a table of the closed set. -/
theorem setRows (h : d.Sorted) (t : Table) (hrows : ∀ r ∈ rows, r.IsFinite) :
    (d.setRows t rows).Sorted := h.putTable hrows (h.not_contains_name t)

theorem ensureTables (h : d.Sorted) : d.ensureTables.Sorted := by
  rw [Document.ensureTables]
  induction Table.all generalizing d with
  | nil => exact h
  | cons t ts ih =>
    refine ih ?_
    rw [ensureTable]
    split
    · exact h
    · exact h.setRows t (List.forall_mem_nil _)

theorem storable_ensureTables (h : d.Sorted) : d.ensureTables.Storable :=
  ⟨h.ensureTables, d.contains_ensureTables⟩

end Sorted

theorem Storable.setRows (h : d.Storable) (t : Table) (hrows : ∀ r ∈ rows, r.IsFinite) :
    (d.setRows t rows).Storable :=
  ⟨h.toSorted.setRows t hrows, fun u => Catalog.contains_put_of_contains _ rows (h.complete u)⟩

theorem storable_new : Storable new := Sorted.blank.storable_ensureTables

/-! ### Loaded documents -/

/-- A member becomes a table under its name, or else a value that would not be read as one. -/
theorem addMember_cases (d : Document) (m : String × Json) :
    (∃ rows, addMember d m = { d with tables := d.tables.put m.1 rows } ∧
      (m.2.isFinite = true → ∀ r ∈ rows, r.IsFinite)) ∨
    addMember d m = { d with extras := d.extras.put m.1 m.2 } ∧
      allRows? m.2 = none ∧ isTableName m.1 = false := by
  cases hrows : allRows? m.2 with
  | some rows =>
    exact .inl ⟨rows, by simp only [addMember, hrows], fun hm => isFinite_of_allRows? hm hrows⟩
  | none =>
    cases hname : isTableName m.1 with
    | true =>
      refine .inl ⟨someRows m.2, ?_, isFinite_of_mem_someRows⟩
      simp only [addMember, hrows, hname, if_true]
    | false =>
      refine .inr ⟨?_, rfl, rfl⟩
      simp only [addMember, hrows, hname, Bool.false_eq_true, if_false]

theorem Sorted.addMember (h : d.Sorted) {m : String × Json} (hm : m.2.isFinite = true)
    (htable : d.tables.contains m.1 = false) (hextra : d.extras.contains m.1 = false) :
    (d.addMember m).Sorted := by
  rcases addMember_cases d m with ⟨rows, hadd, hrows⟩ | ⟨hadd, hnone, hname⟩
  · rw [hadd]
    exact h.putTable (hrows hm) hextra
  · rw [hadd]
    exact h.putExtra hm hnone hname htable

theorem contains_addMember_of_ne {m : String × Json} {key : String} (h : m.1 ≠ key) :
    (d.addMember m).tables.contains key = d.tables.contains key ∧
      (d.addMember m).extras.contains key = d.extras.contains key := by
  rcases addMember_cases d m with ⟨rows, hadd, -⟩ | ⟨hadd, -⟩
  · rw [hadd]
    exact ⟨Catalog.contains_put_of_ne _ rows h, rfl⟩
  · rw [hadd]
    exact ⟨rfl, Catalog.contains_put_of_ne _ m.2 h⟩

/-- Members under distinct names are sorted one after the other, none being there before. -/
theorem Sorted.foldl_addMember : ∀ (ms : List (String × Json)) {d : Document}, d.Sorted →
    (Entries.names ms).Nodup → (∀ m ∈ ms, m.2.isFinite = true) →
    (∀ m ∈ ms, d.tables.contains m.1 = false ∧ d.extras.contains m.1 = false) →
    (ms.foldl Document.addMember d).Sorted
  | [], _, h, _, _, _ => h
  | m :: ms, d, h, hn, hms, hnew => by
    obtain ⟨hm, hms⟩ := List.forall_mem_cons.mp hms
    obtain ⟨⟨htable, hextra⟩, hnew⟩ := List.forall_mem_cons.mp hnew
    obtain ⟨hnot, hn⟩ := List.nodup_cons.mp hn
    refine foldl_addMember ms (h.addMember hm htable hextra) hn hms fun other hother => ?_
    have hne : m.1 ≠ other.1 := fun heq => hnot (heq ▸ List.mem_map_of_mem hother)
    obtain ⟨ht, he⟩ := @contains_addMember_of_ne d m other.1 hne
    rw [ht, he]
    exact hnew other hother

/-- An object with distinct names and finite numbers is loaded as a storable document. -/
theorem storable_of_ofJson? {members : List (String × Json)} (hn : (Entries.names members).Nodup)
    (hj : (Json.object members).isFinite = true) (h : ofJson? (.object members) = some d) :
    d.Storable := by
  obtain rfl := Option.some.inj h
  rw [Json.isFinite, Json.membersFinite_eq_true_iff] at hj
  exact (Sorted.blank.foldl_addMember members hn hj fun _ _ => ⟨rfl, rfl⟩).storable_ensureTables

theorem storable_of_ofText? {text : String} (h : ofText? text = some d) : d.Storable := by
  obtain ⟨j, hj, hd⟩ := Option.bind_eq_some_iff.mp h
  cases j with
  | object members =>
    exact storable_of_ofJson? (Json.nodup_of_ofText? hj) (Json.isFinite_of_ofText? hj) hd
  | _ => cases hd

end Document
end ClientRecords
