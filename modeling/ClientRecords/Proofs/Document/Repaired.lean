import Mathlib.Data.List.Forall2
import ClientRecords.Proofs.Document.Carried
/-!
Loading an object of any shape. A row is made of each object in the array under the name of a table,
with the fields of the object, each converted by its kind (`Becomes`); what else lies there is left
out. Under the other keys an array of objects only is a table too, and all else is kept as it is.
What a member becomes depends on the member alone (`Document.placed`), so no member can hide another
one's rows (`Document.ofJson?_repairs`).
-/

namespace ClientRecords

/-- The field that a JSON value becomes. Integers of 64 bits stay integers, other numbers are
floating point numbers, and nested values are written out. -/
inductive Becomes : Json → Value → Prop
  | null : Becomes .null .null
  | bool (b : Bool) : Becomes (.bool b) (.bool b)
  | int (i : Int64) : Becomes (.int i.toInt) (.int i)
  | wide {i : Int} (h : i < Int64.minValue.toInt ∨ Int64.maxValue.toInt < i) :
      Becomes (.int i) (.float (Binary64.ofInt i))
  | float (x : Binary64) : Becomes (.float x) (.float x)
  | string (s : String) : Becomes (.string s) (.string s)
  | array (items : List Json) :
      Becomes (.array items) (.string (Json.compact (.array items)))
  | object (members : List (String × Json)) :
      Becomes (.object members) (.string (Json.compact (.object members)))

/-- The row that an object becomes: its members in their order. -/
inductive BecomesRow : Json → Record → Prop
  | object {members : List (String × Json)} {r : Record}
      (fields : List.Forall₂ (fun m f => m.1 = f.1 ∧ Becomes m.2 f.2) members r.fields) :
      BecomesRow (.object members) r

namespace Value

theorem becomes_iff {j : Json} {v : Value} : Becomes j v ↔ ofJson j = v := by
  constructor
  · intro h
    cases h with
    | int i => rw [ofJson, if_pos ⟨i.minValue_le_toInt, i.toInt_le⟩, Int64.ofInt_toInt]
    | wide h => rw [ofJson, if_neg (by omega)]
    | _ => rfl
  · rintro rfl
    cases j with
    | int i =>
      rw [ofJson]
      by_cases hfits : Int64.minValue.toInt ≤ i ∧ i ≤ Int64.maxValue.toInt
      · rw [if_pos hfits]
        have hint := Becomes.int (Int64.ofInt i)
        rwa [toInt_ofInt hfits] at hint
      · rw [if_neg hfits]
        exact .wide (by omega)
    | _ => constructor

end Value

namespace Record

theorem becomesRow_of_ofJson? {j : Json} {r : Record} (hs : j.settle = j)
    (h : ofJson? j = some r) : BecomesRow j r := by
  cases j with
  | object members =>
    obtain rfl := Option.some.inj h
    have hnames : Entries.names (members.map fun m => (m.1, Value.ofJson m.2))
        = Entries.names members := by simp [Entries.names]
    have hn := hnames.symm ▸ (Json.of_settle_object hs).1
    refine .object ?_
    rw [fields_ofFields hn, List.forall₂_map_right_iff, List.forall₂_same]
    exact fun m _ => ⟨rfl, Value.becomes_iff.mpr rfl⟩
  | _ => cases h

theorem isSome_ofJson? (j : Json) : (ofJson? j).isSome = j.isObject := by
  cases j <;> rfl

end Record

namespace Json

/-- Is a value an array of objects only? -/
def isRows : Json → Bool
  | .array items => items.all isObject
  | _ => false

end Json

namespace Document

variable {d : Document} {key : String} {j : Json} {t : Table}

/-- What loading an object makes of its members. -/
structure Repairs (members : Entries Json) (d : Document) : Prop where
  /-- Every table of the closed set is there. -/
  complete : ∀ t : Table, (d.tables.get? t.name).isSome = true
  /-- A table that is an array has a row for each object in it, in their order. -/
  rows : ∀ (t : Table) (items : List Json), members.get? t.name = some (.array items) →
    List.Forall₂ BecomesRow (items.filter Json.isObject) (d.rowsOf t)
  /-- A table that is anything else, or is missing, is empty. -/
  empty : ∀ t : Table, (∀ items, members.get? t.name ≠ some (.array items)) → d.rowsOf t = []
  /-- An array of objects under another key is a table with a row for each of them. -/
  extra : ∀ (key : String) (items : List Json), isTableName key = false →
    members.get? key = some (.array items) → (Json.array items).isRows = true →
      ∃ rows, d.tables.get? key = some rows ∧ List.Forall₂ BecomesRow items rows
  /-- Anything else under another key stays as it is. -/
  verbatim : ∀ (key : String) (j : Json), isTableName key = false → members.get? key = some j →
    j.isRows = false → d.extras.get? key = some j
  apart : ∀ key : String, (d.tables.get? key).isSome = true → d.extras.get? key = none
  noOther : ∀ key : String, (d.tables.get? key).isSome = true ∨ (d.extras.get? key).isSome = true →
    isTableName key = true ∨ key ∈ members.names

/-! ### Rows -/

theorem mapM_ofJson? (items : List Json) : items.mapM Record.ofJson? =
    if items.all Json.isObject then some (items.filterMap Record.ofJson?) else none := by
  induction items with
  | nil => rfl
  | cons item items ih =>
    rw [List.mapM_cons, ih, List.all_cons, ← Record.isSome_ofJson?]
    cases hitem : Record.ofJson? item with
    | none => rfl
    | some r => cases hall : items.all Json.isObject <;> simp [hitem]

theorem allRows?_eq (j : Json) : allRows? j = if j.isRows then some (someRows j) else none := by
  cases j with
  | array items => exact mapM_ofJson? items
  | _ => rfl

theorem forall₂_someRows {items : List Json} (h : ∀ item ∈ items, item.settle = item) :
    List.Forall₂ BecomesRow (items.filter Json.isObject) (someRows (.array items)) := by
  rw [someRows]
  induction items with
  | nil => exact .nil
  | cons item items ih =>
    obtain ⟨hitem, hitems⟩ := List.forall_mem_cons.mp h
    rw [List.filter_cons, List.filterMap_cons, ← Record.isSome_ofJson?]
    cases hrow : Record.ofJson? item with
    | none => exact ih hitems
    | some r => exact .cons (Record.becomesRow_of_ofJson? hitem hrow) (ih hitems)

/-! ### Places -/

theorem placed_eq (key : String) (j : Json) : placed key j =
    if isTableName key || j.isRows then (some (someRows j), none) else (none, some j) := by
  rw [placed, allRows?_eq]
  cases isTableName key <;> cases j.isRows <;> rfl

theorem rowsOf_ensureTable (d : Document) (t u : Table) :
    (d.ensureTable u).rowsOf t = d.rowsOf t := by
  rw [ensureTable]
  by_cases hmissing : d.tables.contains u.name = true
  · rw [if_pos hmissing]
  · rw [if_neg hmissing]
    by_cases hname : u.name = t.name
    · rw [hname, Catalog.contains_eq_isSome, Bool.not_eq_true, Option.isSome_eq_false_iff,
        Option.isNone_iff_eq_none] at hmissing
      rw [rowsOf, rowsOf, hname, Catalog.get?_put_self, hmissing]
      rfl
    · rw [rowsOf, rowsOf, Catalog.get?_put_of_ne _ _ hname]

/-- A table that is added has no rows, and the others keep theirs. -/
theorem rowsOf_ensureTables (d : Document) (t : Table) : d.ensureTables.rowsOf t = d.rowsOf t := by
  rw [ensureTables]
  generalize Table.all = ts
  induction ts generalizing d with
  | nil => rfl
  | cons u ts ih => rw [List.foldl_cons, ih, rowsOf_ensureTable]

theorem isTableName_name (t : Table) : isTableName t.name = true :=
  List.any_eq_true.mpr ⟨t, Table.mem_all t, beq_self_eq_true _⟩

section Loaded

variable {members : Entries Json}

/-- The document of the members before missing tables are added. -/
theorem under_members (hn : members.names.Nodup) (key : String) :
    (members.foldl addMember blank).under key =
      ((members.get? key).map (placed key)).getD (none, none) := by
  cases hj : members.get? key with
  | some j => exact under_foldl_placed hn rfl hj
  | none => exact under_foldl_of_not_mem (Entries.get?_eq_none_iff.mp hj)

theorem rowsOf_loaded (hn : members.names.Nodup) (t : Table) :
    (members.foldl addMember blank).ensureTables.rowsOf t =
      ((members.get? t.name).map someRows).getD [] := by
  have htable : (members.foldl addMember blank).tables.get? t.name = _ :=
    congrArg Prod.fst (under_members hn t.name)
  rw [rowsOf_ensureTables, rowsOf, htable]
  cases members.get? t.name with
  | none => rfl
  | some j => simp [placed_eq, isTableName_name]

theorem extras_loaded (hn : members.names.Nodup) (key : String) :
    (members.foldl addMember blank).ensureTables.extras.get? key =
      (members.get? key).filter fun j => !(isTableName key || j.isRows) := by
  have hextra : (members.foldl addMember blank).extras.get? key = _ :=
    congrArg Prod.snd (under_members hn key)
  rw [extras_ensureTables, hextra]
  cases members.get? key with
  | none => rfl
  | some j => cases h : (isTableName key || j.isRows) <;> simp [placed_eq, h, Option.filter]

theorem tables_loaded (hn : members.names.Nodup) (hkey : isTableName key = false) :
    (members.foldl addMember blank).ensureTables.tables.get? key =
      ((members.get? key).filter Json.isRows).map someRows := by
  have htable : (members.foldl addMember blank).tables.get? key = _ :=
    congrArg Prod.fst (under_members hn key)
  rw [get?_ensureTables _ hkey, htable]
  cases members.get? key with
  | none => rfl
  | some j => cases h : j.isRows <;> simp [placed_eq, hkey, h, Option.filter]

/-- Every object in which no name is repeated, nor in the values within, is loaded, whatever lies
under its keys, and no row is lost. -/
theorem ofJson?_repairs (hs : (Json.object members).settle = .object members) :
    ∃ d, ofJson? (.object members) = some d ∧ d.Repairs members := by
  obtain ⟨hn, hmembers⟩ := Json.of_settle_object hs
  have hitems : ∀ {key : String} {items : List Json}, members.get? key = some (.array items) →
      List.Forall₂ BecomesRow (items.filter Json.isObject) (someRows (.array items)) := by
    intro key items hget
    have harray := Json.settle_of_mem_members hmembers (Entries.mem_of_get? hget)
    rw [Json.settle] at harray
    exact forall₂_someRows (Json.settle_of_mem_items (Json.array.inj harray))
  refine ⟨_, rfl, ?_⟩
  constructor
  case complete =>
    intro t
    rw [← Catalog.contains_eq_isSome, contains_ensureTables]
  case rows =>
    intro t items hget
    rw [rowsOf_loaded hn, hget]
    exact hitems hget
  case empty =>
    intro t hget
    rw [rowsOf_loaded hn]
    cases hj : members.get? t.name with
    | none => rfl
    | some j =>
      cases j with
      | array items => exact absurd hj (hget items)
      | _ => rfl
  case extra =>
    intro key items hkey hget hrows
    refine ⟨someRows (.array items), ?_, ?_⟩
    · rw [tables_loaded hn hkey, hget, Option.filter_some_pos hrows]
      rfl
    · have hall := hitems hget
      rwa [List.filter_eq_self.mpr (List.all_eq_true.mp hrows)] at hall
  case verbatim =>
    intro key j hkey hget hrows
    rw [extras_loaded hn, hget]
    simp [hkey, hrows]
  case apart =>
    intro key htable
    rw [extras_loaded hn]
    cases hkey : isTableName key with
    | true => cases members.get? key <;> simp
    | false =>
      rw [tables_loaded hn hkey, Option.isSome_map] at htable
      cases hj : members.get? key with
      | none => rfl
      | some j =>
        rw [hj] at htable
        cases hrows : j.isRows <;> simp [Option.filter, hrows] at htable ⊢
  case noOther =>
    intro key hthere
    by_contra hno
    obtain ⟨hkey, hmem⟩ := not_or.mp hno
    have hkey : isTableName key = false := Bool.eq_false_iff.mpr hkey
    have hget := Entries.get?_eq_none_iff.mpr hmem
    rw [tables_loaded hn hkey, extras_loaded hn, hget] at hthere
    simp at hthere

end Loaded

/-- A table that is null, one with strays between its objects, an archive and a version. -/
theorem repairs_mixed :
    let members : List (String × Json) :=
      [("tasks", .null), ("version", .int 3), ("archive", .array []),
        ("leads", .array [.int 7, .object [("tags", .array [.bool true, .null]),
          ("score", .int 9223372036854775808)], .string "stray"]),
        ("notes", .array [.object [], .null])]
    (Json.object members).settle = .object members ∧
      ∃ d, ofJson? (.object members) = some d ∧ d.Repairs members ∧
        d.rowsOf .leads = [.ofFields [("tags", .string "[true,null]"),
          ("score", .float (Binary64.ofInt 9223372036854775808))]] ∧
        d.tables.get? "archive" = some [] ∧ d.extras.get? "version" = some (.int 3) ∧
        d.extras.get? "notes" = some (.array [.object [], .null]) := by
  intro members
  have hs : (Json.object members).settle = .object members := by decide
  obtain ⟨d, hd, hrepairs⟩ := ofJson?_repairs hs
  have hverbatim := hrepairs.verbatim
  refine ⟨hs, d, hd, hrepairs, ?_, ?_, ?_, ?_⟩
  · obtain rfl := Option.some.inj hd
    decide +kernel
  · obtain rfl := Option.some.inj hd
    decide +kernel
  · exact hverbatim "version" _ (by decide) rfl rfl
  · exact hverbatim "notes" _ (by decide) rfl rfl

end Document
end ClientRecords
