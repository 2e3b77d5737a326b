import ClientRecords.Proofs.Document.Reload
import ClientRecords.Proofs.Json.Equality
/-!
Values under keys that name no table, from loading to storing. No statement touches them, but
loading looks at what they hold: an array of objects only is taken for a table, and the fields of
its rows hold no nested values and no whole numbers beyond 64 bits (`Json.carried`). So such a value
is stored as it was loaded exactly if it is no array of objects, or if the objects in it are flat
(`Database.run_carries`).
-/

namespace ClientRecords

namespace Json

variable {j : Json}

/-- The value under a key of an object. -/
def member? (key : String) : Json → Option Json
  | .object members => Entries.get? members key
  | _ => none

def isObject : Json → Bool
  | .object _ => true
  | _ => false

/-- Is a value neither nested nor a whole number beyond 64 bits? -/
def isScalar : Json → Bool
  | .int i => decide (Int64.minValue.toInt ≤ i ∧ i ≤ Int64.maxValue.toInt)
  | .array _ | .object _ => false
  | _ => true

/-- What a field of a row makes of a value: arrays and objects become their texts, and whole numbers
beyond 64 bits lose digits. -/
def flattened : Json → Json
  | .int i =>
    if Int64.minValue.toInt ≤ i ∧ i ≤ Int64.maxValue.toInt then .int i
    else .float (Binary64.ofInt i)
  | .array items => .string (compact (.array items))
  | .object members => .string (compact (.object members))
  | j => j

/-- What a row makes of an object. -/
def flatRow : Json → Json
  | .object members => .object (members.map fun m => (m.1, m.2.flattened))
  | j => j

/-- Are all members of an object scalars? -/
def isFlatRow : Json → Bool
  | .object members => members.all fun m => m.2.isScalar
  | _ => true

/-- What a document makes of a value under a key that names no table. -/
def carried : Json → Json
  | .array items => .array (if items.all isObject then items.map flatRow else items)
  | j => j

/-- Is a value something other than an array of objects, or an array of flat ones? -/
def isCarried : Json → Bool
  | .array items => !items.all isObject || items.all isFlatRow
  | _ => true

theorem flattened_eq_self_iff : j.flattened = j ↔ j.isScalar = true := by
  cases j with
  | int i =>
    by_cases h : Int64.minValue.toInt ≤ i ∧ i ≤ Int64.maxValue.toInt <;>
      simp [flattened, isScalar, h]
  | _ => simp [flattened, isScalar]

theorem map_eq_self_iff {α : Type} {f : α → α} : ∀ {xs : List α},
    xs.map f = xs ↔ ∀ x ∈ xs, f x = x
  | [] => by simp
  | x :: xs => by simp [@map_eq_self_iff α f xs]

theorem flatRow_eq_self_iff : j.flatRow = j ↔ j.isFlatRow = true := by
  cases j with
  | object members =>
    simp [flatRow, isFlatRow, map_eq_self_iff, Prod.ext_iff, flattened_eq_self_iff]
  | _ => simp [flatRow, isFlatRow]

theorem carried_eq_self_iff : j.carried = j ↔ j.isCarried = true := by
  cases j with
  | array items =>
    by_cases h : items.all isObject = true
    · simp [carried, isCarried, h, map_eq_self_iff, flatRow_eq_self_iff]
    · simp [carried, isCarried, h]
  | _ => simp [carried, isCarried]

/-! ### No name twice -/

theorem names_settleMembers : ∀ ms : List (String × Json),
    Entries.names (settleMembers ms) = Entries.names ms
  | [] => rfl
  | m :: ms => congrArg (m.1 :: ·) (names_settleMembers ms)

/-- An object in which no name is repeated, nor in the values within. -/
theorem of_settle_object {members : List (String × Json)}
    (h : (Json.object members).settle = .object members) :
    (Entries.names members).Nodup ∧ settleMembers members = members := by
  rw [settle] at h
  have hput := Json.object.inj h
  have hn : (Entries.names members).Nodup := by
    rw [← hput]
    exact @Entries.nodup_names_putAll _ [] List.nodup_nil _
  refine ⟨hn, ?_⟩
  rw [← names_settleMembers] at hn
  rwa [@Entries.putAll_of_nodup _ [] (settleMembers members) hn] at hput

theorem settle_of_mem_members : ∀ {ms : List (String × Json)} {m : String × Json},
    settleMembers ms = ms → m ∈ ms → m.2.settle = m.2
  | [], _, _, hm => by cases hm
  | (k, v) :: ms, m, h, hm => by
    rw [settleMembers] at h
    obtain ⟨hv, hms⟩ := List.cons.inj h
    rcases List.mem_cons.mp hm with rfl | hm
    · exact (Prod.mk.inj hv).2
    · exact settle_of_mem_members hms hm

theorem settle_of_mem_items : ∀ {js : List Json}, settleItems js = js → ∀ j ∈ js, j.settle = j
  | [], _, _, hj => by cases hj
  | i :: is, h, j, hj => by
    rw [settleItems] at h
    obtain ⟨hi, his⟩ := List.cons.inj h
    rcases List.mem_cons.mp hj with rfl | hj
    · exact hi
    · exact settle_of_mem_items his j hj

end Json

/-- An integer that fits 64 bits is held as it is. -/
theorem Value.toInt_ofInt {i : Int}
    (h : Int64.minValue.toInt ≤ i ∧ i ≤ Int64.maxValue.toInt) : (Int64.ofInt i).toInt = i := by
  have hlow : Int64.minValue.toInt = -2 ^ 63 := by decide
  have hhigh : Int64.maxValue.toInt = 2 ^ 63 - 1 := by decide
  rw [hlow, hhigh] at h
  exact Int64.toInt_ofInt_of_le (by omega) (by omega)

theorem Value.toJson_ofJson {j : Json} (h : j.isFinite = true) :
    (ofJson j).toJson = j.flattened := by
  cases j with
  | int i =>
    rw [ofJson, Json.flattened]
    by_cases hfits : Int64.minValue.toInt ≤ i ∧ i ≤ Int64.maxValue.toInt
    · rw [if_pos hfits, if_pos hfits, toJson, toInt_ofInt hfits]
    · rw [if_neg hfits, if_neg hfits, toJson]
      exact if_pos h
  | float x =>
    rw [ofJson, toJson]
    exact if_pos h
  | _ => rfl

/-- An object that names no field twice becomes the row of its members. -/
theorem Record.toJson_ofJson? {members : List (String × Json)}
    (hs : (Json.object members).settle = .object members)
    (hf : (Json.object members).isFinite = true) :
    ∃ r, ofJson? (.object members) = some r ∧ r.toJson = (Json.object members).flatRow := by
  refine ⟨_, rfl, ?_⟩
  have hn : (Entries.names (members.map fun m => (m.1, Value.ofJson m.2))).Nodup := by
    have hnames : Entries.names (members.map fun m => (m.1, Value.ofJson m.2))
        = Entries.names members := by simp [Entries.names]
    rw [hnames]
    exact (Json.of_settle_object hs).1
  rw [Json.isFinite, Json.membersFinite_eq_true_iff] at hf
  rw [toJson, fields_ofFields hn, List.map_map, Json.flatRow]
  congr 1
  refine List.map_congr_left ?_
  intro m hm
  exact Prod.ext rfl (Value.toJson_ofJson (hf m hm))

namespace Document

variable {d : Document} {key : String} {j : Json}

/-- What a document holds under a key, as a table or as another value. -/
def under (d : Document) (key : String) : Option (List Record) × Option Json :=
  (d.tables.get? key, d.extras.get? key)

theorem member?_toJson (d : Document) (key : String) :
    d.toJson.member? key = ((d.tables.get? key).map fun rows => .array (rows.map Record.toJson)).or
      (d.extras.get? key) := by
  have htables : d.tables.get? key = Entries.get? d.tables.entries key :=
    (Entries.get?_eq_find? d.tables.entries key).symm
  have hextras : d.extras.get? key = Entries.get? d.extras.entries key :=
    (Entries.get?_eq_find? d.extras.entries key).symm
  have hmap :=
    Entries.get?_map (fun rows => Json.array (rows.map Record.toJson)) d.tables.entries key
  rw [toJson, Json.member?, Entries.get?_append, htables, hextras]
  refine (congrArg (fun shown => Option.or shown _) hmap).trans ?_
  cases hc : d.tables.contains key with
  | true =>
    -- the table hides whatever else lies under its key
    rw [Catalog.contains_eq_isSome, htables] at hc
    obtain ⟨rows, hrows⟩ := Option.isSome_iff_exists.mp hc
    rw [hrows]
    rfl
  | false =>
    have hshown : (!d.tables.contains key) = true := by simp [hc]
    have hfilter := @Entries.get?_filter Json key (!d.tables.contains ·) hshown d.extras.entries
    exact congrArg _ hfilter

/-! ### Loading -/

theorem under_addMember_of_ne {m : String × Json} (h : m.1 ≠ key) :
    (d.addMember m).under key = d.under key := by
  rcases addMember_cases d m with ⟨rows, hadd, -⟩ | ⟨hadd, -⟩
  · rw [hadd, under, under, Catalog.get?_put_of_ne _ rows h]
  · rw [hadd, under, under, Catalog.get?_put_of_ne _ m.2 h]

/-- What a document makes of a member: rows under its key, or another value. -/
def placed (key : String) (j : Json) : Option (List Record) × Option Json :=
  match allRows? j with
  | some rows => (some rows, none)
  | none => if isTableName key then (some (someRows j), none) else (none, some j)

theorem under_addMember (hd : d.under key = (none, none)) :
    (d.addMember (key, j)).under key = placed key j := by
  obtain ⟨htable, hextra⟩ := Prod.mk.inj hd
  cases hrows : allRows? j with
  | some rows => simp [addMember, placed, hrows, under, Catalog.get?_put_self, hextra]
  | none =>
    cases hkey : isTableName key <;>
      simp [addMember, placed, hrows, hkey, under, Catalog.get?_put_self, htable, hextra]

theorem under_foldl_of_not_mem : ∀ {members : List (String × Json)} {d : Document},
    key ∉ Entries.names members → (members.foldl addMember d).under key = d.under key
  | [], _, _ => rfl
  | m :: ms, d, h => by
    rw [Entries.names, List.map_cons, List.mem_cons, not_or] at h
    rw [List.foldl_cons, under_foldl_of_not_mem h.2, under_addMember_of_ne (Ne.symm h.1)]

/-- Of distinct members each is found as it was placed, whatever the others are. -/
theorem under_foldl_placed : ∀ {members : List (String × Json)} {d : Document},
    (Entries.names members).Nodup → d.under key = (none, none) →
      Entries.get? members key = some j → (members.foldl addMember d).under key = placed key j
  | [], _, _, _, hj => by cases hj
  | (k, v) :: ms, d, hn, hd, hj => by
    obtain ⟨hnot, hn⟩ := List.nodup_cons.mp hn
    rw [List.foldl_cons]
    by_cases hk : k = key
    · subst hk
      rw [Entries.get?, if_pos rfl] at hj
      obtain rfl := Option.some.inj hj
      rw [under_foldl_of_not_mem hnot, under_addMember hd]
    · rw [Entries.get?, if_neg hk] at hj
      refine under_foldl_placed hn ?_ hj
      rw [under_addMember_of_ne hk, hd]

/-- A member under a key that names no table goes to the tables or to the other values. -/
theorem under_foldl (hkey : isTableName key = false) {members : List (String × Json)}
    (hn : (Entries.names members).Nodup) (hd : d.under key = (none, none))
    (hj : Entries.get? members key = some j) :
    (members.foldl addMember d).under key = match allRows? j with
      | some rows => (some rows, none)
      | none => (none, some j) := by
  rw [under_foldl_placed hn hd hj, placed, hkey]
  rfl

/-- The rows of an array of objects are the objects, flattened. -/
theorem allRows?_array : ∀ {items : List Json},
    (∀ item ∈ items, item.settle = item ∧ item.isFinite = true) →
      (items.all Json.isObject = true ∧ ∃ rows, allRows? (.array items) = some rows ∧
        rows.map Record.toJson = items.map Json.flatRow) ∨
      items.all Json.isObject = false ∧ allRows? (.array items) = none
  | [], _ => .inl ⟨rfl, [], rfl, rfl⟩
  | item :: items, h => by
    obtain ⟨⟨hs, hf⟩, hitems⟩ := List.forall_mem_cons.mp h
    have hcons : allRows? (.array (item :: items)) = (Record.ofJson? item).bind fun r =>
        (allRows? (.array items)).map (r :: ·) := by
      rw [allRows?, List.mapM_cons]
      cases Record.ofJson? item <;> cases hrest : items.mapM Record.ofJson? <;>
        simp [allRows?, hrest]
    rw [hcons, List.all_cons]
    cases item with
    | object members =>
      obtain ⟨r, hr, hflat⟩ := Record.toJson_ofJson? hs hf
      rw [hr, Json.isObject]
      rcases allRows?_array hitems with ⟨hall, rows, hrows, hmap⟩ | ⟨hall, hrows⟩
      · refine .inl ⟨by rw [hall]; rfl, r :: rows, by rw [hrows]; rfl, ?_⟩
        rw [List.map_cons, List.map_cons, hflat, hmap]
      · exact .inr ⟨by rw [hall]; rfl, by rw [hrows]; rfl⟩
    | _ => exact .inr ⟨rfl, rfl⟩

/-- What is loaded from a value under a key that names no table is stored as the value that is
carried. -/
theorem member?_of_under (hs : j.settle = j) (hf : j.isFinite = true)
    (hu : d.under key = match allRows? j with
      | some rows => (some rows, none)
      | none => (none, some j)) :
    d.toJson.member? key = some j.carried := by
  have hplain : allRows? j = none → j.carried = j → d.toJson.member? key = some j.carried := by
    intro hnone hsame
    rw [hnone] at hu
    obtain ⟨htable, hextra⟩ := Prod.mk.inj hu
    rw [member?_toJson, htable, hextra, hsame]
    rfl
  cases j with
  | array items =>
    rw [Json.settle] at hs
    rw [Json.isFinite, Json.itemsFinite_eq_true_iff] at hf
    have hitems : ∀ item ∈ items, item.settle = item ∧ item.isFinite = true := fun item hitem =>
      ⟨Json.settle_of_mem_items (Json.array.inj hs) item hitem, hf item hitem⟩
    rcases allRows?_array hitems with ⟨hall, rows, hrows, hmap⟩ | ⟨hall, hnone⟩
    · rw [hrows] at hu
      obtain ⟨htable, -⟩ := Prod.mk.inj hu
      rw [member?_toJson, htable, Option.map_some, hmap, Json.carried, if_pos hall]
      rfl
    · exact hplain hnone (by simp [Json.carried, hall])
  | _ => exact hplain rfl rfl

end Document

namespace Database

/-- An object is loaded, calls are made, and the document is stored. Under a key that names no table
it holds the value that was loaded there, except that the rows of an array of objects are
flattened: the value is the same exactly if it is no such array or if its objects are flat. -/
theorem run_carries {members : List (String × Json)}
    (hs : (Json.object members).settle = .object members)
    (hf : (Json.object members).isFinite = true) {key : String} {j : Json}
    (hkey : Document.isTableName key = false) (hj : Entries.get? members key = some j) :
    ∃ d, Document.ofJson? (.object members) = some d ∧ ∀ mode calls,
      let stored := (run mode d calls).document.toJson
      stored.member? key = some j.carried ∧
        (stored.member? key = some j ↔ j.isCarried = true) := by
  refine ⟨_, rfl, ?_⟩
  intro mode calls stored
  obtain ⟨hn, hmembers⟩ := Json.of_settle_object hs
  rw [Json.isFinite, Json.membersFinite_eq_true_iff] at hf
  have hmem : (key, j) ∈ members := Entries.mem_of_get? hj
  have hcarried : stored.member? key = some j.carried := by
    refine Document.member?_of_under (Json.settle_of_mem_members hmembers hmem)
      (hf (key, j) hmem) ?_
    have hloaded := Document.under_foldl (d := .blank) hkey hn rfl hj
    have hintact := intact_foldl
      (.inMemory mode (members.foldl Document.addMember .blank).ensureTables) calls
    rw [← hloaded]
    refine Prod.ext ?_ ?_
    · exact (hintact.outside key hkey).trans (Document.get?_ensureTables _ hkey)
    · exact congrArg (·.get? key) (hintact.extras.trans (Document.extras_ensureTables _))
  refine ⟨hcarried, ?_⟩
  rw [hcarried, Option.some.injEq, Json.carried_eq_self_iff]

/-- Objects beside something else are no table, so the list within one of them stays. -/
theorem run_carries_mixed :
    let members : List (String × Json) :=
      [("leads", .null), ("legacy", .array [.object [("tags", .array [.int 1])], .int 7])]
    let j : Json := .array [.object [("tags", .array [.int 1])], .int 7]
    (Json.object members).settle = .object members ∧ (Json.object members).isFinite = true ∧
      Document.isTableName "legacy" = false ∧ Entries.get? members "legacy" = some j ∧
      ∃ d, Document.ofJson? (.object members) = some d ∧
        ∀ mode calls, (run mode d calls).document.toJson.member? "legacy" = some j := by
  intro members j
  have hs : (Json.object members).settle = .object members := by decide
  have hf : (Json.object members).isFinite = true := by decide +kernel
  obtain ⟨d, hd, hrun⟩ := @run_carries _ hs hf "legacy" j (by decide) rfl
  exact ⟨hs, hf, by decide, rfl, d, hd, fun mode calls => (hrun mode calls).2.mpr (by decide)⟩

/-- In an array of objects a list within an object becomes a text, without any call being made. -/
theorem list_becomes_text :
    let legacy : Json := .array [.object [("a", .array [.int 1, .int 2])]]
    ∃ d, Document.ofJson? (.object [("legacy", legacy)]) = some d ∧
      (run .lenient d []).document.toJson.member? "legacy"
        = some (.array [.object [("a", .string "[1,2]")]]) ∧
      (run .lenient d []).document.toJson.member? "legacy" ≠ some legacy :=
  ⟨_, rfl, by decide +kernel, by decide +kernel⟩

end Database
end ClientRecords
