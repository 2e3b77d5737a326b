import ClientRecords.Proofs.Json.Equality
import ClientRecords.Proofs.Statement.Finite
/-!
Documents that are stored and loaded again. Whatever is loaded, and whatever statements with finite
parameters are then carried out, the document is the one that its own JSON is read as.
-/

namespace ClientRecords

namespace Document

variable {d : Document} {mode : Mode} {now source : String} {params : List Value}

theorem Sorted.isFinite_rowsOf (h : d.Sorted) (t : Table) : ∀ r ∈ d.rowsOf t, r.IsFinite := by
  rw [rowsOf, Catalog.get?]
  cases hfind : d.tables.entries.find? (·.1 == t.name) with
  | none => exact List.forall_mem_nil _
  | some e => exact h.rows e (List.mem_of_find?_eq_some hfind)

/-- A statement that writes finite values leaves a storable document storable. -/
theorem Storable.perform {s : Statement} {o : Outcome} (h : d.Storable) (hs : s.IsFinite)
    (ho : d.perform mode now s = .ok o) : ∀ next ∈ o.written, next.Storable := by
  cases s with
  | insert name orIgnore r =>
    obtain ⟨t, -, hw⟩ := exists_of_write ho
    rw [hw, insert?]
    split
    · intro next hnext
      cases hnext
    · intro next hnext
      obtain rfl := Option.some.inj hnext
      refine h.setRows t fun row hrow => ?_
      rcases List.mem_append.mp hrow with hrow | hrow
      · exact h.isFinite_rowsOf t row hrow
      · exact List.mem_singleton.mp hrow ▸ hs
  | update name overlay cs =>
    obtain ⟨t, -, hw⟩ := exists_of_write ho
    intro next hnext
    rw [hw] at hnext
    obtain rfl := Option.some.inj hnext
    refine h.setRows t fun row hrow => ?_
    obtain ⟨r, hr, rfl⟩ := List.mem_map.mp hrow
    have hold := h.isFinite_rowsOf t r hr
    split
    · exact Record.isFinite_putAll hold hs
    · exact hold
  | delete name cs =>
    obtain ⟨t, -, hw⟩ := exists_of_write ho
    intro next hnext
    rw [hw] at hnext
    obtain rfl := Option.some.inj hnext
    exact h.setRows t fun row hrow => h.isFinite_rowsOf t row (List.mem_filter.mp hrow).1
  | select text ps =>
    intro next hnext
    rw [written_of_evaluate ho] at hnext
    cases hnext

theorem Storable.execute {o : Outcome} (h : d.Storable) (hp : ∀ v ∈ params, v.isFinite = true)
    (ho : d.execute mode now source params = .ok o) : ∀ next ∈ o.written, next.Storable := by
  rw [Document.execute] at ho
  cases hs : Statement.ofText source mode params now with
  | error e =>
    rw [hs] at ho
    cases ho
  | ok s =>
    rw [hs] at ho
    exact h.perform (Statement.isFinite_of_ofText hp hs) ho

/-- A document as it is when nothing was done to it yet: the new one, or what a text or a JSON
object is loaded as. An object holds no name twice, and its numbers are finite. -/
inductive Loaded : Document → Prop
  | new : Loaded new
  | text {text : String} {d : Document} (h : ofText? text = some d) : Loaded d
  | object {members : List (String × Json)} {d : Document} (hn : (Entries.names members).Nodup)
      (hf : (Json.object members).isFinite = true) (h : ofJson? (.object members) = some d) :
      Loaded d

theorem Loaded.storable (h : d.Loaded) : d.Storable := by
  cases h with
  | new => exact storable_new
  | text h => exact storable_of_ofText? h
  | object hn hf h => exact storable_of_ofJson? hn hf h

end Document

namespace Database

variable {db : Database} {c : Call}

theorem storable_after (h : db.document.Storable) (hp : ∀ v ∈ c.params, v.isFinite = true) :
    (db.after c).document.Storable := by
  rw [after, call_eq]
  cases ho : db.document.execute c.mode c.now c.source c.params with
  | error e => exact h
  | ok o =>
    rw [conclude, settle]
    cases hw : o.written with
    | none => exact h
    | some next => exact h.execute hp ho next hw

theorem storable_foldl : ∀ (calls : List Call) {db : Database}, db.document.Storable →
    (∀ c ∈ calls, ∀ v ∈ c.params, v.isFinite = true) →
    (calls.foldl after db).document.Storable
  | [], _, h, _ => h
  | _ :: calls, _, h, hp => by
    obtain ⟨hc, hcalls⟩ := List.forall_mem_cons.mp hp
    exact storable_foldl calls (storable_after h hc) hcalls

/-- A document is loaded, calls with finite parameters are made, and the document is stored. All
numbers in its JSON are finite, and if its text, compact or indented, is read as the JSON that it
was written from, then the document is loaded again as it was. -/
theorem run_reloads (mode : Mode) {d : Document} (hd : d.Loaded) {calls : List Call}
    (hp : ∀ c ∈ calls, ∀ v ∈ c.params, v.isFinite = true) :
    let stored := (run mode d calls).document
    stored.toJson.isFinite = true ∧ ∀ pretty,
      Json.ofText? (stored.fileText pretty) = some stored.toJson →
        Document.ofText? (stored.fileText pretty) = some stored := by
  intro stored
  have hopen : (inMemory mode d).document.Storable := by
    have hsame : d.ensureTables = d := Document.ensureTables_of_complete hd.storable.complete
    rw [inMemory, hsame]
    exact hd.storable
  have hstored : stored.Storable := storable_foldl calls hopen hp
  refine ⟨hstored.isFinite_toJson, fun pretty hread => ?_⟩
  rw [Document.ofText?, hread]
  exact hstored.ofJson?_toJson

/-- A loaded list becomes a text and a number is written into the row: the stored text is loaded as
the document that it was written from. -/
theorem run_reloads_file :
    let members : List (String × Json) :=
      [("leads", .array [.object [("id", .string "a"), ("tags", .array [.int 1])]]),
        ("version", .int 2)]
    let d := (members.foldl Document.addMember .blank).ensureTables
    let calls : List Call := [⟨.strict, "2024", "UPDATE leads SET v = ?", [.float .zero]⟩]
    let stored := (run .strict d calls).document
    d.Loaded ∧ (∀ c ∈ calls, ∀ v ∈ c.params, v.isFinite = true) ∧
      Json.ofText? (stored.fileText false) = some stored.toJson ∧
      Document.ofText? (stored.fileText false) = some stored := by
  intro members d calls stored
  have hd : d.Loaded := .object (by decide) (by decide +kernel) rfl
  have hp : ∀ c ∈ calls, ∀ v ∈ c.params, v.isFinite = true := by decide
  have hread : Json.ofText? (stored.fileText false) = some stored.toJson := by decide +kernel
  exact ⟨hd, hp, hread, (run_reloads .strict hd hp).2 false hread⟩

end Database
end ClientRecords
