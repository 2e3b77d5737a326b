import Mathlib.Data.List.Induction
import ClientRecords.Record
/-!
What writing fields does to the list of fields: a new name goes to the end, and a name that is there
gets its value in place. Fields under distinct names are written into the empty record as they are.
-/

namespace ClientRecords

/-- What comes up last is added unless it has come up before. -/
theorem eraseDups_concat {α : Type} [BEq α] [LawfulBEq α] (xs : List α) (x : α) :
    (xs ++ [x]).eraseDups = if x ∈ xs then xs.eraseDups else xs.eraseDups ++ [x] := by
  rw [List.eraseDups_append]
  by_cases h : x ∈ xs
  · rw [if_pos h, List.removeAll, List.filter_cons_of_neg (by simpa using h)]
    exact List.append_nil _
  · rw [if_neg h, List.removeAll, List.filter_cons_of_pos (by simpa using h)]
    rfl

theorem eraseDups_of_nodup {xs : List String} (h : xs.Nodup) : xs.eraseDups = xs := by
  induction xs using List.reverseRecOn with
  | nil => rfl
  | append_singleton xs x ih =>
    have hx : x ∉ xs := fun hmem => (List.nodup_append.mp h).2.2 x hmem x List.mem_cons_self rfl
    rw [eraseDups_concat, if_neg hx, ih (List.nodup_append.mp h).1]

namespace Entries

variable {α : Type} {es new : Entries α} {name : String} {x : α}

theorem names_append (es new : Entries α) : names (es ++ new) = names es ++ names new :=
  List.map_append

theorem put_of_not_mem (h : name ∉ es.names) : es.put name x = es ++ [(name, x)] := by
  induction es with
  | nil => rfl
  | cons e es ih =>
    rw [names, List.map_cons, List.mem_cons, not_or] at h
    rw [put, if_neg (Ne.symm h.1), ih h.2]
    rfl

theorem put_of_mem (hn : es.names.Nodup) (h : name ∈ es.names) :
    es.put name x = es.map fun e => if e.1 = name then (e.1, x) else e := by
  induction es with
  | nil => cases h
  | cons e es ih =>
    rw [names, List.map_cons, List.nodup_cons] at hn
    rw [put, List.map_cons]
    by_cases heq : e.1 = name
    · have hrest : es.map (fun e => if e.1 = name then (e.1, x) else e) = es := by
        have hother : ∀ d ∈ es, d.1 ≠ name := fun d hd hd' =>
          hn.1 (heq.trans hd'.symm ▸ List.mem_map_of_mem hd)
        exact (List.map_congr_left fun d hd => if_neg (hother d hd)).trans (List.map_id es)
      rw [if_pos heq, if_pos heq, hrest]
    · rw [names, List.map_cons, List.mem_cons] at h
      rw [if_neg heq, if_neg heq, ih hn.2 (h.resolve_left (Ne.symm heq))]

theorem get?_eq_none_iff : es.get? name = none ↔ name ∉ es.names := by
  induction es with
  | nil => simp [get?, names]
  | cons e es ih =>
    rw [get?, names, List.map_cons, List.mem_cons, not_or]
    by_cases heq : e.1 = name
    · simp [heq]
    · rw [if_neg heq, ih]
      exact ⟨fun h => ⟨Ne.symm heq, h⟩, fun h => h.2⟩

/-- The value under a name is that of every entry with the name, names being distinct. -/
theorem get?_of_mem (hn : es.names.Nodup) (h : (name, x) ∈ es) : es.get? name = some x := by
  induction es with
  | nil => cases h
  | cons e es ih =>
    rw [names, List.map_cons, List.nodup_cons] at hn
    rw [get?]
    rcases List.mem_cons.mp h with rfl | h
    · exact if_pos rfl
    · rw [if_neg, ih hn.2 h]
      rintro rfl
      exact hn.1 (List.mem_map.mpr ⟨_, h, rfl⟩)

theorem get?_eq_find? (es : Entries α) (name : String) :
    es.get? name = (es.find? (·.1 == name)).map Prod.snd := by
  induction es with
  | nil => rfl
  | cons e es ih =>
    by_cases h : e.1 = name
    · simp [get?, h]
    · simp [get?, h, ih]

theorem mem_of_get? (h : es.get? name = some x) : (name, x) ∈ es := by
  induction es with
  | nil => cases h
  | cons e es ih =>
    rw [get?] at h
    by_cases heq : e.1 = name
    · rw [if_pos heq] at h
      obtain rfl := Option.some.inj h
      exact heq ▸ List.mem_cons_self
    · rw [if_neg heq] at h
      exact List.mem_cons_of_mem e (ih h)

theorem get?_append (es more : Entries α) (name : String) :
    get? (es ++ more) name = (es.get? name).or (more.get? name) := by
  induction es with
  | nil => rfl
  | cons e es ih =>
    by_cases h : e.1 = name
    · simp [get?, h]
    · simp [get?, h, ih]

theorem get?_map {β : Type} (f : α → β) (es : Entries α) (name : String) :
    get? (es.map fun e => (e.1, f e.2)) name = (es.get? name).map f := by
  induction es with
  | nil => rfl
  | cons e es ih =>
    by_cases h : e.1 = name
    · simp [get?, h]
    · simp [get?, h, ih]

/-- Leaving out other names does not hide a name. -/
theorem get?_filter {p : String → Bool} (h : p name = true) (es : Entries α) :
    get? (es.filter fun e => p e.1) name = es.get? name := by
  induction es with
  | nil => rfl
  | cons e es ih =>
    by_cases he : e.1 = name
    · rw [List.filter_cons, if_pos (he ▸ h)]
      simp [get?, he]
    · rw [List.filter_cons]
      split <;> simp [get?, he, ih]

theorem putAll_of_nodup (h : (es.names ++ new.names).Nodup) : es.putAll new = es ++ new := by
  induction new generalizing es with
  | nil => exact (List.append_nil es).symm
  | cons e new ih =>
    have hnot : e.1 ∉ es.names := fun hm =>
      (List.nodup_append.mp h).2.2 e.1 hm e.1 List.mem_cons_self rfl
    have hput : es.put e.1 e.2 = es ++ [e] := put_of_not_mem hnot
    have hnext : (names (es ++ [e]) ++ names new).Nodup := by simpa [names] using h
    have hrest := ih hnext
    rw [List.append_assoc, List.singleton_append] at hrest
    rw [putAll, List.foldl_cons, hput]
    exact hrest

/-- What holds of every value and of the one that is written holds of every value afterwards. -/
theorem forall_mem_put {P : α → Prop} (h : ∀ e ∈ es, P e.2) (hx : P x) :
    ∀ e ∈ es.put name x, P e.2 := by
  induction es with
  | nil => exact List.forall_mem_singleton.mpr hx
  | cons d es ih =>
    obtain ⟨hd, hes⟩ := List.forall_mem_cons.mp h
    rw [put]
    split
    · exact List.forall_mem_cons.mpr ⟨hx, hes⟩
    · exact List.forall_mem_cons.mpr ⟨hd, ih hes⟩

theorem forall_mem_putAll {P : α → Prop} (h : ∀ e ∈ es, P e.2) (hnew : ∀ e ∈ new, P e.2) :
    ∀ e ∈ es.putAll new, P e.2 := by
  induction new generalizing es with
  | nil => exact h
  | cons d new ih =>
    obtain ⟨hd, hrest⟩ := List.forall_mem_cons.mp hnew
    exact ih (forall_mem_put h hd) hrest

/-- Of the entries that are written under a name the last one counts. -/
theorem get?_putAll (es new : Entries α) (name : String) :
    (es.putAll new).get? name = (get? new.reverse name).or (es.get? name) := by
  induction new generalizing es with
  | nil => rfl
  | cons e new ih =>
    have hput : (es.put e.1 e.2).get? name = (get? [e] name).or (es.get? name) := by
      by_cases he : e.1 = name
      · simp [get?, ← he, get?_put_self]
      · simp [get?, he, get?_put_of_ne]
    have hrest : (es.putAll (e :: new)).get? name = ((es.put e.1 e.2).putAll new).get? name := rfl
    rw [hrest, ih, hput, List.reverse_cons, get?_append, Option.or_assoc]

/-- New names go behind the others in the order in which they first come up. -/
theorem names_putAll (es new : Entries α) : (es.putAll new).names
    = es.names ++ new.names.eraseDups.filter (· ∉ es.names) := by
  induction new using List.reverseRecOn with
  | nil => exact (List.append_nil _).symm
  | append_singleton new e ih =>
    have hlast : es.putAll (new ++ [e]) = (es.putAll new).put e.1 e.2 := List.foldl_append
    have hnames : names (new ++ [e]) = names new ++ [e.1] := names_append new [e]
    rw [hlast, names_put, hnames, eraseDups_concat, ih]
    by_cases hnew : e.1 ∈ names new
    · simp [hnew]
    · by_cases hold : e.1 ∈ es.names <;> simp [hnew, hold]

end Entries

namespace Record

/-- Fields under distinct names make a record as they are. -/
theorem fields_ofFields {fields : Entries Value} (h : fields.names.Nodup) :
    (ofFields fields).fields = fields :=
  @Entries.putAll_of_nodup _ [] fields h

theorem get?_ofFields (fields : Entries Value) (name : String) :
    (ofFields fields).get? name = Entries.get? fields.reverse name :=
  (Entries.get?_putAll [] fields name).trans Option.or_none

/-- The names of fields that are written one after the other, each of them once. -/
theorem names_ofFields (fields : Entries Value) :
    (ofFields fields).fields.names = fields.names.eraseDups := by
  have h : (ofFields fields).fields.names = Entries.names [] ++ _ := Entries.names_putAll [] fields
  rw [h, Entries.names, List.map_nil, List.nil_append]
  exact List.filter_eq_self.mpr fun _ _ => decide_eq_true List.not_mem_nil

/-- Each name of a record comes up once, so it may be looked up from behind. -/
theorem get?_reverse_fields (r : Record) (name : String) :
    Entries.get? r.fields.reverse name = r.get? name := by
  rw [← get?_ofFields, get?, fields_ofFields r.distinct, get?]

theorem get?_putAll_fields (r overlay : Record) (name : String) :
    (r.putAll overlay.fields).get? name = (overlay.get? name).or (r.get? name) := by
  rw [← get?_reverse_fields overlay]
  exact Entries.get?_putAll r.fields overlay.fields name

theorem ofFields_concat (fields : Entries Value) (name : String) (v : Value) :
    ofFields (fields ++ [(name, v)]) = (ofFields fields).put name v :=
  Record.ext List.foldl_append

end Record
end ClientRecords
