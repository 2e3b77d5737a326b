import ClientRecords.Proofs.Document.Reload
/-!
Statements write finite numbers. A number that a statement spells out is finite or counts as zero,
so the values that a statement writes are finite if its parameters are.
-/

namespace ClientRecords

variable {params : List Value} {mode : Mode} {now : String}

theorem Value.isFinite_number (x : Binary64) : (number x).isFinite = true := by
  rw [number]
  cases hfinite : x.isFinite with
  | false => rfl
  | true =>
    rw [Bool.not_true, if_neg Bool.false_ne_true]
    split
    · split
      · rfl
      · exact hfinite
    · exact hfinite

theorem Token.isFinite_of_literal? {t : Token} {v : Value} (h : t.literal? = some v) :
    v.isFinite = true := by
  unfold literal? at h
  split at h
  · cases h
    rfl
  · rw [numberLiteral?] at h
    split at h
    · cases h
      rfl
    · obtain ⟨x, _, rfl⟩ := Option.map_eq_some_iff.mp h
      exact Value.isFinite_number x
  · split at h
    · cases h
      rfl
    · split at h
      · cases h
        rfl
      · split at h <;> cases h
        rfl

namespace Operand

/-- Is a value that is written in a statement finite, if it is a number? -/
def isFinite : Operand → Bool
  | .literal v => v.isFinite
  | .param _ => true

variable {x : Operand}

theorem isFinite_value (h : x.isFinite = true) (hp : ∀ v ∈ params, v.isFinite = true) :
    (x.value params).isFinite = true := by
  cases x with
  | literal v => exact h
  | param k =>
    rw [value, List.getD_eq_getElem?_getD]
    cases hk : params[k]? with
    | none => rfl
    | some v => exact hp v (List.mem_of_getElem? hk)

end Operand

namespace FieldSource

def isFinite : FieldSource → Bool
  | .operand x => x.isFinite
  | .stamp => true

theorem isFinite_value {x : FieldSource} (h : x.isFinite = true)
    (hp : ∀ v ∈ params, v.isFinite = true) (stamp : String) :
    (x.value params stamp).isFinite = true := by
  cases x with
  | operand x => exact x.isFinite_value h hp
  | stamp => rfl

end FieldSource

namespace OpenStatement

/-- Are the numbers finite that a statement spells out for rows? -/
def IsFinite : OpenStatement → Prop
  | .insert _ _ fields => ∀ f ∈ fields, f.2.isFinite = true
  | .update _ assignments _ => ∀ a ∈ assignments, a.2.isFinite = true
  | .delete .. => True
  | .select _ => True

theorem ReadsSources.isFinite {next : Nat} {items : List (List Token)} {xs : List FieldSource}
    (h : ReadsSources next items xs) : ∀ x ∈ xs, x.isFinite = true := by
  induction h with
  | nil => exact List.forall_mem_nil _
  | param _ ih | stamp _ _ ih => exact List.forall_mem_cons.mpr ⟨rfl, ih⟩
  | literal ht _ ih => exact List.forall_mem_cons.mpr ⟨Token.isFinite_of_literal? ht, ih⟩

theorem isFinite_fieldSources (columns : List String) (items : List (List Token)) :
    ∀ f ∈ fieldSources columns items, f.2.isFinite = true := by
  have hparams : ∀ f ∈ columns.mapIdx fun k name => (name, FieldSource.operand (.param k)),
      f.2.isFinite = true := by
    intro f hf
    obtain ⟨k, hk, rfl⟩ := List.mem_mapIdx.mp hf
    rfl
  rw [fieldSources]
  cases hxs : sources? 0 items with
  | some xs =>
    dsimp only
    split
    · intro f hf
      exact (readsSources_of_sources? hxs).isFinite f.2 (List.of_mem_zip hf).2
    · exact hparams
  | none => exact hparams

theorem ReadsAssignments.isFinite {next last : Nat} {parts : List (List Token)}
    {xs : List (String × Operand)} (h : ReadsAssignments next parts xs last) :
    ∀ a ∈ xs, a.2.isFinite = true := by
  induction h with
  | nil => exact List.forall_mem_nil _
  | leftOut _ _ ih => exact ih
  | param _ ih => exact List.forall_mem_cons.mpr ⟨rfl, ih⟩
  | literal ht _ ih => exact List.forall_mem_cons.mpr ⟨Token.isFinite_of_literal? ht, ih⟩

/-- The numbers that a statement spells out are finite. -/
theorem isFinite_of_ofText {source : String} {s : OpenStatement} (h : ofText source = .ok s) :
    s.IsFinite := by
  obtain ⟨tokens, -, hr⟩ := exists_of_ofText h
  cases hr with
  | insert h =>
    cases h
    exact isFinite_fieldSources _ _
  | update h =>
    cases h with
    | mk _ _ _ _ hr => exact hr.isFinite
  | delete h => cases h <;> trivial
  | select => trivial

end OpenStatement

namespace Record

variable {r : Record} {name : String} {v : Value}

theorem isFinite_put (h : r.IsFinite) (hv : v.isFinite = true) : (r.put name v).IsFinite :=
  @Entries.forall_mem_put Value r.fields name v (fun v => v.isFinite = true) h hv

end Record

namespace Statement

/-- Are the values finite that a statement writes into rows? -/
def IsFinite : Statement → Prop
  | .insert _ _ r => r.IsFinite
  | .update _ overlay _ => overlay.IsFinite
  | .delete .. => True
  | .select .. => True

theorem isFinite_stamped {r : Record} (stamp : String) (h : r.IsFinite) :
    (stamped stamp r).IsFinite := by
  rw [stamped]
  induction stampFields generalizing r with
  | nil => exact h
  | cons field fields ih =>
    refine ih ?_
    rw [putStamp]
    split
    · exact h
    · exact Record.isFinite_put h rfl

/-- Finite parameters put in place of operands make a statement that writes finite values. -/
theorem isFinite_of_bind {s : OpenStatement} {st : Statement} (hs : s.IsFinite)
    (hp : ∀ v ∈ params, v.isFinite = true) (h : s.bind mode params now = .ok st) :
    st.IsFinite := by
  cases OpenStatement.bindsTo_of_bind h with
  | insert table orIgnore fields =>
    refine isFinite_stamped now (Record.isFinite_ofFields fun e he => ?_)
    obtain ⟨f, hf, rfl⟩ := List.mem_map.mp he
    exact f.2.isFinite_value (hs f hf) hp now
  | update table assignments =>
    refine Record.isFinite_put (Record.isFinite_ofFields fun e he => ?_) rfl
    obtain ⟨a, ha, rfl⟩ := List.mem_map.mp he
    exact a.2.isFinite_value (hs a ha) hp
  | delete => trivial
  | select => trivial

theorem isFinite_of_ofText {source : String} {s : Statement}
    (hp : ∀ v ∈ params, v.isFinite = true) (h : ofText source mode params now = .ok s) :
    s.IsFinite := by
  rw [ofText] at h
  obtain ⟨o, hread, hb⟩ := exists_of_bind_eq_ok h
  exact isFinite_of_bind (OpenStatement.isFinite_of_ofText hread) hp hb

end Statement
end ClientRecords
