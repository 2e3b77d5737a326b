import Mathlib.Data.List.Forall2
import ClientRecords.Proofs.Record
import ClientRecords.Proofs.Statement.Assignments
/-!
What an update does to the rows of its table. They stay in number and order, and a row that does not
satisfy the conditions stays as it is. In the others the fields that are assigned get their last
value, the stamp is written whatever is assigned to its field, and the rest stays (`Overlaid`). An
assignment that mentions the current time assigns nothing, so its field may be missing afterwards.
-/

namespace ClientRecords

open Token

variable {params : List Value} {ts : List Token} {vs : List (String × Value)}
  {stamp name : String} {r : Record} {v : Value}

/-- The fields that the assignments of an update give a value, one after the other. -/
def SetsFields (params : List Value) (ts : List Token) (vs : List (String × Value)) : Prop :=
  ∃ after, AssignsAll kept params (ts.take 3)
    (breakTopLevel (·.is .where) (ts.drop 3)).1 after vs

/-- A row after some fields were assigned and the stamp was written. -/
structure Overlaid (vs : List (String × Value)) (stamp : String) (r new : Record) : Prop where
  assigned : ∀ name v, name ≠ "updated_at" → Entries.get? vs.reverse name = some v →
    new.get? name = some v
  stamped : new.get? "updated_at" = some (.string stamp)
  others : ∀ name, name ≠ "updated_at" → name ∉ Entries.names vs → new.get? name = r.get? name
  names : new.fields.names = r.fields.names
    ++ (Entries.names vs ++ ["updated_at"]).eraseDups.filter (· ∉ r.fields.names)

theorem UpdateBinds.exists_setsFields {overlay : Record} {cs : List Condition}
    (h : UpdateBinds kept params stamp ts overlay cs) : ∃ vs, SetsFields params ts vs ∧
      overlay = (Record.ofFields vs).put "updated_at" (.string stamp) := by
  cases h with
  | @all u t s set after vs hu hs =>
    refine ⟨vs, ⟨after, ?_⟩, rfl⟩
    simpa [breakTopLevel_of_uncut hu] using hs
  | @clause u t s w set after clause vs cs hc hw hs hcs =>
    refine ⟨vs, ⟨after, ?_⟩, rfl⟩
    simpa [breakTopLevel_append_cons hc (cuts_of_is hw)] using hs

/-- What an update writes into a row that satisfies its conditions. -/
theorem overlaid_putAll (vs : List (String × Value)) (stamp : String) (r : Record) :
    Overlaid vs stamp r
      (r.putAll ((Record.ofFields vs).put "updated_at" (.string stamp)).fields) where
  assigned name v hne hv := by
    rw [Record.get?_putAll_fields, Record.get?_put_of_ne _ _ (Ne.symm hne), Record.get?_ofFields,
      hv, Option.some_or]
  stamped := by rw [Record.get?_putAll_fields, Record.get?_put_self, Option.some_or]
  others name hne hname := by
    have hnone : Entries.get? vs.reverse name = none :=
      Entries.get?_eq_none_iff.mpr fun h => hname (by simpa [Entries.names] using h)
    rw [Record.get?_putAll_fields, Record.get?_put_of_ne _ _ (Ne.symm hne), Record.get?_ofFields,
      hnone, Option.none_or]
  names := by
    have hoverlay : ((Record.ofFields vs).put "updated_at" (.string stamp)).fields.names
        = (Entries.names vs ++ ["updated_at"]).eraseDups := by
      rw [← Record.ofFields_concat, Record.names_ofFields, Entries.names_append]
      rfl
    have hnodup := ((Record.ofFields vs).put "updated_at" (.string stamp)).distinct
    rw [Record.putAll, Entries.names_putAll, eraseDups_of_nodup hnodup, hoverlay]

namespace Statement

variable {mode : Mode} {source now table : String} {overlay : Record} {cs : List Condition}
  {d : Document} {o : Outcome}

/-- An update that is carried out gives no rows and changes the rows of one table alone. Each of
them stays in its place: as it is if it does not satisfy the conditions, and with the assigned
fields and the stamp written over it if it does. -/
theorem updates_overlay_rows
    (h : ofText source mode params now = .ok (.update table overlay cs))
    (hd : d.execute mode now source params = .ok o) :
    ∃ tokens t vs next, Token.scan? (Text.collapse source) = some tokens ∧
      Table.ofName? table = some t ∧
      SetsFields params (OpenStatement.trimSemicolons tokens) vs ∧
      o = ⟨[], some next⟩ ∧ next = d.setRows t (next.rowsOf t) ∧
      List.Forall₂ (fun r new => if r.satisfies cs then Overlaid vs now r new else new = r)
        (d.rowsOf t) (next.rowsOf t) := by
  obtain ⟨tokens, assignments, clause, hscan, hreads, hb, hassigned⟩ := readsUpdate_of_ofText h
  have hbinds : UpdateBinds kept params now (OpenStatement.trimSemicolons tokens) overlay cs :=
    hassigned ▸ OpenStatement.updateBinds_of_readsUpdate hreads hb fun _ _ => rfl
  obtain ⟨vs, hsets, hoverlay⟩ := hbinds.exists_setsFields
  rw [Document.execute, h] at hd
  obtain ⟨t, ht, ho⟩ := Document.eq_of_write hd
  have hrows : (d.update t overlay cs).rowsOf t
      = (d.rowsOf t).map fun r => if r.satisfies cs then r.putAll overlay.fields else r :=
    Document.rowsOf_setRows d t _
  refine ⟨tokens, t, vs, d.update t overlay cs, hscan, ht, hsets, ho, ?_, ?_⟩
  · rw [hrows]
    rfl
  · rw [hrows, List.forall₂_map_right_iff, List.forall₂_same]
    intro r _
    split
    · rw [hoverlay]
      exact overlaid_putAll vs now r
    · rfl

/-- An update that assigns a field twice and names the stamp, with a condition on a field that it
assigns. -/
theorem new_leads_won :
    let source :=
      "UPDATE leads SET status = ?, note = 'a', status = ?, updated_at = 'b' WHERE status = 'New'"
    let params := [.string "Lost", .string "Won"]
    let cs : List Condition := [⟨"status", .compare .eq (.string "New")⟩]
    let overlay := Record.ofFields
      [("status", .string "Won"), ("note", .string "a"), ("updated_at", .string "now")]
    let fresh := Record.ofFields [("id", .string "l1"), ("status", .string "New")]
    let won := Record.ofFields [("id", .string "l2"), ("status", .string "Won")]
    let d := Document.new.setRows .leads [fresh, won]
    ofText source .strict params "now" = .ok (.update "leads" overlay cs) ∧
      ∃ o, d.execute .strict "now" source params = .ok o ∧
        ∃ tokens t vs next, Token.scan? (Text.collapse source) = some tokens ∧
          Table.ofName? "leads" = some t ∧
          SetsFields params (OpenStatement.trimSemicolons tokens) vs ∧
          o = ⟨[], some next⟩ ∧ next = d.setRows t (next.rowsOf t) ∧
          List.Forall₂ (fun r new => if r.satisfies cs then Overlaid vs "now" r new else new = r)
            (d.rowsOf t) (next.rowsOf t) := by
  intro source params cs overlay fresh won d
  have hscan : scan? (Text.collapse source) = some [.word "UPDATE", .word "leads", .word "SET",
      .word "status", .comparison .eq, .placeholder, .comma, .word "note", .comparison .eq,
      .string "a", .comma, .word "status", .comparison .eq, .placeholder, .comma,
      .word "updated_at", .comparison .eq, .string "b", .word "WHERE", .word "status",
      .comparison .eq, .string "New"] := by
    simp only [source]
    cbv
  have hparse : ofText source .strict params "now" = .ok (.update "leads" overlay cs) := by
    rw [ofText, OpenStatement.ofText_of_scan hscan]
    rfl
  have hexecute : d.execute .strict "now" source params
      = .ok ⟨[], some (d.update .leads overlay cs)⟩ := by
    rw [Document.execute, hparse]
    rfl
  exact ⟨hparse, _, hexecute, updates_overlay_rows hparse hexecute⟩

/-- A field that is assigned the current time gets no value, in a row that satisfies the
conditions too. -/
theorem current_time_not_written :
    let source := "UPDATE leads SET closed_at = CURRENT_TIMESTAMP WHERE id = 'l1'"
    let cs : List Condition := [⟨"id", .compare .eq (.string "l1")⟩]
    let overlay := Record.ofFields [("updated_at", .string "now")]
    let r := Record.ofFields [("id", .string "l1")]
    let d := Document.new.setRows .leads [r]
    ofText source .strict [] "now" = .ok (.update "leads" overlay cs) ∧ r.satisfies cs = true ∧
      ∃ tokens next new, Token.scan? (Text.collapse source) = some tokens ∧
        [.word "closed_at", .comparison .eq, .word "CURRENT_TIMESTAMP"]
          ∈ splitCommas (breakTopLevel (·.is .where) (tokens.drop 3)).1 ∧
        d.execute .strict "now" source [] = .ok ⟨[], some next⟩ ∧
        next.rowsOf .leads = [new] ∧ new.get? "closed_at" = none := by
  intro source cs overlay r d
  have hscan : scan? (Text.collapse source) = some [.word "UPDATE", .word "leads", .word "SET",
      .word "closed_at", .comparison .eq, .word "CURRENT_TIMESTAMP", .word "WHERE", .word "id",
      .comparison .eq, .string "l1"] := by
    simp only [source]
    cbv
  have hparse : ofText source .strict [] "now" = .ok (.update "leads" overlay cs) := by
    rw [ofText, OpenStatement.ofText_of_scan hscan]
    rfl
  have hexecute : d.execute .strict "now" source []
      = .ok ⟨[], some (d.update .leads overlay cs)⟩ := by
    rw [Document.execute, hparse]
    rfl
  have hrow : (d.update .leads overlay cs).rowsOf .leads = [r.putAll overlay.fields] := by
    decide +kernel
  exact ⟨hparse, by decide, _, _, _, hscan, by decide, hexecute, hrow, by decide +kernel⟩

end Statement
end ClientRecords
