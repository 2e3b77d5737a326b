import ClientRecords.Proofs.Condition.Positions
import ClientRecords.Proofs.Statement.Execution
import ClientRecords.Proofs.Statement.Reader
/-!
Where the parameters of an update go. An assignment that mentions the current time writes no field,
and the placeholders it holds take no parameter. So a placeholder, in the assignments as in the
clause behind them, takes the parameter whose number is the number of placeholders before it in what
is left of the statement without those assignments. That is its number in the whole statement as
long as they hold no placeholder; if they do, what stands behind them takes earlier parameters.
-/

namespace ClientRecords

open Token

/-- Does an assignment mention the current time? Then it writes no field. -/
def leavesOut (part : List Token) : Bool := (part.drop 2).any (·.is .currentTimestamp)

/-- An assignment that writes a field, and nothing of one that does not. -/
def kept (part : List Token) : List Token := if leavesOut part then [] else part

/-- The fields that an assignment writes. Its value stands behind the tokens before the assignment
and those of the assignment itself. -/
inductive Assigns (params : List Value) (before : List Token) :
    List Token → List (String × Value) → Prop
  | value {f : String} {x : Token} {v : Value}
      (hx : Gives params (before ++ [.word f, .comparison .eq]) x v) :
      Assigns params before [.word f, .comparison .eq, x] [(bareField f, v)]
  | leftOut {f : String} {value : List Token}
      (hv : value.any (·.is .currentTimestamp) = true) :
      Assigns params before (.word f :: .comparison .eq :: value) []

/-- The fields that a list of assignments writes, cut at every comma outside of parentheses.
`counted` is what an assignment leaves of itself before the tokens behind it, and `after` is what
stands before the tokens behind the list. -/
inductive AssignsAll (counted : List Token → List Token) (params : List Value) :
    List Token → List Token → List Token → List (String × Value) → Prop
  | last {before part : List Token} {vs : List (String × Value)}
      (hu : findTopLevel (· == .comma) part = none) (hp : Assigns params before part vs) :
      AssignsAll counted params before part (before ++ counted part) vs
  | step {before part rest after : List Token} {vs ws : List (String × Value)}
      (hc : Closed (· == .comma) part) (hp : Assigns params before part vs)
      (hr : AssignsAll counted params (before ++ counted part ++ [.comma]) rest after ws) :
      AssignsAll counted params before (part ++ .comma :: rest) after (vs ++ ws)

/-- An update writes the fields of its assignments and its stamp, in the rows that its clause asks
for. -/
inductive UpdateBinds (counted : List Token → List Token) (params : List Value) (stamp : String) :
    List Token → Record → List Condition → Prop
  | all {u t s : Token} {set after : List Token} {vs : List (String × Value)}
      (hu : findTopLevel (·.is .where) set = none)
      (hs : AssignsAll counted params [u, t, s] set after vs) :
      UpdateBinds counted params stamp (u :: t :: s :: set)
        ((Record.ofFields vs).put "updated_at" (.string stamp)) []
  | clause {u t s w : Token} {set after clause : List Token} {vs : List (String × Value)}
      {cs : List Condition} (hc : Closed (·.is .where) set) (hw : w.is .where = true)
      (hs : AssignsAll counted params [u, t, s] set after vs)
      (hcs : Compiles params (after ++ [w]) clause cs) :
      UpdateBinds counted params stamp (u :: t :: s :: (set ++ w :: clause))
        ((Record.ofFields vs).put "updated_at" (.string stamp)) cs

variable {counted : List Token → List Token} {params : List Value} {stamp : String}
  {before part ts after : List Token} {vs : List (String × Value)} {next last : Nat}
  {parts : List (List Token)} {xs : List (String × Operand)}

/-- If assignments count as they are, what follows them stands behind the whole list. -/
theorem AssignsAll.after_eq (h : AssignsAll id params before ts after vs) :
    after = before ++ ts := by
  generalize hid : id = counted at h
  induction h with
  | last => rw [← hid]; rfl
  | step _ _ _ ih => rw [ih, ← hid]; simp

/-- So the clause of an update stands behind all that the statement holds before it. -/
theorem UpdateBinds.compiles {overlay : Record} {cs : List Condition} {set clause : List Token}
    {w : Token} (h : UpdateBinds id params stamp ts overlay cs)
    (hb : breakTopLevel (·.is .where) (ts.drop 3) = (set, w :: clause)) :
    Compiles params (ts.take 3 ++ set ++ [w]) clause cs := by
  cases h with
  | all hu hs =>
    have hnone := (breakTopLevel_of_uncut hu).symm.trans hb
    cases hnone
  | clause hc hw hs hcs =>
    have hparts := (breakTopLevel_append_cons hc (cuts_of_is hw)).symm.trans hb
    obtain ⟨rfl, htail⟩ := Prod.mk.inj hparts
    obtain ⟨rfl, rfl⟩ := List.cons.inj htail
    rw [hs.after_eq] at hcs
    exact hcs

/-! ### Assignments -/

/-- The fields that assignments write, from what is read of them. -/
def written (params : List Value) (xs : List (String × Operand)) : List (String × Value) :=
  xs.map fun (name, x) => (name, x.value params)

namespace OpenStatement

/-- The first of some assignments writes what is read from it, and the others are read from behind
the placeholders that it keeps. -/
theorem ReadsAssignments.exists_assigns
    (h : ReadsAssignments (placeholders before) (part :: parts) xs last) :
    ∃ ys zs, xs = ys ++ zs ∧ Assigns params before part (written params ys) ∧
      ReadsAssignments (placeholders before + placeholders (kept part)) parts zs last := by
  cases h with
  | @leftOut _ _ f value _ _ hv hr =>
    -- what is left out keeps no placeholder, whatever it holds
    have hkept : kept (.word f :: .comparison .eq :: value) = [] := if_pos hv
    refine ⟨[], xs, rfl, .leftOut hv, ?_⟩
    rw [hkept]
    exact hr
  | @param _ _ f _ zs hr => exact ⟨[(bareField f, .param (placeholders before))], zs, rfl,
      .value ((gives_iff (placeholders_append before _)).mpr ⟨_, rfl, rfl⟩), hr⟩
  | @literal _ _ f t v _ zs ht hr =>
    have hkept : kept [.word f, .comparison .eq, t] = [.word f, .comparison .eq, t] := by
      have hnow : t.is .currentTimestamp = false := not_is_of_literal? ht (by decide)
      have hany : leavesOut [.word f, .comparison .eq, t] = false := by simp [leavesOut, hnow]
      rw [kept, hany, if_neg Bool.false_ne_true]
    have hnone : placeholders [.word f, .comparison .eq, t] = 0 := placeholders_of_literal? ht
    refine ⟨[(bareField f, .literal v)], zs, rfl, .value (.literal ht), ?_⟩
    rw [hkept, hnone]
    exact hr

/-- Assignments write what is read from them, and what follows stands behind as many placeholders
as they have been read to take. The induction is on the parts that the list is cut into. -/
theorem ReadsAssignments.exists_assignsAll
    (hcounted : ∀ part ∈ parts, placeholders (counted part) = placeholders (kept part))
    (hcut : CutInto (· == .comma) ts parts)
    (h : ReadsAssignments (placeholders before) parts xs last) :
    ∃ after, AssignsAll counted params before ts after (written params xs) ∧
      placeholders after = last := by
  induction hcut generalizing before xs with
  | @last part hu =>
    obtain ⟨ys, zs, rfl, hp, hr⟩ := h.exists_assigns
    obtain ⟨hpart, -⟩ := List.forall_mem_cons.mp hcounted
    rw [← hpart, ← placeholders_append] at hr
    cases hr
    rw [List.append_nil]
    exact ⟨_, .last hu hp, rfl⟩
  | @step part rest sep parts hc hs _ ih =>
    obtain rfl := eq_comma_of_cuts hs
    obtain ⟨ys, zs, rfl, hp, hr⟩ := h.exists_assigns
    obtain ⟨hpart, hparts⟩ := List.forall_mem_cons.mp hcounted
    have hnext : placeholders before + placeholders (kept part)
        = placeholders (before ++ counted part ++ [.comma]) := by
      rw [← hpart, placeholders_append, placeholders_append]
      rfl
    rw [hnext] at hr
    obtain ⟨after, hall, hlast⟩ := ih hparts hr
    rw [written, List.map_append]
    exact ⟨after, .step hc hp hall, hlast⟩

/-! ### Updates -/

variable {mode : Mode} {table source : String} {overlay : Record} {cs : List Condition}

theorem updateBinds_of_readsUpdate {all : List Token} {assignments : List (String × Operand)}
    {clause : Clause} (h : ReadsUpdate all (.update table assignments clause))
    (hb : clause.bind mode params = .ok cs)
    (hcounted : ∀ part ∈ splitCommas (breakTopLevel (·.is .where) (all.drop 3)).1,
      placeholders (counted part) = placeholders (kept part)) :
    UpdateBinds counted params stamp all (Statement.overlay params stamp assignments) cs := by
  cases h with
  | @mk u s name ts set rest _ next hall hu hs hbreak hr =>
    subst hall
    have hlead : placeholders [u, .word name, s] = 0 := by
      rw [placeholders_cons_of_is hu, placeholders_cons_of rfl, placeholders_of_is hs]
    rw [List.drop_succ_cons, List.drop_succ_cons, List.drop_succ_cons, List.drop_zero, hbreak]
      at hcounted
    rw [← hlead] at hr
    obtain ⟨after, hassigns, hafter⟩ : ∃ after, AssignsAll counted params [u, .word name, s] set
        after (written params assignments) ∧ placeholders after = next :=
      hr.exists_assignsAll hcounted (cutInto_splitTopLevel _ set)
    rcases breakTopLevel_cases (·.is .where) ts with
      ⟨hun, hparts⟩ | ⟨part, w, clause, hts, hc, hcut, hparts⟩
    · obtain ⟨rfl, rfl⟩ := Prod.mk.inj (hparts.symm.trans hbreak)
      obtain rfl := Except.ok.inj hb
      exact .all hun hassigns
    · obtain ⟨rfl, rfl⟩ := Prod.mk.inj (hparts.symm.trans hbreak)
      have hw : w.is .where = true := of_cuts hcut
      have hnext : placeholders (after ++ [w]) = next := by
        rw [placeholders_append, placeholders_of_is hw, hafter, Nat.add_zero]
      rw [← hnext] at hb
      rw [hts]
      exact .clause hc hw hassigns (Clause.compiles_of_bind (after ++ [w]) clause cs hb)

end OpenStatement

namespace Statement

variable {mode : Mode} {table source : String} {overlay : Record} {cs : List Condition}

/-- An accepted update reads as one: its overlay is that of its assignments, its conditions are
those of its clause. -/
theorem readsUpdate_of_ofText
    (h : ofText source mode params stamp = .ok (.update table overlay cs)) :
    ∃ tokens assignments clause, scan? (Text.collapse source) = some tokens ∧
      OpenStatement.ReadsUpdate (OpenStatement.trimSemicolons tokens)
        (.update table assignments clause) ∧
      clause.bind mode params = .ok cs ∧
      overlay = Statement.overlay params stamp assignments := by
  obtain ⟨tokens, _, hscan, hr, hb⟩ := exists_of_ofText h
  obtain _ | ⟨_, assignments, hb⟩ | _ | _ := hb
  cases hr with
  | insert h => cases h
  | update h => exact ⟨tokens, assignments, _, hscan, h, hb, rfl⟩
  | delete h => cases h

/-- Each placeholder of an update takes the parameter whose number is the number of placeholders
before it, those in assignments that mention the current time apart. If these hold none, that is its
number in the whole statement. -/
theorem updates_take_params
    (h : ofText source mode params stamp = .ok (.update table overlay cs)) :
    ∃ tokens, scan? (Text.collapse source) = some tokens ∧
      let ts := OpenStatement.trimSemicolons tokens
      UpdateBinds kept params stamp ts overlay cs ∧
      ((∀ part ∈ splitCommas (breakTopLevel (·.is .where) (ts.drop 3)).1,
          leavesOut part = true → placeholders part = 0) →
        UpdateBinds id params stamp ts overlay cs) := by
  obtain ⟨tokens, assignments, clause, hscan, hreads, hb, rfl⟩ := readsUpdate_of_ofText h
  refine ⟨tokens, hscan, OpenStatement.updateBinds_of_readsUpdate hreads hb fun _ _ => rfl,
    fun hnone => OpenStatement.updateBinds_of_readsUpdate hreads hb fun part hpart => ?_⟩
  cases hleft : leavesOut part with
  | false => rw [kept, hleft, if_neg Bool.false_ne_true, id]
  | true =>
    rw [kept, hleft, if_pos rfl, id, hnone part hpart hleft, placeholders, List.countP_nil]

theorem updates_take_params_stamped :
    let params := [.string "Won", .string "l1"]
    let source := "UPDATE leads SET status = ?, updated_at = CURRENT_TIMESTAMP WHERE id = ?"
    let overlay := Record.ofFields [("status", .string "Won"), ("updated_at", .string "now")]
    let cs : List Condition := [⟨"id", .compare .eq (.string "l1")⟩]
    ofText source .strict params "now" = .ok (.update "leads" overlay cs) ∧
      ∃ tokens, scan? (Text.collapse source) = some tokens ∧
        UpdateBinds id params "now" (OpenStatement.trimSemicolons tokens) overlay cs := by
  intro params source overlay cs
  have hscan : scan? (Text.collapse source) = some [.word "UPDATE", .word "leads", .word "SET",
      .word "status", .comparison .eq, .placeholder, .comma, .word "updated_at", .comparison .eq,
      .word "CURRENT_TIMESTAMP", .word "WHERE", .word "id", .comparison .eq, .placeholder] := by
    simp only [source]
    cbv
  have hparse : ofText source .strict params "now" = .ok (.update "leads" overlay cs) := by
    rw [ofText, OpenStatement.ofText_of_scan hscan]
    rfl
  obtain ⟨tokens, htokens, -, hwhole⟩ := updates_take_params hparse
  refine ⟨hparse, tokens, htokens, hwhole ?_⟩
  obtain rfl := Option.some.inj (hscan.symm.trans htokens)
  decide

/-- A placeholder in an assignment that mentions the current time takes no parameter: the field
behind it and the clause take those before their own. -/
theorem shifted_behind_left_out :
    let params := [.string "2024-01-01", .string "Won", .string "l1"]
    let source :=
      "UPDATE leads SET updated_at = COALESCE(?, CURRENT_TIMESTAMP), status = ? WHERE id = ?"
    let overlay := Record.ofFields [("status", .string "2024-01-01"), ("updated_at", .string "now")]
    let cs : List Condition := [⟨"id", .compare .eq (.string "Won")⟩]
    ofText source .strict params "now" = .ok (.update "leads" overlay cs) ∧
      ∀ tokens, scan? (Text.collapse source) = some tokens →
        ¬ UpdateBinds id params "now" (OpenStatement.trimSemicolons tokens) overlay cs := by
  intro params source overlay cs
  have hscan : scan? (Text.collapse source) = some [.word "UPDATE", .word "leads", .word "SET",
      .word "updated_at", .comparison .eq, .word "COALESCE", .openParen, .placeholder, .comma,
      .word "CURRENT_TIMESTAMP", .closeParen, .comma, .word "status", .comparison .eq,
      .placeholder, .word "WHERE", .word "id", .comparison .eq, .placeholder] := by
    simp only [source]
    cbv
  refine ⟨?_, fun tokens htokens => ?_⟩
  · rw [ofText, OpenStatement.ofText_of_scan hscan]
    rfl
  · obtain rfl := Option.some.inj (hscan.symm.trans htokens)
    intro hbinds
    have hclause : Compiles params _ [.word "id", .comparison .eq, .placeholder] cs :=
      hbinds.compiles rfl
    rcases Clause.partCompiles_of_uncut (by decide) hclause with ⟨c, hasks, hcs⟩ | ⟨-, hcs⟩
    · obtain ⟨rfl, -⟩ := List.cons.inj hcs
      obtain ⟨check, hread, hbind⟩ := asks_iff.mp hasks
      obtain ⟨-, rfl⟩ := Fragment.condition.inj hread
      have hlead : Value.string "l1" = .string "Won" := (Check.compare.inj (Except.ok.inj hbind)).2
      exact absurd hlead (by decide)
    · exact List.cons_ne_nil _ _ hcs

end Statement
end ClientRecords
