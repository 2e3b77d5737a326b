import ClientRecords.Proofs.Condition.Positions
/-!
Two clauses with `AND` between them. The word parts them wherever the parentheses of the first one
are closed, each part is read at the number that it would have by itself, and binding goes from left
to right, so the whole binds to the conditions of both or fails as the first of them does that fails
(`conjunction`).
-/

namespace ClientRecords
namespace Clause

open Token

variable {mode : Mode} {params : List Value} {as bs : List Token} {sep : Token}

theorem parts_append (hs : sep.is .and = true) (ha : as ≠ []) (hb : bs ≠ [])
    (hd : depthOver 0 as = 0) : parts (as ++ sep :: bs) = parts as ++ parts bs := by
  rw [parts, parts, parts, if_neg (by simp), if_neg (by simpa using ha), if_neg (by simpa using hb)]
  exact splitFrom_append (cuts_of_is hs) hd

/-- Parts are read at the number behind the placeholders of the parts before them. -/
theorem readParts_append (next : Nat) (ps qs : List (List Token)) : readParts next (ps ++ qs) =
    readParts next ps ++ readParts (next + total (ps.map placeholders)) qs := by
  induction ps generalizing next with
  | nil => rfl
  | cons p ps ih =>
    rw [List.cons_append, readParts, ih, List.map_cons, total, ← Nat.add_assoc]
    rfl

theorem consumed_append (hs : sep.is .and = true) (ha : as ≠ []) (hb : bs ≠ [])
    (hd : depthOver 0 as = 0) :
    consumed (as ++ sep :: bs) = consumed as + consumed bs := by
  have htotal : ∀ xs ys : List Nat, total (xs ++ ys) = total xs + total ys := by
    intro xs ys
    induction xs with
    | nil => rw [List.nil_append, total, Nat.zero_add]
    | cons x xs ih => rw [List.cons_append, total, total, ih, Nat.add_assoc]
  rw [consumed, parts_append hs ha hb hd, List.map_append, htotal]
  rfl

theorem fragments_append (start : Nat) (hs : sep.is .and = true) (ha : as ≠ []) (hb : bs ≠ [])
    (hd : depthOver 0 as = 0) : (ofTokens start (as ++ sep :: bs)).fragments =
      (ofTokens start as).fragments ++ (ofTokens (start + placeholders as) bs).fragments := by
  have hseen : total ((parts as).map placeholders) = placeholders as := consumed_eq_placeholders as
  rw [ofTokens, ofTokens, ofTokens, parts_append hs ha hb hd, readParts_append, hseen]

/-- Binding goes from left to right and stops at the first part that fails. -/
theorem bindFragments_append (fs gs : List Fragment) : bindFragments mode params (fs ++ gs) =
    (bindFragments mode params fs).bind fun cs => (bindFragments mode params gs).map (cs ++ ·) := by
  induction fs with
  | nil =>
    rw [List.nil_append, bindFragments]
    cases bindFragments mode params gs <;> rfl
  | cons f fs ih =>
    rw [List.cons_append]
    cases f with
    | condition field check =>
      cases hb : check.bind params with
      | error e => rw [bindFragments_condition_error hb, bindFragments_condition_error hb]; rfl
      | ok b =>
        rw [bindFragments_condition hb, bindFragments_condition hb, ih]
        cases bindFragments mode params fs with
        | error e => rfl
        | ok cs => cases bindFragments mode params gs <;> rfl
    | ignored => exact ih
    | unrecognized part =>
      cases mode with
      | strict => rfl
      | lenient => exact ih

/-- Two clauses with `AND` between them. The whole binds exactly if both do, each from its own
number on, to the conditions of the first and those of the second; else it fails as the first of
them does that fails. It takes as many parameters as both, and a row satisfies it exactly if it
satisfies both. -/
theorem conjunction (mode : Mode) (params : List Value) (start : Nat) (hs : sep.is .and = true)
    (ha : as ≠ []) (hb : bs ≠ []) (hd : depthOver 0 as = 0) :
    let whole := (ofTokens start (as ++ sep :: bs)).bind mode params
    let first := (ofTokens start as).bind mode params
    let second := (ofTokens (start + placeholders as) bs).bind mode params
    (∀ cs, whole = .ok cs ↔ ∃ ds es, first = .ok ds ∧ second = .ok es ∧ cs = ds ++ es) ∧
    (∀ e, whole = .error e ↔ first = .error e ∨ (∃ ds, first = .ok ds) ∧ second = .error e) ∧
    consumed (as ++ sep :: bs) = consumed as + consumed bs ∧
    ∀ cs ds es, whole = .ok cs → first = .ok ds → second = .ok es →
      ∀ r : Record, r.satisfies cs = (r.satisfies ds && r.satisfies es) := by
  intro whole first second
  have hwhole : whole = first.bind fun ds => second.map (ds ++ ·) := by
    simp only [whole, first, second, bind, fragments_append start hs ha hb hd, bindFragments_append]
  refine ⟨?_, ?_, consumed_append hs ha hb hd, ?_⟩
  · intro cs
    rw [hwhole]
    cases first with
    | error e => simp [Except.bind]
    | ok ds => cases second <;> simp [Except.bind, Except.map, eq_comm]
  · intro e
    rw [hwhole]
    cases first with
    | error e => simp [Except.bind]
    | ok ds => cases second <;> simp [Except.bind, Except.map]
  · intro cs ds es hcs hds hes r
    rw [hwhole, hds, hes] at hcs
    obtain rfl := Except.ok.inj hcs
    exact List.all_append

/-- A closing parenthesis too many spoils the part that it stands in, but not the one behind it. -/
theorem conjunction_beside_stray :
    let as : List Token := [.word "name", .comparison .eq, .placeholder, .closeParen]
    let bs : List Token := [.word "status", .comparison .eq, .placeholder]
    Token.is .and (.word "and") = true ∧ as ≠ [] ∧ bs ≠ [] ∧ depthOver 0 as = 0 ∧
      (ofTokens 0 (as ++ .word "and" :: bs)).bind .lenient [.string "Ann", .string "Won"] =
        .ok [⟨"status", .compare .eq (.string "Won")⟩] := by
  intro as bs
  have hs : Token.is .and (.word "and") = true := by decide
  have ha : as ≠ [] := List.cons_ne_nil _ _
  have hb : bs ≠ [] := List.cons_ne_nil _ _
  have hd : depthOver 0 as = 0 := by decide
  have hfirst : ofTokens 0 as = ⟨[.unrecognized as]⟩ := by decide +kernel
  have hsecond : ofTokens (0 + placeholders as) bs =
      ⟨[.condition "status" (.compare .eq (.param 1))]⟩ := by decide +kernel
  have hwhole := conjunction .lenient [.string "Ann", .string "Won"] 0 hs ha hb hd
  refine ⟨hs, ha, hb, hd, (hwhole.1 _).mpr ⟨[], _, ?_, ?_, rfl⟩⟩
  · rw [hfirst]
    rfl
  · rw [hsecond]
    rfl

end Clause
end ClientRecords
