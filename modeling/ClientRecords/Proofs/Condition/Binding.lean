import ClientRecords.Condition.Clause
/-!
What the parts of a clause bind to. A part that asks for a condition gives it, a part that asks
nothing gives none, and a part that is not recognised is left out in lenient mode and stops the
clause in strict mode. So a clause binds to conditions exactly if each of its parts does (`Binds`).
-/

namespace ClientRecords
namespace Clause

variable {mode : Mode} {params : List Value} {fs : List Fragment} {cs : List Condition}

/-- The conditions that parts of a clause bind to. -/
inductive Binds (mode : Mode) (params : List Value) : List Fragment → List Condition → Prop
  | nil : Binds mode params [] []
  | condition {field : String} {check : OpenCheck} {b : Check} {fs : List Fragment}
      {cs : List Condition} (hb : check.bind params = .ok b) (hr : Binds mode params fs cs) :
      Binds mode params (.condition field check :: fs) (⟨field, b⟩ :: cs)
  | ignored {fs : List Fragment} {cs : List Condition} (hr : Binds mode params fs cs) :
      Binds mode params (.ignored :: fs) cs
  | dropped {part : List Token} {fs : List Fragment} {cs : List Condition}
      (hm : mode = .lenient) (hr : Binds mode params fs cs) :
      Binds mode params (.unrecognized part :: fs) cs

theorem bindFragments_condition {field : String} {check : OpenCheck} {b : Check}
    (hb : check.bind params = .ok b) : bindFragments mode params (.condition field check :: fs) =
      (bindFragments mode params fs).map (⟨field, b⟩ :: ·) := by
  rw [bindFragments, hb]
  cases bindFragments mode params fs <;> rfl

theorem bindFragments_condition_error {field : String} {check : OpenCheck} {e : StoreError}
    (hb : check.bind params = .error e) :
    bindFragments mode params (.condition field check :: fs) = .error e := by
  rw [bindFragments, hb]
  rfl

theorem binds_of_bindFragments (h : bindFragments mode params fs = .ok cs) :
    Binds mode params fs cs := by
  induction fs generalizing cs with
  | nil =>
    obtain rfl := Except.ok.inj h
    exact .nil
  | cons f fs ih =>
    cases f with
    | condition field check =>
      cases hb : check.bind params with
      | error e =>
        rw [bindFragments_condition_error hb] at h
        cases h
      | ok b =>
        rw [bindFragments_condition hb] at h
        cases hr : bindFragments mode params fs with
        | error e =>
          rw [hr] at h
          cases h
        | ok ds =>
          rw [hr] at h
          obtain rfl := Except.ok.inj h
          exact .condition hb (ih hr)
    | ignored => exact .ignored (ih h)
    | unrecognized part =>
      cases mode with
      | strict => cases h
      | lenient => exact .dropped rfl (ih h)

end Clause
end ClientRecords
