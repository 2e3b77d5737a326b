import Mathlib.Data.List.Forall2
import ClientRecords.Condition.PatternSize
/-!
What a pattern covers. The elements of a pattern are worked out for all ends of a text at once; here
this is brought back to what each character of the pattern takes of the text: a pattern covers a
text exactly when the text is cut into consecutive pieces, one for each character of the pattern.
-/

namespace ClientRecords
namespace Wildcard

/-- What a character of a pattern takes of a text: a percent sign any run of characters, an
underscore one character, and every other character one that is the same letter in any case. -/
inductive Takes : Char → List Char → Prop
  | run {p : Char} (sign : p = '%') (piece : List Char) : Takes p piece
  | one {p : Char} (sign : p = '_') (c : Char) : Takes p [c]
  | letter {p c : Char} (run : p ≠ '%') (one : p ≠ '_') (same : Text.fold p = Text.fold c) :
      Takes p [c]

theorem ofChar_cases (p : Char) :
    p = '%' ∧ ofChar p = .run ∨ p = '_' ∧ ofChar p = .one ∨
      (p ≠ '%' ∧ p ≠ '_') ∧ ofChar p = .letter p := by
  unfold ofChar
  split <;> simp_all

/-! The ends of a text with a further character in front are that text and the ends of what comes
after, so the answers for them are one more answer in front. -/

theorem coveredEnds_cons (c : Char) (cs : List Char) (ws : List Wildcard) :
    coveredEnds (c :: cs) ws = covers ws (c :: cs) :: coveredEnds cs ws := by
  induction ws with
  | nil => rfl
  | cons w ws ih => cases w <;> rw [covers, coveredEnds, ih] <;> rfl

@[simp] theorem covers_nil (cs : List Char) : covers [] cs = cs.isEmpty := by
  cases cs <;> rfl

theorem covers_run_nil (ws : List Wildcard) : covers (.run :: ws) [] = covers ws [] := by
  suffices h : ∃ b, coveredEnds [] ws = [b] by
    obtain ⟨b, hb⟩ := h
    simp [covers, coveredEnds, afterRun, hb]
  induction ws with
  | nil => exact ⟨true, rfl⟩
  | cons w ws ih =>
    obtain ⟨b, hb⟩ := ih
    cases w <;> simp [coveredEnds, afterRun, afterOne, hb]

theorem covers_run_cons (ws : List Wildcard) (c : Char) (cs : List Char) :
    covers (.run :: ws) (c :: cs) = (covers ws (c :: cs) || covers (.run :: ws) cs) := by
  rw [covers, coveredEnds, coveredEnds_cons]
  rfl

theorem covers_run_iff (ws : List Wildcard) (cs : List Char) :
    covers (.run :: ws) cs = true ↔ ∃ piece rest, piece ++ rest = cs ∧ covers ws rest = true := by
  induction cs with
  | nil => simp [covers_run_nil, and_assoc]
  | cons c cs ih =>
    rw [covers_run_cons, Bool.or_eq_true, ih]
    constructor
    · rintro (h | ⟨piece, rest, rfl, h⟩)
      · exact ⟨[], c :: cs, rfl, h⟩
      · exact ⟨c :: piece, rest, rfl, h⟩
    · rintro ⟨_ | ⟨d, piece⟩, rest, heq, h⟩
      · exact .inl (by simpa [← heq] using h)
      · obtain ⟨rfl, rfl⟩ := List.cons_eq_cons.mp heq
        exact .inr ⟨piece, rest, rfl, h⟩

theorem headD_afterOne (fits : Char → Bool) (ws : List Wildcard) (cs : List Char) :
    (afterOne fits cs (coveredEnds cs ws)).headD false = true ↔
      ∃ c rest, c :: rest = cs ∧ fits c = true ∧ covers ws rest = true := by
  cases cs with
  | nil => simp [afterOne]
  | cons c cs => rw [coveredEnds_cons]; simp [afterOne, covers]

/-- The first character of a pattern takes a piece of the text, the others cover what is left. -/
theorem covers_cons_iff (p : Char) (ws : List Wildcard) (cs : List Char) :
    covers (ofChar p :: ws) cs = true ↔
      ∃ piece rest, piece ++ rest = cs ∧ Takes p piece ∧ covers ws rest = true := by
  obtain ⟨sign, hp⟩ | ⟨sign, hp⟩ | ⟨⟨run, one⟩, hp⟩ := ofChar_cases p <;> rw [hp]
  · rw [covers_run_iff]
    exact ⟨fun ⟨piece, rest, hcs, h⟩ => ⟨piece, rest, hcs, .run sign piece, h⟩,
      fun ⟨piece, rest, hcs, _, h⟩ => ⟨piece, rest, hcs, h⟩⟩
  · rw [covers, coveredEnds, headD_afterOne]
    constructor
    · rintro ⟨c, rest, hcs, -, h⟩
      exact ⟨[c], rest, hcs, .one sign c, h⟩
    · rintro ⟨_, rest, hcs, run | one | letter, h⟩
      · cases sign.symm.trans run
      · exact ⟨_, rest, hcs, rfl, h⟩
      · contradiction
  · rw [covers, coveredEnds, headD_afterOne]
    constructor
    · rintro ⟨c, rest, hcs, hc, h⟩
      exact ⟨[c], rest, hcs, .letter run one (by simpa [Text.sameLetter] using hc), h⟩
    · rintro ⟨_, rest, hcs, sign | sign | ⟨-, -, same⟩, h⟩
      · contradiction
      · contradiction
      · exact ⟨_, rest, hcs, by simpa [Text.sameLetter] using same, h⟩

/-- The induction on the pattern: each character takes its piece, in order. -/
theorem covers_map_iff (ps cs : List Char) :
    covers (ps.map ofChar) cs = true ↔
      ∃ pieces, List.Forall₂ Takes ps pieces ∧ pieces.flatten = cs := by
  induction ps generalizing cs with
  | nil => simp
  | cons p ps ih =>
    rw [List.map_cons, covers_cons_iff]
    constructor
    · rintro ⟨piece, rest, rfl, hp, h⟩
      obtain ⟨pieces, hps, rfl⟩ := (ih rest).mp h
      exact ⟨piece :: pieces, .cons hp hps, rfl⟩
    · rintro ⟨_, _ | ⟨hp, hps⟩, rfl⟩
      exact ⟨_, _, rfl, hp, (ih _).mpr ⟨_, hps, rfl⟩⟩

end Wildcard

namespace Pattern

/-- A pattern that compiles covers a text exactly when the text is cut into consecutive pieces, one
for each character of the pattern in order, and each character takes its piece. -/
theorem covers_iff_pieces {source : String} {p : Pattern} (h : ofText? source = some p)
    (text : String) :
    p.covers text = true ↔
      ∃ pieces, List.Forall₂ Wildcard.Takes source.toList pieces ∧
        pieces.flatten = text.toList := by
  obtain rfl : p = ⟨source⟩ := by
    simp only [ofText?] at h
    split at h
    · exact (Option.some.inj h).symm
    · cases h
  exact Wildcard.covers_map_iff source.toList text.toList

theorem ofText?_capital : ofText? "A%_" = some ⟨"A%_"⟩ := by
  -- Sorting the forms of a letter does not evaluate, so its two forms are counted by rewriting.
  have letter : Reading.ofLetter 'A' = .oneByte 2 := by
    have forms : Text.variants 'A' = ['a', 'A'] := by decide +kernel
    simp [Reading.ofLetter, forms]
  have elements : Pattern.elements ⟨"A%_"⟩ = [.letter 'A', .run, .one] := by decide +kernel
  have fits : size ⟨"A%_"⟩ ≤ sizeLimit := by
    simp only [size, elements, Forward.size, Backward.size, List.foldl_cons, List.foldl_nil,
      List.reverse_cons, List.reverse_nil, List.nil_append, List.cons_append, Forward.addElement,
      Backward.addElement, letter]
    decide +kernel
  simp [ofText?, fits]

theorem covers_across_lines : ∃ p, ofText? "A%_" = some p ∧ p.covers "ab\ncé" = true := by
  refine ⟨_, ofText?_capital, (covers_iff_pieces ofText?_capital _).mpr
    ⟨[['a'], ['b', '\n', 'c'], ['é']], ?_, by decide +kernel⟩⟩
  exact .cons (.letter (by decide) (by decide) (by decide))
    (.cons (.run rfl _) (.cons (.one rfl _) .nil))

end Pattern
end ClientRecords
