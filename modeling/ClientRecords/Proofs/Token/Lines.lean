import Mathlib.Data.List.Induction
import ClientRecords.Proofs.Token.Appended
import ClientRecords.Proofs.Token.Sign
/-!
Texts on lines of their own. The end of a line closes a comment and no token goes on over it, so a
text that is scanned hands on to the next line only whether an operand may start there
(`scanFrom_line`), on which nothing but the sign of a number depends: `scan?_line_break`.
-/

namespace ClientRecords.Token

variable {b : Bool} {cs ds : List Char} {ts us : List Token}

/-- An operand may start behind a list unless its last token ends one. -/
theorem operandAfter_true (ts : List Token) :
    operandAfter true ts = !ts.getLast?.any endsOperand := by
  induction ts using List.reverseRecOn with
  | nil => rfl
  | append_singleton ts t _ => simp [operandAfter]

/-- The tokens of a text follow those of the text on the line before it. -/
theorem scanFrom_line (h : scanFrom b cs = some ts) (ds : List Char) :
    scanFrom b (cs ++ '\n' :: ds) = (scanFrom (operandAfter b ts) ds).map (ts ++ ·) := by
  have hclosed : (Context.after .plain cs).isOpen = false := by
    refine Bool.eq_false_iff.mpr fun hopen => ?_
    rw [(scanFrom_eq_none_iff b cs).mpr hopen] at h
    cases h
  exact scanFrom_append (by decide) h (Context.after_newline hclosed)

/-- The tokens of two texts with a line break between them are those of the one and then those of
the other, except that the sign of a number at the start of the second text is a token of its own
behind a word, a number, a string, a closing parenthesis or a placeholder. -/
theorem scan?_line_break {s t : String} (hs : scan? s = some ts) (ht : scan? t = some us) :
    scan? (s ++ "\n" ++ t) =
      some (ts ++ if ts.getLast?.any endsOperand then parted us else us) := by
  have hlist : (s ++ "\n" ++ t).toList = s.toList ++ '\n' :: t.toList := by simp
  have hline := scanFrom_line hs t.toList
  rw [scan?, hlist, hline, operandAfter_true]
  cases ts.getLast?.any endsOperand with
  | true =>
    rw [Bool.not_true, scanFrom_false, ← scan?, ht]
    rfl
  | false =>
    rw [Bool.not_false, ← scan?, ht]
    rfl

/-- A quote in a comment, which ends with its line, and a sign behind a string and behind a comma.
-/
theorem scan?_line_break_signed :
    let s := "a = 'x' -- it's"
    let t := "-1.5, -2"
    let ts : List Token := [.word "a", .comparison .eq, .string "x"]
    scan? s = some ts ∧ scan? t = some [.number "-1.5", .comma, .number "-2"] ∧
      scan? (s ++ "\n" ++ t) =
        some (ts ++ [.other '-', .number "1.5", .comma, .number "-2"]) := by
  intro s t ts
  have hs : scan? s = some ts := by decide +kernel
  have ht : scan? t = some [.number "-1.5", .comma, .number "-2"] := by decide +kernel
  exact ⟨hs, ht, scan?_line_break hs ht⟩

end ClientRecords.Token
