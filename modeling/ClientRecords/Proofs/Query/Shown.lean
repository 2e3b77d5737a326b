import ClientRecords.Proofs.Query.Names
import ClientRecords.Proofs.Token.Nesting
/-!
What a written query shows. Its items are cut at the commas between them, the number and the form of
the items decide what they ask for, and `FROM` does not stand among them.
-/

namespace ClientRecords

open Token

namespace Written

/-- The forms that an item has. -/
inductive IsItem : List Token → Prop where
  | star : IsItem [.star]
  | field (f : Field) : IsItem [f.token]
  | count (n : Name) : IsItem (countTokens n)
  | sum (c : Sum) : IsItem c.tokens
  | date (format : String) (f : Field) (k : Name) : IsItem (dateTokens format f k)

namespace Shown

variable (s : Shown)

theorem items_ne_nil : s.items ≠ [] := by
  cases s <;> simp [items]

theorem isItem_of_mem {item : List Token} (h : item ∈ s.items) : IsItem item := by
  cases s with
  | rows =>
    obtain rfl := List.mem_singleton.mp h
    exact .star
  | count n =>
    obtain rfl := List.mem_singleton.mp h
    exact .count n
  | sums first second =>
    rcases List.mem_cons.mp h with rfl | h
    · exact .sum first
    · obtain ⟨c, _, rfl⟩ := Option.map_eq_some_iff.mp (Option.mem_toList.mp h)
      exact .sum c
  | groups f n =>
    rcases List.mem_cons.mp h with rfl | h
    · exact .field f
    · obtain rfl := List.mem_singleton.mp h
      exact .count n
  | trend format f k n =>
    rcases List.mem_cons.mp h with rfl | h
    · exact .date format f k
    · obtain rfl := List.mem_singleton.mp h
      exact .count n

/-- Commas stand between the items, and within parentheses only. -/
theorem splitCommas_tokens : splitCommas s.tokens = s.items := by
  refine splitTopLevel_intercalate rfl s.items_ne_nil fun item hi => ?_
  cases s.isItem_of_mem hi <;> exact ⟨rfl, rfl⟩

theorem ofTokens_tokens : Projection.ofTokens s.tokens = s.projection := by
  rw [Projection.ofTokens, splitCommas_tokens]
  cases s with
  | rows => rfl
  | count n => rfl
  | sums first second =>
    cases second with
    | none =>
      have hone : projection (.sums first none)
          = .sums [⟨bareField first.field.word, first.name.text⟩] := by
        rw [first.field.bareField_word]
        rfl
      rw [hone]
      rfl
    | some second =>
      have htwo : projection (.sums first (some second))
          = .sums [⟨bareField first.field.word, first.name.text⟩,
            ⟨bareField second.field.word, second.name.text⟩] := by
        rw [first.field.bareField_word, second.field.bareField_word]
        rfl
      rw [htwo]
      rfl
  | groups f n =>
    have hcall : Projection.arguments? .strftime [f.token] = none := by
      rw [Projection.arguments?]
      split <;> rfl
    have htrend : Projection.trend? [f.token] = none := by rw [Projection.trend?, hcall]
    have hkeyed : Projection.keyed? [f.token] none (some n.text)
        = some (.groups f.name.text n.text) := by
      unfold Projection.keyed?
      rw [htrend, ← f.bareField_word]
      rfl
    have hcounted : Projection.counted? ((items (.groups f n)).map Projection.splitAlias)
        = Projection.keyed? [f.token] none (some n.text) := rfl
    simp only [hcounted, hkeyed, projection]
  | trend format f k n =>
    have htrend : projection (.trend format f k n)
        = .trend format (bareField f.word) k.text n.text := by
      rw [f.bareField_word]
      rfl
    rw [htrend]
    rfl

/-- No word that ends what is shown stands among the items. -/
theorem closed_tokens : Closed (·.is .from) s.tokens := by
  have hname : ∀ n : Name, Closed (·.is .from) [n.token] := fun n =>
    .cons rfl (n.is_eq_false (by decide)) .nil
  refine .intercalate ⟨rfl, rfl⟩ fun item hi => ?_
  cases s.isItem_of_mem hi with
  | star => exact ⟨rfl, rfl⟩
  | field f => exact .cons rfl (f.is_eq_false (by decide)) .nil
  | count n =>
    have hcall : Closed (·.is .from)
        [.word "COUNT", .openParen, .star, .closeParen, .word "AS"] := ⟨rfl, rfl⟩
    exact hcall.append (hname n)
  | sum c =>
    have hcall : Closed (·.is .from) [.word "COALESCE", .openParen, .word "SUM", .openParen,
        c.field.token, .closeParen, .comma, .number "0", .closeParen, .word "AS"] := ⟨rfl, rfl⟩
    exact hcall.append (hname c.name)
  | date format f k =>
    have hcall : Closed (·.is .from) [.word "strftime", .openParen, .string format, .comma, f.token,
        .closeParen, .word "AS"] := ⟨rfl, rfl⟩
    exact hcall.append (hname k)

theorem placeholders_tokens : placeholders s.tokens = 0 := by
  cases s with
  | sums first second => cases second <;> rfl
  | _ => rfl

end Shown
end Written
end ClientRecords
