import ClientRecords.Proofs.Token.Nesting
/-!
Parentheses that match. A list is balanced if every opening parenthesis in it has a closing one
behind it and the other way round, so looking for the end of a group goes past balanced tokens
(`Balanced.closingFrom_append`), and what the end leaves behind it is balanced
(`closes_of_closingFrom`). The tokens that are taken from between parentheses are the balanced ones
(`parenthesised?_eq_some_iff`).
-/

namespace ClientRecords.Token

/-- Every parenthesis has its partner: tokens that are none, and groups of balanced tokens. -/
inductive Balanced : List Token → Prop
  | nil : Balanced []
  | cons {t : Token} {ts : List Token} (ht : t.isParen = false) (h : Balanced ts) :
    Balanced (t :: ts)
  | group {as bs : List Token} (ha : Balanced as) (hb : Balanced bs) :
    Balanced (.openParen :: (as ++ .closeParen :: bs))

/-- Balanced but for some closing parentheses whose partners stand before the list. -/
def Closes : Nat → List Token → Prop
  | 0, ts => Balanced ts
  | depth + 1, ts => ∃ as bs, ts = as ++ .closeParen :: bs ∧ Balanced as ∧ Closes depth bs

variable {depth i : Nat} {t : Token} {ts as bs inner rest : List Token}

/-! ### Past balanced tokens -/

theorem closingFrom_cons {next : Nat} (h : depthAfter depth t = next + 1) :
    closingFrom depth (t :: ts) = (closingFrom (next + 1) ts).map (· + 1) := by
  rw [closingFrom, h]

theorem Balanced.closingFrom_append (h : Balanced as) (depth : Nat) (bs : List Token) :
    closingFrom (depth + 1) (as ++ bs) = (closingFrom (depth + 1) bs).map (· + as.length) := by
  induction h generalizing depth bs with
  | nil => simp
  | cons ht _ ih =>
    rw [List.cons_append, closingFrom_cons (depthAfter_of_not_paren _ ht), ih, Option.map_map]
    rfl
  | @group inner after _ _ iha ihb =>
    have hopen : depthAfter (depth + 1) .openParen = depth + 1 + 1 := rfl
    have hclose : depthAfter (depth + 1 + 1) .closeParen = depth + 1 := rfl
    rw [List.cons_append, closingFrom_cons hopen, List.append_assoc, iha, List.cons_append,
      closingFrom_cons hclose, ihb, Option.map_map, Option.map_map, Option.map_map]
    refine congrArg (Option.map · _) (funext fun n => ?_)
    simp only [Function.comp, List.length_cons, List.length_append]
    omega

/-! ### Up to a closing parenthesis -/

namespace Closes

theorem cons (ht : t.isParen = false) (h : Closes depth ts) : Closes depth (t :: ts) := by
  cases depth with
  | zero => exact .cons ht h
  | succ depth =>
    obtain ⟨as, bs, rfl, ha, hb⟩ := h
    exact ⟨t :: as, bs, rfl, .cons ht ha, hb⟩

/-- An opening parenthesis is the partner of the first one that closes. -/
theorem opened (h : Closes (depth + 1) ts) : Closes depth (.openParen :: ts) := by
  obtain ⟨as, bs, rfl, ha, hb⟩ := h
  cases depth with
  | zero => exact .group ha hb
  | succ depth =>
    obtain ⟨cs, ds, rfl, hc, hd⟩ := hb
    exact ⟨.openParen :: (as ++ .closeParen :: cs), ds, by simp, .group ha hc, hd⟩

theorem closed (h : Closes depth ts) : Closes (depth + 1) (.closeParen :: ts) :=
  ⟨[], ts, rfl, .nil, h⟩

end Closes

/-- The tokens before the one that closes the outermost group. -/
theorem closes_of_closingFrom (h : closingFrom (depth + 1) ts = some i) :
    Closes depth (ts.take i) := by
  -- the depth counts the groups that are open, so it goes along with the tokens
  induction ts generalizing depth i with
  | nil => cases h
  | cons t ts ih =>
    cases hp : t.isParen with
    | false =>
      rw [closingFrom_cons (depthAfter_of_not_paren _ hp)] at h
      obtain ⟨j, hj, rfl⟩ := Option.map_eq_some_iff.mp h
      exact (ih hj).cons hp
    | true =>
      simp only [isParen, Bool.or_eq_true, beq_iff_eq] at hp
      rcases hp with rfl | rfl
      · obtain ⟨j, hj, rfl⟩ := Option.map_eq_some_iff.mp h
        have hinner : Closes (depth + 1) (ts.take j) := ih hj
        exact hinner.opened
      · cases depth with
        | zero =>
          obtain rfl : 0 = i := Option.some.inj h
          exact .nil
        | succ depth =>
          obtain ⟨j, hj, rfl⟩ := Option.map_eq_some_iff.mp h
          exact (ih hj).closed

/-! ### Groups -/

/-- A list starts with parentheses that are taken exactly if it starts with a group. -/
theorem parenthesised?_eq_some_iff : parenthesised? ts = some (inner, rest) ↔
    ts = .openParen :: (inner ++ .closeParen :: rest) ∧ Balanced inner := by
  constructor
  · intro h
    obtain rfl := eq_of_parenthesised? h
    refine ⟨rfl, ?_⟩
    obtain ⟨_, hclose, hparts⟩ := Option.map_eq_some_iff.mp h
    obtain ⟨i, hi, rfl⟩ := Option.map_eq_some_iff.mp hclose
    have hinner : (inner ++ .closeParen :: rest).take i = inner := (Prod.mk.inj hparts).1
    rw [← hinner]
    exact closes_of_closingFrom hi
  · rintro ⟨rfl, h⟩
    have hend : closingFrom 1 (inner ++ .closeParen :: rest) = some inner.length := by
      rw [h.closingFrom_append]
      simp [closingFrom, depthAfter]
    rw [parenthesised?, closingParen?, hend]
    simp

end ClientRecords.Token
