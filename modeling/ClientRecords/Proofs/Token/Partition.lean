import ClientRecords.Proofs.Arithmetic
import ClientRecords.Proofs.Token.Nesting
/-!
Cutting a list of tokens loses nothing. The parts with the separators between them are the list
again (`weave_splitFrom`), and the separators stand exactly where a token that is no parenthesis has
the property outside of parentheses (`separatorIndices_splitFrom`), of which looking for a token
finds the first (`findFrom_eq_head?`). Both walks count the depth in the same way, whatever
parentheses are left open or closed too often: `splitTopLevel_partitions`.
-/

namespace ClientRecords.Token

variable {p : Token → Bool} {depth start : Nat} {t : Token} {ts : List Token}
  {parts : List (List Token)}

/-- A list put together from parts, a separator standing behind each of them but the last. -/
def weave : List (List Token) → List Token → List Token
  | part :: parts, sep :: seps => part ++ sep :: weave parts seps
  | parts, _ => parts.flatten

/-- The indices of the separators between parts, of which the first starts at `start`. -/
def separatorIndices (start : Nat) : List (List Token) → List Nat
  | part :: next :: parts =>
    (start + part.length) :: separatorIndices (start + part.length + 1) (next :: parts)
  | _ => []

/-- A token that is no parenthesis has the property outside of parentheses, the depth being counted
from the start of the list. -/
def IsCut (p : Token → Bool) (ts : List Token) (i : Nat) : Prop :=
  ∃ t, ts[i]? = some t ∧ t.isParen = false ∧ depthOver 0 (ts.take i) = 0 ∧ p t = true

/-- The indices of the tokens that cut a list, from a depth on. -/
def cutIndices (p : Token → Bool) (start depth : Nat) : List Token → List Nat
  | [] => []
  | t :: ts =>
    if cuts p depth t then start :: cutIndices p (start + 1) depth ts
    else cutIndices p (start + 1) (depthAfter depth t) ts

/-- What a list is cut into where tokens have a property outside of parentheses: parts that are the
list again with its separators between them, which stand at all the places where it is cut, the
first of them being found; placeholders that separate nothing are all in the parts. -/
structure Partitions (p : Token → Bool) (ts : List Token) (parts : List (List Token)) : Prop where
  rejoined : weave parts ((separatorIndices 0 parts).filterMap (ts[·]?)) = ts
  counted : (separatorIndices 0 parts).length + 1 = parts.length
  ascending : (separatorIndices 0 parts).Pairwise (· < ·)
  cut : ∀ i, i ∈ separatorIndices 0 parts ↔ IsCut p ts i
  first : findTopLevel p ts = (separatorIndices 0 parts).head?
  single : findTopLevel p ts = none ↔ parts.length = 1
  placeholders : p .placeholder = false →
    placeholders ts = total (parts.map Token.placeholders)

theorem depthAfter_of_cuts (h : cuts p depth t = true) : depthAfter depth t = depth := by
  simp only [cuts, Bool.and_eq_true, Bool.not_eq_true'] at h
  exact depthAfter_of_not_paren depth h.1.1

/-! ### Indices of separators -/

theorem separatorIndices_nil_cons (h : parts ≠ []) :
    separatorIndices start ([] :: parts) = start :: separatorIndices (start + 1) parts := by
  cases parts with
  | nil => exact absurd rfl h
  | cons part parts => rfl

theorem separatorIndices_consPart (h : parts ≠ []) :
    separatorIndices start (consPart t parts) = separatorIndices (start + 1) parts := by
  match parts, h with
  | [part], _ => rfl
  | part :: next :: parts, _ =>
    have hlength : start + (part.length + 1) = start + 1 + part.length := by omega
    simp only [consPart, separatorIndices, List.length_cons, hlength]

theorem separatorIndices_splitFrom (p : Token → Bool) : ∀ (start depth : Nat) (ts : List Token),
    separatorIndices start (splitFrom p depth ts) = cutIndices p start depth ts
  | _, _, [] => rfl
  | start, depth, t :: ts => by
    rw [splitFrom, cutIndices]
    split
    · rw [separatorIndices_nil_cons (splitFrom_ne_nil p depth ts), separatorIndices_splitFrom]
    · rw [separatorIndices_consPart (splitFrom_ne_nil p _ ts), separatorIndices_splitFrom]

theorem length_separatorIndices : ∀ {start : Nat} {parts : List (List Token)}, parts ≠ [] →
    (separatorIndices start parts).length + 1 = parts.length
  | _, [], h => absurd rfl h
  | _, [part], _ => rfl
  | start, part :: next :: parts, _ => by
    rw [separatorIndices, List.length_cons, length_separatorIndices (List.cons_ne_nil next parts)]
    rfl

/-! ### The walk over a list -/

theorem mem_cutIndices {i : Nat} : i ∈ cutIndices p start depth ts ↔
    ∃ j t, i = start + j ∧ ts[j]? = some t ∧ cuts p (depthOver depth (ts.take j)) t = true := by
  induction ts generalizing start depth with
  | nil => simp [cutIndices]
  | cons t ts ih =>
    have hsplit : (∃ j u, i = start + j ∧ (t :: ts)[j]? = some u ∧
          cuts p (depthOver depth ((t :: ts).take j)) u = true) ↔
        (i = start ∧ cuts p depth t = true) ∨ ∃ j u, i = start + 1 + j ∧ ts[j]? = some u ∧
          cuts p (depthOver (depthAfter depth t) (ts.take j)) u = true := by
      constructor
      · rintro ⟨_ | j, u, rfl, hu, hcut⟩
        · obtain rfl := Option.some.inj hu
          exact .inl ⟨rfl, hcut⟩
        · exact .inr ⟨j, u, by omega, hu, hcut⟩
      · rintro (⟨rfl, hcut⟩ | ⟨j, u, rfl, hu, hcut⟩)
        · exact ⟨0, t, rfl, rfl, hcut⟩
        · exact ⟨j + 1, u, by omega, hu, hcut⟩
    rw [hsplit, ← ih, cutIndices]
    cases hcut : cuts p depth t with
    | true => rw [if_pos rfl, List.mem_cons, depthAfter_of_cuts hcut, and_iff_left rfl]
    | false => simp

theorem le_of_mem_cutIndices {i : Nat} (h : i ∈ cutIndices p start depth ts) : start ≤ i := by
  obtain ⟨j, _, rfl, -⟩ := mem_cutIndices.mp h
  exact Nat.le_add_right start j

theorem pairwise_cutIndices (p : Token → Bool) : ∀ (start depth : Nat) (ts : List Token),
    (cutIndices p start depth ts).Pairwise (· < ·)
  | _, _, [] => .nil
  | start, depth, t :: ts => by
    rw [cutIndices]
    split
    · exact .cons (fun i hi => le_of_mem_cutIndices hi) (pairwise_cutIndices p _ _ ts)
    · exact pairwise_cutIndices p _ _ ts

/-- Looking for a token walks over the list as cutting it does. -/
theorem findFrom_eq_head? (p : Token → Bool) : ∀ (start depth : Nat) (ts : List Token),
    (findFrom p depth ts).map (start + ·) = (cutIndices p start depth ts).head?
  | _, _, [] => rfl
  | start, depth, t :: ts => by
    rw [findFrom, cutIndices]
    split
    · rfl
    · rw [← findFrom_eq_head? p (start + 1), Option.map_map]
      refine congrArg (Option.map · _) (funext fun j => ?_)
      simp only [Function.comp]
      omega

theorem isCut_iff {i : Nat} : IsCut p ts i ↔ i ∈ cutIndices p 0 0 ts := by
  rw [mem_cutIndices]
  simp [IsCut, cuts, and_assoc]

/-! ### Putting the parts together again -/

theorem weave_consPart (h : parts ≠ []) (t : Token) (seps : List Token) :
    weave (consPart t parts) seps = t :: weave parts seps := by
  cases parts with
  | nil => exact absurd rfl h
  | cons part parts => cases seps <;> rfl

/-- The parts of what is left of a list from an index on, and the separators at their indices in the
list. -/
theorem weave_splitFrom (p : Token → Bool) (all : List Token) :
    ∀ (start depth : Nat) (ts : List Token), all.drop start = ts →
      weave (splitFrom p depth ts) ((cutIndices p start depth ts).filterMap (all[·]?)) = ts
  | _, _, [], _ => rfl
  | start, depth, t :: ts, h => by
    have ht : all[start]? = some t := by rw [← List.head?_drop, h]; rfl
    have hts : all.drop (start + 1) = ts := by rw [← List.tail_drop, h]; rfl
    rw [splitFrom, cutIndices]
    split
    · rw [List.filterMap_cons_some ht]
      exact congrArg (t :: ·) (weave_splitFrom p all (start + 1) depth ts hts)
    · rw [weave_consPart (splitFrom_ne_nil p _ ts), weave_splitFrom p all (start + 1) _ ts hts]

theorem total_placeholders_consPart (t : Token) (parts : List (List Token)) :
    total ((consPart t parts).map placeholders) =
      placeholders [t] + total (parts.map placeholders) := by
  cases parts with
  | nil => rfl
  | cons part parts =>
    have hpart : placeholders (t :: part) = placeholders [t] + placeholders part :=
      placeholders_append [t] part
    simp only [consPart, List.map_cons, total, hpart, Nat.add_assoc]

/-- A placeholder that separates nothing is in one of the parts. -/
theorem placeholders_eq_total (hp : p .placeholder = false) : ∀ (depth : Nat) (ts : List Token),
    placeholders ts = total ((splitFrom p depth ts).map placeholders)
  | _, [] => rfl
  | depth, t :: ts => by
    have hcons : placeholders (t :: ts) = placeholders [t] + placeholders ts :=
      placeholders_append [t] ts
    rw [splitFrom, hcons]
    by_cases hcut : cuts p depth t = true
    · have hne : t ≠ .placeholder := by
        rintro rfl
        rw [of_cuts hcut] at hp
        cases hp
      rw [if_pos hcut, List.map_cons, total, placeholders_eq_total hp depth ts]
      simp [placeholders, hne]
    · rw [if_neg hcut, total_placeholders_consPart, placeholders_eq_total hp _ ts]

/-- Cutting a list outside of parentheses parts it. -/
theorem splitTopLevel_partitions (p : Token → Bool) (ts : List Token) :
    Partitions p ts (splitTopLevel p ts) := by
  have hindices : separatorIndices 0 (splitTopLevel p ts) = cutIndices p 0 0 ts :=
    separatorIndices_splitFrom p 0 0 ts
  have hcounted : (separatorIndices 0 (splitTopLevel p ts)).length + 1
      = (splitTopLevel p ts).length := length_separatorIndices (splitFrom_ne_nil p 0 ts)
  have hfound : findTopLevel p ts = (cutIndices p 0 0 ts).head? := by
    simpa [findTopLevel] using findFrom_eq_head? p 0 0 ts
  refine ⟨?_, hcounted, ?_, ?_, ?_, ?_, fun hp => placeholders_eq_total hp 0 ts⟩
  · rw [hindices]
    exact weave_splitFrom p ts 0 0 ts rfl
  · rw [hindices]
    exact pairwise_cutIndices p 0 0 ts
  · intro i
    rw [hindices, isCut_iff]
  · rw [hindices, hfound]
  · rw [hfound, ← hindices, List.head?_eq_none_iff, ← List.length_eq_zero_iff]
    exact ⟨fun h => by omega, fun h => by omega⟩

-- a parenthesis that closes nothing leaves the depth at zero, one that is not closed hides the rest
example : splitTopLevel (· == .comma) [.closeParen, .comma, .openParen, .comma]
    = [[.closeParen], [.openParen, .comma]] := by decide

end ClientRecords.Token
