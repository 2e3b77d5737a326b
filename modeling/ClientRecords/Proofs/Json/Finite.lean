import ClientRecords.Json.Reader
import ClientRecords.Proofs.Arithmetic
import ClientRecords.Proofs.Binary64.Finite
import ClientRecords.Proofs.Record
/-!
The numbers in a JSON value. What is read from a text holds finite numbers only: a number that is
too large has no value, and the other ones are scaled in steps that keep far below the limit.
-/

namespace ClientRecords.Json

mutual

/-- Are all numbers in a value finite? -/
def isFinite : Json → Bool
  | .int i => (Binary64.ofInt i).isFinite
  | .float x => x.isFinite
  | .array items => itemsFinite items
  | .object members => membersFinite members
  | .null => true
  | .bool _ => true
  | .string _ => true

def itemsFinite : List Json → Bool
  | [] => true
  | j :: js => isFinite j && itemsFinite js

def membersFinite : List (String × Json) → Bool
  | [] => true
  | (_, j) :: ms => isFinite j && membersFinite ms

end

theorem itemsFinite_eq_true_iff : ∀ {items : List Json},
    itemsFinite items = true ↔ ∀ j ∈ items, j.isFinite = true
  | [] => by simp [itemsFinite]
  | j :: js => by
    rw [itemsFinite, Bool.and_eq_true, List.forall_mem_cons, itemsFinite_eq_true_iff]

theorem membersFinite_eq_true_iff : ∀ {members : List (String × Json)},
    membersFinite members = true ↔ ∀ m ∈ members, m.2.isFinite = true
  | [] => by simp [membersFinite]
  | (_, j) :: ms => by
    rw [membersFinite, Bool.and_eq_true, List.forall_mem_cons, membersFinite_eq_true_iff]

namespace Numeral

open Binary64

variable {steps room : Nat} {x y : Binary64} {e : Int}

theorem unitsOf_nearest_lt {negative : Bool} {num den k : Nat} (h : num / den < pow2 k) :
    unitsOf (nearest negative num den) < pow2 (k + 1) := by
  rw [nearest]
  split
  · exact nearestUnits_lt h
  · exact pow2_pos _

/-- The powers of ten that a number is scaled by are finite and at least one. -/
theorem one_le_tenPower {n : Nat} (hn : n ≤ 308) : one ≤ tenPower n := by
  have hpower : 1 ≤ pow10 n := Nat.one_le_pow n 10 (by decide)
  have hroom : 1 * pow10 n * one / 1 + pow2 (topPlace - 53) < magnitudeLimit := by
    have hlargest : pow10 308 * one + pow2 (topPlace - 53) < magnitudeLimit := by decide +kernel
    have hle : pow10 n * one ≤ pow10 308 * one :=
      Nat.mul_le_mul_right one (pow10_le hn)
    rw [Nat.one_mul, Nat.div_one]
    exact Nat.lt_of_le_of_lt (Nat.add_le_add_right hle _) hlargest
  have hone : pow2 unitPlaces ≤ 1 * pow10 n * one / 1 := by
    rw [Nat.one_mul, Nat.div_one, ← one]
    exact Nat.le_mul_of_pos_left one hpower
  obtain ⟨m, hm, hunits⟩ := @nearest_of_room false _ _ hroom
  have hdigits : (Nat.toDigits 10 1).length = 1 := by decide
  have hdecimal : ofDecimal false 1 n = .finite false m := by
    rw [ofDecimal, hdigits, if_neg (by omega), if_neg (by omega), if_pos (by omega),
      Int.toNat_natCast, hm]
  rw [tenPower, hdecimal, unitsOf, hunits]
  exact le_nearestUnits hone

/-- A number that is scaled down stays below any bound that it was below. -/
theorem div_tenPower_lt {m n k : Nat} (hn : n ≤ 308) (h : m < pow2 k) :
    m * one / tenPower n < pow2 k :=
  Nat.lt_of_le_of_lt (mul_one_div_le m (one_le_tenPower hn)) h

/-- Scaling gives finite numbers. Every step down may double a number at most, for which there is
room below the limit. -/
theorem isFinite_of_scale : ∀ {steps room : Nat} {x y : Binary64} {e : Int},
    unitsOf x < pow2 room → room + steps < topPlace → scale steps x e = some y →
    y.isFinite = true
  | 0, _, _, _, _, _, _, h => by
    obtain rfl := Option.some.inj h
    rfl
  | steps + 1, room, x, y, e, hx, hroom, h => by
    rw [scale] at h
    by_cases hup : 0 ≤ e ∧ e ≤ 308
    · rw [if_pos hup] at h
      dsimp only at h
      by_cases hfinite : (mulUnits (unitsOf x) (tenPower e.toNat)).isFinite = true
      · rw [if_pos hfinite] at h
        obtain rfl := Option.some.inj h
        exact hfinite
      · rw [if_neg hfinite] at h
        cases h
    by_cases hdown : -308 ≤ e ∧ e < 0
    · rw [if_neg hup, if_pos hdown] at h
      obtain rfl := Option.some.inj h
      exact isFinite_nearest (div_tenPower_lt (by omega) hx) (by omega)
    by_cases hzero : x.isZero = true
    · rw [if_neg hup, if_neg hdown, if_pos hzero] at h
      obtain rfl := Option.some.inj h
      cases x with
      | finite negative m => rfl
      | nan | infinite negative => cases hzero
    by_cases hlarge : 0 ≤ e
    · rw [if_neg hup, if_neg hdown, if_neg hzero, if_pos hlarge] at h
      cases h
    rw [if_neg hup, if_neg hdown, if_neg hzero, if_neg hlarge] at h
    have hnext : unitsOf (divUnits (unitsOf x) (tenPower 308)) < pow2 (room + 1) :=
      unitsOf_nearest_lt (div_tenPower_lt (Nat.le_refl 308) hx)
    exact isFinite_of_scale hnext (by omega) h

theorem fill_lt : ∀ {s : Nat} (cs : List Char), s < pow2 64 → (fill s cs).1 < pow2 64
  | _, [], h => h
  | s, c :: cs, h => by
    rw [fill]
    by_cases hnext : 10 * s + (Text.digit? c).getD 0 < pow2 64
    · rw [if_pos hnext]
      exact fill_lt cs hnext
    · rw [if_neg hnext]
      exact h

variable {negative : Bool} {s : Nat} {j : Json}

theorem isFinite_of_float? {e : Int} (hs : s < pow2 64) (h : float? negative s e = some j) :
    j.isFinite = true := by
  obtain ⟨x, hx, rfl⟩ := Option.map_eq_some_iff.mp h
  have hunits : s * one < pow2 (64 + unitPlaces) := by
    rw [one, pow2_add]
    exact Nat.mul_lt_mul_of_pos_right hs (pow2_pos _)
  have hstart : unitsOf (Binary64.ofInt s) < pow2 (65 + unitPlaces) := by
    rw [ofInt, Int.natAbs_natCast]
    exact unitsOf_nearest_lt (by rw [Nat.div_one]; exact hunits)
  have hfinite : x.isFinite = true := isFinite_of_scale hstart (by decide) hx
  rw [isFinite]
  split
  · rw [isFinite_neg, hfinite]
  · exact hfinite

theorem isFinite_of_withExponent {start : Int} {minus : Bool} {digits : List Char}
    (hs : s < pow2 64) (h : withExponent negative s start minus digits = some j) :
    j.isFinite = true := by
  rw [withExponent] at h
  split at h
  · exact isFinite_of_float? hs h
  · split at h
    · cases h
    · obtain rfl := Option.some.inj h
      cases negative <;> rfl

theorem isFinite_wholeNumber (negative : Bool) (hs : s < pow2 64) :
    (wholeNumber negative s).isFinite = true := by
  rw [wholeNumber]
  split
  · rw [isFinite]
    exact isFinite_ofInt (Nat.le_of_lt hs)
  · split
    · rw [isFinite]
      exact isFinite_ofInt (by rw [Int.natAbs_neg]; exact Nat.le_of_lt hs)
    · rw [isFinite, isFinite_neg]
      exact isFinite_ofInt (Nat.le_of_lt hs)

/-- The value of a number is finite, if it has one. -/
theorem isFinite_of_value? {n : Numeral} (h : n.value? = some j) : j.isFinite = true := by
  obtain ⟨negative, whole, fraction, exponent⟩ := n
  have hwhole : (fill 0 whole).1 < pow2 64 := fill_lt whole (by decide)
  cases fraction with
  | none =>
    cases exponent with
    | none =>
      simp only [value?, Option.isNone_none, Bool.true_and] at h
      split at h
      · obtain rfl := Option.some.inj h
        exact isFinite_wholeNumber negative hwhole
      · exact isFinite_of_float? hwhole h
    | some ex => exact isFinite_of_withExponent hwhole h
  | some ds =>
    have hfraction : (fill (fill 0 whole).1 ds).1 < pow2 64 := fill_lt ds hwhole
    cases exponent with
    | none => exact isFinite_of_float? hfraction h
    | some ex => exact isFinite_of_withExponent hfraction h

end Numeral

/-! ### Tokens -/

/-- Is the number of a token finite, if the token is one? -/
def Token.isFinite : Token → Bool
  | .atom j => j.isFinite
  | _ => true

variable {t : Token} {ts : List Token} {cs rest : List Char}

theorem isFinite_of_stringToken (h : stringToken cs = some (t, rest)) : t.isFinite = true := by
  rw [stringToken] at h
  split at h
  · cases h
    rfl
  · obtain ⟨_, _, heq⟩ := Option.map_eq_some_iff.mp h
    cases heq
    rfl

theorem isFinite_of_numberToken {negative : Bool} (h : numberToken negative cs = some (t, rest)) :
    t.isFinite = true := by
  obtain ⟨⟨n, _⟩, _, heq⟩ := Option.map_eq_some_iff.mp h
  dsimp only at heq
  cases hv : n.value? with
  | none =>
    rw [hv] at heq
    cases heq
    rfl
  | some j =>
    rw [hv] at heq
    cases heq
    exact Numeral.isFinite_of_value? hv

theorem isFinite_of_takeToken (h : takeToken cs = some (t, rest)) : t.isFinite = true := by
  unfold takeToken at h
  split at h
  case h_7 => exact isFinite_of_stringToken h
  case h_11 => exact isFinite_of_numberToken h
  case h_12 => exact isFinite_of_numberToken h
  all_goals
    cases h
    rfl

theorem isFinite_of_tokens : ∀ {n : Nat} {cs : List Char} {ts : List Token},
    tokens n cs = some ts → ∀ t ∈ ts, t.isFinite = true
  | 0, _, _, h => by cases h
  | n + 1, cs, ts, h => by
    rw [tokens] at h
    split at h
    · cases h
      intro t ht
      cases ht
    · obtain ⟨⟨t, rest⟩, ht, h⟩ := Option.bind_eq_some_iff.mp h
      obtain ⟨us, hus, h⟩ := Option.bind_eq_some_iff.mp h
      obtain rfl := Option.some.inj h
      exact List.forall_mem_cons.mpr ⟨isFinite_of_takeToken ht, isFinite_of_tokens hus⟩

/-! ### Values -/

/-- What the readers of values do with finite tokens: the value they take and the tokens they leave
are finite. -/
structure TakesFinite (n : Nat) : Prop where
  value : ∀ {depth ts j rest}, (∀ t ∈ ts, Token.isFinite t = true) →
    takeValue n depth ts = some (j, rest) → j.isFinite = true ∧ ∀ t ∈ rest, t.isFinite = true
  items : ∀ {depth ts js rest}, (∀ t ∈ ts, Token.isFinite t = true) →
    takeItems n depth ts = some (js, rest) →
    itemsFinite js = true ∧ ∀ t ∈ rest, t.isFinite = true
  members : ∀ {depth ts ms rest}, (∀ t ∈ ts, Token.isFinite t = true) →
    takeMembers n depth ts = some (ms, rest) →
    membersFinite ms = true ∧ ∀ t ∈ rest, t.isFinite = true

theorem takesFinite : ∀ n, TakesFinite n
  | 0 => by
    refine ⟨?_, ?_, ?_⟩ <;> intro depth ts x rest hts h
    · rw [takeValue] at h
      cases h
    · rw [takeItems] at h
      cases h
    · unfold takeMembers at h
      cases h
  | n + 1 => by
    have ih := takesFinite n
    refine ⟨?_, ?_, ?_⟩
    · intro depth ts j rest hts h
      unfold takeValue at h
      split at h
      case h_1 => cases h
      case h_2 =>
        cases h
        exact List.forall_mem_cons.mp hts
      case h_3 | h_4 =>
        cases h
        exact ⟨rfl, (List.forall_mem_cons.mp (List.forall_mem_cons.mp hts).2).2⟩
      case h_5 hn =>
        obtain rfl := Nat.succ.inj hn
        obtain ⟨⟨items, after⟩, hitems, heq⟩ := Option.map_eq_some_iff.mp h
        cases heq
        exact ih.items (List.forall_mem_cons.mp hts).2 hitems
      case h_6 hn =>
        obtain rfl := Nat.succ.inj hn
        obtain ⟨⟨members, after⟩, hmembers, heq⟩ := Option.map_eq_some_iff.mp h
        cases heq
        exact ih.members (List.forall_mem_cons.mp hts).2 hmembers
      case h_7 => cases h
    · intro depth ts js rest hts h
      rw [takeItems] at h
      obtain ⟨⟨item, after⟩, hitem, h⟩ := Option.bind_eq_some_iff.mp h
      obtain ⟨hj, hafter⟩ := ih.value hts hitem
      dsimp only at h
      split at h
      · cases h
        exact ⟨by rw [itemsFinite, hj]; rfl, (List.forall_mem_cons.mp hafter).2⟩
      · obtain ⟨⟨items, last⟩, hitems, heq⟩ := Option.map_eq_some_iff.mp h
        cases heq
        obtain ⟨hjs, hlast⟩ := ih.items (List.forall_mem_cons.mp hafter).2 hitems
        exact ⟨by rw [itemsFinite, hj, hjs]; rfl, hlast⟩
      · cases h
    · intro depth ts js rest hts h
      unfold takeMembers at h
      split at h
      case h_1 hn =>
        obtain rfl := Nat.succ.inj hn
        obtain ⟨⟨value, after⟩, hvalue, h⟩ := Option.bind_eq_some_iff.mp h
        obtain ⟨hj, hafter⟩ :=
          ih.value (List.forall_mem_cons.mp (List.forall_mem_cons.mp hts).2).2 hvalue
        dsimp only at h
        split at h
        · cases h
          exact ⟨by rw [membersFinite, hj]; rfl, (List.forall_mem_cons.mp hafter).2⟩
        · obtain ⟨⟨members, last⟩, hmembers, heq⟩ := Option.map_eq_some_iff.mp h
          cases heq
          obtain ⟨hjs, hlast⟩ := ih.members (List.forall_mem_cons.mp hafter).2 hmembers
          exact ⟨by rw [membersFinite, hj, hjs]; rfl, hlast⟩
        · cases h
      case h_2 => cases h

/-! ### Whole texts -/

theorem isFinite_of_ofTokens? {j : Json} (hts : ∀ t ∈ ts, t.isFinite = true)
    (h : ofTokens? ts = some j) : j.isFinite = true := by
  rw [ofTokens?] at h
  rcases hv : takeValue (steps ts) maxDepth ts with _ | ⟨value, _ | ⟨t, rest⟩⟩
  · rw [hv] at h
    cases h
  · rw [hv] at h
    obtain rfl := Option.some.inj h
    exact ((takesFinite _).value hts hv).1
  · rw [hv] at h
    cases h

mutual

theorem isFinite_settle : ∀ j : Json, j.isFinite = true → j.settle.isFinite = true
  | .array items => by
    intro h
    rw [isFinite] at h
    rw [settle, isFinite]
    exact itemsFinite_settleItems items h
  | .object members => by
    intro h
    rw [isFinite] at h
    rw [settle, isFinite, membersFinite_eq_true_iff]
    have hms := membersFinite_eq_true_iff.mp (membersFinite_settleMembers members h)
    exact @Entries.forall_mem_putAll Json [] _ (fun j => j.isFinite = true)
      (List.forall_mem_nil _) hms
  | .null => by rw [settle]; exact id
  | .bool _ => by rw [settle]; exact id
  | .int _ => by rw [settle]; exact id
  | .float _ => by rw [settle]; exact id
  | .string _ => by rw [settle]; exact id

theorem itemsFinite_settleItems : ∀ items : List Json, itemsFinite items = true →
    itemsFinite (settleItems items) = true
  | [] => id
  | j :: js => by
    intro h
    obtain ⟨hj, hjs⟩ := Bool.and_eq_true_iff.mp h
    rw [settleItems, itemsFinite, isFinite_settle j hj, itemsFinite_settleItems js hjs]
    rfl

theorem membersFinite_settleMembers : ∀ members : List (String × Json),
    membersFinite members = true → membersFinite (settleMembers members) = true
  | [] => id
  | (_, j) :: ms => by
    intro h
    obtain ⟨hj, hms⟩ := Bool.and_eq_true_iff.mp h
    rw [settleMembers, membersFinite, isFinite_settle j hj, membersFinite_settleMembers ms hms]
    rfl

end

/-- What is read from a text holds finite numbers only. -/
theorem isFinite_of_ofText? {text : String} {j : Json} (h : ofText? text = some j) :
    j.isFinite = true := by
  obtain ⟨raw, hraw, rfl⟩ := Option.map_eq_some_iff.mp h
  obtain ⟨ts, hts, hv⟩ := Option.bind_eq_some_iff.mp hraw
  exact isFinite_settle raw (isFinite_of_ofTokens? (isFinite_of_tokens hts) hv)

/-- An object that is read from a text holds no name twice. -/
theorem nodup_of_ofText? {text : String} {members : List (String × Json)}
    (h : ofText? text = some (.object members)) : (Entries.names members).Nodup := by
  obtain ⟨raw, _, hsettle⟩ := Option.map_eq_some_iff.mp h
  cases raw with
  | object ms =>
    rw [settle] at hsettle
    obtain rfl := Json.object.inj hsettle
    exact @Entries.nodup_names_putAll _ [] List.nodup_nil _
  | _ =>
    rw [settle] at hsettle
    cases hsettle

end ClientRecords.Json
