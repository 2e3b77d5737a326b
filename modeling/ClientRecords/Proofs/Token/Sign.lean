import ClientRecords.Proofs.Token.Scan
/-!
The sign of a number at the start of a text. It belongs to the number where an operand may start and
is a token of its own elsewhere; nothing else depends on what stands before a text
(`scanFrom_false`).
-/

namespace ClientRecords.Token

variable {b : Bool} {c : Char} {t : Token} {n : String} {cs rest : List Char} {ts : List Token}

/-- The tokens with the sign of a number at their start taken for a token of its own. -/
def parted : List Token → List Token
  | .number n :: ts =>
    match n.toList with
    | '-' :: ds => .other '-' :: .number (String.ofList ds) :: ts
    | _ => .number n :: ts
  | ts => ts

theorem parted_signed (ds : List Char) (ts : List Token) :
    parted (.number (String.ofList ('-' :: ds)) :: ts)
      = .other '-' :: .number (String.ofList ds) :: ts := by
  rw [parted, String.toList_ofList]
  rfl

theorem parted_of_ne (h : ∀ n, t = .number n → n.toList.head? ≠ some '-') :
    parted (t :: ts) = t :: ts := by
  generalize hx : t :: ts = x
  fun_cases parted x with
  | case1 n us ds he =>
    cases hx
    exact absurd (by rw [he]; rfl) (h n rfl)
  | case2 | case3 => rfl

/-- A list stays as it is, or the sign of the number that it starts with goes before it. -/
theorem parted_cases (ts : List Token) : parted ts = ts ∨
    ∃ ds us, ts = .number (String.ofList ('-' :: ds)) :: us ∧
      parted ts = .other '-' :: .number (String.ofList ds) :: us := by
  cases ts with
  | nil => exact .inl rfl
  | cons t ts =>
    by_cases hn : ∃ ds, t = .number (String.ofList ('-' :: ds))
    · obtain ⟨ds, rfl⟩ := hn
      exact .inr ⟨ds, ts, rfl, parted_signed ds ts⟩
    · refine .inl (parted_of_ne ?_)
      rintro n rfl hd
      obtain ⟨ds, hds⟩ := List.head?_eq_some_iff.mp hd
      exact hn ⟨ds, by rw [← hds, String.ofList_toList]⟩

theorem take?_of_not_signed (h : ¬(c = '-' ∧ startsDigit cs = true)) :
    take? true (c :: cs) = take? false (c :: cs) := by
  by_cases hc : c = '-'
  · subst hc
    rw [take?, take?, if_neg (by simpa using h), if_neg (by simp)]
  · generalize hx : c :: cs = x
    fun_cases take? true x
    -- only the cases of a hyphen ask whether an operand may stand here
    case case18 | case19 => cases hx; exact absurd rfl hc
    all_goals
      cases hx
      first | rfl | (rw [take?]; all_goals assumption)

theorem head?_takeNumber (hd : c.isDigit = true) : (takeNumber (c :: cs)).1.head? = some c := by
  unfold takeNumber
  rw [List.takeWhile_cons_of_pos hd]
  split
  · split <;> rfl
  · rfl

theorem number_of_takePlain (h : takePlain (c :: cs) = some (.number n, rest)) :
    n.toList.head? ≠ some '-' := by
  generalize hx : c :: cs = x at h
  fun_cases takePlain x with
  | case1 => cases hx
  | case2 => cases h
  | case3 c cs hp hd m after hm =>
    rw [takePlain, if_pos hd, hm] at h
    · cases h
      have hh : (takeNumber (c :: cs)).1.head? = some c := head?_takeNumber hd
      rw [hm] at hh
      rw [String.toList_ofList, hh]
      rintro ⟨⟩
      exact absurd hd (by decide)
    · exact hp
  | case4 c cs hp hd hw w after hm =>
    rw [takePlain, if_neg hd, if_pos hw] at h
    · cases h
    · exact hp
  | case5 c cs hp hd hw =>
    rw [takePlain, if_neg hd, if_neg hw] at h
    · cases h
    · exact hp

/-- A number that takes no sign starts with a digit. -/
theorem number_of_take_false (h : take? false (c :: cs) = some (.number n, rest)) :
    n.toList.head? ≠ some '-' := by
  generalize hx : c :: cs = x at h
  unfold take? at h
  split at h
  case h_1 | h_2 | h_3 =>
    obtain ⟨_, _, he⟩ := Option.map_eq_some_iff.mp h
    cases he
  case h_19 => subst hx; exact number_of_takePlain h
  all_goals cases h

theorem scanFrom_signed (hs : skip false cs = '-' :: c :: rest) (hc : c.isDigit = true) :
    scanFrom false cs = (scanFrom true cs).map parted := by
  have hsign : take? false ('-' :: c :: rest) = some (.other '-', c :: rest) := rfl
  have hsigned : take? true ('-' :: c :: rest)
      = some (.number (String.ofList ('-' :: (takeNumber (c :: rest)).1)),
        (takeNumber (c :: rest)).2) := by
    rw [take?, Bool.true_and, startsDigit, if_pos hc]
  obtain ⟨hsep, hm⟩ := not_separator_of_wordChar (isWordChar_of_digit hc)
  have hskip : skip false (c :: rest) = c :: rest :=
    skip_of_not_separator hsep fun h => absurd h hm
  rw [scanFrom_of_take hs hsign, scanFrom_of_take hs hsigned,
    scanFrom_of_take hskip (take?_digit hc), Option.map_map, Option.map_map]
  exact Option.map_congr fun us _ => (parted_signed _ us).symm

/-- Where no operand may start, only a sign makes a difference. -/
theorem scanFrom_false (cs : List Char) : scanFrom false cs = (scanFrom true cs).map parted := by
  cases hs : skip false cs with
  | nil => rw [scanFrom_of_skip_nil hs, scanFrom_of_skip_nil hs]; rfl
  | cons c rest =>
    by_cases hc : c = '-' ∧ startsDigit rest = true
    · obtain ⟨rfl, hd⟩ := hc
      cases rest with
      | nil => cases hd
      | cons d ds => exact scanFrom_signed hs hd
    · have he := take?_of_not_signed hc
      cases ht : take? false (c :: rest) with
      | none =>
        rw [scanFrom_of_take_none hs ht, scanFrom_of_take_none hs (he.trans ht)]
        rfl
      | some r =>
        obtain ⟨t, after⟩ := r
        rw [scanFrom_of_take hs ht, scanFrom_of_take hs (he.trans ht), Option.map_map]
        refine Option.map_congr fun us _ => (parted_of_ne fun n hn => ?_).symm
        subst hn
        exact number_of_take_false ht

end ClientRecords.Token
