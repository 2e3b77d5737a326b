import ClientRecords.Proofs.Token.Nesting
import ClientRecords.Statement.Reader
/-!
The reader of statements: what is left of the tokens, which reader they are handed to, and how they
are laid out if it takes them. Each reader has a relation of its own, with the parts of its
statement in the order in which they stand (`ReadsInsert`, `ReadsUpdate`, `ReadsDelete`).
-/

namespace ClientRecords

/-! ### Steps that may fail -/

section

variable {ε α β : Type} {e : ε} {b : β}

theorem exists_of_bind_eq_ok {x : Except ε α} {f : α → Except ε β} (h : (x >>= f) = .ok b) :
    ∃ a, x = .ok a ∧ f a = .ok b := by
  cases x with
  | error e => cases h
  | ok a => exact ⟨a, rfl, h⟩

/-- A check that something be there is passed. -/
theorem of_check_eq_ok {c : Bool} {x : Except ε β} (h : (if !c then .error e else x) = .ok b) :
    c = true ∧ x = .ok b := by
  cases c with
  | false => cases h
  | true => exact ⟨rfl, h⟩

end

namespace OpenStatement

/-- Only the semicolons behind the last token that is none are dropped. -/
theorem trimSemicolons_append {hs : List Token} (hne : hs ≠ []) (hl : hs.getLast hne ≠ .semicolon)
    (ts : List Token) : trimSemicolons (hs ++ ts) = hs ++ trimSemicolons ts := by
  have hhs : hs.reverse.dropWhile (· == .semicolon) = hs.reverse := by
    obtain ⟨l, t, rfl⟩ : ∃ l t, hs = l ++ [t] := ⟨_, _, (List.dropLast_concat_getLast hne).symm⟩
    rw [List.getLast_concat] at hl
    rw [List.reverse_append, List.reverse_singleton, List.singleton_append,
      List.dropWhile_cons_of_neg (by simpa using hl)]
  rw [trimSemicolons, trimSemicolons, List.reverse_append, List.dropWhile_append, hhs]
  cases ts.reverse.dropWhile (· == .semicolon) <;> simp

theorem trimSemicolons_of_getLast? {ts : List Token} (h : ts.getLast? ≠ some .semicolon) :
    trimSemicolons ts = ts := by
  cases ts with
  | nil => rfl
  | cons t ts =>
    have hlast : (t :: ts).getLast (List.cons_ne_nil t ts) ≠ .semicolon := fun he =>
      h (by rw [List.getLast?_eq_some_getLast (List.cons_ne_nil t ts), he])
    have htrim := trimSemicolons_append (List.cons_ne_nil t ts) hlast []
    rw [List.append_nil] at htrim
    exact htrim.trans (List.append_nil _)

theorem exists_append_trimSemicolons (ts : List Token) :
    ∃ rest, ts = trimSemicolons ts ++ rest := by
  refine ⟨(ts.reverse.takeWhile (· == .semicolon)).reverse, ?_⟩
  rw [trimSemicolons, ← List.reverse_append, List.takeWhile_append_dropWhile, List.reverse_reverse]

theorem ofText_of_scan {source : String} {tokens : List Token}
    (h : Token.scan? (Text.collapse source) = some tokens) : ofText source =
      if startsWith .insert (trimSemicolons tokens) then readInsert (trimSemicolons tokens)
      else if startsWith .update (trimSemicolons tokens) then readUpdate (trimSemicolons tokens)
      else if startsWith .delete (trimSemicolons tokens) then readDelete (trimSemicolons tokens)
      else .ok (.select (Text.collapse source)) := by
  simp only [ofText, h]

/-! ### Lists that are read -/

/-- The items of a list of values, one after the other, with what is read from them. -/
inductive ReadsSources : Nat → List (List Token) → List FieldSource → Prop
  | nil {next : Nat} : ReadsSources next [] []
  | param {next : Nat} {items : List (List Token)} {xs : List FieldSource}
      (hr : ReadsSources (next + 1) items xs) :
      ReadsSources next ([.placeholder] :: items) (.operand (.param next) :: xs)
  | stamp {next : Nat} {t : Token} {items : List (List Token)} {xs : List FieldSource}
      (ht : t.is .currentTimestamp = true) (hr : ReadsSources next items xs) :
      ReadsSources next ([t] :: items) (.stamp :: xs)
  | literal {next : Nat} {t : Token} {v : Value} {items : List (List Token)}
      {xs : List FieldSource} (ht : t.literal? = some v) (hr : ReadsSources next items xs) :
      ReadsSources next ([t] :: items) (.operand (.literal v) :: xs)

theorem readsSources_of_sources? {next : Nat} {items : List (List Token)} {xs : List FieldSource}
    (h : sources? next items = some xs) : ReadsSources next items xs := by
  fun_induction sources? next items generalizing xs
  case case1 =>
    obtain rfl := Option.some.inj h
    exact .nil
  case case2 next items ih =>
    obtain ⟨ys, hys, rfl⟩ := Option.map_eq_some_iff.mp h
    exact .param (ih hys)
  case case3 next t items _ _ ht ih =>
    obtain ⟨x, hx, h⟩ := Option.bind_eq_some_iff.mp h
    obtain ⟨ys, hys, h⟩ := Option.bind_eq_some_iff.mp h
    obtain rfl := Option.some.inj hx
    obtain rfl := Option.some.inj h
    exact .stamp ht (ih hys)
  case case4 next t items _ _ _ ih =>
    obtain ⟨x, hx, h⟩ := Option.bind_eq_some_iff.mp h
    obtain ⟨ys, hys, h⟩ := Option.bind_eq_some_iff.mp h
    obtain ⟨v, hv, rfl⟩ := Option.map_eq_some_iff.mp hx
    obtain rfl := Option.some.inj h
    exact .literal hv (ih hys)
  case case5 => cases h

/-- Assignments, one after the other, with what is read from them. One that mentions the current
time is left out, whatever else it holds, and takes no parameter. -/
inductive ReadsAssignments : Nat → List (List Token) → List (String × Operand) → Nat → Prop
  | nil {next : Nat} : ReadsAssignments next [] [] next
  | leftOut {next last : Nat} {f : String} {value : List Token} {parts : List (List Token)}
      {xs : List (String × Operand)} (hv : value.any (·.is .currentTimestamp) = true)
      (hr : ReadsAssignments next parts xs last) :
      ReadsAssignments next ((.word f :: .comparison .eq :: value) :: parts) xs last
  | param {next last : Nat} {f : String} {parts : List (List Token)}
      {xs : List (String × Operand)} (hr : ReadsAssignments (next + 1) parts xs last) :
      ReadsAssignments next ([.word f, .comparison .eq, .placeholder] :: parts)
        ((Token.bareField f, .param next) :: xs) last
  | literal {next last : Nat} {f : String} {t : Token} {v : Value} {parts : List (List Token)}
      {xs : List (String × Operand)} (ht : t.literal? = some v)
      (hr : ReadsAssignments next parts xs last) :
      ReadsAssignments next ([.word f, .comparison .eq, t] :: parts)
        ((Token.bareField f, .literal v) :: xs) last

theorem readsAssignments_of_readAssignments {all : List Token} {next last : Nat}
    {parts : List (List Token)} {xs : List (String × Operand)}
    (h : readAssignments all next parts = .ok (xs, last)) :
    ReadsAssignments next parts xs last := by
  fun_induction readAssignments all next parts generalizing xs last with
  | case1 =>
    cases h
    exact .nil
  | case2 next f t ts rest hv ih => exact .leftOut hv (ih h)
  | case3 next f rest _ ih =>
    cases hrest : readAssignments all (next + 1) rest with
    | error e =>
      rw [hrest] at h
      cases h
    | ok r =>
      rw [hrest] at h
      cases h
      exact .param (ih hrest)
  | case4 next f rest t _ v hv _ ih =>
    cases hrest : readAssignments all next rest with
    | error e =>
      rw [hrest] at h
      cases h
    | ok r =>
      rw [hrest] at h
      cases h
      exact .literal hv (ih hrest)
  | case5 | case6 | case7 => cases h

/-! ### What is read -/

theorem exists_of_startsWith {k : Keyword} {ts : List Token} (h : startsWith k ts = true) :
    ∃ t us, ts = t :: us ∧ t.is k = true := by
  cases ts with
  | nil => cases h
  | cons t us => exact ⟨t, us, rfl, h⟩

theorem exists_of_table? {ts : List Token} {name : String} (h : table? ts = some name) :
    ∃ w us, ts = .word w :: us ∧ name = Text.lowercase w := by
  cases ts with
  | nil => cases h
  | cons t us =>
    cases t with
    | word w => exact ⟨w, us, rfl, (Option.some.inj h).symm⟩
    | _ => cases h

/-- The words between `INSERT` and `INTO`. -/
inductive Modifier : Bool → List Token → Prop
  | none : Modifier false []
  | orIgnore {o i : Token} (ho : o.is .or = true) (hi : i.is .ignore = true) : Modifier true [o, i]

theorem exists_of_takeModifier {all ts rest : List Token} {orIgnore : Bool}
    (h : takeModifier all ts = .ok (orIgnore, rest)) :
    ∃ modifier, Modifier orIgnore modifier ∧ ts = modifier ++ rest := by
  rw [takeModifier] at h
  by_cases ho : startsWith .or ts = true
  · rw [if_pos ho] at h
    obtain ⟨o, us, rfl, ho⟩ := exists_of_startsWith ho
    cases hi : startsWith .ignore us with
    | false =>
      rw [List.tail_cons, hi] at h
      cases h
    | true =>
      rw [List.tail_cons, hi] at h
      cases h
      obtain ⟨i, vs, rfl, hi⟩ := exists_of_startsWith hi
      exact ⟨[o, i], .orIgnore ho hi, rfl⟩
  · rw [if_neg ho] at h
    cases h
    exact ⟨[], .none, rfl⟩

/-- An insert: the words up to its table, its columns and its items within parentheses, and tokens
that are not looked at. -/
inductive ReadsInsert (all : List Token) : OpenStatement → Prop
  | mk {i n v : Token} {modifier columnTokens values itemTokens rest : List Token}
      {orIgnore : Bool} {w : String} {columns : List String}
      (hall : all = i :: (modifier ++
        n :: .word w :: .openParen :: (columnTokens ++ .closeParen :: v :: values)))
      (hi : i.is .insert = true) (hm : Modifier orIgnore modifier) (hn : n.is .into = true)
      (hp : Token.parenthesised? (.openParen :: (columnTokens ++ .closeParen :: v :: values))
        = some (columnTokens, v :: values))
      (hc : (Token.splitCommas columnTokens).mapM column? = some columns)
      (hv : v.is .values = true)
      (hq : Token.parenthesised? values = some (itemTokens, rest)) :
      ReadsInsert all (.insert (Text.lowercase w) orIgnore
        (fieldSources columns (Token.splitCommas itemTokens)))

theorem readsInsert_of_readInsert {all : List Token} {s : OpenStatement}
    (hi : startsWith .insert all = true) (h : readInsert all = .ok s) : ReadsInsert all s := by
  obtain ⟨i, ts, rfl, hi⟩ := exists_of_startsWith hi
  unfold readInsert at h
  obtain ⟨⟨orIgnore, ts⟩, hm, h⟩ := exists_of_bind_eq_ok h
  obtain ⟨modifier, hmodifier, rfl⟩ := exists_of_takeModifier hm
  simp only [Bind.bind, Except.bind, Pure.pure, Except.pure] at h
  obtain ⟨hn, h⟩ := of_check_eq_ok h
  obtain ⟨n, ts, rfl, hn⟩ := exists_of_startsWith hn
  rcases ht : table? ts with _ | name
  · simp only [List.tail_cons, ht] at h
    cases h
  simp only [List.tail_cons, ht] at h
  obtain ⟨w, ts, rfl, rfl⟩ := exists_of_table? ht
  rcases hp : Token.parenthesised? ts with _ | ⟨columnTokens, ts⟩
  · simp only [List.drop_succ_cons, List.drop_zero, hp] at h
    cases h
  simp only [List.drop_succ_cons, List.drop_zero, hp] at h
  obtain rfl := Token.eq_of_parenthesised? hp
  rcases hc : (Token.splitCommas columnTokens).mapM column? with _ | columns
  · simp only [hc] at h
    cases h
  simp only [hc] at h
  obtain ⟨hv, h⟩ := of_check_eq_ok h
  obtain ⟨v, values, rfl, hv⟩ := exists_of_startsWith hv
  rcases hq : Token.parenthesised? values with _ | ⟨itemTokens, rest⟩
  · simp only [List.tail_cons, hq] at h
    cases h
  simp only [List.tail_cons, hq] at h
  cases h
  exact .mk rfl hi hmodifier hn hp hc hv hq

/-- An update: the words up to its assignments, and the word before its clause with the clause, if
it has one. -/
inductive ReadsUpdate (all : List Token) : OpenStatement → Prop
  | mk {u s : Token} {w : String} {ts set rest : List Token}
      {assignments : List (String × Operand)} {next : Nat}
      (hall : all = u :: .word w :: s :: ts) (hu : u.is .update = true) (hs : s.is .set = true)
      (hb : Token.breakTopLevel (·.is .where) ts = (set, rest))
      (hr : ReadsAssignments 0 (Token.splitCommas set) assignments next) :
      ReadsUpdate all (.update (Text.lowercase w) assignments (Clause.ofTokens next rest.tail))

theorem readsUpdate_of_readUpdate {all : List Token} {s : OpenStatement}
    (hu : startsWith .update all = true) (h : readUpdate all = .ok s) : ReadsUpdate all s := by
  obtain ⟨u, ts, rfl, hu⟩ := exists_of_startsWith hu
  unfold readUpdate at h
  simp only [Bind.bind, Except.bind, Pure.pure, Except.pure] at h
  rcases ht : table? ts with _ | name
  · rw [List.tail_cons, ht] at h
    cases h
  rw [List.tail_cons, ht] at h
  obtain ⟨w, ts, rfl, rfl⟩ := exists_of_table? ht
  obtain ⟨hs, h⟩ := of_check_eq_ok h
  obtain ⟨s, ts, rfl, hs⟩ := exists_of_startsWith hs
  by_cases hset : (Token.breakTopLevel (·.is .where) ts).1.isEmpty = true
  · simp only [List.drop_succ_cons, List.drop_zero, hset, if_true] at h
    cases h
  · simp only [List.drop_succ_cons, List.drop_zero, hset] at h
    obtain ⟨⟨assignments, next⟩, hread, h⟩ := exists_of_bind_eq_ok h
    cases h
    exact .mk rfl hu hs rfl (readsAssignments_of_readAssignments hread)

/-- A delete: the words up to its table, with the word before its clause and the clause behind it,
if it has one. -/
inductive ReadsDelete (all : List Token) : OpenStatement → Prop
  | all {d f : Token} {w : String} (hall : all = [d, f, .word w]) :
      ReadsDelete all (.delete (Text.lowercase w) .always)
  | clause {d f v : Token} {w : String} {ts : List Token}
      (hall : all = d :: f :: .word w :: v :: ts)
      (hd : d.is .delete = true) (hf : f.is .from = true) (hv : v.is .where = true) :
      ReadsDelete all (.delete (Text.lowercase w) (Clause.ofTokens 0 ts))

theorem readsDelete_of_readDelete {all : List Token} {s : OpenStatement}
    (hd : startsWith .delete all = true) (h : readDelete all = .ok s) : ReadsDelete all s := by
  obtain ⟨d, ts, rfl, hd⟩ := exists_of_startsWith hd
  unfold readDelete at h
  simp only [pure, Except.pure] at h
  obtain ⟨hf, h⟩ := of_check_eq_ok h
  obtain ⟨f, ts, rfl, hf⟩ := exists_of_startsWith hf
  rcases ht : table? ts with _ | name
  · rw [List.drop_succ_cons, List.drop_one, List.tail_cons, ht] at h
    cases h
  rw [List.drop_succ_cons, List.drop_one, List.tail_cons, ht] at h
  obtain ⟨w, ts, rfl, rfl⟩ := exists_of_table? ht
  cases ts with
  | nil =>
    cases h
    exact .all rfl
  | cons v ts =>
    simp only [List.drop_succ_cons, List.drop_zero] at h
    cases hv : v.is .where with
    | false =>
      rw [hv] at h
      cases h
    | true =>
      rw [hv] at h
      cases h
      exact .clause rfl hd hf hv

/-- A statement, by the word that its tokens start with. -/
inductive Reads (text : String) (all : List Token) : OpenStatement → Prop
  | insert {s : OpenStatement} (h : ReadsInsert all s) : Reads text all s
  | update {s : OpenStatement} (h : ReadsUpdate all s) : Reads text all s
  | delete {s : OpenStatement} (h : ReadsDelete all s) : Reads text all s
  | select (h : ∀ k ∈ [Keyword.insert, .update, .delete], startsWith k all = false) :
      Reads text all (.select text)

theorem exists_of_ofText {source : String} {s : OpenStatement} (h : ofText source = .ok s) :
    ∃ tokens, Token.scan? (Text.collapse source) = some tokens ∧
      Reads (Text.collapse source) (trimSemicolons tokens) s := by
  cases hscan : Token.scan? (Text.collapse source) with
  | none =>
    simp only [ofText, hscan] at h
    cases h
  | some tokens =>
    refine ⟨tokens, rfl, ?_⟩
    rw [ofText_of_scan hscan] at h
    by_cases hi : startsWith .insert (trimSemicolons tokens) = true
    · rw [if_pos hi] at h
      exact .insert (readsInsert_of_readInsert hi h)
    by_cases hu : startsWith .update (trimSemicolons tokens) = true
    · rw [if_neg hi, if_pos hu] at h
      exact .update (readsUpdate_of_readUpdate hu h)
    by_cases hd : startsWith .delete (trimSemicolons tokens) = true
    · rw [if_neg hi, if_neg hu, if_pos hd] at h
      exact .delete (readsDelete_of_readDelete hd h)
    rw [if_neg hi, if_neg hu, if_neg hd] at h
    cases h
    exact .select (by simp [hi, hu, hd])

end OpenStatement
end ClientRecords
