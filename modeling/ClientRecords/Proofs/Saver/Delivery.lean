import ClientRecords.Database
import ClientRecords.Proofs.Files
import ClientRecords.Saver
/-!
Savers and the requests on their way to them. Requests are received in the order in which they were
sent, the delay may end at any time, and the surroundings decide of every attempt to write whether
it succeeds; an attempt takes the whole state or leaves the place as it was (`Atomic`). Whatever the
order of all this, the counts add up, the place never goes back to an older state, and an
acknowledgement says what the place holds (`SaveLine.run_faithful`).
-/

namespace ClientRecords

variable {α β σ : Type} {content : σ → β} {image : α → β}

namespace Saver

/-- What lies at a place is the image of the state that was written, or it is as before. -/
structure Atomic (content : σ → β) (image : α → β) (put : α → σ → Bool × σ) : Prop where
  stored : ∀ x place, (put x place).1 = true → content (put x place).2 = image x
  kept : ∀ x place, (put x place).1 = false → content (put x place).2 = content place

/-- Every state was written, replaced by a newer one, or is still held. -/
def Counted (s : Saver α) : Prop :=
  s.stats.snapshots = s.stats.writes + s.stats.coalesced + if s.dirty.isSome then 1 else 0

/-- A saver and its place after some states, `newest` being the last of them. -/
structure Sound (content : σ → β) (image : α → β) (newest : Option α) (s : Saver α) (place : σ) :
    Prop where
  counted : s.Counted
  failed : s.stats.lastFailed = true → s.dirty.isSome = true
  held : ∀ x, s.dirty = some x → newest = some x
  clean : s.dirty = none → ∀ x, newest = some x → content place = image x

/-- What one event does to a saver and its place: the place changes only by a write of the newest
state, and an acknowledgement tells whether nothing is held any more. -/
structure Handled (content : σ → β) (image : α → β) (newest : Option α) (s : Saver α) (place : σ)
    (ack : Option Bool) (next : Saver α) (after : σ) : Prop where
  sound : Sound content image newest next after
  written : next.stats.writes = s.stats.writes ∧ content after = content place ∨
    next.stats.writes = s.stats.writes + 1 ∧ ∃ x, newest = some x ∧ content after = image x
  done : ack = some true → next.dirty = none
  refused : ack = some false → content after = content place ∧ next.dirty.isSome = true

/-- The newest state after an event. -/
def newestAfter (newest : Option α) : SaveEvent α → Option α
  | .snapshot x => some x
  | _ => newest

variable {newest : Option α} {s next : Saver α} {place after : σ} {put : α → σ → Bool × σ}
  {ack : Option Bool}

theorem sound_idle (place : σ) : Sound content image none (idle : Saver α) place :=
  ⟨rfl, nofun, nofun, nofun⟩

/-- A new state takes the place of the one that is held. -/
theorem Sound.schedule (h : Sound content image newest s place) (x : α) :
    Sound content image (some x) (s.schedule x) place where
  counted := by
    have hcount := h.counted
    unfold Counted at hcount ⊢
    simp only [Saver.schedule, Option.isSome_some, if_true]
    omega
  failed _ := rfl
  held _ hx := hx
  clean hn := nomatch hn

/-- What an attempt to write does. -/
theorem Sound.write (h : Sound content image newest s place) (hput : Atomic content image put) :
    Handled content image newest s place (some (s.write put place).1) (s.write put place).2.1
      (s.write put place).2.2 := by
  have hcount := h.counted
  unfold Counted at hcount
  cases hd : s.dirty with
  | none =>
    have hw : s.write put place = (true, s, place) := by simp only [Saver.write, hd]
    rw [hw]
    exact ⟨h, .inl ⟨rfl, rfl⟩, fun _ => hd, nofun⟩
  | some x =>
    have hnew := h.held x hd
    rw [hd, Option.isSome_some, if_pos rfl] at hcount
    obtain ⟨ok, after, hp⟩ : ∃ ok after, put x place = (ok, after) := ⟨_, _, rfl⟩
    cases ok with
    | true =>
      have hafter : content after = image x := by simpa [hp] using hput.stored x place
      simp only [Saver.write, hd, hp]
      refine ⟨⟨?_, nofun, nofun, ?_⟩, .inr ⟨rfl, x, hnew, hafter⟩, fun _ => rfl, nofun⟩
      · simp only [Counted, Option.isSome_none, Bool.false_eq_true, if_false]
        omega
      · rintro - y hy
        rw [hnew] at hy
        cases hy
        exact hafter
    | false =>
      have hafter : content after = content place := by simpa [hp] using hput.kept x place
      have hsome : s.dirty.isSome = true := by rw [hd]; rfl
      simp only [Saver.write, hd, hp]
      refine ⟨⟨?_, fun _ => rfl, ?_, nofun⟩, .inl ⟨rfl, hafter⟩, nofun, fun _ => ⟨hafter, rfl⟩⟩
      · simp only [Counted, Option.isSome_some, if_true]
        omega
      · rintro y hy
        cases hy
        exact hnew

/-- Nobody waits for the outcome. -/
theorem Handled.silent (h : Handled content image newest s place ack next after) :
    Handled content image newest s place none next after :=
  ⟨h.sound, h.written, nofun, nofun⟩

/-- All that an event does to a saver. -/
theorem Sound.step (h : Sound content image newest s place) (hput : Atomic content image put)
    (hs : s.stopped = false) (e : SaveEvent α) :
    Handled content image (newestAfter newest e) s place (s.step put place e).1
      (s.step put place e).2.1 (s.step put place e).2.2 := by
  have hidle : Sound content image newest { s with armed := false } place :=
    ⟨h.counted, h.failed, h.held, h.clean⟩
  have hflush := hidle.write hput
  have hwrite := h.write hput
  have hstop : Handled content image newest s place (some (s.stop put place).1)
      (s.stop put place).2.1 (s.stop put place).2.2 :=
    ⟨⟨hwrite.sound.counted, hwrite.sound.failed, hwrite.sound.held, hwrite.sound.clean⟩,
      hwrite.written, hwrite.done, hwrite.refused⟩
  have hflushed : Handled content image newest s place (some (s.flush put place).1)
      (s.flush put place).2.1 (s.flush put place).2.2 :=
    ⟨hflush.sound, hflush.written, hflush.done, hflush.refused⟩
  unfold Saver.step
  rw [if_neg (by simp [hs])]
  cases e with
  | snapshot x => exact ⟨h.schedule x, .inl ⟨rfl, rfl⟩, nofun, nofun⟩
  | expiry =>
    simp only [expire]
    split
    · exact hflushed.silent
    · exact ⟨h, .inl ⟨rfl, rfl⟩, nofun, nofun⟩
  | flush => exact hflushed
  | shutdown => exact hstop
  | closed => exact hstop.silent

/-- The requests to flush and to stop are acknowledged, and nothing else is. -/
theorem isSome_step (s : Saver α) (put : α → σ → Bool × σ) (place : σ) (e : SaveEvent α) :
    (s.step put place e).1.isSome = true ↔ s.stopped = false ∧ (e = .flush ∨ e = .shutdown) := by
  cases hs : s.stopped <;> cases e <;> simp [Saver.step, hs]

theorem stopped_write (s : Saver α) (put : α → σ → Bool × σ) (place : σ) :
    (s.write put place).2.1.stopped = s.stopped := by
  unfold Saver.write
  split
  · rfl
  · split <;> rfl

/-- A saver that is told to flush goes on. -/
theorem stopped_step_flush (s : Saver α) (put : α → σ → Bool × σ) (place : σ) :
    (s.step put place .flush).2.1.stopped = s.stopped := by
  unfold Saver.step
  split
  · rfl
  · exact stopped_write _ put place

end Saver

/-! ### Requests on their way -/

/-- What is sent to a saver. -/
inductive SaveRequest (α : Type) where
  | snapshot (x : α)
  | flush
  | shutdown
  deriving DecidableEq

namespace SaveRequest

def event : SaveRequest α → SaveEvent α
  | .snapshot x => .snapshot x
  | .flush => .flush
  | .shutdown => .shutdown

/-- The state that a request hands over. -/
def state? : SaveRequest α → Option α
  | .snapshot x => some x
  | _ => none

/-- The newest state among requests. -/
def newest (rs : List (SaveRequest α)) : Option α := (rs.filterMap state?).getLast?

theorem newest_concat (rs : List (SaveRequest α)) (r : SaveRequest α) :
    newest (rs ++ [r]) = Saver.newestAfter (newest rs) r.event := by
  cases r <;> simp [newest, state?, event, Saver.newestAfter]

end SaveRequest

/-- A saver, the place that it writes to, and the line to it: all requests that were ever sent and
the number of those received. The others are on their way. -/
structure SaveLine (α σ : Type) where
  sent : List (SaveRequest α)
  received : Nat
  closed : Bool
  saver : Saver α
  place : σ

/-- What happens next: a request is sent or the line closed; the next request is received, the delay
ends, or the saver finds the line closed. The surroundings choose how a state is put then. -/
inductive SaveAction (α σ : Type) where
  | send (r : SaveRequest α)
  | close
  | receive (put : α → σ → Bool × σ)
  | expire (put : α → σ → Bool × σ)
  | hangUp (put : α → σ → Bool × σ)

/-- Is the state put as a whole or not at all? -/
def SaveAction.Atomic (content : σ → β) (image : α → β) : SaveAction α σ → Prop
  | .send _ | .close => True
  | .receive put | .expire put | .hangUp put => Saver.Atomic content image put

namespace SaveLine

def start (place : σ) : SaveLine α σ := ⟨[], 0, false, .idle, place⟩

/-- Hands an event to the saver. -/
def handle (l : SaveLine α σ) (put : α → σ → Bool × σ) (e : SaveEvent α) :
    Option Bool × SaveLine α σ :=
  let (ack, saver, place) := l.saver.step put l.place e
  (ack, { l with saver := saver, place := place })

/-- The line after an action, and the acknowledgement that the saver gives. Nothing is sent on a
closed line, and a saver that has stopped receives nothing more. -/
def act (l : SaveLine α σ) : SaveAction α σ → Option Bool × SaveLine α σ
  | .send r => (none, if l.closed then l else { l with sent := l.sent ++ [r] })
  | .close => (none, { l with closed := true })
  | .receive put =>
    match l.sent[l.received]? with
    | some r =>
      if l.saver.stopped then (none, l)
      else { l with received := l.received + 1 }.handle put r.event
    | none => (none, l)
  | .expire put => l.handle put .expiry
  | .hangUp put =>
    if l.closed && l.received == l.sent.length then l.handle put .closed else (none, l)

/-- The line after some actions. -/
def after (l : SaveLine α σ) (actions : List (SaveAction α σ)) : SaveLine α σ :=
  actions.foldl (fun l a => (l.act a).2) l

/-- A new line after some actions. -/
def run (place : σ) (actions : List (SaveAction α σ)) : SaveLine α σ := (start place).after actions

/-- The newest state among the requests received. -/
def newest (l : SaveLine α σ) : Option α := SaveRequest.newest (l.sent.take l.received)

/-- The request that is received next. -/
def next? (l : SaveLine α σ) : Option (SaveRequest α) := l.sent[l.received]?

/-- Is the next request one to flush or to stop? -/
def AsksNext (l : SaveLine α σ) : Prop := l.next? = some .flush ∨ l.next? = some .shutdown

/-- The place holds the newest state of the first `n` requests that were sent, or, if they hand over
none, what it held before. -/
def HoldsFirst (content : σ → β) (image : α → β) (before : β) (n : Nat) (l : SaveLine α σ) : Prop :=
  content l.place = ((SaveRequest.newest (l.sent.take n)).map image).getD before

/-- What an action does to the saver and the place, and what its acknowledgement means. -/
structure Kept (content : σ → β) (image : α → β) (l : SaveLine α σ) (a : SaveAction α σ) :
    Prop where
  written : (l.act a).2.saver.stats.writes ≠ l.saver.stats.writes →
    ∃ x, (l.act a).2.newest = some x ∧ content (l.act a).2.place = image x
  unwritten : (l.act a).2.saver.stats.writes = l.saver.stats.writes →
    content (l.act a).2.place = content l.place
  done : (l.act a).1 = some true → l.AsksNext ∧
    (l.act a).2.saver.dirty = none ∧ ∀ x, l.newest = some x → content (l.act a).2.place = image x
  refused : (l.act a).1 = some false → l.AsksNext ∧
    content (l.act a).2.place = content l.place ∧
    (l.next? = some .flush → ∃ x, l.newest = some x ∧ (l.act a).2.saver.dirty = some x ∧
      (l.act a).2.saver.stopped = false)
  answered : ∀ put, a = .receive put → l.saver.stopped = false →
    l.AsksNext → (l.act a).1.isSome = true

/-- What is promised of a saver after some actions, and of whatever comes next. -/
structure Faithful (content : σ → β) (image : α → β) (place : σ) (actions : List (SaveAction α σ)) :
    Prop where
  counted : (run place actions).saver.Counted
  failed : (run place actions).saver.stats.lastFailed = true →
    (run place actions).saver.dirty.isSome = true
  ordered : ∀ k, ∃ m n, m ≤ n ∧ n ≤ (run place actions).received ∧
    HoldsFirst content image (content place) m (run place (actions.take k)) ∧
    HoldsFirst content image (content place) n (run place actions)
  next : ∀ a, a.Atomic content image → Kept content image (run place actions) a

/-- The saver knows the requests received, and nothing was received that was not sent. -/
structure Sound (content : σ → β) (image : α → β) (l : SaveLine α σ) : Prop where
  received : l.received ≤ l.sent.length
  saver : Saver.Sound content image l.newest l.saver l.place

variable {l : SaveLine α σ} {a : SaveAction α σ} {before : β} {m : Nat}

theorem sound_start (place : σ) : (start place : SaveLine α σ).Sound content image :=
  ⟨Nat.le_refl 0, Saver.sound_idle place⟩

theorem handle_stopped (h : l.saver.stopped = true) (put : α → σ → Bool × σ) (e : SaveEvent α) :
    l.handle put e = (none, l) := by
  simp [handle, Saver.step, h]

theorem act_receive {put : α → σ → Bool × σ} {r : SaveRequest α} (hs : l.saver.stopped = false)
    (hr : l.next? = some r) :
    l.act (.receive put) = handle { l with received := l.received + 1 } put r.event := by
  rw [next?] at hr
  simp only [act, hr, hs, Bool.false_eq_true, if_false]

/-- All that an action can do: the saver is left alone, takes the next request, or finds that the
delay has ended or the line is closed. -/
theorem act_cases (l : SaveLine α σ) (ha : a.Atomic content image) :
    (∃ sent closed, l.act a = (none, { l with sent := sent, closed := closed }) ∧
      l.sent <+: sent) ∨
    (∃ put r, l.act a = handle { l with received := l.received + 1 } put (SaveRequest.event r) ∧
      Saver.Atomic content image put ∧ l.saver.stopped = false ∧ l.next? = some r) ∨
    ∃ put e, l.act a = l.handle put e ∧ Saver.Atomic content image put ∧
      l.saver.stopped = false ∧ (e = .expiry ∨ e = .closed) := by
  have idle : ∀ {p : Option Bool × SaveLine α σ}, p = (none, l) →
      ∃ sent closed, p = (none, { l with sent := sent, closed := closed }) ∧ l.sent <+: sent :=
    fun h => ⟨l.sent, l.closed, h, List.prefix_refl _⟩
  cases a with
  | send r =>
    cases hc : l.closed with
    | true => exact .inl (idle (by simp [act, hc]))
    | false => exact .inl ⟨l.sent ++ [r], false, by simp [act, hc], List.prefix_append _ _⟩
  | close => exact .inl ⟨l.sent, true, rfl, List.prefix_refl _⟩
  | receive put =>
    cases hr : l.sent[l.received]? with
    | none => exact .inl (idle (by simp [act, hr]))
    | some r =>
      cases hs : l.saver.stopped with
      | true => exact .inl (idle (by simp [act, hr, hs]))
      | false => exact .inr (.inl ⟨put, r, act_receive hs hr, ha, rfl, hr⟩)
  | expire put =>
    cases hs : l.saver.stopped with
    | true => exact .inl (idle (by rw [act, handle_stopped hs]))
    | false => exact .inr (.inr ⟨put, .expiry, rfl, ha, rfl, .inl rfl⟩)
  | hangUp put =>
    cases hs : l.saver.stopped with
    | true => exact .inl (idle (by simp [act, handle_stopped hs put]))
    | false =>
      cases hc : l.closed && l.received == l.sent.length with
      | true => exact .inr (.inr ⟨put, .closed, by simp only [act, hc, if_true], ha, rfl, .inr rfl⟩)
      | false => exact .inl (idle (by simp only [act, hc, Bool.false_eq_true, if_false]))

theorem newest_of_isPrefix {sent : List (SaveRequest α)} {closed : Bool} (h : l.sent <+: sent)
    (hr : l.received ≤ l.sent.length) :
    newest { l with sent := sent, closed := closed } = l.newest := by
  obtain ⟨more, rfl⟩ := h
  simp only [newest, List.take_append_of_le_length hr]

theorem newest_receive {r : SaveRequest α} (h : l.next? = some r) :
    newest { l with received := l.received + 1 } = Saver.newestAfter l.newest r.event := by
  unfold newest
  rw [← SaveRequest.newest_concat, List.take_add_one]
  simp only [next?] at h
  simp [h]

/-- What an action does: more may be sent, the next request may be received, and the saver goes on
with the newest state among the requests received then. -/
structure Advanced (content : σ → β) (image : α → β) (l : SaveLine α σ) (ack : Option Bool)
    (next : SaveLine α σ) : Prop where
  sent : l.sent <+: next.sent
  received : l.received ≤ next.received
  bound : next.received ≤ next.sent.length
  saver : Saver.Handled content image next.newest l.saver l.place ack next.saver next.place

theorem Sound.act (h : l.Sound content image) (ha : a.Atomic content image) :
    Advanced content image l (l.act a).1 (l.act a).2 := by
  obtain ⟨sent, closed, hact, hsent⟩ | ⟨put, r, hact, hput, hs, hr⟩ |
    ⟨put, e, hact, hput, hs, he⟩ := act_cases l ha
  · rw [hact]
    refine ⟨hsent, Nat.le_refl _, Nat.le_trans h.received hsent.length_le, ?_⟩
    rw [newest_of_isPrefix hsent h.received]
    exact ⟨h.saver, .inl ⟨rfl, rfl⟩, nofun, nofun⟩
  · have hstep := h.saver.step hput hs r.event
    rw [← newest_receive hr] at hstep
    rw [hact]
    exact ⟨List.prefix_refl _, Nat.le_succ _, (List.getElem?_eq_some_iff.mp hr).1, hstep⟩
  · have hstep := h.saver.step hput hs e
    have hnewest : Saver.newestAfter l.newest e = l.newest := by
      obtain rfl | rfl := he <;> rfl
    rw [hnewest] at hstep
    rw [hact]
    exact ⟨List.prefix_refl _, Nat.le_refl _, h.received, hstep⟩

theorem Advanced.sound {ack : Option Bool} {next : SaveLine α σ}
    (h : Advanced content image l ack next) : next.Sound content image :=
  ⟨h.bound, h.saver.sound⟩

/-- The place never goes back to an older state. -/
theorem Advanced.holdsFirst {ack : Option Bool} {next : SaveLine α σ}
    (h : Advanced content image l ack next) (hl : l.received ≤ l.sent.length) (hm : m ≤ l.received)
    (hold : HoldsFirst content image before m l) :
    ∃ n, m ≤ n ∧ n ≤ next.received ∧ HoldsFirst content image before n next := by
  obtain ⟨-, hsame⟩ | ⟨-, x, hx, hnew⟩ := h.saver.written
  · refine ⟨m, Nat.le_refl m, Nat.le_trans hm h.received, ?_⟩
    obtain ⟨more, hmore⟩ := h.sent
    unfold HoldsFirst at hold ⊢
    rw [hsame, hold, ← hmore, List.take_append_of_le_length (Nat.le_trans hm hl)]
  · refine ⟨next.received, Nat.le_trans hm h.received, Nat.le_refl _, ?_⟩
    unfold newest at hx
    simp only [HoldsFirst, hnew, hx, Option.map_some, Option.getD_some]

/-! ### Runs -/

variable {actions : List (SaveAction α σ)}

/-- After some actions the saver still knows the requests received, and the place holds the newest
of as many of them as before, or of more. -/
theorem Sound.after (h : l.Sound content image) (ha : ∀ a ∈ actions, a.Atomic content image)
    (hm : m ≤ l.received) (hold : HoldsFirst content image before m l) :
    (l.after actions).Sound content image ∧
    ∃ n, m ≤ n ∧ n ≤ (l.after actions).received ∧
      HoldsFirst content image before n (l.after actions) := by
  induction actions generalizing l m with
  | nil => exact ⟨h, m, Nat.le_refl m, hm, hold⟩
  | cons a actions ih =>
    have hact := h.act (ha a List.mem_cons_self)
    obtain ⟨k, hmk, hk, hold⟩ := hact.holdsFirst h.received hm hold
    obtain ⟨hsound, n, hkn, hn, hold⟩ :=
      ih hact.sound (fun b hb => ha b (List.mem_cons_of_mem a hb)) hk hold
    exact ⟨hsound, n, Nat.le_trans hmk hkn, hn, hold⟩

theorem run_eq_after_drop (place : σ) (actions : List (SaveAction α σ)) (k : Nat) :
    run place actions = (run place (actions.take k)).after (actions.drop k) := by
  rw [run, run, after, after, after, ← List.foldl_append, List.take_append_drop]

/-- A request to flush or to stop is acknowledged when it is received, and nothing else ever is. -/
theorem isSome_act (l : SaveLine α σ) (a : SaveAction α σ) :
    (l.act a).1.isSome = true ↔
      (∃ put, a = .receive put) ∧ l.saver.stopped = false ∧ l.AsksNext := by
  cases a with
  | send r => simp [act]
  | close => simp [act]
  | expire put => simp [act, handle, Saver.isSome_step]
  | hangUp put => cases hc : l.closed && l.received == l.sent.length <;>
      simp [act, hc, handle, Saver.isSome_step]
  | receive put =>
    cases hr : l.sent[l.received]? with
    | none => simp [act, AsksNext, next?, hr]
    | some r =>
      cases hs : l.saver.stopped <;> cases r <;>
        simp [act, AsksNext, next?, hr, hs, handle, Saver.isSome_step, SaveRequest.event]

theorem newest_act_of_isSome (h : (l.act a).1.isSome = true) : (l.act a).2.newest = l.newest := by
  obtain ⟨⟨put, rfl⟩, hs, hr | hr⟩ := (isSome_act l a).mp h
  all_goals
    rw [act_receive hs hr]
    exact newest_receive hr

/-- What the next action does when the saver knows the requests received. -/
theorem Sound.kept (h : l.Sound content image) (ha : a.Atomic content image) :
    Kept content image l a := by
  have hact := (h.act ha).saver
  refine ⟨fun hw => ?_, fun hw => ?_, fun hdone => ?_, fun hno => ?_, fun put hput hs hask => ?_⟩
  · obtain ⟨hsame, -⟩ | ⟨-, hx⟩ := hact.written
    · exact absurd hsame hw
    · exact hx
  · obtain ⟨-, hsame⟩ | ⟨hnext, -⟩ := hact.written
    · exact hsame
    · omega
  · have hack : (l.act a).1.isSome = true := by rw [hdone]; rfl
    have hdirty := hact.done hdone
    refine ⟨((isSome_act l a).mp hack).2.2, hdirty, ?_⟩
    rw [← newest_act_of_isSome hack]
    exact hact.sound.clean hdirty
  · have hack : (l.act a).1.isSome = true := by rw [hno]; rfl
    obtain ⟨⟨put, rfl⟩, hs, hask⟩ := (isSome_act l a).mp hack
    obtain ⟨hsame, hdirty⟩ := hact.refused hno
    refine ⟨hask, hsame, fun hr => ?_⟩
    obtain ⟨x, hx⟩ := Option.isSome_iff_exists.mp hdirty
    refine ⟨x, ?_, hx, ?_⟩
    · rw [← newest_act_of_isSome hack]
      exact hact.sound.held x hx
    · rw [act_receive hs hr]
      exact (Saver.stopped_step_flush _ put _).trans hs
  · exact (isSome_act l a).mpr ⟨⟨put, hput⟩, hs, hask⟩

/-- A file in the working folder is a place of this kind. -/
theorem atomic_store {path : String} (h : Place.IsName path) (hd : Place.IsName (path ++ ".tmp"))
    (pretty : Bool) :
    Saver.Atomic (Files.text? · path) (fun d => some (d.fileText pretty))
      (Document.store path pretty) := by
  refine ⟨fun d files hok => ?_, fun d files hno => ?_⟩
  · exact (Files.text?_replace h hd files _).trans (if_pos hok)
  · exact (Files.text?_replace h hd files _).trans (if_neg (Bool.not_eq_true _ ▸ hno))

/-- A disk that takes nothing. -/
def full (_ : Document) (files : Files) : Bool × Files := (false, files)

/-- Whatever is sent and whenever, whenever the delays end, and whichever of the attempts to write
succeed, the counts add up, a failure is on record only while a state is held, the place goes on to
newer states only, and an acknowledgement says what it holds. -/
theorem run_faithful (place : σ) (h : ∀ a ∈ actions, a.Atomic content image) :
    Faithful content image place actions := by
  have hstart : HoldsFirst content image (content place) 0 (start place : SaveLine α σ) := rfl
  have hrun := ((sound_start place).after h (Nat.le_refl 0) hstart).1
  refine ⟨hrun.saver.counted, hrun.saver.failed, fun k => ?_, fun a ha => hrun.kept ha⟩
  have hearlier : ∀ a ∈ actions.take k, a.Atomic content image := fun a ha =>
    h a (List.mem_of_mem_take ha)
  have hlater : ∀ a ∈ actions.drop k, a.Atomic content image := fun a ha =>
    h a (List.mem_of_mem_drop ha)
  obtain ⟨hsound, m, -, hm, hold⟩ := (sound_start place).after hearlier (Nat.le_refl 0) hstart
  obtain ⟨-, n, hmn, hn, hold'⟩ := hsound.after hlater hm hold
  rw [run_eq_after_drop place actions k]
  exact ⟨m, n, hmn, hn, hold, hold'⟩

/-- The new document is saved while the disk is full, and once more after that. -/
theorem run_faithful_file :
    let store := Document.store "db.json" true
    let actions := [.send (.snapshot .new), .receive store, .expire full, .send .flush,
      .receive store, .close, .hangUp store]
    (run Files.empty actions).received = 2 ∧
    Faithful (Files.text? · "db.json") (fun d => some (d.fileText true)) Files.empty actions := by
  intro store actions
  have hname : Place.IsName "db.json" := ⟨by decide, by decide, by decide, by decide⟩
  have hdraft : Place.IsName ("db.json" ++ ".tmp") := ⟨by decide, by decide, by decide, by decide⟩
  have hstore := atomic_store hname hdraft true
  refine ⟨rfl, run_faithful Files.empty fun a ha => ?_⟩
  simp only [actions, List.mem_cons, List.not_mem_nil, or_false] at ha
  obtain rfl | rfl | rfl | rfl | rfl | rfl | rfl := ha
  · trivial
  · exact hstore
  · exact ⟨nofun, fun _ _ _ => rfl⟩
  · trivial
  · exact hstore
  · trivial
  · exact hstore

end SaveLine
end ClientRecords
