/-!
Saving with a delay. A saver is handed every new state and keeps the newest one, which it writes
when no other has come for a while, so that a burst of changes costs one write. A request to flush
or to stop writes at once and is acknowledged. A state whose write fails is kept until a newer one
takes its place or it is written after all.
-/

namespace ClientRecords

/-- What a saver has done so far. A state that a newer one replaced before it was written is
coalesced. -/
structure SaveStats where
  snapshots : Nat
  writes : Nat
  coalesced : Nat
  failures : Nat
  lastFailed : Bool
  deriving DecidableEq

/-- The state not yet written, and whether the time until it is written is running. -/
structure Saver (α : Type) where
  dirty : Option α
  armed : Bool
  stopped : Bool
  stats : SaveStats
  deriving DecidableEq

/-- What reaches a saver: a new state, the end of the delay, the requests, and the loss of the
only sender. -/
inductive SaveEvent (α : Type) where
  | snapshot (x : α)
  | expiry
  | flush
  | shutdown
  | closed
  deriving DecidableEq

namespace Saver

variable {α σ : Type}

def idle : Saver α := ⟨none, false, false, ⟨0, 0, 0, 0, false⟩⟩

instance : Inhabited (Saver α) := ⟨idle⟩

/-- Takes a new state in the place of the one that is not written yet. -/
def schedule (s : Saver α) (x : α) : Saver α :=
  { s with
    dirty := some x
    armed := true
    stats := { s.stats with
      snapshots := s.stats.snapshots + 1
      coalesced := s.stats.coalesced + if s.dirty.isSome then 1 else 0 } }

/-- Writes the state that is not written yet, if there is one, to a place that tells whether it took
it. Tells whether all is written, and gives the saver and the place after it. -/
def write (put : α → σ → Bool × σ) (s : Saver α) (place : σ) : Bool × Saver α × σ :=
  match s.dirty with
  | none => (true, s, place)
  | some x =>
    match put x place with
    | (true, place) =>
      (true, { s with
        dirty := none
        stats := { s.stats with writes := s.stats.writes + 1, lastFailed := false } }, place)
    | (false, place) =>
      (false, { s with
        stats := { s.stats with failures := s.stats.failures + 1, lastFailed := true } }, place)

/-- Writes at once. -/
def flush (put : α → σ → Bool × σ) (s : Saver α) (place : σ) : Bool × Saver α × σ :=
  write put { s with armed := false } place

/-- Writes at the end of the delay. -/
def expire (put : α → σ → Bool × σ) (s : Saver α) (place : σ) : Saver α × σ :=
  if s.armed then (flush put s place).2 else (s, place)

/-- Writes a last time and stops. -/
def stop (put : α → σ → Bool × σ) (s : Saver α) (place : σ) : Bool × Saver α × σ :=
  let (done, s, place) := write put s place
  (done, { s with stopped := true }, place)

/-- What an event does to a saver and to the place it writes to, and the acknowledgement, if it asks
for one. A saver that has stopped does nothing more. -/
def step (put : α → σ → Bool × σ) (s : Saver α) (place : σ) (e : SaveEvent α) :
    Option Bool × Saver α × σ :=
  if s.stopped then (none, s, place)
  else match e with
    | .snapshot x => (none, s.schedule x, place)
    | .expiry => (none, s.expire put place)
    | .flush => let (done, s, place) := s.flush put place; (some done, s, place)
    | .shutdown => let (done, s, place) := s.stop put place; (some done, s, place)
    | .closed => (none, (s.stop put place).2)

end Saver
end ClientRecords
