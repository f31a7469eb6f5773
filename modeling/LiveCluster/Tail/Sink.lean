import LiveCluster.Loop.Channel
import LiveCluster.Tail.Event

/-!
# Log sinks

A sink belongs to the caller of a tail: streams put events into it and the caller
gets them out. It holds as many events as it has room for, and who finds it full
waits. Closing it is a signal to both sides. What was put in before can still be got
out; who comes to put something in is refused. An event whose turn to be put in had
already come when the sink was closed is not refused.
-/

namespace LiveCluster

structure Sink where
  channel : Channel LogEvent := {}
  closed : Bool := false
  /-- The tasks that wait for the sink to be closed. -/
  watchers : List TaskId := []
  deriving Inhabited

namespace Sink

variable {π ρ : Type}

/-- How many events a sink has room for when nothing else is said. -/
def defaultLimit : Int := 1000

/-- An open sink with room for so many events. -/
def new (limit : Int) : Sink :=
  { channel := { limit := limit } }

def size (s : Sink) : Nat :=
  s.channel.items.length

/-- What comes of putting an event in. -/
inductive Offer where
  | accepted
  | refused
  | full
  deriving Repr, DecidableEq

/-- Puts an event in. Whether the sink is open is asked only of those who come, not of
those who `waited` for room. -/
def offer (s : Sink) (l : Loop π ρ) (event : LogEvent) (waited : Bool) :
    Offer × Sink × Loop π ρ :=
  if s.closed && !waited then (.refused, s, l)
  else if s.channel.isFull then (.full, s, l)
  else
    let (channel, l) := s.channel.give l event
    (.accepted, { s with channel := channel }, l)

/-- Takes the first event out. -/
def take? (s : Sink) (l : Loop π ρ) : Option (LogEvent × Sink × Loop π ρ) :=
  (s.channel.take? l).map fun (event, channel, l) => (event, { s with channel := channel }, l)

/-- Closes the sink and tells those who wait for it. -/
def close (s : Sink) (l : Loop π ρ) : Sink × Loop π ρ :=
  if s.closed then (s, l)
  else ({ s with closed := true, watchers := [] }, l.wakeAll s.watchers)

/-! ## What is in a sink -/

/-- Only who comes to a closed sink without having waited is refused. -/
theorem offer_refused_iff {s : Sink} {l : Loop π ρ} {event : LogEvent} {waited : Bool} :
    (s.offer l event waited).1 = .refused ↔ s.closed = true ∧ waited = false := by
  unfold offer
  split
  · simp_all
  · split <;> simp_all

/-- An accepted event comes last; otherwise nothing changes. -/
theorem offer_items (s : Sink) (l : Loop π ρ) (event : LogEvent) (waited : Bool) :
    (s.offer l event waited).2.1.channel.items =
      if (s.offer l event waited).1 = .accepted then s.channel.items ++ [event]
      else s.channel.items := by
  unfold offer
  split
  · simp
  · split <;> simp

@[simp] theorem offer_closed (s : Sink) (l : Loop π ρ) (event : LogEvent) (waited : Bool) :
    (s.offer l event waited).2.1.closed = s.closed := by
  unfold offer
  split
  · rfl
  · split <;> rfl

@[simp] theorem close_items (s : Sink) (l : Loop π ρ) :
    (s.close l).1.channel.items = s.channel.items := by
  unfold close
  split <;> rfl

@[simp] theorem close_closed (s : Sink) (l : Loop π ρ) : (s.close l).1.closed = true := by
  unfold close
  split <;> simp_all

end Sink

end LiveCluster
