import LiveCluster.Proofs.Watch.Standing

/-!
# Counting failures

The counter of an informer is written in three places, and one of them is the alarm
of a timer. `accounted` says from the history alone what an act means to the count: a
watch that is established wipes it out, and a failure adds one. Turns and alarms are
shown to do just that, and the count in the history follows by induction on the run.

A worker that has crashed is left out. The end of a watch is counted twice when no
pause can be computed after it, and the worker does not go on then.
-/

namespace LiveCluster

open Informer (Command Signal Reacts reacts)

namespace Informer

/-- Two informers that agree on the failures counted and on what these bear on. -/
structure Alike (i j : Informer) : Prop where
  config : i.config = j.config
  failures : i.failures = j.failures
  state : i.state = j.state

theorem Alike.trans {i j l : Informer} (h : Alike i j) (h' : Alike j l) : Alike i l :=
  ⟨h.config.trans h'.config, h.failures.trans h'.failures, h.state.trans h'.state⟩

theorem Alike.failed {i j : Informer} (h : Alike i j) : Alike i.failed j.failed where
  config := h.config
  failures := congrArg (· + 1) h.failures
  state := by
    show (if i.config.staleThreshold ≤ (i.failures + 1 : Nat) then CacheState.stale else i.state) =
      if j.config.staleThreshold ≤ (j.failures + 1 : Nat) then CacheState.stale else j.state
    rw [h.config, h.failures, h.state]

theorem alike_told_event (i : Informer) (e : WatchEvent) :
    Alike (i.told (.event e)) i.establish.1 := by
  rw [told, applyEvent_frame]
  exact ⟨rfl, rfl, rfl⟩

theorem establish_of_established {i : Informer} (h : i.established = true) :
    i.establish.1 = i := by
  rw [establish_informer, if_pos h]

theorem establish_of_not_established {i : Informer} (h : i.established = false) :
    i.establish.1 = { i with established := true, failures := 0, state := .watching } := by
  rw [establish_informer, if_neg (by simp [h])]

theorem establish_config (i : Informer) : i.establish.1.config = i.config := by
  rw [establish_frame]

theorem told_config (i : Informer) (s : Signal) : (i.told s).config = i.config := by
  cases s with
  | event e => exact (alike_told_event i e).config.trans i.establish_config
  | started | listed _ _ | listFailed _ | ended | watchFailed _ | woke => rfl

theorem closed_config (i : Informer) : i.closed.config = i.config := by
  unfold closed
  split <;> rfl

theorem Reacts.config {i j : Informer} {s : Signal} {c : Command} (h : Reacts i s j c) :
    j.config = i.config := by
  cases h with
  | started | listed _ | listing _ _ | resuming _ _ => rfl
  | event _ | gone _ _ | counted _ _ => exact i.told_config _
  | closed _ => exact i.closed_config

end Informer

/-- A worker keeps the configuration that it began with. -/
theorem Run.config {i : Informer} {h : History} {k : Worker} (hrun : Run i h k) :
    k.informer.config = i.config := by
  induction hrun with
  | begin => rfl
  | @turn past k s _ _ ih =>
      rw [Worker.hear, Worker.take_informer]
      exact (reacts k.informer s).config.trans ih
  | @alarm past k n _ ih =>
      rw [k.ring_frame]
      exact ih
  | cancel _ _ ih => exact ih

/-! ## What an act means to the count -/

namespace Informer

/-- The informer once an act has been accounted for. -/
def accounted (i : Informer) (past : History) (a : Act) : Informer :=
  let i := if past.establishes a then i.establish.1 else i
  if past.counts a then i.failed else i

theorem accounted_of_counts {i : Informer} {past : History} {a : Act}
    (h : past.counts a = true) :
    i.accounted past a = (if past.establishes a then i.establish.1 else i).failed :=
  if_pos h

theorem accounted_of_not_counts {i : Informer} {past : History} {a : Act}
    (h : past.counts a = false) :
    i.accounted past a = if past.establishes a then i.establish.1 else i := by
  unfold accounted
  rw [if_neg (by simp [h])]

end Informer

/-- An event that cannot be applied is malformed, and no version has expired. -/
theorem Informer.fault_event_not_gone {i : Informer} {e : WatchEvent} {fault : Fault}
    (h : i.fault? (.event e) = some fault) : fault.isGone = false := by
  have ha := applies i e
  simp only [fault?] at h
  generalize (i.applyEvent e).1 = j at ha
  generalize (i.applyEvent e).2.2 = changed at ha h
  cases ha with
  | unreadable hv => cases h; exact WatchEvent.version_not_gone hv
  | refused _ hp => cases h; exact Partition.apply_not_gone hp
  | changed _ _ | dropped _ _ _ => cases h

theorem Informer.fault_listed_not_gone {i : Informer} {items : List Value} {v : String}
    {fault : Fault} (h : i.fault? (.listed items v) = some fault) : fault.isGone = false := by
  simp only [fault?] at h
  cases hp : Partition.ofListing items [] with
  | error f =>
      rw [hp] at h
      cases h
      exact Partition.ofListing_not_gone hp
  | ok p => rw [hp] at h; cases h

/-- A fault counts unless it says that a version has expired; what is malformed never says
so. -/
theorem History.counts_of_fault (past : History) {i : Informer} {s : Signal} {fault : Fault}
    (h : i.fault? s = some fault) : past.counts (.heard i s) = !fault.isGone := by
  cases s with
  | listFailed f | watchFailed f =>
      cases h
      rfl
  | listed items v =>
      rw [Informer.fault_listed_not_gone h]
      show (i.fault? (.listed items v)).isSome = true
      rw [h]
      rfl
  | event e =>
      rw [Informer.fault_event_not_gone h]
      show (i.fault? (.event e)).isSome = true
      rw [h]
      rfl
  | started | ended | woke => cases h

/-- What establishes a watch finds it not established. -/
theorem Agrees.establishes {past : History} {k : Worker} {a : Act} (h : Agrees past k)
    (ha : past.establishes a = true) (ho : History.isOpen past = true) :
    k.informer.established = false := by
  rw [h.established ho]
  match a with
  | .heard _ (.event _) => simpa [History.establishes] using ha
  | .alarm n =>
      rw [History.establishes, Bool.and_eq_true] at ha
      simpa using ha.2

/-- What is heard establishes the watch in the informer where it does so in the history. -/
theorem Agrees.told {past : History} {k : Worker} {s : Signal} (h : Agrees past k)
    (ha : k.stage.admits s = true) :
    Informer.Alike (k.informer.told s)
      (if past.establishes (.heard k.informer s) then k.informer.establish.1 else k.informer) := by
  cases s with
  | event e =>
      have ho := h.isOpen_of_event ha
      have htold := k.informer.alike_told_event e
      split
      · exact htold
      · next he =>
          have hestablished : k.informer.established = true := by
            rw [h.established ho]
            simpa [History.establishes] using he
          rwa [Informer.establish_of_established hestablished] at htold
  | started | listed _ _ | listFailed _ | ended | watchFailed _ | woke => exact ⟨rfl, rfl, rfl⟩

/-- A turn either counts nothing and ends in no pause, or counts a failure and ends in the
pause after it. -/
theorem Agrees.turn_cases {past : History} {k : Worker} {j : Informer} {s : Signal} {c : Command}
    (h : Agrees past k) (ha : k.stage.admits s = true) (hr : Reacts k.informer s j c) :
    (past.counts (.heard k.informer s) = false ∧ (∀ delay, c ≠ .pausing delay) ∧
        Informer.Alike j (k.informer.told s)) ∨
      (past.counts (.heard k.informer s) = true ∧
        c = .pausing (Informer.backoffDelay k.informer.config
          ((k.informer.told s).failures + 1 : Nat)) ∧
        ((k.informer.told s).failures + 1 ≤ Informer.backoffLimit →
          Informer.Alike j (k.informer.told s).failed)) := by
  have hended : s = .ended → past.counts (.heard k.informer s) = !k.informer.established := by
    rintro rfl
    rw [h.established (h.isOpen_of_ended ha)]
    rfl
  cases hr with
  | started => exact .inl ⟨rfl, Command.ne_pausing_of_isCall rfl, ⟨rfl, rfl, rfl⟩⟩
  | @listed items v p hp =>
      have hcounts : past.counts (.heard k.informer (.listed items v)) = false := by
        show (k.informer.fault? (.listed items v)).isSome = false
        simp only [Informer.fault?, hp]
        rfl
      exact .inl ⟨hcounts, Command.ne_pausing_of_isCall rfl, ⟨rfl, rfl, rfl⟩⟩
  | @event e hf =>
      have hcounts : past.counts (.heard k.informer (.event e)) = false := by
        show (k.informer.fault? (.event e)).isSome = false
        rw [hf]
        rfl
      exact .inl ⟨hcounts, fun delay => by cases delay <;> simp [Command.pausing], ⟨rfl, rfl, rfl⟩⟩
  | gone hf hg =>
      have hcounts := History.counts_of_fault past hf
      rw [hg] at hcounts
      exact .inl ⟨hcounts, Command.ne_pausing_of_isCall rfl, ⟨rfl, rfl, rfl⟩⟩
  | counted hf hg =>
      have hcounts := History.counts_of_fault past hf
      rw [hg] at hcounts
      rw [k.informer.told_config]
      exact .inr ⟨hcounts, rfl, fun _ => Informer.Alike.failed ⟨rfl, rfl, rfl⟩⟩
  | closed he =>
      have hcounts := hended rfl
      rw [he] at hcounts
      refine .inr ⟨hcounts, rfl, fun hlimit => ?_⟩
      have hclosed : k.informer.closed = k.informer.failed := if_pos hlimit
      rw [hclosed]
      exact ⟨rfl, rfl, rfl⟩
  | listing hs _ | resuming hs _ =>
      have hcounts : past.counts (.heard k.informer s) = false := by
        rcases hs with rfl | ⟨rfl, he⟩
        · rfl
        · rw [hended rfl, he]
          rfl
      refine .inl ⟨hcounts, Command.ne_pausing_of_isCall rfl, ?_⟩
      rcases hs with rfl | ⟨rfl, -⟩ <;> exact ⟨rfl, rfl, rfl⟩

/-- A turn means to the count what the history says of it, unless the worker crashes. -/
theorem Agrees.turn_alike {past : History} {k : Worker} {j : Informer} {s : Signal} {c : Command}
    (h : Agrees past k) (ha : k.stage.admits s = true) (hr : Reacts k.informer s j c)
    (hc : (Stage.awaiting c).isRunning = true) :
    Informer.Alike j (k.informer.accounted past (.heard k.informer s)) := by
  rcases h.turn_cases ha hr with ⟨hcounts, -, halike⟩ | ⟨hcounts, rfl, halike⟩
  · rw [Informer.accounted_of_not_counts hcounts]
    exact halike.trans (h.told ha)
  · rw [Informer.accounted_of_counts hcounts]
    exact (halike (Informer.pausing_isRunning.1 hc)).trans (h.told ha).failed

/-- An alarm means to the count what the history says of it. -/
theorem Agrees.alarm_alike {past : History} {k : Worker} (h : Agrees past k) (n : Nat) :
    Informer.Alike (k.ring n).informer (k.informer.accounted past (.alarm n)) := by
  rw [Informer.accounted_of_not_counts rfl]
  by_cases hn : k.timer = some n
  · have hc := h.timer n hn
    rw [Worker.ring_of_eq hn]
    show Informer.Alike k.informer.establish.1 _
    split
    · exact ⟨rfl, rfl, rfl⟩
    · next he =>
        have hestablished : History.established past = true := by
          simpa [History.establishes, hc] using he
        have ho := History.isOpen_of_concerns hc
        rw [Informer.establish_of_established ((h.established ho).trans hestablished)]
        exact ⟨rfl, rfl, rfl⟩
  · rw [Worker.ring_of_ne hn]
    split
    · next he =>
        rw [History.establishes, Bool.and_eq_true] at he
        rw [h.late hn he.1] at he
        cases he.2
    · exact ⟨rfl, rfl, rfl⟩

/-- The counter after an act, as the history counts. -/
theorem Agrees.accounted_failures {past : History} {k : Worker} {a : Act} {base : Nat}
    (h : Agrees past k) (ho : past.establishes a = true → History.isOpen past = true)
    (hn : k.informer.failures = past.failures base) :
    (k.informer.accounted past a).failures = History.failures base (a :: past) := by
  have hestablish : (if past.establishes a then k.informer.establish.1 else k.informer).failures =
      if past.establishes a then 0 else past.failures base := by
    split
    · next he => rw [Informer.establish_of_not_established (h.establishes he (ho he))]
    · exact hn
  rw [History.failures, ← hestablish]
  cases hc : past.counts a with
  | true => rw [Informer.accounted_of_counts hc]; rfl
  | false => rw [Informer.accounted_of_not_counts hc]; rfl

/-- Only a watch that is open is established. -/
theorem Agrees.isOpen_of_establishes {past : History} {k : Worker} {s : Signal}
    (h : Agrees past k) (ha : k.stage.admits s = true)
    (he : past.establishes (.heard k.informer s) = true) : History.isOpen past = true := by
  match s with
  | .event e => exact h.isOpen_of_event ha

/-- A counted failure adds one to what is left when it has been taken in. -/
theorem Agrees.failures_of_counts {past : History} {k : Worker} {s : Signal} {base : Nat}
    (h : Agrees past k) (ha : k.stage.admits s = true)
    (hn : k.informer.failures = past.failures base)
    (hcounts : past.counts (.heard k.informer s) = true) :
    History.failures base (.heard k.informer s :: past) = (k.informer.told s).failures + 1 := by
  rw [← h.accounted_failures (h.isOpen_of_establishes ha) hn,
    Informer.accounted_of_counts hcounts]
  exact congrArg (· + 1) (h.told ha).failures.symm

/-- The counter of a worker that goes on is the number of failures in its history. -/
theorem Run.failures {i : Informer} {h : History} {k : Worker} (hrun : Run i h k)
    (hk : k.isRunning = true) : k.informer.failures = h.failures i.failures := by
  induction hrun with
  | begin => rfl
  | @turn past k s hpast ha ih =>
      have hagrees := hpast.agrees
      have hn := ih (Stage.isRunning_of_admits ha)
      rw [Worker.isRunning, Worker.hear, Worker.take_stage] at hk
      have halike := hagrees.turn_alike ha (reacts k.informer s) hk
      rw [Worker.hear, Worker.take_informer, halike.failures]
      exact hagrees.accounted_failures (hagrees.isOpen_of_establishes ha) hn
  | @alarm past k n hpast ih =>
      have hagrees := hpast.agrees
      rw [Worker.isRunning, Worker.ring_stage] at hk
      have hopen : past.establishes (.alarm n) = true → History.isOpen past = true := by
        intro he
        rw [History.establishes, Bool.and_eq_true] at he
        exact History.isOpen_of_concerns he.1
      rw [(hagrees.alarm_alike n).failures]
      exact hagrees.accounted_failures hopen (ih hk)
  | cancel _ _ _ => cases hk

end LiveCluster
