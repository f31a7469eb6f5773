import LiveCluster.Proofs.Watch.Counting

/-!
# Staleness

A cache is stale when, and only when, as many failures have been counted as the
threshold says. The state is written where the counter is written, so it is enough
that each of these places leaves the two in step; that a late alarm is none of these
places was shown with the worker's records.

Only a worker that began on a fresh informer is in step from the beginning. One that is
begun again counts on, and shows a cache as fresh until it fails again.
-/

namespace LiveCluster

open Informer (Command Signal Reacts reacts)

namespace Informer

/-- The state that goes with the failures counted. -/
def InStep (i : Informer) : Prop :=
  i.state = if i.config.staleThreshold ≤ i.failures then .stale else .watching

theorem InStep.of_alike {i j : Informer} (h : j.InStep) (hij : Alike i j) : i.InStep := by
  unfold InStep
  rw [hij.state, hij.config, hij.failures]
  exact h

theorem InStep.failed {i : Informer} (h : i.InStep) : i.failed.InStep := by
  show (if i.config.staleThreshold ≤ (i.failures + 1 : Nat) then CacheState.stale else i.state) =
    if i.config.staleThreshold ≤ (i.failures + 1 : Nat) then CacheState.stale else .watching
  split
  · rfl
  · next hnext =>
      have hnow : ¬i.config.staleThreshold ≤ i.failures := by omega
      rw [h, if_neg hnow]

theorem InStep.establish {i : Informer} (h : i.InStep) (hthr : 1 ≤ i.config.staleThreshold) :
    i.establish.1.InStep := by
  cases he : i.established with
  | true => rwa [establish_of_established he]
  | false =>
      rw [establish_of_not_established he]
      exact (if_neg (show ¬i.config.staleThreshold ≤ (0 : Nat) by omega)).symm

theorem InStep.accounted {i : Informer} {past : History} {a : Act} (h : i.InStep)
    (hthr : 1 ≤ i.config.staleThreshold) : (i.accounted past a).InStep := by
  have hestablish : (if past.establishes a then i.establish.1 else i).InStep := by
    split
    · exact h.establish hthr
    · exact h
  cases hc : past.counts a with
  | true =>
      rw [accounted_of_counts hc]
      exact hestablish.failed
  | false =>
      rw [accounted_of_not_counts hc]
      exact hestablish

end Informer

section

variable {rid : ResourceId} {ns : String} {config : WatchConfig} {h : History} {k : Worker}

/-- The state and the counter stay in step as long as the worker goes on. -/
theorem Run.inStep (hrun : Run (.new rid ns config) h k) (hk : k.isRunning = true)
    (hthr : 1 ≤ config.staleThreshold) : k.informer.InStep := by
  induction hrun with
  | begin => exact (if_neg (show ¬config.staleThreshold ≤ (0 : Nat) by omega)).symm
  | @turn past k s hpast ha ih =>
      rw [Worker.isRunning, Worker.hear, Worker.take_stage] at hk
      have hbefore := ih (Stage.isRunning_of_admits ha)
      have halike := hpast.agrees.turn_alike ha (reacts k.informer s) hk
      rw [Worker.hear, Worker.take_informer]
      refine (hbefore.accounted ?_).of_alike halike
      rw [hpast.config]
      exact hthr
  | @alarm past k n hpast ih =>
      rw [Worker.isRunning, Worker.ring_stage] at hk
      refine ((ih hk).accounted ?_).of_alike (hpast.agrees.alarm_alike n)
      rw [hpast.config]
      exact hthr
  | cancel _ _ _ => cases hk

end

/-! ## Watches that are open -/

/-- A watch that is established, for the first time or again, leaves no failures. -/
theorem Informer.establish_failures {i : Informer} (h : i.established = true → i.failures = 0) :
    i.establish.1.failures = 0 := by
  cases he : i.established with
  | true =>
      rw [establish_of_established he]
      exact h he
  | false => rw [establish_of_not_established he]

/-- No failure is on record while an established watch is open. -/
theorem Run.failures_of_established {i : Informer} {h : History} {k : Worker}
    (hrun : Run i h k) (ho : History.isOpen h = true) (he : k.informer.established = true) :
    k.informer.failures = 0 := by
  induction hrun with
  | begin => cases ho
  | @turn past k s hpast ha ih =>
      have hr := reacts k.informer s
      rw [History.isOpen] at ho
      rw [Worker.hear, Worker.take_informer] at he ⊢
      generalize (k.informer.react s).informer = j at hr he ⊢
      generalize (k.informer.react s).command = c at hr ho
      cases hr with
      | listed _ | resuming _ _ => cases he
      | event _ =>
          have hopen := hpast.agrees.isOpen_of_event ha
          rw [(k.informer.alike_told_event _).failures]
          exact Informer.establish_failures (ih hopen)
      | counted _ _ | closed _ =>
          rw [Command.pausing_isStream] at ho
          cases ho
      | started | gone _ _ | listing _ _ => cases ho
  | @alarm past k n _ ih =>
      by_cases hn : k.timer = some n
      · rw [Worker.ring_of_eq hn]
        exact Informer.establish_failures (ih ho)
      · rw [Worker.ring_of_ne hn] at he ⊢
        exact ih ho he
  | cancel _ _ _ => cases ho

/-- A listing that is taken over and a version that has expired leave the count alone. -/
theorem Informer.Reacts.quiet {i j : Informer} {s : Signal} {c : Command} (h : Reacts i s j c)
    (hs : (Act.heard i s).relists = true ∨ (Act.heard i s).isGone = true) :
    j.failures = i.failures ∧ j.state = i.state := by
  cases h with
  | started | listed _ | listing _ _ | resuming _ _ => exact ⟨rfl, rfl⟩
  | event hf =>
      rcases hs with hs | hs
      · cases hs
      · rw [Act.isGone, hf] at hs
        cases hs
  | gone hf hg =>
      cases s with
      | event e =>
          rw [fault_event_not_gone hf] at hg
          cases hg
      | started | listed _ _ | listFailed _ | ended | watchFailed _ | woke => exact ⟨rfl, rfl⟩
  | counted hf hg =>
      rcases hs with hs | hs
      · cases s with
        | listed items v =>
            rw [Act.relists, hf] at hs
            cases hs
        | started | listFailed _ | event _ | ended | watchFailed _ | woke => cases hs
      · rw [Act.isGone, hf] at hs
        exact absurd hs (by simp [hg])
  | closed _ => rcases hs with hs | hs <;> cases hs

section

variable {i : Informer} {h : History} {k : Worker}

/-- An event leaves no failures but its own, if it cannot be applied. -/
theorem Run.failures_of_event (hrun : Run i h k) {e : WatchEvent}
    (ha : k.stage.admits (.event e) = true) :
    (k.hear (.event e)).informer.failures =
      if (k.informer.fault? (.event e)).isSome then 1 else 0 := by
  have hopen := hrun.agrees.isOpen_of_event ha
  have htold : (k.informer.told (.event e)).failures = 0 := by
    rw [(k.informer.alike_told_event e).failures]
    exact Informer.establish_failures (hrun.failures_of_established hopen)
  have hr := reacts k.informer (.event e)
  rw [Worker.hear, Worker.take_informer]
  generalize (k.informer.react (.event e)).informer = j at hr ⊢
  generalize (k.informer.react (.event e)).command = c at hr
  cases hr with
  | event hf =>
      rw [hf]
      exact htold
  | gone hf hg =>
      rw [Informer.fault_event_not_gone hf] at hg
      cases hg
  | counted hf _ =>
      rw [hf]
      exact congrArg (· + 1) htold
  | listing hs _ | resuming hs _ => rcases hs with hs | ⟨hs, -⟩ <;> cases hs

/-- The alarm of the watch that is open leaves no failures. -/
theorem Run.failures_of_alarm (hrun : Run i h k) {n : Nat} (hc : h.concerns n = true) :
    (k.ring n).informer.failures = 0 := by
  have hopen := History.isOpen_of_concerns hc
  by_cases hn : k.timer = some n
  · rw [Worker.ring_of_eq hn]
    exact Informer.establish_failures (hrun.failures_of_established hopen)
  · rw [Worker.ring_of_ne hn]
    apply hrun.failures_of_established hopen
    rw [hrun.agrees.established hopen]
    exact hrun.agrees.late hn hc

/-- The alarm of a watch that is over has no effect. -/
theorem Run.ring_eq_self (hrun : Run i h k) {n : Nat} (hc : h.concerns n = false) :
    k.ring n = k := by
  apply Worker.ring_of_ne
  intro hn
  rw [hrun.agrees.timer n hn] at hc
  cases hc

end

section

variable {rid : ResourceId} {ns : String} {config : WatchConfig} {h : History} {k : Worker}

theorem Run.watching_of_no_failures (hrun : Run (.new rid ns config) h k)
    (hk : k.isRunning = true) (hthr : 1 ≤ config.staleThreshold)
    (hn : k.informer.failures = 0) : k.informer.state = .watching := by
  have hinStep := hrun.inStep hk hthr
  rw [Informer.InStep, hrun.config, hn] at hinStep
  exact hinStep.trans (if_neg (show ¬config.staleThreshold ≤ (0 : Nat) by omega))

/-- As long as the worker of a fresh informer goes on, its counter is the number of failures
since a watch was last established, and the cache is stale exactly from the threshold on. A
listing that is taken over and a version that has expired change neither. An event, and the
alarm of the watch that is open, wipe the failures out; an event that cannot be applied is
then the first one again. The alarm of a watch that is over has no effect. -/
theorem Run.staleness (hrun : Run (.new rid ns config) h k) (hk : k.isRunning = true)
    (hthr : 1 ≤ config.staleThreshold) :
    k.informer.failures = h.failures 0 ∧
      k.informer.state =
        (if config.staleThreshold ≤ k.informer.failures then .stale else .watching) ∧
      (∀ s, k.stage.admits s = true →
        (Act.heard k.informer s).relists = true ∨ (Act.heard k.informer s).isGone = true →
          (k.hear s).informer.failures = k.informer.failures ∧
            (k.hear s).informer.state = k.informer.state) ∧
      (∀ e, k.stage.admits (.event e) = true → k.informer.fault? (.event e) = none →
        (k.hear (.event e)).informer.failures = 0 ∧
          (k.hear (.event e)).informer.state = .watching) ∧
      (∀ e fault, k.stage.admits (.event e) = true →
        k.informer.fault? (.event e) = some fault → (k.hear (.event e)).informer.failures = 1) ∧
      (∀ n, h.concerns n = true →
        (k.ring n).informer.failures = 0 ∧ (k.ring n).informer.state = .watching) ∧
      ∀ n, h.concerns n = false → k.ring n = k := by
  refine ⟨hrun.failures hk, ?_, ?_, ?_, ?_, ?_, fun n hc => hrun.ring_eq_self hc⟩
  · have hinStep := hrun.inStep hk hthr
    rwa [Informer.InStep, hrun.config] at hinStep
  · intro s _ hs
    rw [Worker.hear, Worker.take_informer]
    exact (reacts k.informer s).quiet hs
  · intro e ha hf
    have hn := hrun.failures_of_event ha
    rw [hf] at hn
    have hgoesOn : (k.hear (.event e)).isRunning = true := by
      obtain ⟨notes, hr⟩ := k.informer.react_event e
      rw [hf] at hr
      rw [Worker.isRunning, Worker.hear, Worker.take_stage, hr]
      rfl
    exact ⟨hn, (hrun.turn (.event e) ha).watching_of_no_failures hgoesOn hthr hn⟩
  · intro e fault ha hf
    have hn := hrun.failures_of_event ha
    rwa [hf] at hn
  · intro n hc
    have hn := hrun.failures_of_alarm hc
    have hgoesOn : (k.ring n).isRunning = true := by
      rw [Worker.isRunning, Worker.ring_stage]
      exact hk
    exact ⟨hn, (hrun.alarm n).watching_of_no_failures hgoesOn hthr hn⟩

end

theorem Run.staleness_of_outage :
    ∃ h k, Run (.new ⟨"", "v1", "pods", "", ""⟩ "" { staleThreshold := 1 }) h k ∧
      k.isRunning = true ∧ k.informer.failures = 1 ∧ k.informer.state = .stale := by
  have hbegun := Run.begin (i := .new ⟨"", "v1", "pods", "", ""⟩ "" { staleThreshold := 1 })
  have hfailed := (hbegun.turn .started rfl).turn
    (.listFailed (.transport "connection refused" .null)) rfl
  obtain ⟨hfailures, hstate, -⟩ := Run.staleness hfailed rfl (by decide)
  exact ⟨_, _, hfailed, rfl, hfailures, hstate⟩

end LiveCluster
