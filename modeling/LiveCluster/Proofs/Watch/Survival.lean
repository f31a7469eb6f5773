import LiveCluster.Proofs.Watch.Counting

/-!
# How long a worker goes on

Nothing that a worker is told ends it. What ends it is the pause: it doubles with each
failure in a row, and after too many of them the doubling leaves the range of numbers
before the maximum is taken. The fault of that is raised where faults are handled,
and nothing handles it there.

So a worker goes on, unless it is called off, exactly as long as no row of failures is
longer than the limit. An outage that is long enough ends any worker, whatever the
configuration.
-/

namespace LiveCluster

open Informer (Command Signal Reacts reacts backoffLimit)

theorem Stage.isRunning_of_not_pausing {c : Command} (h : ∀ delay, c ≠ .pausing delay) :
    (Stage.awaiting c).isRunning = true := by
  cases c with
  | crash fault => exact absurd rfl (h (.error fault))
  | list | watch _ | next | sleep _ => rfl

/-- A turn ends the worker exactly when it adds a failure to a row that is as long as can be. -/
theorem Agrees.goesOn_iff {past : History} {k : Worker} {j : Informer} {s : Signal} {c : Command}
    {base : Nat} (h : Agrees past k) (ha : k.stage.admits s = true)
    (hr : Reacts k.informer s j c) (hn : k.informer.failures = past.failures base) :
    (Stage.awaiting c).isRunning = true ↔
      (past.counts (.heard k.informer s) = true →
        History.failures base (.heard k.informer s :: past) ≤ backoffLimit) := by
  rcases h.turn_cases ha hr with ⟨hcounts, hc, -⟩ | ⟨hcounts, rfl, -⟩
  · rw [hcounts]
    exact iff_of_true (Stage.isRunning_of_not_pausing hc) Bool.noConfusion
  · rw [h.failures_of_counts ha hn hcounts, hcounts, Informer.pausing_isRunning]
    exact ⟨fun hlimit _ => hlimit, fun hlimit => hlimit rfl⟩

/-- Whether no row of failures in a history was longer than a worker can bear; it begins
after `base` failures. -/
def History.bearable (base : Nat) (h : History) : Prop :=
  h.Always fun a past => past.counts a = true → History.failures base (a :: past) ≤ backoffLimit

theorem History.bearable_cons_of_not_counts {base : Nat} {a : Act} {past : History}
    (h : past.counts a = false) : bearable base (a :: past) ↔ bearable base past := by
  unfold bearable
  rw [always_cons, h]
  exact and_iff_right Bool.noConfusion

/-- The only way to end is a pause that cannot be computed. -/
theorem Agrees.crash {past : History} {k : Worker} {j : Informer} {s : Signal} {c : Command}
    (h : Agrees past k) (ha : k.stage.admits s = true) (hr : Reacts k.informer s j c)
    (hc : (Stage.awaiting c).isRunning = false) : c = .crash (.misfit .floatRange) := by
  rcases h.turn_cases ha hr with ⟨-, hpausing, -⟩ | ⟨-, rfl, -⟩
  · rw [Stage.isRunning_of_not_pausing hpausing] at hc
    cases hc
  · have hover : backoffLimit < (k.informer.told s).failures + 1 := by
      apply Nat.lt_of_not_le
      intro hlimit
      rw [Informer.pausing_isRunning.2 hlimit] at hc
      cases hc
    rw [Informer.backoffDelay_eq_error _ hover]
    rfl

section

variable {i : Informer} {h : History} {k : Worker}

/-- A worker that was not called off goes on exactly as long as it can bear its failures. -/
theorem Run.isRunning_iff (hrun : Run i h k) (hcalm : .cancelled ∉ h) :
    k.isRunning = true ↔ h.bearable i.failures := by
  induction hrun with
  | begin => exact iff_of_true rfl (History.always_nil _)
  | @turn past k s hpast ha ih =>
      have hcalm : .cancelled ∉ past := fun hmem => hcalm (by simp [hmem])
      have hk : k.isRunning = true := Stage.isRunning_of_admits ha
      have hbefore := (ih hcalm).1 hk
      rw [Worker.isRunning, Worker.hear, Worker.take_stage,
        hpast.agrees.goesOn_iff ha (reacts k.informer s) (hpast.failures hk),
        History.bearable_cons_of_not_counts rfl, History.bearable, History.always_cons]
      exact (and_iff_left hbefore).symm
  | @alarm past k n hpast ih =>
      have hcalm : .cancelled ∉ past := fun hmem => hcalm (by simp [hmem])
      rw [Worker.isRunning, Worker.ring_stage, History.bearable_cons_of_not_counts rfl]
      exact ih hcalm
  | cancel _ _ _ => exact absurd (List.mem_cons_self) hcalm

/-- A worker that ended and was not called off could not compute its pause. -/
theorem Run.crashed (hrun : Run i h k) (hcalm : .cancelled ∉ h) (hk : k.isRunning = false) :
    k.stage = .awaiting (.crash (.misfit .floatRange)) := by
  induction hrun with
  | begin => cases hk
  | @turn past k s hpast ha _ =>
      rw [Worker.isRunning, Worker.hear, Worker.take_stage] at hk
      rw [Worker.hear, Worker.take_stage, hpast.agrees.crash ha (reacts k.informer s) hk]
  | @alarm past k n hpast ih =>
      rw [Worker.isRunning, Worker.ring_stage] at hk
      rw [Worker.ring_stage]
      exact ih (fun hmem => hcalm (by simp [hmem])) hk
  | cancel _ _ _ => exact absurd (List.mem_cons_self) hcalm

/-- A worker that was not called off goes on exactly as long as it can bear its failures. When
one is too many, it ends with the fault of a number that is out of range. -/
theorem Run.survival (hrun : Run i h k) (hcalm : .cancelled ∉ h) :
    (k.isRunning = true ↔ h.bearable i.failures) ∧
      (k.isRunning = false → k.stage = .awaiting (.crash (.misfit .floatRange))) :=
  ⟨hrun.isRunning_iff hcalm, hrun.crashed hcalm⟩

end

/-! ## Outages -/

/-- What a failed listing leaves of a worker that is about to list. -/
theorem Worker.hear_listFailed {k : Worker} {fault : Fault} (hf : fault.isGone = false) :
    (k.hear (.listFailed fault)).informer =
        ({ k.informer with needList := true } : Informer).failed ∧
      (k.hear (.listFailed fault)).stage = .awaiting (.pausing
        (Informer.backoffDelay k.informer.config (k.informer.failures + 1 : Nat))) := by
  obtain ⟨hinformer, hcommand⟩ := Informer.recover_of_not_gone k.informer [] hf
  rw [hear, take_informer, take_stage]
  exact ⟨hinformer, congrArg Stage.awaiting hcommand⟩

/-- A worker can be about to list after as many failed listings in a row as it can bear. -/
theorem Run.outage (i : Informer) {fault : Fault} (hf : fault.isGone = false) {n : Nat}
    (hn : i.failures + n ≤ backoffLimit) :
    ∃ h k, Run i h k ∧ .cancelled ∉ h ∧ k.stage = .awaiting .list ∧
      k.informer.failures = i.failures + n := by
  induction n with
  | zero => exact ⟨_, _, Run.turn .started .begin rfl, by simp, rfl, rfl⟩
  | succ n ih =>
      obtain ⟨h, k, hrun, hcalm, hstage, hfailures⟩ := ih (by omega)
      have hlist : k.stage.admits (.listFailed fault) = true := by rw [hstage]; rfl
      obtain ⟨hinformer, hpaused⟩ := k.hear_listFailed hf
      have hlimit : k.informer.failures + 1 ≤ backoffLimit := by omega
      obtain ⟨d, hd⟩ := Informer.backoffDelay_eq_ok k.informer.config hlimit
      rw [hd] at hpaused
      have hasleep := hrun.turn (.listFailed fault) hlist
      generalize k.hear (.listFailed fault) = asleep at hinformer hpaused hasleep
      have hwoke : asleep.stage.admits .woke = true := by rw [hpaused]; rfl
      have hreaction : asleep.informer.react .woke = ⟨asleep.informer, [], .list⟩ := by
        rw [hinformer]
        rfl
      refine ⟨_, _, hasleep.turn .woke hwoke, by simp [hcalm], ?_, ?_⟩
      · rw [Worker.hear, Worker.take_stage, hreaction]
      · rw [Worker.hear, Worker.take_informer, hreaction, hinformer]
        show k.informer.failures + 1 = i.failures + (n + 1)
        omega

/-- One failed listing more ends the worker, whatever the configuration. -/
theorem Run.outage_ends (i : Informer) (hi : i.failures ≤ backoffLimit) {fault : Fault}
    (hf : fault.isGone = false) :
    ∃ h k, Run i h k ∧ .cancelled ∉ h ∧ k.isRunning = false := by
  obtain ⟨n, hn⟩ := Nat.exists_eq_add_of_le hi
  obtain ⟨h, k, hrun, hcalm, hstage, hfailures⟩ := Run.outage i hf (Nat.le_of_eq hn.symm)
  have hlist : k.stage.admits (.listFailed fault) = true := by rw [hstage]; rfl
  refine ⟨_, _, hrun.turn (.listFailed fault) hlist, by simp [hcalm], ?_⟩
  have hover : backoffLimit < k.informer.failures + 1 := by omega
  rw [Worker.isRunning, (k.hear_listFailed hf).2, Informer.backoffDelay_eq_error _ hover]
  rfl

/-- A worker that nobody called off has ended. -/
theorem Run.ends_in_outage :
    ∃ h k, Run (.new ⟨"", "v1", "pods", "", ""⟩ "" {}) h k ∧ .cancelled ∉ h ∧
      k.isRunning = false :=
  have hf : Fault.isGone (.transport "connection refused" .null) = false := rfl
  Run.outage_ends _ (Nat.zero_le _) hf

theorem Run.survival_in_outage :
    ∃ h k, Run (.new ⟨"", "v1", "pods", "", ""⟩ "" {}) h k ∧ .cancelled ∉ h ∧
      ¬h.bearable 0 ∧ k.stage = .awaiting (.crash (.misfit .floatRange)) := by
  have hf : Fault.isGone (.transport "connection refused" .null) = false := rfl
  obtain ⟨h, k, hrun, hcalm, hk⟩ :=
    Run.outage_ends (.new ⟨"", "v1", "pods", "", ""⟩ "" {}) (Nat.zero_le _) hf
  obtain ⟨hgoesOn, hcrash⟩ := Run.survival hrun hcalm
  refine ⟨h, k, hrun, hcalm, fun hbearable => ?_, hcrash hk⟩
  rw [hgoesOn.2 hbearable] at hk
  cases hk

end LiveCluster
