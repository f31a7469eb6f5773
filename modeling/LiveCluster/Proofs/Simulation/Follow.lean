import LiveCluster.Proofs.Simulation.Workers
import LiveCluster.Proofs.Watch.Staleness
import LiveCluster.Proofs.Watch.Survival

/-!
# Workers of a world follow runs

A run of a worker was told apart from the world around it: what comes of a command is
simply given. Here the two are put together. As long as an informer has one and the
same worker, that worker stands where some run has brought it, and the informer is what
the run has made of it; the run grows with what the worker does, and neither other tasks
nor requests from outside ever spoil it.

So whatever holds of every run holds of every worker of a session.
-/

namespace LiveCluster.Simulation

open Informer (Command Signal)

/-- Where the worker of an informer is found at a stage, and how it has ended. -/
inductive Fits (i : InformerId) : Stage → Point × Option (Ending Report) → Prop
  | going {g : Stage} {p : WorkerPoint} : p.Fits g → Fits i g (.worker i p, none)
  | crashed {fault : Fault} {p : Point} :
      Fits i (.awaiting (.crash fault)) (p, some (.failed fault))
  | cancelled {p : Point} : Fits i .cancelled (p, some .cancelled)

theorem WorkerPoint.Fits.isRunning {g : Stage} {p : WorkerPoint} (h : p.Fits g) :
    g.isRunning = true := by
  cases p with
  | signalled s => exact Stage.isRunning_of_admits h
  | held => rw [show g = .awaiting .list from h]; rfl
  | watching => exact Stage.isRunning_of_isStream h
  | asleep timer =>
      obtain ⟨delay, rfl⟩ : ∃ delay, g = .awaiting (.sleep delay) := h
      rfl

theorem Fits.of_going {i : InformerId} {g : Stage} {p : WorkerPoint}
    (h : Fits i g (.worker i p, none)) : p.Fits g := by
  cases h with
  | going hp => exact hp

theorem Fits.point {i : InformerId} {g : Stage} {p : Point} (h : Fits i g (p, none)) :
    ∃ q, p = .worker i q := by
  cases h with
  | going _ => exact ⟨_, rfl⟩

theorem Fits.crash {i : InformerId} {fault : Fault} {s : Point × Option (Ending Report)}
    (h : Fits i (.awaiting (.crash fault)) s) : ∃ p, s = (p, some (.failed fault)) := by
  cases h with
  | going hp => cases hp.isRunning
  | crashed => exact ⟨_, rfl⟩

theorem Fits.isRunning_iff {i : InformerId} {g : Stage} {s : Point × Option (Ending Report)}
    (h : Fits i g s) : g.isRunning = true ↔ s.2 = none := by
  cases h with
  | going hp => exact iff_of_true hp.isRunning rfl
  | crashed => exact iff_of_false Bool.noConfusion (by simp)
  | cancelled => exact iff_of_false Bool.noConfusion (by simp)

namespace World

variable {w v : World} {i : InformerId} {t : TaskId}

/-- The worker of an informer stands where a run has brought it, and the informer is what the
run has made of it; nobody else works for it, and its timer runs only if that of the run does. -/
structure Follows (w : World) (i : InformerId) (t : TaskId) (k : Worker) : Prop where
  worker : (w.informer i).worker = some t
  alone : w.Alone i t
  stands : ∃ s, w.loop.standing t = some s ∧ Fits i k.stage s
  cache : k.isRunning = true → (w.informer i).cache = k.informer
  timer : ∀ id, w.loop.arms id i → k.timer.isSome = true

theorem Follows.live_iff {k : Worker} (h : w.Follows i t k) : w.Live t ↔ k.isRunning = true := by
  obtain ⟨s, hs, hfits⟩ := h.stands
  rw [Worker.isRunning, hfits.isRunning_iff, Live, hs]
  constructor
  · rintro ⟨p, hp⟩
    cases hp
    rfl
  · intro hnone
    exact ⟨s.1, by rw [← hnone]⟩

/-- Other tasks do not disturb a worker. -/
theorem Follows.acts {k : Worker} {u : TaskId} (h : w.Follows i t k) (ha : Acts u w v)
    (hu : t ≠ u) (hw : (v.informer i).worker = some t) : v.Follows i t k := by
  obtain ⟨s, hs, hfits⟩ := h.stands
  have hi := lt_of_worker h.worker
  have ht := Loop.lt_of_standing hs
  have hkeeps := ha.keeps i t hu hi ht h.alone hw
  exact {
    worker := hw
    alone := ha.alone i t hi ht h.alone hw
    stands := ⟨s, hkeeps.standing.trans hs, hfits⟩
    cache := fun hk => (hkeeps.cache (h.live_iff.2 hk)).trans (h.cache hk)
    timer := fun id harms => h.timer id (hkeeps.arms id harms) }

/-! ## A turn of the worker -/

/-- A worker is about to carry a command out; its informer is what the reaction has made of it. -/
structure Engaged (w : World) (i : InformerId) (t : TaskId) (j : Informer) : Prop where
  worker : (w.informer i).worker = some t
  alone : w.Alone i t
  cache : (w.informer i).cache = j
  standing : ∃ p : WorkerPoint, w.loop.standing t = some (.worker i p, none)

variable {j : Informer}

theorem Alone.of_standing (h : w.Alone i t)
    (hs : ∀ u, u ≠ t → v.loop.standing u = w.loop.standing u) : v.Alone i t :=
  fun u hu hserves => h u hu (hserves.of_standing (hs u hu))

theorem Engaged.still (h : w.Engaged i t j) (hs : Still w v) : v.Engaged i t j where
  worker := (hs.worker i).trans h.worker
  alone := h.alone.of_standing fun u _ => hs.loop.standing u
  cache := (hs.cache i).trans h.cache
  standing := by
    obtain ⟨p, hp⟩ := h.standing
    exact ⟨p, (hs.loop.standing t).trans hp⟩

theorem Engaged.turns {k : Worker} (h : w.Engaged i t k.informer) (hturns : Turns t i k.stage w v)
    (htimer : ∀ id, w.loop.arms id i → k.timer.isSome = true) : v.Follows i t k := by
  obtain ⟨p, hp⟩ := h.standing
  obtain ⟨q, hq, hmoves⟩ := hturns.moves
  exact {
    worker := (hturns.worker i).trans h.worker
    alone := h.alone.of_standing hmoves.others
    stands := ⟨_, by rw [hmoves.own, hp]; rfl, .going hq⟩
    cache := fun _ => (hturns.cache i).trans h.cache
    timer := fun id harms => htimer id (hmoves.arms id i harms) }

theorem Engaged.ends {k : Worker} {ending : Ending Report} (h : w.Engaged i t j)
    (hfits : ∀ p, Fits i k.stage (p, some ending))
    (htimer : ∀ id, w.loop.arms id i → k.timer.isSome = true) :
    (w.finish t ending).Follows i t k := by
  obtain ⟨p, hp⟩ := h.standing
  have hends := w.loop.ends_finish t ending
  exact {
    worker := h.worker
    alone := h.alone.of_standing hends.others
    stands := ⟨_, by rw [show (w.finish t ending).loop = w.loop.finish t ending from rfl,
      hends.own, hp]; rfl, hfits _⟩
    cache := fun hk => by
      have hgoing := (hfits .closing).isRunning_iff.1 hk
      cases hgoing
    timer := fun id harms => htimer id (hends.arms id i harms) }

theorem Engaged.startTimer (h : w.Engaged i t j) : (w.startTimer i).Engaged i t j := by
  have hself : (w.startTimer i).informer i =
      { w.informer i with timer := some w.loop.nextTimer } :=
    setInformer_self _ (lt_of_worker h.worker)
  exact {
    worker := by rw [hself]; exact h.worker
    alone := h.alone.of_standing fun _ _ => rfl
    cache := by rw [hself]; exact h.cache
    standing := h.standing }

/-- A worker that carries a command out follows the run to the next turn. -/
theorem Engaged.execute {k : Worker} {c : Command} (h : w.Engaged i t j)
    (hleft : c ≠ .next → ∀ id, ¬w.loop.arms id i)
    (hkept : ∀ id, w.loop.arms id i → k.timer.isSome = true) :
    (w.execute t i c).Follows i t (k.take j c) := by
  cases c with
  | list => exact h.turns (k := k.take j .list) w.turns_callList fun id harms =>
      absurd harms (hleft (by simp) id)
  | watch version =>
      exact Engaged.turns (k := k.take j (.watch version))
        (h.startTimer.still (quiet_record _ _).still) (turns_takeFeed _ rfl) fun _ _ => rfl
  | next => exact h.turns (k := k.take j .next) (w.turns_takeFeed rfl) hkept
  | sleep delay =>
      exact h.turns (k := k.take j (.sleep delay)) (w.turns_fallAsleep delay) fun id harms =>
        absurd harms (hleft (by simp) id)
  | crash fault =>
      exact h.ends (k := k.take j (.crash fault)) (fun _ => .crashed) fun id harms =>
        absurd harms (hleft (by simp) id)

theorem Follows.signal {k : Worker} {p : WorkerPoint} {s : Signal} (h : w.Follows i t k)
    (hs : w.Sound) (hp : w.loop.standing t = some (.worker i p, none))
    (ha : k.stage.admits s = true) : (w.signal t i s).Follows i t (k.hear s) := by
  have hcache := h.cache (Stage.isRunning_of_admits ha)
  have hi := lt_of_worker h.worker
  let reaction := (w.informer i).cache.react s
  let v : World := w.setInformer i { w.informer i with cache := reaction.informer }
  have hself : v.informer i = { w.informer i with cache := reaction.informer } :=
    setInformer_self _ hi
  have hheard : v.Engaged i t reaction.informer := {
    worker := by rw [hself]; exact h.worker
    alone := h.alone.of_standing fun _ _ => rfl
    cache := by rw [hself]
    standing := ⟨p, hp⟩ }
  have hacts : Acts t w v :=
    .setInformer ⟨[.heard s], rfl⟩ (.inl rfl) (.inl rfl) (.inr (.inl ⟨_, hp, rfl⟩))
  have hleft := v.still_leaveWatch i reaction.command
  have htold := ((v.leaveWatch i reaction.command).quiet_announceSync i).trans
    (quiet_tellAll _ reaction.notes)
  have hsound := (htold.acts t).sound
    ((v.acts_leaveWatch t i reaction.command).sound (hacts.sound hs))
  have hturn := ((hheard.still hleft).still htold.still).execute (k := k)
    (fun hc => not_arms_of_no_timer hsound (v.timer_signalled i reaction.notes hc))
    (fun id harms => h.timer id (hleft.loop.arms id i (htold.loop.arms id i harms)))
  rw [Worker.hear, ← hcache]
  exact hturn

theorem Follows.engaged {k : Worker} {p : WorkerPoint} (h : w.Follows i t k)
    (hp : w.loop.standing t = some (.worker i p, none)) :
    w.Engaged i t (w.informer i).cache :=
  ⟨h.worker, h.alone, rfl, p, hp⟩

theorem Follows.fits {k : Worker} {p : WorkerPoint} (h : w.Follows i t k)
    (hp : w.loop.standing t = some (.worker i p, none)) : p.Fits k.stage := by
  obtain ⟨s, hs, hfits⟩ := h.stands
  rw [hp] at hs
  cases hs
  exact hfits.of_going

/-- A worker that was called off leaves no timer behind: either its watch is closed on the
way, or it had none. -/
theorem Follows.quit {k : Worker} {p : WorkerPoint} {past : History} (h : w.Follows i t k)
    (hs : w.Sound) (hagrees : Agrees past k) (hp : w.loop.standing t = some (.worker i p, none))
    (woken : Bool) : ((w.withdraw t i woken p).finish t .cancelled).Follows i t k.cancel := by
  have hstill := w.still_withdraw t i woken p
  have hsound := (w.acts_withdraw t i woken p).sound hs
  refine ((h.engaged hp).still hstill).ends (k := k.cancel) (fun _ => .cancelled) fun id harms => ?_
  exfalso
  rcases w.withdraw_cases t i woken p with ⟨-, hidle⟩ | ⟨v, -, hstopped⟩
  · have htimer := h.timer id (hstill.loop.arms id i harms)
    rw [hagrees.timer_of_not_isStream (hidle _ (h.fits hp))] at htimer
    cases htimer
  · rw [hstopped] at hsound harms
    exact not_arms_of_no_timer hsound (v.timer_stopTimer i) id harms

/-- What a worker does when its turn comes is the next act of its run, or none. -/
theorem Follows.runWorker {k : Worker} {p : WorkerPoint} {base : Informer} {past : History}
    (h : w.Follows i t k) (hs : w.Sound) (hrun : Run base past k)
    (hp : w.loop.standing t = some (.worker i p, none)) (a : Arrival) :
    ∃ present k', past <:+ present ∧ Run base present k' ∧
      (w.runWorker t i p a).Follows i t k' := by
  have hfits := h.fits hp
  have hsignal : ∀ s, k.stage.admits s = true → ∃ present k', past <:+ present ∧
      Run base present k' ∧ (w.signal t i s).Follows i t k' := fun s ha =>
    ⟨_, _, ⟨[_, _], rfl⟩, hrun.turn s ha, h.signal hs hp ha⟩
  cases a with
  | cancelled woken =>
      exact ⟨_, _, List.suffix_cons .cancelled past, hrun.cancel hfits.isRunning,
        h.quit hs hrun.agrees hp woken⟩
  | on =>
      cases p with
      | signalled s => exact hsignal s hfits
      | held =>
          refine hsignal _ ?_
          rw [show k.stage = .awaiting .list from hfits]
          rfl
      | watching =>
          have hengaged := h.engaged hp
          rw [h.cache hfits.isRunning] at hengaged
          exact ⟨past, k, List.suffix_refl past, hrun,
            hengaged.turns (w.turns_takeFeed hfits) h.timer⟩
      | asleep timer =>
          obtain ⟨delay, hstage⟩ : ∃ delay, k.stage = .awaiting (.sleep delay) := hfits
          refine hsignal .woke ?_
          rw [hstage]
          rfl

/-! ## The alarm of a watch -/

/-- What happens to another informer does not disturb a worker. -/
theorem Follows.other {k : Worker} {n : InformerId} (h : w.Follows i t k) (hc : Changes n w v)
    (hn : i ≠ n) : v.Follows i t k := by
  obtain ⟨s, hs, hfits⟩ := h.stands
  have hsame := hc.others i hn
  exact {
    worker := by rw [hsame]; exact h.worker
    alone := h.alone.of_standing fun u _ => hc.loop.standing u
    stands := ⟨s, (hc.loop.standing t).trans hs, hfits⟩
    cache := fun hk => by rw [hsame]; exact h.cache hk
    timer := fun id harms => h.timer id (hc.loop.arms id i harms) }

/-- The informer whose watch a timer belongs to, when that timer has run out. -/
def establishedBy (w : World) (i : InformerId) (id : TimerId) : World :=
  let x := w.informer i
  { w.setInformer i { x with cache := x.cache.establish.1, timer := none } with
    loop := w.loop.cancelTimer id }

theorem changes_establishedBy {id : TimerId} (harms : w.loop.arms id i) :
    Changes i w (w.establishedBy i id) := by
  refine .setInformer ⟨[.alarm], rfl⟩ (fun _ _ hw => hw) (w.loop.soft_cancelTimer id) ?_
  intro hs id' harms'
  -- it was the only timer of that informer
  obtain ⟨hother, hne⟩ := Loop.arms_cancelTimer harms'
  have hknown := hs.timers id i harms
  rw [hs.timers id' i hother, Option.some.injEq] at hknown
  exact absurd hknown hne

/-- The alarm of a watch is the next act of the run. -/
theorem Follows.alarm {k : Worker} {base : Informer} {past : History} {id : TimerId}
    (h : w.Follows i t k) (hs : w.Sound) (hrun : Run base past k) (harms : w.loop.arms id i) :
    ∃ n, Run base (.alarm n :: past) (k.ring n) ∧
      (w.establishedBy i id).Follows i t (k.ring n) := by
  obtain ⟨n, hn⟩ := Option.isSome_iff_exists.1 (h.timer id harms)
  obtain ⟨s, hstanding, hfits⟩ := h.stands
  have hc := changes_establishedBy harms
  have hself : (w.establishedBy i id).informer i =
      { w.informer i with cache := (w.informer i).cache.establish.1, timer := none } :=
    setInformer_self _ (lt_of_worker h.worker)
  refine ⟨n, hrun.alarm n, ?_⟩
  rw [Worker.ring_of_eq hn]
  exact {
    worker := by rw [hself]; exact h.worker
    alone := h.alone.of_standing fun u _ => hc.loop.standing u
    stands := ⟨s, (hc.loop.standing t).trans hstanding, hfits⟩
    cache := fun hk => by
      rw [hself, ← h.cache hk]
    timer := fun id' harms' => by
      have hnone := hc.timer hs id' harms'
      rw [hself] at hnone
      cases hnone }

/-! ## Runs grow -/

/-- The worker of an informer follows a run of which this is the history. -/
def Tracks (w : World) (i : InformerId) (t : TaskId) (base : Informer) (past : History) : Prop :=
  ∃ k, Run base past k ∧ w.Follows i t k

/-- Something happens in a world, and as far as a worker has a part in it, it is what happens
next in its run. -/
structure Carries (w w' : World) : Prop extends Evolves w w' where
  tracks : ∀ {i t base past}, w.Sound → w.Tracks i t base past →
    (w'.informer i).worker = some t → ∃ present, past <:+ present ∧ w'.Tracks i t base present

theorem Carries.refl (w : World) : Carries w w where
  toEvolves := .refl w
  tracks _ htracks _ := ⟨_, List.suffix_refl _, htracks⟩

theorem Carries.trans {w v x : World} (h : Carries w v) (h' : Carries v x) : Carries w x where
  toEvolves := h.toEvolves.trans h'.toEvolves
  tracks hs htracks hw := by
    obtain ⟨k, hrun, hfollows⟩ := htracks
    obtain ⟨s, hstanding, -⟩ := hfollows.stands
    have hi := Nat.lt_of_lt_of_le (lt_of_worker hfollows.worker) h.informers
    have ht := Nat.lt_of_lt_of_le (Loop.lt_of_standing hstanding) h.tasks
    obtain ⟨present, hpast, htracks⟩ := h.tracks hs ⟨k, hrun, hfollows⟩ (h'.worker _ _ hi ht hw)
    obtain ⟨later, hpresent, htracks⟩ := h'.tracks (h.sound hs) htracks hw
    exact ⟨later, hpast.trans hpresent, htracks⟩

/-- What no task does itself has no part in any run. -/
theorem Carries.of_acts (h : ∀ u, Acts u w v) : Carries w v where
  toEvolves := (h 0).toEvolves
  tracks _ htracks hw := by
    obtain ⟨k, hrun, hfollows⟩ := htracks
    have hfollows' := hfollows.acts (h _) (Nat.ne_of_lt (Nat.lt_succ_self _)) hw
    exact ⟨_, List.suffix_refl _, k, hrun, hfollows'⟩

theorem Quiet.carries (h : Quiet w v) : Carries w v :=
  .of_acts fun u => h.acts u

/-- A task goes on from where it stands. -/
theorem carries_runPoint {p : Point} (hp : w.loop.standing t = some (p, none)) (a : Arrival) :
    Carries w (w.runPoint t p a) where
  toEvolves := (acts_runPoint hp a).toEvolves
  tracks {i u base past} hs htracks hw := by
    obtain ⟨k, hrun, hfollows⟩ := htracks
    by_cases hu : u = t
    · subst hu
      obtain ⟨s, hstanding, hfits⟩ := hfollows.stands
      rw [hp] at hstanding
      cases hstanding
      obtain ⟨q, rfl⟩ := hfits.point
      obtain ⟨present, k', hpast, hrun', hfollows'⟩ := hfollows.runWorker hs hrun hp a
      exact ⟨present, hpast, k', hrun', hfollows'⟩
    · exact ⟨past, List.suffix_refl past, k, hrun, hfollows.acts (acts_runPoint hp a) hu hw⟩

theorem carries_alarm {id : TimerId} (harms : w.loop.arms id i) :
    Carries w (w.establishedBy i id) where
  toEvolves := (changes_establishedBy harms).evolves
  tracks {n t base past} hs htracks _ := by
    obtain ⟨k, hrun, hfollows⟩ := htracks
    by_cases hn : n = i
    · subst hn
      obtain ⟨m, hrun', hfollows'⟩ := hfollows.alarm hs hrun harms
      exact ⟨_, List.suffix_cons (.alarm m) past, _, hrun', hfollows'⟩
    · exact ⟨past, List.suffix_refl past, k, hrun,
        hfollows.other (changes_establishedBy harms) hn⟩

/-- Every job of the queue carries runs on. -/
theorem carries_run (w : World) (job : Job) : Carries w (w.run job) := by
  unfold run
  cases job with
  | resume t =>
      dsimp only
      split
      · next loop p a harrive =>
          obtain ⟨hp, hsoft⟩ := Loop.arrive_standing harrive
          let v : World := { w with loop := loop }
          have hquiet : Quiet w v := .of_eq rfl rfl hsoft
          have hp' : v.loop.standing t = some (p, none) := (hsoft.standing t).trans hp
          exact hquiet.carries.trans (carries_runPoint hp' a)
      · exact .refl w
  | notify t turn => exact (w.quiet_withLoop (w.loop.soft_notify t turn)).carries
  | tick t => exact (w.quiet_withLoop (w.loop.soft_tick t)).carries
  | alarm id =>
      dsimp only
      split
      · next alarm loop htake =>
          obtain ⟨rfl, harms⟩ := Loop.takeAlarm?_spec htake
          have hquiet : Quiet w { w with loop := w.loop.cancelTimer id } :=
            .of_eq rfl rfl (w.loop.soft_cancelTimer id)
          cases alarm with
          | wake t =>
              exact (hquiet.trans (quiet_withLoop _ (f := (·.wake t)) (Loop.soft_wake _ t))).carries
          | expire t =>
              exact (hquiet.trans
                (quiet_withLoop _ (f := (·.expire t)) (Loop.soft_expire _ t))).carries
          | establish i =>
              exact (carries_alarm (harms i rfl)).trans
                (quiet_tellAll _ (w.informer i).cache.establish.2).carries
      · exact .refl w

theorem quiet_nextRound (w : World) : Quiet w w.nextRound := by
  unfold nextRound
  split
  · exact w.quiet_withLoop w.loop.soft_beginRound
  · exact .refl w

theorem carries_step {w v : World} (h : w.step? = some v) : Carries w v := by
  unfold step? at h
  have hround := w.quiet_nextRound
  dsimp only at h
  split at h
  · cases h
  · next job rest _ =>
      cases h
      have htaken : Quiet w { w.nextRound with
          loop := { w.nextRound.loop with ready := rest, round := w.nextRound.loop.round - 1 } } :=
        hround.trans (.of_eq rfl rfl (Loop.soft_of_eq rfl rfl))
      exact htaken.carries.trans (carries_run _ job)

theorem carries_settleWithin (n : Nat) (w : World) : Carries w (w.settleWithin n) := by
  induction n generalizing w with
  | zero => exact .refl w
  | succ n ih =>
      unfold settleWithin
      split
      · next v hstep => exact (carries_step hstep).trans (ih v)
      · exact .refl w

theorem carries_settle (w : World) : Carries w w.settle :=
  carries_settleWithin patience w

/-- Letting time pass carries runs on. -/
theorem carries_advanceWithin (n : Nat) (w : World) (target : Float) :
    Carries w (w.advanceWithin n target) := by
  have hpass : ∀ (w : World) (now : Float),
      Carries w (settle { w with loop := { w.loop with now := now } }) := by
    intro w now
    have hnow : Quiet w { w with loop := { w.loop with now := now } } :=
      .of_eq rfl rfl (Loop.soft_of_eq rfl rfl)
    exact hnow.carries.trans (carries_settle _)
  induction n generalizing w with
  | zero => exact .refl w
  | succ n ih =>
      unfold advanceWithin
      split
      · split
        · exact (hpass w _).trans (ih _)
        · exact hpass w target
      · exact hpass w target

theorem carries_advance (w : World) (seconds : Float) : Carries w (w.advance seconds) :=
  carries_advanceWithin patience w _

/-! ## Where runs begin -/

/-- A worker that is started for an informer that nobody works for begins a run. -/
theorem follows_startWorker (hi : i < w.informers.length) (hidle : w.isRunning i = false)
    (hserves : ∀ u, ¬w.Serves u i) (harms : ∀ id, ¬w.loop.arms id i) :
    (w.startWorker i).Follows i w.loop.tasks.length (.begin (w.informer i).cache) := by
  let p : Point := .worker i (.signalled .started)
  let cache : Informer := { (w.informer i).cache with state := .watching }
  let x : Watched := { w.informer i with cache := cache, worker := some w.loop.tasks.length }
  have hstart : w.startWorker i = (w.spawn p).1.setInformer i x := by
    rw [startWorker, if_neg (by rw [hidle]; exact Bool.noConfusion)]
    rfl
  have hself : ((w.spawn p).1.setInformer i x).informer i = x := setInformer_self x hi
  rw [hstart]
  exact {
    worker := by rw [hself]
    alone := fun u hu h => by
      rcases serves_spawn h with hold | ⟨hnew, -⟩
      · exact hserves u hold
      · exact hu hnew
    stands := by
      refine ⟨(p, none), ?_, .going rfl⟩
      exact (w.loop.standing_spawn p _).trans (if_pos rfl)
    cache := fun _ => by rw [hself]; rfl
    timer := fun id h => absurd h (harms id) }

/-- An informer is made as new, and nobody works for it. -/
theorem addInformer_spec (w : World) (f : FactoryId) (rid : ResourceId) (ns : String) :
    ∃ u : World, u.loop = w.loop ∧
      u.informers = w.informers ++ [{ cache := .new rid ns (w.factory f).config }] ∧
      Quiet u (w.addInformer f rid ns).1 := by
  let cache : Informer := .new rid ns (w.factory f).config
  let u : World := { w with informers := w.informers ++ [{ cache := cache }] }
  refine ⟨u.setFactory f { w.factory f with
    informers := (w.factory f).informers.set cache.key w.informers.length }, rfl, rfl, ?_⟩
  unfold addInformer
  dsimp only
  exact quiet_tell _ _

theorem follows_addInformer (hs : w.Sound) (f : FactoryId) (rid : ResourceId) (ns : String) :
    ((w.addInformer f rid ns).1.startWorker w.informers.length).Follows w.informers.length
      w.loop.tasks.length (.begin (.new rid ns (w.factory f).config)) := by
  have hlt := w.addInformer_lt f rid ns
  have hsound := (w.acts_addInformer 0 f rid ns).sound hs
  obtain ⟨u, hloop, hinformers, hquiet⟩ := w.addInformer_spec f rid ns
  have hself : u.informer w.informers.length = { cache := .new rid ns (w.factory f).config } := by
    rw [informer, hinformers, List.getElem?_concat_length]
    rfl
  generalize (w.addInformer f rid ns).1 = v at hlt hsound hquiet ⊢
  have hfollows := follows_startWorker (i := w.informers.length) hlt
    (by rw [isRunning, hquiet.worker, hself])
    (by
      rintro x ⟨p, hp, hi⟩
      have hserves : w.Serves x w.informers.length :=
        ⟨p, by rw [← hloop, ← hquiet.loop.standing, hp], hi⟩
      exact Nat.lt_irrefl _ (hs.serves _ _ hserves))
    (by
      intro id harms
      have htimer := hsound.timers id _ harms
      rw [hquiet.timer, hself] at htimer
      cases htimer)
  rwa [hquiet.cache, hself, hquiet.loop.length, hloop] at hfollows

/-- The first request for a scope makes an informer, whose worker begins a run. -/
theorem tracks_ensureWatch {f : FactoryId} {rid : ResourceId} {ns : String} (hs : w.Sound)
    (hopen : (w.factory f).stopped = false) (hnew : w.lookup f rid ns = none) :
    (w.ensureWatch f rid ns true).1.Tracks w.informers.length w.loop.tasks.length
      (.new rid (w.scopeNamespace rid ns) (w.factory f).config) [] := by
  have hfind : w.findInformer f rid ns = w.addInformer f rid (w.scopeNamespace rid ns) := by
    rw [findInformer, hnew]
  have hstart : (w.ensureWatch f rid ns true).1 =
      (w.addInformer f rid (w.scopeNamespace rid ns)).1.startWorker w.informers.length := by
    rw [ensureWatch, hopen, hfind]
    rfl
  rw [hstart]
  exact ⟨_, .begin, follows_addInformer hs f rid _⟩

/-! ## What runs say of a world -/

variable {base : Informer} {past : History}

/-- A worker that was not called off is running exactly as long as it can bear its failures. -/
theorem Tracks.isRunning_iff (h : w.Tracks i t base past) (hcalm : .cancelled ∉ past) :
    w.isRunning i = true ↔ past.bearable base.failures := by
  obtain ⟨k, hrun, hfollows⟩ := h
  rw [World.isRunning_iff hfollows.worker, hfollows.live_iff]
  exact hrun.isRunning_iff hcalm

/-- One that is not has ended with the fault of a number that is out of range. -/
theorem Tracks.ending (h : w.Tracks i t base past) (hcalm : .cancelled ∉ past)
    (hr : w.isRunning i = false) :
    ∃ p, w.loop.standing t = some (p, some (.failed (.misfit .floatRange))) := by
  obtain ⟨k, hrun, hfollows⟩ := h
  have hk : k.isRunning = false := by
    rw [Bool.eq_false_iff] at hr ⊢
    rwa [Ne, ← hfollows.live_iff, ← World.isRunning_iff hfollows.worker]
  obtain ⟨s, hstanding, hfits⟩ := hfollows.stands
  rw [hrun.crashed hcalm hk] at hfits
  obtain ⟨p, hp⟩ := hfits.crash
  exact ⟨p, hp ▸ hstanding⟩

/-- As long as its worker is running, a cache is stale exactly when the failures since a watch
was last established are as many as the threshold says. -/
theorem Tracks.state {rid : ResourceId} {ns : String} {config : WatchConfig}
    (h : w.Tracks i t (.new rid ns config) past) (hr : w.isRunning i = true)
    (hthr : 1 ≤ config.staleThreshold) :
    (w.informer i).cache.failures = past.failures 0 ∧
      (w.informer i).cache.state =
        if config.staleThreshold ≤ past.failures 0 then .stale else .watching := by
  obtain ⟨k, hrun, hfollows⟩ := h
  have hk : k.isRunning = true := hfollows.live_iff.1 ((World.isRunning_iff hfollows.worker).1 hr)
  have hfailures : k.informer.failures = past.failures 0 := hrun.failures hk
  have hstep := hrun.inStep hk hthr
  rw [Informer.InStep, hrun.config, hfailures] at hstep
  rw [hfollows.cache hk]
  exact ⟨hfailures, hstep⟩

end World

end LiveCluster.Simulation
