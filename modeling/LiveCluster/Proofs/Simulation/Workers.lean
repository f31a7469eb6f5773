import LiveCluster.Proofs.Simulation.Routines

/-!
# What workers do

A worker that carries a command out goes to a point at which it is told what came of
it, or waits for that. Its timer runs only while its watch is open. With this every
routine is known to be one of those in `Acts`.
-/

namespace LiveCluster.Simulation

open Loop (Soft)

/-- Where a worker may stand at a stage. -/
def WorkerPoint.Fits (g : Stage) : WorkerPoint → Prop
  | .signalled s => g.admits s = true
  | .held => g = .awaiting .list
  | .watching => g.isStream = true
  | .asleep _ => ∃ delay, g = .awaiting (.sleep delay)

namespace World

/-- A worker goes to a point at which it may stand at a stage, and that is all. -/
structure Turns (t : TaskId) (i : InformerId) (g : Stage) (w w' : World) : Prop
    extends SameInformers w w' where
  moves : ∃ p : WorkerPoint, p.Fits g ∧ Loop.Moves t (.worker i p) w.loop w'.loop

variable {w v : World} {t : TaskId} {i : InformerId} {g : Stage}

theorem Quiet.turns {w v x : World} (h : Quiet w v) (h' : Turns t i g v x) : Turns t i g w x where
  toSameInformers := h.toSameInformers.trans h'.toSameInformers
  moves := by
    obtain ⟨p, hp, hmoves⟩ := h'.moves
    exact ⟨p, hp, h.loop.touches hmoves⟩

theorem Turns.acts (h : Turns t i g w v) (hs : w.Serves t i) : Acts t w v := by
  obtain ⟨p, -, hmoves⟩ := h.moves
  refine .of_moves h.toSameInformers hmoves fun j hj => ?_
  cases hj
  exact .inl hs

/-- Nothing was done to informers and tasks but that timers were stopped. -/
structure Still (w w' : World) : Prop where
  length : w'.informers.length = w.informers.length
  cache : ∀ i, (w'.informer i).cache = (w.informer i).cache
  worker : ∀ i, (w'.informer i).worker = (w.informer i).worker
  loop : Soft w.loop w'.loop

theorem Quiet.still (h : Quiet w v) : Still w v :=
  ⟨h.length, h.cache, h.worker, h.loop⟩

theorem Still.trans {w v x : World} (h : Still w v) (h' : Still v x) : Still w x where
  length := h'.length.trans h.length
  cache j := (h'.cache j).trans (h.cache j)
  worker j := (h'.worker j).trans (h.worker j)
  loop := h.loop.trans h'.loop

theorem Still.serves (h : Still w v) {u : TaskId} (hs : w.Serves u i) : v.Serves u i := by
  obtain ⟨p, hp, hi⟩ := hs
  exact ⟨p, (h.loop.standing u).trans hp, hi⟩

theorem turns_goOn (w : World) {p : WorkerPoint} (hp : p.Fits g) :
    Turns t i g w (w.goOn t (.worker i p)) where
  toSameInformers := .of_eq rfl rfl
  moves := ⟨p, hp, w.loop.moves_goOn t _⟩

theorem turns_await (w : World) {p : WorkerPoint} (hp : p.Fits g) :
    Turns t i g w (w.await t (.worker i p)) where
  toSameInformers := .of_eq rfl rfl
  moves := ⟨p, hp, w.loop.moves_suspend t _ .signal⟩

/-! ## Commands -/

theorem turns_callList (w : World) : Turns t i (.awaiting .list) w (w.callList t i) := by
  unfold callList
  dsimp only
  split
  · next fault _ _ =>
      refine Quiet.turns ?_ (turns_goOn _ (p := .signalled (.listFailed fault)) rfl)
      exact .of_eq rfl rfl (.refl _)
  · split
    · refine Quiet.turns ?_ (turns_await _ (p := .held) rfl)
      exact .of_eq rfl rfl (.refl _)
    · exact (w.quiet_record _).turns (turns_goOn _ (p := .signalled _) rfl)

theorem fits_signalOf (hg : g.isStream = true) (item : FeedItem) :
    (WorkerPoint.signalled (signalOf item)).Fits g := by
  cases g with
  | created | cancelled => cases hg
  | awaiting c =>
      cases c with
      | watch _ | next => cases item <;> rfl
      | list | sleep _ | crash _ => cases hg

theorem turns_takeFeed (w : World) (hg : g.isStream = true) :
    Turns t i g w (w.takeFeed t i) := by
  unfold takeFeed
  dsimp only
  split
  · next item feed loop h =>
      refine Quiet.turns ?_ (turns_goOn _ (fits_signalOf hg item))
      exact .of_eq rfl rfl (Channel.soft_take? h)
  · refine Quiet.turns ?_ (turns_await _ (p := .watching) hg)
    exact .of_eq rfl rfl (.refl _)

theorem turns_fallAsleep (w : World) (delay : Float) :
    Turns t i (.awaiting (.sleep delay)) w (w.fallAsleep t i delay) := by
  unfold fallAsleep
  split
  · exact {
      toSameInformers := .of_eq rfl rfl
      moves := ⟨.asleep none, ⟨delay, rfl⟩, w.loop.moves_giveWay t _⟩ }
  · refine Quiet.turns ?_ (turns_await _ (p := .asleep (some _)) ⟨delay, rfl⟩)
    exact .of_eq rfl rfl (w.loop.soft_startTimer delay (.wake t) (by simp))

/-! ## The timer of a watch -/

theorem still_stopTimer (w : World) (i : InformerId) : Still w (w.stopTimer i) := by
  unfold stopTimer
  split
  · exact (Quiet.refl w).still
  · next timer _ =>
      let x : Watched := { w.informer i with timer := none }
      exact {
        length := length_setInformer ..
        cache := setInformer_congr (x := x) Watched.cache rfl
        worker := setInformer_congr (x := x) Watched.worker rfl
        loop := w.loop.soft_cancelTimer timer }

theorem timer_stopTimer (w : World) (i : InformerId) :
    ((w.stopTimer i).informer i).timer = none := by
  cases htimer : (w.informer i).timer with
  | none => rw [stopTimer, htimer, htimer]
  | some timer =>
      have hi := lt_of_timer htimer
      rw [stopTimer, htimer]
      exact congrArg Watched.timer (setInformer_self _ hi)

theorem still_leaveWatch (w : World) (i : InformerId) (c : Informer.Command) :
    Still w (w.leaveWatch i c) := by
  cases c with
  | next => exact (Quiet.refl w).still
  | list | watch _ | sleep _ | crash _ => exact w.still_stopTimer i

theorem timer_leaveWatch (w : World) (i : InformerId) {c : Informer.Command} (hc : c ≠ .next) :
    ((w.leaveWatch i c).informer i).timer = none := by
  cases c with
  | next => exact absurd rfl hc
  | list | watch _ | sleep _ | crash _ => exact w.timer_stopTimer i

theorem acts_leaveWatch (u : TaskId) (w : World) (i : InformerId) (c : Informer.Command) :
    Acts u w (w.leaveWatch i c) := by
  cases c with
  | next => exact .refl u w
  | list | watch _ | sleep _ | crash _ => exact .stopTimer u w i

theorem not_arms_of_no_timer (hs : w.Sound) (htimer : (w.informer i).timer = none)
    (id : TimerId) : ¬w.loop.arms id i := by
  intro harms
  have hknown := hs.timers id i harms
  rw [htimer] at hknown
  cases hknown

theorem acts_startTimer (hserves : w.Serves t i) (htimer : (w.informer i).timer = none) :
    Acts t w (w.startTimer i) := by
  let v : World := w.setInformer i { w.informer i with timer := some w.loop.nextTimer }
  have hset : Acts t w v :=
    .setInformer ⟨[], rfl⟩ (.inl rfl) (.inr fun hs => not_arms_of_no_timer hs htimer) (.inl rfl)
  refine hset.trans (.startLoopTimer (w := v) _ hserves fun hs => ?_)
  have hi := hs.serves t i hserves
  rw [length_setInformer] at hi
  rw [setInformer_self _ hi]
  rfl

/-! ## Reactions -/

theorem quiet_announceSync (w : World) (i : InformerId) : Quiet w (w.announceSync i) := by
  unfold announceSync
  dsimp only
  split
  · have hset : Quiet w (w.setInformer i { w.informer i with waiters := [] }) :=
      ⟨.setInformer rfl rfl rfl, .refl _⟩
    exact hset.trans (.of_eq rfl rfl (w.loop.soft_wakeAll _))
  · exact .refl w

theorem acts_execute (hserves : w.Serves t i) {c : Informer.Command}
    (htimer : c ≠ .next → (w.informer i).timer = none) : Acts t w (w.execute t i c) := by
  cases c with
  | list => exact w.turns_callList.acts hserves
  | watch version =>
      refine (acts_startTimer hserves (htimer (by simp))).trans ?_
      exact ((quiet_record _ _).turns (turns_takeFeed _ (g := .awaiting .next) rfl)).acts hserves
  | next => exact (w.turns_takeFeed (g := .awaiting .next) rfl).acts hserves
  | sleep delay => exact (w.turns_fallAsleep delay).acts hserves
  | crash fault => exact w.acts_finish t _

/-- The informer after a reaction, before the command is carried out. -/
theorem timer_signalled (w : World) (i : InformerId) {c : Informer.Command} (notes : List Note)
    (hc : c ≠ .next) :
    (((((w.leaveWatch i c).announceSync i).tellAll notes).informer i).timer) = none := by
  rw [(quiet_tellAll _ notes).timer, (quiet_announceSync _ i).timer]
  exact w.timer_leaveWatch i hc

theorem acts_signal (hserves : w.Serves t i) (s : Informer.Signal) :
    Acts t w (w.signal t i s) := by
  let reaction := (w.informer i).cache.react s
  let v : World := w.setInformer i { w.informer i with cache := reaction.informer }
  have hheard : Acts t w v :=
    .setInformer ⟨[.heard s], rfl⟩ (.inl rfl) (.inl rfl) (.inr (.inl hserves))
  have hleft := v.acts_leaveWatch t i reaction.command
  have htold := ((v.leaveWatch i reaction.command).quiet_announceSync i).trans
    (quiet_tellAll _ reaction.notes)
  have hserves' := ((v.still_leaveWatch i reaction.command).trans htold.still).serves hserves
  exact ((hheard.trans hleft).trans (htold.acts t)).trans
    (acts_execute hserves' (v.timer_signalled i _))

/-- A cancelled worker wakes others, if that, and stops its timer if its watch may be open. -/
theorem withdraw_cases (w : World) (t : TaskId) (i : InformerId) (woken : Bool)
    (p : WorkerPoint) :
    (Quiet w (w.withdraw t i woken p) ∧ ∀ g, p.Fits g → g.isStream = false) ∨
      ∃ v, Quiet w v ∧ w.withdraw t i woken p = v.stopTimer i := by
  cases p with
  | signalled _ => exact .inr ⟨w, .refl w, rfl⟩
  | watching =>
      refine .inr ⟨_, ?_, rfl⟩
      exact .of_eq rfl rfl (Channel.soft_leaveTakers _ w.loop t woken)
  | held =>
      refine .inl ⟨.of_eq rfl rfl (.refl _), ?_⟩
      rintro g rfl
      rfl
  | asleep timer =>
      have hidle : ∀ g, (WorkerPoint.asleep timer).Fits g → g.isStream = false := by
        rintro g ⟨delay, rfl⟩
        rfl
      cases timer with
      | none => exact .inl ⟨.refl w, hidle⟩
      | some id => exact .inl ⟨.of_eq rfl rfl (w.loop.soft_cancelTimer id), hidle⟩

theorem still_withdraw (w : World) (t : TaskId) (i : InformerId) (woken : Bool)
    (p : WorkerPoint) : Still w (w.withdraw t i woken p) := by
  rcases w.withdraw_cases t i woken p with ⟨hquiet, -⟩ | ⟨v, hquiet, h⟩
  · exact hquiet.still
  · rw [h]
    exact hquiet.still.trans (v.still_stopTimer i)

theorem acts_withdraw (w : World) (t : TaskId) (i : InformerId) (woken : Bool)
    (p : WorkerPoint) : Acts t w (w.withdraw t i woken p) := by
  rcases w.withdraw_cases t i woken p with ⟨hquiet, -⟩ | ⟨v, hquiet, h⟩
  · exact hquiet.acts t
  · rw [h]
    exact (hquiet.acts t).trans (.stopTimer t v i)

theorem acts_runWorker (hserves : w.Serves t i) (p : WorkerPoint) (a : Arrival) :
    Acts t w (w.runWorker t i p a) := by
  cases a with
  | cancelled woken => exact (w.acts_withdraw t i woken p).trans (acts_finish _ t _)
  | on =>
      cases p with
      | signalled s => exact acts_signal hserves s
      | held => exact acts_signal hserves _
      | watching => exact (w.turns_takeFeed (g := .awaiting .next) rfl).acts hserves
      | asleep _ => exact acts_signal hserves .woke

/-- Whatever a task does from where it stands, it leaves the other workers alone. -/
theorem acts_runPoint {p : Point} (hp : w.loop.standing t = some (p, none)) (a : Arrival) :
    Acts t w (w.runPoint t p a) := by
  cases p with
  | worker i p => exact acts_runWorker ⟨_, hp, rfl⟩ p a
  | planning op plan =>
      cases a with
      | on => exact w.acts_carryOut t op plan
      | cancelled _ => exact w.acts_finish t _
  | syncing op i next => exact w.acts_runSyncing t op i next a
  | reporting call targets pods d => exact w.acts_runReporting t call targets pods d a
  | supervising call tasks pending => exact w.acts_runSupervising t call tasks pending a
  | clearing call cancelled => exact w.acts_runClearing t call cancelled a
  | stream s p => exact w.acts_runStream t s p a
  | giving s d => exact w.acts_runGiving t s d a
  | taking s => exact w.acts_runTaking t s a
  | awaitingClose s => exact w.acts_runAwaitingClose t s a
  | getting s collected race => exact w.acts_runGetting t s collected race a
  | stopping reason current rest =>
      refine w.acts_runStopping t reason rest a ?_
      rintro i worker rfl
      exact ⟨_, hp, rfl⟩
  | stoppingScope f rid ns twice => exact w.acts_runStoppingScope t f rid ns twice a
  | stoppingFactory f => exact w.acts_runStoppingFactory t f a
  | application s => exact w.acts_runApplication t s a
  | closing => exact w.acts_runClosing t a

end World

end LiveCluster.Simulation
