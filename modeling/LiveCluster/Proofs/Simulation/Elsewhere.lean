import LiveCluster.Proofs.Simulation.Steps

/-!
# What is left alone at a sink

Workers, the application and who stops informers work at no sink. With them every routine
is known to be one of those in `Works`, and so is every job of the queue. What concerns
one sink, the sink itself and the tasks that work at it, is left `Away` from by all others.
-/

namespace LiveCluster.Simulation

open Loop (Gentle TaskEases)

namespace World

variable (w : World) (t : TaskId) {f : Option SinkId} {hit : TaskId → Prop} {s : SinkId}

/-! ## Workers -/

theorem mild_announceSync (i : InformerId) : Mild f w (w.announceSync i) := by
  unfold announceSync
  dsimp only
  split
  · exact .of_informer w (w.loop.gentle_wakeAll _) fun v hv => .inl hv
  · exact .refl f w

theorem mild_stopTimer (i : InformerId) : Mild f w (w.stopTimer i) := by
  unfold stopTimer
  split
  · exact .refl f w
  · exact .of_informer w (w.loop.gentle_cancelTimer _) fun v hv => .inl hv

theorem mild_leaveWatch (i : InformerId) (c : Informer.Command) : Mild f w (w.leaveWatch i c) := by
  cases c with
  | next => exact .refl f w
  | list | watch _ | sleep _ | crash _ => exact w.mild_stopTimer i

theorem mild_startTimer (i : InformerId) : Mild f w (w.startTimer i) :=
  .of_informer w (w.loop.gentle_startTimer _ (.establish i) (by simp)) fun v hv => .inl hv

theorem mild_withdraw (i : InformerId) (woken : Bool) (p : WorkerPoint) :
    Mild f w (w.withdraw t i woken p) := by
  cases p with
  | signalled _ => exact w.mild_stopTimer i
  | held => exact .of_eq (.refl _ _) rfl rfl
  | watching =>
      have hleave : Mild f w { w with
          cluster := w.cluster.setFeed (w.informer i).cache.key
            ((w.cluster.feed (w.informer i).cache.key).leaveTakers w.loop t woken).1
          loop := ((w.cluster.feed (w.informer i).cache.key).leaveTakers w.loop t woken).2 } :=
        .of_eq (Channel.gentle_leaveTakers _ w.loop t woken) rfl rfl
      exact hleave.trans (mild_stopTimer _ i)
  | asleep timer =>
      cases timer with
      | none => exact .refl f w
      | some id => exact w.mild_cancelTimer id

theorem mild_establish (i : InformerId) : Mild f w (w.establish i) := by
  have hset : Mild f w (w.setInformer i { w.informer i with
      cache := (w.informer i).cache.establish.1, timer := none }) :=
    w.mild_setInformer fun v hv => .inl hv
  exact hset.trans (mild_tellAll _ _)

theorem works_callList (i : InformerId) (hseat : w.Seat t none false) :
    Works t none hit w (w.callList t i) := by
  have hrecord : Mild none w _ :=
    w.mild_record (.list (w.informer i).cache.rid.kindText (w.informer i).cache.ns)
  unfold callList
  dsimp only
  split
  · next fault cluster _ =>
      have hcluster : Mild none w { w.record (.list (w.informer i).cache.rid.kindText
          (w.informer i).cache.ns) with cluster := cluster } := .of_eq (.refl _ _) rfl rfl
      exact (hcluster.works t).trans (.goOn (hcluster.seats _ _ _ hseat) ⟨rfl, rfl⟩)
  · split
    · next waiters _ =>
        refine Works.trans (Mild.works ?_ t) (.await ?_ ⟨rfl, rfl⟩)
        · exact .of_eq (.refl _ _) rfl rfl
        · exact hseat
    · exact (hrecord.works t).trans (.goOn (hrecord.seats _ _ _ hseat) ⟨rfl, rfl⟩)

theorem works_takeFeed (i : InformerId) (hseat : w.Seat t none false) :
    Works t none hit w (w.takeFeed t i) := by
  unfold takeFeed
  dsimp only
  split
  · next item feed loop h =>
      have htake : Mild none w { w with
          cluster := w.cluster.setFeed (w.informer i).cache.key feed, loop := loop } :=
        .of_eq (Channel.gentle_take? h) rfl rfl
      exact (htake.works t).trans (.goOn (htake.seats _ _ _ hseat) ⟨rfl, rfl⟩)
  · have hset : ∀ cluster, Mild none w { w with cluster := cluster } :=
      fun _ => .of_eq (.refl _ _) rfl rfl
    exact ((hset _).works t).trans (.await ((hset _).seats _ _ _ hseat) ⟨rfl, rfl⟩)

theorem works_fallAsleep (i : InformerId) (delay : Float) (hseat : w.Seat t none false) :
    Works t none hit w (w.fallAsleep t i delay) := by
  unfold fallAsleep
  split
  · exact .goes (w.loop.goes_giveWay t _) hseat rfl (fun _ hv => absurd hv List.not_mem_nil)
      (.of_isPlain _ _ rfl)
  · have hstart : Mild none w { w with loop := (w.loop.startTimer delay (.wake t)).1 } :=
      .of_eq (w.loop.gentle_startTimer delay (.wake t) (by simp)) rfl rfl
    exact (hstart.works t).trans (.await (hstart.seats _ _ _ hseat) ⟨rfl, rfl⟩)

theorem works_execute (i : InformerId) (c : Informer.Command) (hseat : w.Seat t none false) :
    Works t none hit w (w.execute t i c) := by
  cases c with
  | list => exact w.works_callList t i hseat
  | watch version =>
      have hopen : Mild none w _ := (w.mild_startTimer i).trans (mild_record _
        (.watch (w.informer i).cache.rid.kindText (w.informer i).cache.ns version
          (w.informer i).cache.config.watchTimeout))
      exact (hopen.works t).trans (works_takeFeed _ t i (hopen.seats _ _ _ hseat))
  | next => exact w.works_takeFeed t i hseat
  | sleep delay => exact w.works_fallAsleep t i delay hseat
  | crash fault => exact .finish _

theorem works_signal (i : InformerId) (x : Informer.Signal) (hseat : w.Seat t none false) :
    Works t none hit w (w.signal t i x) := by
  have hheard : Mild none w (w.setInformer i { w.informer i with
      cache := ((w.informer i).cache.react x).informer }) :=
    w.mild_setInformer fun v hv => .inl hv
  have htold := ((hheard.trans (mild_leaveWatch _ i ((w.informer i).cache.react x).command)).trans
    (mild_announceSync _ i)).trans (mild_tellAll _ ((w.informer i).cache.react x).notes)
  exact (htold.works t).trans (works_execute _ t i _ (htold.seats _ _ _ hseat))

theorem works_runWorker (i : InformerId) (p : WorkerPoint) (a : Arrival)
    (hseat : w.Seat t none false) : Works t none hit w (w.runWorker t i p a) := by
  cases a with
  | cancelled woken => exact ((w.mild_withdraw t i woken p).works t).trans (.finish _)
  | on =>
      cases p with
      | signalled x => exact w.works_signal t i x hseat
      | held => exact w.works_signal t i _ hseat
      | watching => exact w.works_takeFeed t i hseat
      | asleep _ => exact w.works_signal t i .woke hseat

/-! ## Stopping -/

theorem mild_markStopped (i : InformerId) : Mild f w (w.markStopped i) := by
  have hset : Mild f w (w.setInformer i { w.informer i with
      cache := (w.informer i).cache.stopped.1 }) :=
    w.mild_setInformer fun v hv => .inl hv
  exact hset.trans (mild_tellAll _ _)

theorem works_allStopped (reason : StopReason) (hseat : w.Seat t none false) :
    Works t none hit w (w.allStopped t reason) := by
  cases reason with
  | informer => exact w.works_report t _
  | factory n => exact ((w.mild_tell _).works t).trans (works_report _ t _)
  | application n =>
      have htold : Mild none w _ :=
        w.mild_tell (.info Forward.component "factory_stopped" [("informers", .int n)])
      have hlimit : Works t none hit w _ := (htold.works t).trans (.endLimit false)
      exact hlimit.trans (.goOn (hlimit.seats _ _ _ hseat) ⟨rfl, rfl⟩)

theorem works_stopFailed (fault : Fault) (reason : StopReason) (hseat : w.Seat t none false) :
    Works t none hit w (w.stopFailed t fault reason) := by
  cases reason with
  | informer | factory _ => exact .finish _
  | application n =>
      have hlimit : Works t none hit w _ := .endLimit false
      exact hlimit.trans (.goOn (hlimit.seats _ _ _ hseat) ⟨rfl, rfl⟩)

theorem works_stopNext (reason : StopReason) (informers : List InformerId)
    (hseat : w.Seat t none false) (ht : w.Tidy) :
    Works t none hit w (w.stopNext t reason informers) := by
  induction informers generalizing w with
  | nil => exact w.works_allStopped t reason hseat
  | cons i rest ih =>
      unfold stopNext
      dsimp only
      split
      · exact ih w hseat ht
      · next worker hworker =>
          have htaken : Mild none w (w.setInformer i { w.informer i with worker := none }) :=
            w.mild_setInformer fun v hv => by cases hv
          have hseat' := htaken.seats _ _ _ hseat
          have hworker' := htaken.seats _ _ _ (ht.workers i worker hworker)
          split
          · exact (htaken.works t).trans (works_stopFailed _ t _ reason hseat')
          · have hmarked := htaken.trans (mild_markStopped _ i)
            exact (hmarked.works t).trans
              (ih _ (hmarked.seats _ _ _ hseat) (hmarked.tidy ht))
          · have hcancel : Works t none hit _ _ := .cancel (.inl hworker')
            refine (htaken.works t).trans (hcancel.trans (.goes (Loop.goes_awaitTask _ t _ worker)
              (hcancel.seats _ _ _ hseat') rfl (fun _ hv => absurd hv List.not_mem_nil) ⟨?_, ?_⟩))
            · rintro other ⟨⟩
              exact ⟨rfl, hcancel.seats _ _ _ hworker'⟩
            · intro _ _ _ h
              cases h

theorem works_runStopping (reason : StopReason) (current : Option (InformerId × TaskId))
    (rest : List InformerId) (a : Arrival) (hseat : w.Seat t none false) (ht : w.Tidy) :
    Works t none hit w (w.runStopping t reason current rest a) := by
  cases current with
  | none =>
      cases a with
      | cancelled _ => exact .finish _
      | on => exact w.works_stopNext t reason rest hseat ht
  | some current =>
      obtain ⟨i, worker⟩ := current
      have hmark : Mild none w _ := w.mild_markStopped i
      have hnext : Works t none hit w _ := (hmark.works t).trans
        (works_stopNext _ t reason rest (hmark.seats _ _ _ hseat) (hmark.tidy ht))
      cases a with
      | cancelled _ => exact hnext
      | on =>
          unfold runStopping
          dsimp only
          split
          · exact w.works_stopFailed t _ reason hseat
          · exact hnext

theorem works_runStoppingScope (g : FactoryId) (rid : ResourceId) (ns : String) (twice : Bool)
    (a : Arrival) (hseat : w.Seat t none false) (ht : w.Tidy) :
    Works t none hit w (w.runStoppingScope t g rid ns twice a) := by
  cases a with
  | cancelled _ => exact .finish _
  | on =>
      have hensure : Mild none w _ := w.mild_ensureWatch g rid ns true
      unfold runStoppingScope
      dsimp only
      split
      · next v fault h =>
          rw [h] at hensure
          exact (hensure.works t).trans (.finish _)
      · next v i h =>
          rw [h] at hensure
          exact (hensure.works t).trans
            (v.works_stopNext t _ _ (hensure.seats _ _ _ hseat) (hensure.tidy ht))

theorem mild_shutFactory (g : FactoryId) : Mild f w (w.shutFactory g).1 :=
  w.mild_setFactory g _

theorem works_runStoppingFactory (g : FactoryId) (a : Arrival) (hseat : w.Seat t none false)
    (ht : w.Tidy) : Works t none hit w (w.runStoppingFactory t g a) := by
  cases a with
  | cancelled _ => exact .finish _
  | on =>
      have hshut : Mild none w (w.shutFactory g).1 := w.mild_shutFactory g
      unfold runStoppingFactory
      dsimp only
      split
      · exact w.works_report t _
      · exact (hshut.works t).trans
          (works_stopNext _ t _ _ (hshut.seats _ _ _ hseat) (hshut.tidy ht))

/-! ## The application -/

theorem works_obey (environment : Except Fault Config) (c : Application.Command)
    (hseat : w.Seat t none false) (ht : w.Tidy) :
    Works t none hit w (w.obey t environment c) := by
  have hgo : ∀ v, Mild none w v → ∀ x, Works t none hit w (v.goOn t (.application x)) :=
    fun v h x => (h.works t).trans (.goOn (h.seats _ _ _ hseat) ⟨rfl, rfl⟩)
  unfold obey
  split
  · exact hgo w (.refl _ w) _
  · next config =>
      have hconnect : Mild none w (w.connect config).1 := .of_eq (.refl _ _) rfl rfl
      exact hgo _ hconnect _
  · next config =>
      have hbuild : Mild none w (w.build config).1 := .of_eq (.refl _ _) rfl rfl
      exact hgo _ hbuild _
  · next g =>
      split
      · exact hgo w (.refl _ w) _
      · have hlimit : Works t none hit w _ :=
          .beginLimit (Float.ofNat Application.grace) hseat
        have hshut := hlimit.trans ((mild_shutFactory _ g).works t)
        exact hshut.trans (works_stopNext _ t _ _ (hshut.seats _ _ _ hseat) (hshut.tidy ht))
  · dsimp only
    split
    · exact hgo _ (w.mild_record _) _
    · have hrecord : Mild none w _ := w.mild_record .close
      exact (hrecord.works t).trans (.awaitWithin _ (.inl (hrecord.seats _ _ _ hseat))
        (hrecord.seats _ _ _ hseat) ⟨rfl, rfl⟩)
  · exact w.works_report t _
  · exact .finish _

theorem works_runApplication (x : Application.Signal) (a : Arrival) (hseat : w.Seat t none false)
    (ht : w.Tidy) : Works t none hit w (w.runApplication t x a) := by
  cases a with
  | cancelled _ => exact .finish _
  | on =>
      unfold runApplication
      dsimp only
      split
      · exact w.works_report t _
      · suffices h : Mild none w _ from
          (h.works t).trans (works_obey _ t _ _ (h.seats _ _ _ hseat) (h.tidy ht))
        refine Mild.trans ?_ (mild_foldl _ (fun w r => w.mild_write _ r) _)
        split <;> exact .of_eq (.refl _ _) rfl rfl

theorem works_runClosing (a : Arrival) (hseat : w.Seat t none false) :
    Works t none hit w (w.runClosing t a) := by
  cases a with
  | on => exact w.works_report t _
  | cancelled _ =>
      have hlimit : Works t none hit w _ := .endLimit true
      unfold runClosing
      dsimp only
      split
      · exact hlimit.trans (.goOn (hlimit.seats _ _ _ hseat) ⟨rfl, rfl⟩)
      · exact hlimit.trans (.finish _)

/-! ## Jobs -/

/-- Whatever a task does from where it stands, it works where it works. -/
theorem works_runPoint {a : Task Point Report} (ha : w.loop.task? t = some a)
    (hending : a.ending = none) (ht : w.Tidy) (arrival : Arrival) :
    Works t a.point.sink? (· ∈ a.point.wards) w (w.runPoint t a.point arrival) := by
  have hseat : w.Seat t a.point.sink? a.point.isHelper := ⟨a, ha, rfl, rfl⟩
  have hwards := ht.wards t a ha hending
  cases hp : a.point <;> rw [hp] at hseat hwards
  case worker i p => exact w.works_runWorker t i p arrival hseat
  case planning op plan =>
    cases arrival with
    | cancelled _ => exact .finish _
    | on =>
        refine w.works_carryOut t op plan hseat ?_
        cases hsink : op.sink with
        | none => exact .inl (hsink ▸ hseat)
        | some s =>
            refine .inr ⟨a, ha, ht.fresh t a ha ?_⟩
            rw [hp, Point.isPlanning, hsink]
            rfl
  case syncing op i next => exact w.works_runSyncing t op i next arrival hseat
  case reporting call targets pods d =>
    exact w.works_runReporting t call targets pods d arrival hseat
  case supervising call tasks pending =>
    exact w.works_runSupervising t call tasks pending arrival hseat hwards
  case clearing call cancelled => exact w.works_runClearing t call cancelled arrival
  case stream st p => exact w.works_runStream t st p arrival hseat
  case giving s d => exact w.works_runGiving t d arrival hseat
  case taking s => exact w.works_runTaking t arrival hseat
  case awaitingClose s => exact w.works_runAwaitingClose t arrival hseat
  case getting s collected race =>
    exact w.works_runGetting t collected race arrival hseat hwards
  case stopping reason current rest =>
    exact w.works_runStopping t reason current rest arrival hseat ht
  case stoppingScope g rid ns twice =>
    exact w.works_runStoppingScope t g rid ns twice arrival hseat ht
  case stoppingFactory g => exact w.works_runStoppingFactory t g arrival hseat ht
  case application x => exact w.works_runApplication t x arrival hseat ht
  case closing => exact w.works_runClosing t arrival hseat

/-- A task goes on. -/
theorem works_resume {l : Loop Point Report} {p : Point} {arrival : Arrival} (ht : w.Tidy)
    (h : w.loop.arrive t = some (l, p, arrival)) :
    Works t p.sink? (· ∈ p.wards) w ({ w with loop := l }.runPoint t p arrival) := by
  have harrive : Works t p.sink? (· ∈ p.wards) w { w with loop := l } := .arrive h
  obtain ⟨a, -, hending, rfl, -, hl⟩ := Loop.arrive_spec h
  exact harrive.trans (works_runPoint { w with loop := l } t hl hending (harrive.tidy ht) arrival)

/-- What a job does: a task goes on, or else a time limit is over or only waits are eased. -/
theorem run_cases (job : Job) :
    (∃ t l p arrival, job = .resume t ∧ w.loop.arrive t = some (l, p, arrival) ∧
      w.run job = { w with loop := l }.runPoint t p arrival) ∨
    (∀ t, job = .resume t → w.loop.arrive t = none) ∧
      ((∃ id v, w.loop.expires id v ∧
        w.run job = (w.withLoop (·.cancelTimer id)).withLoop (·.expire v)) ∨
      Mild none w (w.run job)) := by
  cases job with
  | resume t =>
      cases h : w.loop.arrive t with
      | none =>
          refine .inr ⟨?_, .inr (by rw [run, h]; exact .refl _ w)⟩
          rintro _ ⟨⟩
          exact h
      | some arrived =>
          obtain ⟨l, p, arrival⟩ := arrived
          exact .inl ⟨t, l, p, arrival, rfl, h, by rw [run, h]⟩
  | notify t turn =>
      exact .inr ⟨(fun _ h => by cases h), .inr (.of_eq (w.loop.gentle_notify t turn) rfl rfl)⟩
  | tick t => exact .inr ⟨(fun _ h => by cases h), .inr (.of_eq (w.loop.gentle_tick t) rfl rfl)⟩
  | alarm id =>
      refine .inr ⟨(fun _ h => by cases h), ?_⟩
      cases h : w.loop.timers.lookup id with
      | none =>
          have hrun : w.run (.alarm id) = w := by rw [run, Loop.takeAlarm?, h]; rfl
          rw [hrun]
          exact .inr (.refl _ w)
      | some timer =>
          have hrun : w.run (.alarm id) = (w.withLoop (·.cancelTimer id)).ring timer.alarm := by
            rw [run, Loop.takeAlarm?, h]
            rfl
          have hcancel : Mild none w (w.withLoop (·.cancelTimer id)) := w.mild_cancelTimer id
          rw [hrun]
          cases halarm : timer.alarm with
          | wake t => exact .inr (hcancel.trans (.of_eq (Loop.gentle_wake _ t) rfl rfl))
          | establish i => exact .inr (hcancel.trans (mild_establish _ i))
          | expire v =>
              exact .inl ⟨id, v, ⟨timer, Loop.mem_of_lookup h, halarm⟩, rfl⟩

theorem mild_nextRound : Mild f w w.nextRound := by
  unfold nextRound
  split
  · exact .of_eq (Loop.gentle_beginRound _) rfl rfl
  · exact .refl f w

/-- The world with other jobs that are ready. -/
def withReady (w : World) (ready : List Job) (round : Nat) : World :=
  { w with loop := { w.loop with ready := ready, round := round } }

/-! ## Away from a sink -/

/-- Whatever concerns a sink is left alone: the sink, and the tasks that work at it, except that
waits are eased. -/
structure Away (s : SinkId) (w w' : World) : Prop where
  sinks : w.sinks.length ≤ w'.sinks.length
  sink : w'.sink s = w.sink s
  eases : ∀ v a, w.loop.task? v = some a → a.point.sink? = some s →
    ∃ b, w'.loop.task? v = some b ∧ TaskEases a b
  /-- Nobody comes to work at the sink. -/
  nobody : ∀ v b, w'.loop.task? v = some b → b.point.sink? = some s →
    ∃ a, w.loop.task? v = some a ∧ a.point.sink? = some s
  tidy : w.Tidy → w'.Tidy

theorem Works.away {w w' : World} {u : TaskId} (h : Works u f hit w w') (ht : w.Tidy)
    (hf : f ≠ some s) (hmiss : ∀ v a, v = u ∨ hit v → w.loop.task? v = some a →
      a.point.sink? ≠ some s) : Away s w w' where
  sinks := Nat.le_of_eq h.sinks.symm
  sink := h.sink s hf
  eases v a ha hs :=
    h.eased ht v a (fun hv => hmiss v a (.inl hv) ha hs) (fun hv => hmiss v a (.inr hv) ha hs) ha
      (by rw [hs]; simp)
  nobody _ _ hb hs := (h.sink_back hb hs).resolve_right hf
  tidy := h.tidy

theorem Mild.away {w w' : World} (h : Mild f w w') (ht : w.Tidy) (hf : f ≠ some s) :
    Away s w w' := by
  have hworks : Works w.loop.tasks.length f (fun _ => False) w w' := h.works _
  refine hworks.away ht hf ?_
  rintro v a (rfl | hfalse) ha
  · exact absurd rfl (Loop.ne_next_of_task? ha)
  · exact hfalse.elim

/-- Who works elsewhere leaves alone what concerns a sink. -/
theorem away_resume {l : Loop Point Report} {p : Point} {arrival : Arrival} (ht : w.Tidy)
    (h : w.loop.arrive t = some (l, p, arrival)) (hp : p.sink? ≠ some s) :
    Away s w ({ w with loop := l }.runPoint t p arrival) := by
  refine (w.works_resume t ht h).away ht hp ?_
  obtain ⟨a, ha, hending, rfl, -, -⟩ := Loop.arrive_spec h
  rintro v b (rfl | hward) hb
  · cases ha.symm.trans hb
    exact hp
  · obtain ⟨b', hb', hsink, -⟩ := ht.wards t a ha hending v hward
    cases hb.symm.trans hb'
    rw [hsink]
    exact hp

/-- Who works elsewhere may be called off, with those that he waits for. -/
theorem Works.away_called {w' : World} {v : TaskId}
    (h : Works v none (fun x => x = v ∨ w.loop.passesTo v x) w w') (ht : w.Tidy)
    (hv : ∀ a, w.loop.task? v = some a → a.point.sink? ≠ some s) : Away s w w' := by
  refine h.away ht (by simp) fun x b hx hb => ?_
  have hx : v = x ∨ w.loop.passesTo v x := hx.elim (fun h => .inl h.symm) (·.imp_left Eq.symm)
  obtain ⟨a, ha⟩ : ∃ a, w.loop.task? v = some a := by
    rcases hx with rfl | ⟨a, ha, -⟩
    · exact ⟨b, hb⟩
    · exact ⟨a, ha⟩
  rcases ht.passesTo ha hx hb with hnone | hsame
  · rw [hnone]
    simp
  · rw [hsame]
    exact hv a ha

/-- The time limit of who works elsewhere is over. -/
theorem away_expire {v : TaskId} (ht : w.Tidy)
    (hv : ∀ a, w.loop.task? v = some a → a.point.sink? ≠ some s) :
    Away s w (w.withLoop (·.expire v)) :=
  Works.away_called w .expire ht hv

/-- Who works elsewhere is cancelled. -/
theorem away_cancel {v : TaskId} (ht : w.Tidy)
    (hv : ∀ a, w.loop.task? v = some a → a.point.sink? ≠ some s) :
    Away s w (w.withLoop (·.cancel v)) :=
  Works.away_called w (.cancelAny v) ht hv

end World

end LiveCluster.Simulation
