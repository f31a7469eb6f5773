import LiveCluster.Proofs.Simulation.Acts
import LiveCluster.Proofs.Simulation.Order
import LiveCluster.Simulation.Run

/-!
# What every routine leaves alone at other sinks

Along the definition of each routine it is shown here that a step of its task is one of
those in `Works`, for the sink at which the task works.
-/

namespace LiveCluster.Simulation

open Loop (Gentle)

namespace World

variable (w : World) (t : TaskId) {w' : World} {f : Option SinkId} {hit : TaskId → Prop}
  {s : SinkId}

/-! ## Journal -/

theorem mild_withLoop {g : Loop Point Report → Loop Point Report} (h : Gentle w.loop (g w.loop)) :
    Mild f w (w.withLoop g) :=
  .of_eq h rfl rfl

theorem mild_cancelTimer (id : TimerId) : Mild f w (w.withLoop (·.cancelTimer id)) :=
  w.mild_withLoop (w.loop.gentle_cancelTimer id)

theorem mild_record (call : ClusterCall) : Mild f w (w.record call) :=
  .of_eq (.refl _ _) rfl rfl

theorem mild_write (setup : Option LogSetup) (r : LogRecord) : Mild f w (w.write setup r) := by
  unfold write
  split <;> exact .of_eq (.refl _ _) rfl rfl

theorem mild_logOf (component : String) : Mild f w (w.logOf component).1 := by
  unfold logOf
  split
  · exact .refl f w
  · split <;> exact .of_eq (.refl _ _) rfl rfl

theorem mild_tell (note : Note) : Mild f w (w.tell note) := by
  cases note with
  | log r => exact (w.mild_logOf r.component).trans (mild_write _ _ r)
  | count _ | stale _ _ => exact .of_eq (.refl _ _) rfl rfl

/-- The journal, the measures and the log are written. -/
theorem loop_tell (note : Note) :
    (w.tell note).loop = w.loop ∧ (w.tell note).sinks = w.sinks := by
  have hwrite : ∀ (w : World) setup r, (w.write setup r).loop = w.loop ∧
      (w.write setup r).sinks = w.sinks := by
    intro w setup r
    unfold write
    split <;> exact ⟨rfl, rfl⟩
  have hlogOf : ∀ component, (w.logOf component).1.loop = w.loop ∧
      (w.logOf component).1.sinks = w.sinks := by
    intro component
    unfold logOf
    split
    · exact ⟨rfl, rfl⟩
    · split <;> exact ⟨rfl, rfl⟩
  cases note with
  | log r =>
      have hto := hwrite (w.logOf r.component).1 (w.logOf r.component).2 r
      exact ⟨hto.1.trans (hlogOf r.component).1, hto.2.trans (hlogOf r.component).2⟩
  | count _ | stale _ _ => exact ⟨rfl, rfl⟩

theorem mild_foldl {α : Type} {g : World → α → World} (hg : ∀ w a, Mild f w (g w a))
    (as : List α) : Mild f w (as.foldl g w) := by
  induction as generalizing w with
  | nil => exact .refl f w
  | cons a rest ih => exact (hg w a).trans (ih (g w a))

theorem mild_tellAll (notes : List Note) : Mild f w (w.tellAll notes) :=
  w.mild_foldl (fun w note => w.mild_tell note) notes

theorem works_report (r : Report) : Works t f hit w (w.report t r) :=
  .finish (.returned r)

/-! ## Sinks and their users -/

/-- A sink is changed, and waits are eased. -/
theorem Mild.of_sink (x : Sink) {l : Loop Point Report} (hloop : Gentle w.loop l) :
    Mild (some s) w { w.setSink s x with loop := l } := by
  refine .of_gentle hloop (List.length_set ..) (fun r hr => ?_) fun _ _ h => .inl h
  show ((w.sinks.set s x)[r]?).getD {} = (w.sinks[r]?).getD {}
  rw [List.getElem?_set_ne (fun h => hr (congrArg some h))]

theorem mild_setSink (x : Sink) : Mild (some s) w (w.setSink s x) :=
  .of_sink w x (.refl _ _)

theorem mild_closeSink : Mild (some s) w (w.closeSink s) := by
  refine .of_sink w _ ?_
  show Gentle w.loop ((w.sink s).close w.loop).2
  unfold Sink.close
  split
  · exact .refl _ _
  · exact w.loop.gentle_wakeAll _

theorem mild_offer (d : Delivery) : Mild (some s) w (w.offer s d).1 := by
  refine .of_sink w _ ?_
  show Gentle w.loop ((w.sink s).offer w.loop d.event d.waited).2.2
  unfold Sink.offer
  split
  · exact .refl _ _
  · split
    · exact .refl _ _
    · exact Channel.gentle_give _ w.loop d.event

theorem mild_leaveRoom (woken : Bool) : Mild (some s) w (w.leaveRoom t s woken) :=
  .of_sink w _ (Channel.gentle_leaveGivers _ w.loop t woken)

theorem mild_takeEvent? {v : World} {event : LogEvent}
    (h : w.takeEvent? s = some (v, event)) : Mild (some s) w v := by
  obtain ⟨channel, loop, htake, rfl⟩ := takeEvent?_eq_some h
  exact .of_sink w _ (Channel.gentle_take? htake)

theorem works_awaitRoom {p : Point} (hseat : w.Seat t p.sink? p.isHelper)
    (hp : p.isPlanning = false ∧ p.wards = []) : Works t (some s) hit w (w.awaitRoom t s p) :=
  have hset := w.mild_setSink (s := s) _
  (hset.works t).trans (.await (hset.seats _ _ _ hseat) hp)

theorem works_runGiving (d : Delivery) (a : Arrival) (hseat : w.Seat t (some s) true) :
    Works t (some s) hit w (w.runGiving t s d a) := by
  unfold runGiving
  cases a with
  | cancelled woken => exact ((w.mild_leaveRoom t woken).works t).trans (.finish _)
  | on =>
      have hoffer := w.mild_offer (s := s) d
      dsimp only
      split
      · next v h =>
          rw [h] at hoffer
          exact (hoffer.works t).trans (v.works_report t _)
      · next v h =>
          rw [h] at hoffer
          exact (hoffer.works t).trans (.finish _)
      · next v h =>
          rw [h] at hoffer
          exact (hoffer.works t).trans
            (v.works_awaitRoom t (hoffer.seats _ _ _ hseat) ⟨rfl, rfl⟩)

theorem works_runTaking (a : Arrival) (hseat : w.Seat t (some s) true) :
    Works t (some s) hit w (w.runTaking t s a) := by
  unfold runTaking
  cases a with
  | cancelled woken =>
      exact ((Mild.of_sink w _ (Channel.gentle_leaveTakers _ w.loop t woken)).works t).trans
        (.finish _)
  | on =>
      dsimp only
      split
      · next v event h => exact ((w.mild_takeEvent? h).works t).trans (v.works_report t _)
      · have hset := fun x => w.mild_setSink (s := s) x
        exact ((hset _).works t).trans (.await ((hset _).seats _ _ _ hseat) ⟨rfl, rfl⟩)

theorem works_runAwaitingClose (a : Arrival) (hseat : w.Seat t (some s) true) :
    Works t (some s) hit w (w.runAwaitingClose t s a) := by
  unfold runAwaitingClose
  have hset := fun x => w.mild_setSink (s := s) x
  cases a with
  | cancelled _ => exact ((hset _).works t).trans (.finish _)
  | on =>
      dsimp only
      split
      · exact w.works_report t _
      · exact ((hset _).works t).trans (.await ((hset _).seats _ _ _ hseat) ⟨rfl, rfl⟩)

theorem works_got (event : LogEvent) (collected : Option (List LogEvent))
    (hseat : w.Seat t (some s) false) :
    Works t (some s) hit w (w.got t s event collected) := by
  cases collected with
  | none => exact w.works_report t _
  | some events => exact .goOn hseat ⟨rfl, rfl⟩

theorem works_drained (collected : Option (List LogEvent)) :
    Works t f hit w (w.drained t collected) := by
  cases collected with
  | none => exact w.works_report t _
  | some events => exact w.works_report t _

theorem seat_spawn (p : Point) : (w.spawn p).1.Seat (w.spawn p).2 p.sink? p.isHelper :=
  ⟨{ point := p }, (w.loop.task?_spawn p _).trans (if_pos rfl), rfl, rfl⟩

theorem works_getNext (collected : Option (List LogEvent)) (hseat : w.Seat t (some s) false) :
    Works t (some s) hit w (w.getNext t s collected) := by
  unfold getNext
  split
  · next v event h =>
      have htake := w.mild_takeEvent? h
      exact (htake.works t).trans (v.works_got t event collected (htake.seats _ _ _ hseat))
  · split
    · exact w.works_drained t collected
    · have htaker : Mild (some s) w (w.spawn (.taking s)).1 := .spawn w (.inr rfl) rfl
      have hcloser : Mild (some s) _ ((w.spawn (.taking s)).1.spawn (.awaitingClose s)).1 :=
        .spawn _ (.inr rfl) rfl
      have hboth := htaker.trans hcloser
      refine (hboth.works t).trans (.goes (Loop.goes_awaitAny _ t _ _)
        (hboth.seats _ _ _ hseat) rfl ?_ (.of_isPlain _ _ rfl))
      intro v hv
      rcases List.mem_cons.1 hv with rfl | hv
      · exact hcloser.seats _ _ _ (w.seat_spawn (.taking s))
      · rw [List.mem_singleton.1 hv]
        exact seat_spawn _ (.awaitingClose s)

theorem works_endRace (r : Race) (hrace : ∀ v ∈ [r.taker, r.closer], w.Seat v (some s) true) :
    Works t (some s) (· ∈ [r.taker, r.closer]) w (w.endRace t r) := by
  have hunwatch : Mild (some s) w (w.withLoop (·.unwatch t [r.taker, r.closer])) :=
    w.mild_withLoop (w.loop.gentle_unwatch t _)
  have hcancel : Works t (some s) (· ∈ [r.taker, r.closer])
      (w.withLoop (·.unwatch t [r.taker, r.closer])) (w.endRace t r) := by
    refine @Works.cancelAll _ _ _ _ s [r.closer, r.taker] fun v hv => ?_
    have hv : v ∈ [r.taker, r.closer] := List.mem_reverse.1 hv
    exact ⟨hunwatch.seats _ _ _ (hrace v hv), hv⟩
  exact (hunwatch.works t).trans hcancel

theorem works_runGetting (collected : Option (List LogEvent)) (race : Option Race) (a : Arrival)
    (hseat : w.Seat t (some s) false)
    (hrace : ∀ v ∈ (Point.getting s collected race).wards, w.Seat v (some s) true) :
    Works t (some s) (· ∈ (Point.getting s collected race).wards) w
      (w.runGetting t s collected race a) := by
  cases race with
  | none =>
      cases a with
      | cancelled _ => exact .finish _
      | on => exact w.works_getNext t collected hseat
  | some race =>
      have hend := w.works_endRace t race hrace
      cases a with
      | cancelled _ => exact hend.trans (.finish _)
      | on =>
          have hseat' := hend.seats _ _ _ hseat
          unfold runGetting
          dsimp only
          split
          · exact hend.trans (works_got _ t _ collected hseat')
          · exact hend.trans (.finish _)
          · exact hend.trans (.finish _)
          · exact hend.trans (.goOn hseat' ⟨rfl, rfl⟩)

/-! ## Tails -/

variable (call : TailCall)

theorem works_endTail (ending : Ending Report) :
    Works t (some call.sink) hit w (w.endTail t call ending) :=
  (w.mild_closeSink.works t).trans (.finish _)

theorem works_cleared (cancelled : Bool) :
    Works t (some call.sink) hit w (w.cleared t call cancelled) :=
  ((w.mild_closeSink.trans (mild_tell _ _)).works t).trans (works_endTail _ t call _)

theorem works_clear (tasks : TailTasks) (cancelled : Bool)
    (hseat : w.Seat t (some call.sink) false)
    (htasks : ∀ v ∈ tasks.streams ++ [tasks.closer], w.Seat v (some call.sink) true) :
    Works t (some call.sink) (· ∈ tasks.streams ++ [tasks.closer]) w
      (w.clear t call tasks cancelled) := by
  have hcancel : Works t (some call.sink) (· ∈ tasks.streams ++ [tasks.closer]) w
      (w.withLoop fun l => (tasks.streams ++ [tasks.closer]).foldl Loop.cancel l) :=
    .cancelAll fun v hv => ⟨htasks v hv, hv⟩
  unfold clear
  dsimp only
  split
  · exact hcancel.trans (works_cleared _ t call cancelled)
  · refine hcancel.trans (.goes (Loop.goes_awaitGroup _ t _ _) (hcancel.seats _ _ _ hseat) rfl
      (fun _ hv => absurd hv List.not_mem_nil) ⟨fun _ h => (by cases h), ?_⟩)
    intro members n calledOff h
    cases h
    exact ⟨rfl, fun v hv => hcancel.seats _ _ _ (htasks v hv)⟩

theorem works_runClearing (cancelled : Bool) (a : Arrival) :
    Works t (some call.sink) hit w (w.runClearing t call cancelled a) := by
  cases a with
  | on => exact w.works_cleared t call cancelled
  | cancelled _ => exact w.works_endTail t call _

theorem works_supervise (tasks : TailTasks) (pending : List TaskId)
    (hseat : w.Seat t (some call.sink) false)
    (htasks : ∀ v ∈ tasks.streams ++ [tasks.closer], w.Seat v (some call.sink) true) :
    Works t (some call.sink) (· ∈ tasks.streams ++ [tasks.closer]) w
      (w.supervise t call tasks pending) := by
  unfold supervise
  split
  · exact w.works_clear t call tasks false hseat htasks
  · exact .goes (Loop.goes_awaitAny _ t _ _) hseat rfl htasks (.of_isPlain _ _ rfl)

theorem works_runSupervising (tasks : TailTasks) (pending : List TaskId) (a : Arrival)
    (hseat : w.Seat t (some call.sink) false)
    (htasks : ∀ v ∈ tasks.streams ++ [tasks.closer], w.Seat v (some call.sink) true) :
    Works t (some call.sink) (· ∈ tasks.streams ++ [tasks.closer]) w
      (w.runSupervising t call tasks pending a) := by
  have hunwatch : Mild (some call.sink) w
      (w.withLoop (·.unwatch t (pending ++ [tasks.closer]))) :=
    w.mild_withLoop (w.loop.gentle_unwatch t _)
  have hafter : ∀ v, Mild (some call.sink) w v → v.Seat t (some call.sink) false ∧
      ∀ u ∈ tasks.streams ++ [tasks.closer], v.Seat u (some call.sink) true :=
    fun v h => ⟨h.seats _ _ _ hseat, fun u hu => h.seats _ _ _ (htasks u hu)⟩
  unfold runSupervising
  cases a with
  | cancelled _ =>
      obtain ⟨hseat', htasks'⟩ := hafter _ hunwatch
      exact (hunwatch.works t).trans (works_clear _ t call tasks true hseat' htasks')
  | on =>
      dsimp only
      split
      · have htold := hunwatch.trans (mild_tell _ (.debug Tailer.component
          "log_sink_closed_by_consumer" [("path", .text call.options.path)]))
        obtain ⟨hseat', htasks'⟩ := hafter _ htold
        exact (htold.works t).trans (works_clear _ t call tasks false hseat' htasks')
      · obtain ⟨hseat', htasks'⟩ := hafter _ hunwatch
        exact (hunwatch.works t).trans (works_supervise _ t call tasks _ hseat' htasks')

theorem mild_spawnStreams (targets : List TailTarget) :
    Mild (some call.sink) w (w.spawnStreams call targets).1 := by
  induction targets generalizing w with
  | nil => exact .refl _ w
  | cons target rest ih =>
      exact (Mild.spawn w (p := .stream ⟨call.sink, target, call.options⟩ .opening)
        (.inr rfl) rfl).trans (ih _)

theorem lt_of_spawnStreams {targets : List TailTarget} {v : TaskId}
    (hv : v ∈ (w.spawnStreams call targets).2) : w.loop.tasks.length ≤ v := by
  induction targets generalizing w with
  | nil => cases hv
  | cons target rest ih =>
      rcases List.mem_cons.1 hv with rfl | hv
      · exact Nat.le_refl _
      · exact Nat.le_trans (Mild.spawn (f := some call.sink) w (.inr rfl) rfl).tasks (ih _ hv)

theorem seat_spawnStreams {targets : List TailTarget} {v : TaskId}
    (hv : v ∈ (w.spawnStreams call targets).2) :
    (w.spawnStreams call targets).1.Seat v (some call.sink) true := by
  induction targets generalizing w with
  | nil => cases hv
  | cons target rest ih =>
      rcases List.mem_cons.1 hv with rfl | hv
      · exact (mild_spawnStreams _ call rest).seats _ _ _
          (w.seat_spawn (.stream ⟨call.sink, target, call.options⟩ .opening))
      · exact ih _ hv

theorem works_openStreams (targets : List TailTarget) (hseat : w.Seat t (some call.sink) false) :
    Works t (some call.sink) hit w (w.openStreams t call targets) := by
  have hstreams := w.mild_spawnStreams call targets
  have hcloser : Mild (some call.sink) _
      ((w.spawnStreams call targets).1.spawn (.awaitingClose call.sink)).1 :=
    .spawn _ (.inr rfl) rfl
  have hboth := (hstreams.trans hcloser).trans (mild_tell _ (.debug Tailer.component
    "log_tail_started" [("path", .text call.options.path), ("pods", .int call.pods.length),
      ("streams", .int (w.spawnStreams call targets).2.length)]))
  refine (hboth.works t).and (works_supervise _ t call ⟨_, _⟩ _ (hboth.seats _ _ _ hseat) ?_) ?_
  · intro v hv
    refine (mild_tell (f := some call.sink) _ _).seats _ _ _ ?_
    rcases List.mem_append.1 hv with hv | hv
    · exact hcloser.seats _ _ _ (w.seat_spawnStreams call hv)
    · rw [List.mem_singleton.1 hv]
      exact seat_spawn _ (.awaitingClose call.sink)
  · -- whoever could be called off here was made here
    intro v hv
    refine .inr ?_
    rcases List.mem_append.1 hv with hv | hv
    · exact w.lt_of_spawnStreams call hv
    · rw [List.mem_singleton.1 hv]
      exact hstreams.tasks

theorem works_target (targets : List TailTarget) (pods : List Snapshot)
    (hseat : w.Seat t (some call.sink) false) :
    Works t (some call.sink) hit w (w.target t call targets pods) := by
  induction pods generalizing w targets with
  | nil => exact w.works_openStreams t call targets hseat
  | cons pod rest ih =>
      unfold target
      split
      · exact ih w _ hseat
      · next fault _ =>
          have hoffer := (w.mild_tellAll (Tailer.streamError pod "" fault)).trans
            (mild_offer _ (s := call.sink) { event := .failure pod.name "" fault })
          dsimp only
          split
          · next v h =>
              rw [h] at hoffer
              exact (hoffer.works t).trans (ih v _ (hoffer.seats _ _ _ hseat))
          · next v h =>
              rw [h] at hoffer
              exact (hoffer.works t).trans (v.works_endTail t call _)
          · next v h =>
              rw [h] at hoffer
              exact (hoffer.works t).trans
                (v.works_awaitRoom t (hoffer.seats _ _ _ hseat) ⟨rfl, rfl⟩)

theorem works_runReporting (targets : List TailTarget) (pods : List Snapshot) (d : Delivery)
    (a : Arrival) (hseat : w.Seat t (some call.sink) false) :
    Works t (some call.sink) hit w (w.runReporting t call targets pods d a) := by
  unfold runReporting
  cases a with
  | cancelled woken =>
      exact ((w.mild_leaveRoom t woken).works t).trans (works_endTail _ t call _)
  | on =>
      have hoffer := w.mild_offer (s := call.sink) d
      dsimp only
      split
      · next v h =>
          rw [h] at hoffer
          exact (hoffer.works t).trans
            (v.works_target t call targets pods (hoffer.seats _ _ _ hseat))
      · next v h =>
          rw [h] at hoffer
          exact (hoffer.works t).trans (v.works_endTail t call _)
      · next v h =>
          rw [h] at hoffer
          exact (hoffer.works t).trans
            (v.works_awaitRoom t (hoffer.seats _ _ _ hseat) ⟨rfl, rfl⟩)

/-! ## Streams -/

variable (st : Stream)

theorem mild_openLog : Mild f w (w.openLog t st) :=
  .of_eq (.refl _ _) rfl rfl

theorem mild_closeLog : Mild f w (w.closeLog t st) :=
  .of_eq (.refl _ _) rfl rfl

theorem mild_setLogOfStream (log : Channel LogItem) : Mild f w (w.setLogOfStream st log) :=
  .of_eq (.refl _ _) rfl rfl

theorem works_deliver (d : Delivery) (last : Bool) (hseat : w.Seat t (some st.sink) true) :
    Works t (some st.sink) hit w (w.deliver t st d last) := by
  have hoffer := w.mild_offer (s := st.sink) d
  unfold deliver
  split
  · next v h =>
      rw [h] at hoffer
      split
      · exact (hoffer.works t).trans (v.works_report t _)
      · exact (hoffer.works t).trans (.goOn (hoffer.seats _ _ _ hseat) ⟨rfl, rfl⟩)
  · next v h =>
      rw [h] at hoffer
      split
      · exact ((hoffer.trans (v.mild_tell _)).works t).trans (works_report _ t _)
      · exact ((hoffer.trans (v.mild_closeLog t st)).works t).trans (works_report _ t _)
  · next v h =>
      rw [h] at hoffer
      exact (hoffer.works t).trans (v.works_awaitRoom t (hoffer.seats _ _ _ hseat) ⟨rfl, rfl⟩)

theorem works_readLog (hseat : w.Seat t (some st.sink) true) :
    Works t (some st.sink) hit w (w.readLog t st) := by
  unfold readLog
  split
  · have hset := fun log => w.mild_setLogOfStream (f := some st.sink) st log
    exact ((hset _).works t).trans (.await ((hset _).seats _ _ _ hseat) ⟨rfl, rfl⟩)
  · next item log loop h =>
      let v : World := { w.setLogOfStream st log with loop := loop }
      have htake : Mild (some st.sink) w v := .of_eq (Channel.gentle_take? h) rfl rfl
      cases item with
      | line text =>
          exact (htake.works t).trans (v.works_deliver t st _ false (htake.seats _ _ _ hseat))
      | ended => exact ((htake.trans (v.mild_closeLog t st)).works t).trans (works_report _ t _)
      | failed fault =>
          have htold := (htake.trans (v.mild_closeLog t st)).trans
            (mild_tellAll _ (Tailer.streamError st.target.pod st.target.container fault))
          exact (htold.works t).trans (works_deliver _ t st _ true (htold.seats _ _ _ hseat))

theorem works_quitStream (woken : Bool) (p : StreamPoint) :
    Works t (some st.sink) hit w (w.quitStream t st woken p) := by
  cases p with
  | opening => exact .finish _
  | reading =>
      have hleave : Mild (some st.sink) w { w.setLogOfStream st
          ((w.logOfStream st).leaveTakers w.loop t woken).1 with
          loop := ((w.logOfStream st).leaveTakers w.loop t woken).2 } :=
        .of_eq (Channel.gentle_leaveTakers _ w.loop t woken) rfl rfl
      exact ((hleave.trans (mild_closeLog _ t st)).works t).trans (.finish _)
  | delivering d last =>
      have hleave := w.mild_leaveRoom t (s := st.sink) woken
      unfold quitStream
      dsimp only
      split
      · exact (hleave.works t).trans (.finish _)
      · exact ((hleave.trans (mild_closeLog _ t st)).works t).trans (.finish _)

theorem works_runStream (p : StreamPoint) (a : Arrival) (hseat : w.Seat t (some st.sink) true) :
    Works t (some st.sink) hit w (w.runStream t st p a) := by
  cases a with
  | cancelled woken => exact w.works_quitStream t st woken p
  | on =>
      cases p with
      | opening =>
          have hopen := w.mild_openLog (f := some st.sink) t st
          exact (hopen.works t).trans (works_readLog _ t st (hopen.seats _ _ _ hseat))
      | reading => exact w.works_readLog t st hseat
      | delivering d last => exact w.works_deliver t st d last hseat

/-! ## Scopes -/

/-- An informer comes to have no worker but one that works at no sink. -/
theorem Mild.of_informer {i : InformerId} {x : Watched} {l : Loop Point Report}
    (hloop : Gentle w.loop l)
    (hx : ∀ v, x.worker = some v → (w.informer i).worker = some v ∨ w.Seat v none false) :
    Mild f w { w.setInformer i x with loop := l } := by
  have hmild : Mild f w { w with loop := l } := .of_eq hloop rfl rfl
  refine .of_gentle hloop rfl (fun _ _ => rfl) fun j v hv => ?_
  rcases w.setInformer_cases i j x with h | ⟨rfl, h⟩
  · exact .inl (h ▸ hv)
  · exact (hx v (h ▸ hv)).imp_right (hmild.seats _ _ _)

theorem mild_setInformer {i : InformerId} {x : Watched}
    (hx : ∀ v, x.worker = some v → (w.informer i).worker = some v ∨ w.Seat v none false) :
    Mild f w (w.setInformer i x) :=
  .of_informer w (.refl _ _) hx

theorem mild_setFactory (g : FactoryId) (x : Factory) : Mild f w (w.setFactory g x) :=
  .of_eq (.refl _ _) rfl rfl

theorem mild_startWorker (i : InformerId) : Mild f w (w.startWorker i) := by
  unfold startWorker
  split
  · exact .refl f w
  · refine (Mild.spawn w (p := .worker i (.signalled .started)) (.inl rfl) rfl).trans
      (mild_setInformer _ ?_)
    rintro v ⟨⟩
    exact .inr (w.seat_spawn (.worker i (.signalled .started)))

theorem mild_addInformer (g : FactoryId) (rid : ResourceId) (ns : String) :
    Mild f w (w.addInformer g rid ns).1 := by
  have happend : Mild f w { w with informers := w.informers ++
      [({ cache := Informer.new rid ns (w.factory g).config } : Watched)] } := by
    refine .of_gentle (.refl _ _) rfl (fun _ _ => rfl) fun i v hv => ?_
    by_cases hi : i < w.informers.length
    · rw [informer, List.getElem?_append_left hi] at hv
      exact .inl hv
    · -- who was not there before has no worker
      rw [informer, List.getElem?_append_right (Nat.le_of_not_lt hi)] at hv
      cases hnew : i - w.informers.length with
      | zero => rw [hnew] at hv; cases hv
      | succ n => rw [hnew] at hv; cases hv
  unfold addInformer
  dsimp only
  exact (happend.trans (mild_setFactory _ g _)).trans (mild_tell _ _)

theorem mild_findInformer (g : FactoryId) (rid : ResourceId) (ns : String) :
    Mild f w (w.findInformer g rid ns).1 := by
  unfold findInformer
  split
  · exact .refl f w
  · exact w.mild_addInformer g rid _

theorem mild_ensureWatch (g : FactoryId) (rid : ResourceId) (ns : String) (inLoop : Bool) :
    Mild f w (w.ensureWatch g rid ns inLoop).1 := by
  have hfind : Mild f w _ := w.mild_findInformer g rid ns
  unfold ensureWatch
  split
  · exact .refl f w
  · dsimp only
    split
    · exact hfind.trans (mild_startWorker _ _)
    · split
      · exact hfind
      · exact hfind.trans (mild_setInformer _ fun v hv => .inl hv)

theorem mild_ensureLazily (g : FactoryId) (rid : ResourceId) (ns : String) (inLoop : Bool) :
    Mild f w (w.ensureLazily g rid ns inLoop) := by
  unfold ensureLazily
  split
  · exact .refl f w
  · exact w.mild_ensureWatch g rid ns true

theorem mild_get (g : FactoryId) (rid : ResourceId) (path : String) (inLoop : Bool) :
    Mild f w (w.get g rid path inLoop).1 := by
  unfold get
  dsimp only
  split
  · exact .refl f w
  · exact w.mild_ensureLazily g rid _ inLoop

theorem mild_list (g : FactoryId) (rid : ResourceId) (ns : String) (selector : Option Selector)
    (inLoop : Bool) : Mild f w (w.list g rid ns selector inLoop).1 := by
  unfold list
  dsimp only
  split
  · exact .refl f w
  · exact w.mild_ensureLazily g rid _ inLoop

/-! ## Plans -/

theorem mild_answer (op : Operation) (q : Ask) : Mild f w (w.answer op q).1 := by
  cases q with
  | object rid path => exact w.mild_get op.factory rid path op.inLoop
  | objects rid ns selector => exact w.mild_list op.factory rid ns selector op.inLoop
  | stale _ _ | namespaced _ | now => exact .refl f w
  | review ns group resource verb => exact w.mild_record _
  | mutate rid ns m => exact w.mild_record _
  | tell note => exact w.mild_tell note

theorem mild_release (op : Operation) : Mild op.sink w (w.release op) := by
  unfold release
  split
  · next s h =>
      rw [h]
      exact w.mild_closeSink
  · exact .refl _ w

theorem works_conclude (op : Operation) (result : Except Fault Next)
    (hseat : w.Seat t op.sink false) : Works t op.sink hit w (w.conclude t op result) := by
  have hrelease : Works t op.sink hit w (w.release op) := (w.mild_release op).works t
  unfold conclude
  split
  · exact hrelease.trans (.finish _)
  · exact hrelease.trans (works_report _ t _)
  · split
    · next s h =>
        rw [h] at hseat ⊢
        exact w.works_target t ⟨s, _, _⟩ [] _ hseat
    · exact w.works_report t _

/-- Whether a time limit may begin for a task. -/
def Unlimited (w : World) (t : TaskId) : Prop :=
  w.Seat t none false ∨ ∃ a, w.loop.task? t = some a ∧ a.limit = none

theorem Unlimited.mild {w : World} {t : TaskId} (h : w.Unlimited t) (hmild : Mild f w w') :
    w'.Unlimited t := by
  rcases h with hseat | ⟨a, ha, hnone⟩
  · exact .inl (hmild.seats _ _ _ hseat)
  · obtain ⟨b, hb, heases⟩ := hmild.eases t a ha
    exact .inr ⟨b, hb, heases.limit.trans hnone⟩

theorem works_awaitSync (op : Operation) (i : InformerId) (limit : Float)
    (next : Except Fault Bool → Plan Next) (hseat : w.Seat t op.sink false)
    (hlimit : w.Unlimited t) : Works t op.sink hit w (w.awaitSync t op i limit next) := by
  have hset : Mild op.sink w (w.setInformer i
      { w.informer i with waiters := (w.informer i).waiters ++ [t] }) :=
    w.mild_setInformer fun v hv => .inl hv
  exact (hset.works t).trans (.awaitWithin limit (hlimit.mild hset)
    (hset.seats _ _ _ hseat) ⟨rfl, rfl⟩)

theorem works_carryOut (op : Operation) (plan : Plan Next) (hseat : w.Seat t op.sink false)
    (hlimit : w.Unlimited t) : Works t op.sink hit w (carryOut t op plan w) := by
  induction plan generalizing w with
  | done result => exact w.works_conclude t op result hseat
  | ask question next ih =>
      have hanswer : Mild op.sink w _ := w.mild_answer op question
      exact (hanswer.works t).trans (ih _ _ (hanswer.seats _ _ _ hseat) (hlimit.mild hanswer))
  | sync rid ns timeout next ih =>
      have hensure : Mild op.sink w _ := w.mild_ensureWatch op.factory rid ns op.inLoop
      unfold carryOut
      split
      · next v fault h =>
          rw [h] at hensure
          exact (hensure.works t).trans (ih _ v (hensure.seats _ _ _ hseat) (hlimit.mild hensure))
      · next v i h =>
          rw [h] at hensure
          have hseat' := hensure.seats _ _ _ hseat
          split
          · exact (hensure.works t).trans (ih _ v hseat' (hlimit.mild hensure))
          · exact (hensure.works t).trans
              (v.works_awaitSync t op i _ next hseat' (hlimit.mild hensure))

/-- After the time limit of a task is over there can be another. -/
theorem unlimited_endLimit (cancelled : Bool) (hseat : w.Seat t f false) :
    (w.withLoop fun l => (l.endLimit t cancelled).1).Unlimited t := by
  obtain ⟨a, ha, -⟩ := hseat
  obtain ⟨⟨b, hb, -, -, -, -, hnone⟩, -⟩ := Loop.endLimit_spec ha cancelled
  exact .inr ⟨b, hb, hnone⟩

theorem works_runSyncing (op : Operation) (i : InformerId) (next : Except Fault Bool → Plan Next)
    (a : Arrival) (hseat : w.Seat t op.sink false) :
    Works t op.sink hit w (w.runSyncing t op i next a) := by
  cases a with
  | on =>
      have hlimit : Works t op.sink hit w _ := .endLimit false
      exact hlimit.trans (works_carryOut _ t op _ (hlimit.seats _ _ _ hseat)
        (w.unlimited_endLimit t false hseat))
  | cancelled woken =>
      let x : Watched :=
        { w.informer i with waiters := (w.informer i).waiters.filter (· ≠ t) }
      have hleave : Mild op.sink w (w.setInformer i x) := w.mild_setInformer fun v hv => .inl hv
      have hseat' := hleave.seats _ _ _ hseat
      have hlimit : Works t op.sink hit (w.setInformer i x) _ := .endLimit true
      unfold runSyncing
      dsimp only
      split
      · exact ((hleave.works t).trans hlimit).trans (works_carryOut _ t op _
          (hlimit.seats _ _ _ hseat') (unlimited_endLimit _ t true hseat'))
      · exact (((hleave.works t).trans hlimit).trans ((mild_release _ op).works t)).trans
          (.finish _)

end World

end LiveCluster.Simulation
