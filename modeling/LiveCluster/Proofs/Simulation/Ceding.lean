import LiveCluster.Proofs.Simulation.Awake
import LiveCluster.Simulation.Run

/-!
# Every step leaves a world awake

Along the definition of each routine it is shown here that its task minds the others on its
way and cedes in the end. So a job of the queue leaves a world awake that was awake before.
-/

namespace LiveCluster.Simulation

namespace World

variable (w : World) (t : TaskId) {w' : World} {s : SinkId} {u : Option TaskId}

/-! ## Journal -/

theorem minds_withLoop {g : Loop Point Report → Loop Point Report}
    (h : Loop.Keeps none none w.loop (g w.loop)) : Minds u w (w.withLoop g) :=
  .of_eq h rfl rfl

theorem minds_record (call : ClusterCall) : Minds u w (w.record call) :=
  .of_eq (.refl _ _ _) rfl rfl

theorem minds_write (setup : Option LogSetup) (r : LogRecord) : Minds u w (w.write setup r) := by
  unfold write
  split <;> exact .of_eq (.refl _ _ _) rfl rfl

theorem minds_logOf (component : String) : Minds u w (w.logOf component).1 := by
  unfold logOf
  split
  · exact .refl u w
  · split <;> exact .of_eq (.refl _ _ _) rfl rfl

theorem minds_tell (note : Note) : Minds u w (w.tell note) := by
  cases note with
  | log r => exact (w.minds_logOf r.component).trans (minds_write _ _ r)
  | count _ | stale _ _ => exact .of_eq (.refl _ _ _) rfl rfl

theorem minds_foldl {α : Type} {g : World → α → World} (hg : ∀ w a, Minds u w (g w a))
    (as : List α) : Minds u w (as.foldl g w) := by
  induction as generalizing w with
  | nil => exact .refl u w
  | cons a rest ih => exact (hg w a).trans (ih (g w a))

theorem minds_tellAll (notes : List Note) : Minds u w (w.tellAll notes) :=
  w.minds_foldl (fun w note => w.minds_tell note) notes

theorem minds_spawn (p : Point) : Minds u w (w.spawn p).1 :=
  .of_eq (w.loop.keeps_spawn p) rfl rfl

/-! ## Sinks and their users -/

theorem minds_closeSink : Minds u w (w.closeSink s) := by
  have hsink : ∀ r, (w.closeSink s).sink r = w.sink r ∨
      s = r ∧ (w.closeSink s).sink r = ((w.sink s).close w.loop).1 :=
    fun r => w.sink_setSink_cases s r _
  have hloop : (w.closeSink s).loop = ((w.sink s).close w.loop).2 := rfl
  unfold Sink.close at hsink hloop
  by_cases hclosed : (w.sink s).closed = true
  · rw [if_pos hclosed] at hsink hloop
    refine .of_sinks (by rw [hloop]; exact .refl _ _ _) rfl fun r => .inl ?_
    rcases hsink r with h | ⟨rfl, h⟩ <;> rw [h] <;> exact ⟨rfl, fun _ _ h => h⟩
  · rw [if_neg hclosed] at hsink hloop
    refine .of_sinks (by rw [hloop]; exact (w.loop.keeps_wakeAll _).weaken) rfl fun r => ?_
    rcases hsink r with h | ⟨rfl, h⟩ <;> rw [h]
    · exact .inl ⟨rfl, fun _ _ h => h⟩
    · refine .inr ⟨rfl, fun v hv => ?_⟩
      rw [hloop]
      exact w.loop.awaitsSignal_wakeAll hv

/-- What is in a sink is changed. -/
theorem minds_setChannel {c : Channel LogEvent} {l : Loop Point Report}
    (h : Loop.Keeps none none w.loop l) :
    Minds u w { w.setSink s { w.sink s with channel := c } with loop := l } :=
  .of_channel h rfl rfl

theorem minds_offer (d : Delivery) : Minds u w (w.offer s d).1 := by
  have hoffer : ((w.sink s).offer w.loop d.event d.waited).2.1.watchers = (w.sink s).watchers ∧
      Loop.Keeps none none w.loop ((w.sink s).offer w.loop d.event d.waited).2.2 := by
    unfold Sink.offer
    split
    · exact ⟨rfl, .refl _ _ _⟩
    · split
      · exact ⟨rfl, .refl _ _ _⟩
      · exact ⟨rfl, Channel.keeps_give _ w.loop d.event⟩
  exact .of_channel hoffer.2 (Sink.offer_closed ..) hoffer.1

theorem minds_leaveRoom (woken : Bool) : Minds u w (w.leaveRoom t s woken) :=
  w.minds_setChannel (Channel.keeps_leaveGivers _ w.loop t woken)

theorem minds_takeEvent? {v : World} {event : LogEvent}
    (h : w.takeEvent? s = some (v, event)) : Minds u w v := by
  obtain ⟨channel, loop, htake, rfl⟩ := takeEvent?_eq_some h
  exact .of_channel (Channel.keeps_take? htake) rfl rfl

theorem cedes_awaitRoom {p : Point} (hp : p.takesSignal = true ∧ p.awaited = [])
    (hclose : ∀ s, p ≠ .awaitingClose s) : Cedes t w (w.awaitRoom t s p) :=
  (w.minds_setChannel (.refl _ _ w.loop)).cedes (.await hp fun s h => absurd h (hclose s))

theorem cedes_runGiving (d : Delivery) (a : Arrival) : Cedes t w (w.runGiving t s d a) := by
  unfold runGiving
  cases a with
  | cancelled woken => exact (w.minds_leaveRoom t woken).cedes (.finish _)
  | on =>
      have hoffer : Minds (some t) w _ := w.minds_offer (s := s) d
      dsimp only
      split
      · next v h =>
          rw [h] at hoffer
          exact hoffer.cedes (.report _)
      · next v h =>
          rw [h] at hoffer
          exact hoffer.cedes (.finish _)
      · next v h =>
          rw [h] at hoffer
          exact hoffer.cedes (v.cedes_awaitRoom t ⟨rfl, rfl⟩ (by simp))

theorem cedes_runTaking (a : Arrival) : Cedes t w (w.runTaking t s a) := by
  unfold runTaking
  cases a with
  | cancelled woken =>
      exact (w.minds_setChannel (Channel.keeps_leaveTakers _ w.loop t woken)).cedes (.finish _)
  | on =>
      dsimp only
      split
      · next v event h => exact (w.minds_takeEvent? h).cedes (.report _)
      · exact (w.minds_setChannel (.refl _ _ w.loop)).cedes (.await ⟨rfl, rfl⟩ (by simp))

/-- A task comes to wait for an open sink to be closed, or stops waiting for that. -/
theorem minds_setWatchers {watchers : List TaskId}
    (h : ∀ v, u ≠ some v → v ∈ (w.sink s).watchers → v ∈ watchers) :
    Minds u w (w.setSink s { w.sink s with watchers := watchers }) := by
  refine .of_sinks (.refl _ _ _) rfl fun r => .inl ?_
  rcases w.sink_setSink_cases s r { w.sink s with watchers := watchers } with hr | ⟨rfl, hr⟩ <;>
    rw [hr]
  · exact ⟨rfl, fun _ _ h => h⟩
  · exact ⟨rfl, h⟩

theorem cedes_runAwaitingClose (a : Arrival) (hs : s < w.sinks.length) :
    Cedes t w (w.runAwaitingClose t s a) := by
  unfold runAwaitingClose
  cases a with
  | cancelled _ =>
      refine (w.minds_setWatchers fun v hv hmem => ?_).cedes (.finish _)
      exact List.mem_filter.2 ⟨hmem, by simpa using fun h => hv (congrArg some h.symm)⟩
  | on =>
      dsimp only
      split
      · exact .report _
      · next hopen =>
          refine (w.minds_setWatchers fun v _ hmem => List.mem_append_left _ hmem).cedes
            (.await ⟨rfl, rfl⟩ fun r hr => ?_)
          cases hr
          have hset : (w.setSink s { w.sink s with watchers := (w.sink s).watchers ++ [t] }).sink s
              = { w.sink s with watchers := (w.sink s).watchers ++ [t] } := by
            rw [sink, setSink, List.getElem?_set_self hs]
            rfl
          rw [hset]
          exact ⟨List.mem_append_right _ List.mem_cons_self, by simpa using hopen⟩

theorem cedes_got (event : LogEvent) (collected : Option (List LogEvent)) :
    Cedes t w (w.got t s event collected) := by
  cases collected with
  | none => exact .report _
  | some events => exact .goOn (by simp)

theorem cedes_drained (collected : Option (List LogEvent)) :
    Cedes t w (w.drained t collected) := by
  cases collected <;> exact .report _

theorem cedes_getNext (collected : Option (List LogEvent)) :
    Cedes t w (w.getNext t s collected) := by
  unfold getNext
  split
  · next v event h => exact (w.minds_takeEvent? h).cedes (v.cedes_got t event collected)
  · split
    · exact w.cedes_drained t collected
    · exact ((w.minds_spawn _).trans (minds_spawn _ _)).cedes (.awaitAny rfl (by simp))

theorem minds_endRace (r : Race) : Minds (some t) w (w.endRace t r) := by
  have hunwatch : Minds (some t) w (w.withLoop (·.unwatch t [r.taker, r.closer])) :=
    .of_sinks (w.loop.keeps_unwatch t _) rfl fun _ => .inl ⟨rfl, fun _ _ h => h⟩
  exact hunwatch.trans (.of_eq ((Loop.keeps_cancel _ _).trans (Loop.keeps_cancel _ _)) rfl rfl)

theorem cedes_runGetting (collected : Option (List LogEvent)) (race : Option Race) (a : Arrival) :
    Cedes t w (w.runGetting t s collected race a) := by
  cases race with
  | none =>
      cases a with
      | cancelled _ => exact .finish _
      | on => exact w.cedes_getNext t collected
  | some race =>
      have hend := w.minds_endRace t race
      cases a with
      | cancelled _ => exact hend.cedes (.finish _)
      | on =>
          unfold runGetting
          dsimp only
          split
          · exact hend.cedes (cedes_got _ t _ collected)
          · exact hend.cedes (.finish _)
          · exact hend.cedes (.finish _)
          · exact hend.cedes (.goOn (by simp))

/-! ## Tails -/

variable (call : TailCall)

theorem cedes_endTail (ending : Ending Report) : Cedes t w (w.endTail t call ending) :=
  w.minds_closeSink.cedes (.finish _)

theorem cedes_cleared (cancelled : Bool) : Cedes t w (w.cleared t call cancelled) :=
  (w.minds_closeSink.trans (minds_tell _ _)).cedes (cedes_endTail _ t call _)

theorem cedes_clear (tasks : TailTasks) (cancelled : Bool) :
    Cedes t w (w.clear t call tasks cancelled) := by
  have hcancel : Minds (some t) w
      (w.withLoop fun l => (tasks.streams ++ [tasks.closer]).foldl Loop.cancel l) :=
    w.minds_withLoop (w.loop.keeps_cancelAll _)
  unfold clear
  dsimp only
  split
  · exact hcancel.cedes (cedes_cleared _ t call cancelled)
  · next hsome => exact hcancel.cedes (.awaitGroup call cancelled (by simpa using hsome))

theorem cedes_runClearing (cancelled : Bool) (a : Arrival) :
    Cedes t w (w.runClearing t call cancelled a) := by
  cases a with
  | on => exact w.cedes_cleared t call cancelled
  | cancelled _ => exact w.cedes_endTail t call _

theorem cedes_supervise (tasks : TailTasks) (pending : List TaskId) :
    Cedes t w (w.supervise t call tasks pending) := by
  unfold supervise
  split
  · exact w.cedes_clear t call tasks false
  · exact .awaitAny (p := .supervising call tasks pending) rfl (by simp)

theorem cedes_runSupervising (tasks : TailTasks) (pending : List TaskId) (a : Arrival) :
    Cedes t w (w.runSupervising t call tasks pending a) := by
  have hunwatch : Minds (some t) w (w.withLoop (·.unwatch t (pending ++ [tasks.closer]))) :=
    .of_sinks (w.loop.keeps_unwatch t _) rfl fun _ => .inl ⟨rfl, fun _ _ h => h⟩
  unfold runSupervising
  cases a with
  | cancelled _ => exact hunwatch.cedes (cedes_clear _ t call tasks true)
  | on =>
      dsimp only
      split
      · exact (hunwatch.trans (minds_tell _ _)).cedes (cedes_clear _ t call tasks false)
      · exact hunwatch.cedes (cedes_supervise _ t call tasks _)

theorem minds_spawnStreams (targets : List TailTarget) :
    Minds u w (w.spawnStreams call targets).1 := by
  induction targets generalizing w with
  | nil => exact .refl u w
  | cons target rest ih => exact (w.minds_spawn _).trans (ih _)

theorem cedes_openStreams (targets : List TailTarget) :
    Cedes t w (w.openStreams t call targets) :=
  (((w.minds_spawnStreams call targets).trans (minds_spawn _ _)).trans (minds_tell _ _)).cedes
    (cedes_supervise _ t call _ _)

theorem cedes_target (targets : List TailTarget) (pods : List Snapshot) :
    Cedes t w (w.target t call targets pods) := by
  induction pods generalizing w targets with
  | nil => exact w.cedes_openStreams t call targets
  | cons pod rest ih =>
      unfold target
      split
      · exact ih w _
      · next fault _ =>
          have hoffer : Minds (some t) w _ :=
            (w.minds_tellAll (Tailer.streamError pod "" fault)).trans
              (minds_offer _ (s := call.sink) { event := .failure pod.name "" fault })
          dsimp only
          split
          · next v h =>
              rw [h] at hoffer
              exact hoffer.cedes (ih v _)
          · next v h =>
              rw [h] at hoffer
              exact hoffer.cedes (v.cedes_endTail t call _)
          · next v h =>
              rw [h] at hoffer
              exact hoffer.cedes (v.cedes_awaitRoom t ⟨rfl, rfl⟩ (by simp))

theorem cedes_runReporting (targets : List TailTarget) (pods : List Snapshot) (d : Delivery)
    (a : Arrival) : Cedes t w (w.runReporting t call targets pods d a) := by
  unfold runReporting
  cases a with
  | cancelled woken => exact (w.minds_leaveRoom t woken).cedes (cedes_endTail _ t call _)
  | on =>
      have hoffer : Minds (some t) w _ := w.minds_offer (s := call.sink) d
      dsimp only
      split
      · next v h =>
          rw [h] at hoffer
          exact hoffer.cedes (v.cedes_target t call targets pods)
      · next v h =>
          rw [h] at hoffer
          exact hoffer.cedes (v.cedes_endTail t call _)
      · next v h =>
          rw [h] at hoffer
          exact hoffer.cedes (v.cedes_awaitRoom t ⟨rfl, rfl⟩ (by simp))

/-! ## Streams -/

variable (st : Stream)

theorem minds_closeLog : Minds (some t) w (w.closeLog t st) where
  keeps := .refl _ _ _
  closed _ h := h
  heard h := h
  opens := List.filter_sublist.subset
  logs v hv hne := List.mem_filter.2 ⟨hv, by simpa using fun h => hne (congrArg some h.symm)⟩

theorem cedes_deliver (d : Delivery) (last : Bool) : Cedes t w (w.deliver t st d last) := by
  have hoffer : Minds (some t) w _ := w.minds_offer (s := st.sink) d
  unfold deliver
  split
  · next v h =>
      rw [h] at hoffer
      split
      · exact hoffer.cedes (.report _)
      · exact hoffer.cedes (.goOn (by simp))
  · next v h =>
      rw [h] at hoffer
      split
      · exact (hoffer.trans (v.minds_tell _)).cedes (.report _)
      · exact (hoffer.trans (v.minds_closeLog t st)).cedes (.report _)
  · next v h =>
      rw [h] at hoffer
      exact hoffer.cedes (v.cedes_awaitRoom t ⟨rfl, rfl⟩ (by simp))

theorem cedes_readLog : Cedes t w (w.readLog t st) := by
  unfold readLog
  split
  · have hset : ∀ log, Minds (some t) w (w.setLogOfStream st log) :=
      fun _ => .of_eq (.refl _ _ _) rfl rfl
    exact (hset _).cedes (.await ⟨rfl, rfl⟩ (by simp))
  · next item log loop h =>
      let v : World := { w.setLogOfStream st log with loop := loop }
      have htake : Minds (some t) w v := .of_eq (Channel.keeps_take? h) rfl rfl
      cases item with
      | line text => exact htake.cedes (v.cedes_deliver t st _ false)
      | ended => exact (htake.trans (v.minds_closeLog t st)).cedes (.report _)
      | failed fault =>
          have htold := (htake.trans (v.minds_closeLog t st)).trans
            (minds_tellAll _ (Tailer.streamError st.target.pod st.target.container fault))
          exact htold.cedes (cedes_deliver _ t st _ true)

theorem cedes_quitStream (woken : Bool) (p : StreamPoint) :
    Cedes t w (w.quitStream t st woken p) := by
  cases p with
  | opening => exact .finish _
  | reading =>
      have hleave : Minds (some t) w { w.setLogOfStream st
          ((w.logOfStream st).leaveTakers w.loop t woken).1 with
          loop := ((w.logOfStream st).leaveTakers w.loop t woken).2 } :=
        .of_eq (Channel.keeps_leaveTakers _ w.loop t woken) rfl rfl
      exact (hleave.trans (minds_closeLog _ t st)).cedes (.finish _)
  | delivering d last =>
      have hleave : Minds (some t) w _ := w.minds_leaveRoom t (s := st.sink) woken
      unfold quitStream
      dsimp only
      split
      · exact hleave.cedes (.finish _)
      · exact (hleave.trans (minds_closeLog _ t st)).cedes (.finish _)

/-- The world after a log was asked for, if a turn begins with that. -/
def asked : Point → Arrival → World
  | .stream st .opening, .on => w.openLog t st
  | _, _ => w

theorem asked_spec (p : Point) (a : Arrival) :
    (w.asked t p a).loop = w.loop ∧ (w.asked t p a).sinks = w.sinks ∧
      w.openLogs ⊆ (w.asked t p a).openLogs ∧
      ∀ v ∈ (w.asked t p a).openLogs,
        v ∈ w.openLogs ∨ v = t ∧ ∃ st, p = .stream st .opening := by
  unfold asked
  split
  · next st =>
      refine ⟨rfl, rfl, List.subset_append_left _ _, fun v hv => ?_⟩
      exact (List.mem_append.1 hv).imp_right fun hown => ⟨List.mem_singleton.1 hown, st, rfl⟩
  · exact ⟨rfl, rfl, fun _ hv => hv, fun _ hv => .inl hv⟩

theorem Awake.asked {busy : Option TaskId} (h : Awake busy w) (p : Point) (a : Arrival) :
    Awake busy (w.asked t p a) := by
  unfold World.asked
  split
  · exact ⟨h.alert, h.admits, h.heard, h.runs⟩
  · exact h

theorem cedes_runStream (p : StreamPoint) (a : Arrival) :
    Cedes t (w.asked t (.stream st p) a) (w.runStream t st p a) := by
  cases a with
  | cancelled woken =>
      have hquit := w.cedes_quitStream t st woken p
      cases p <;> exact hquit
  | on =>
      cases p with
      | opening => exact cedes_readLog _ t st
      | reading => exact w.cedes_readLog t st
      | delivering d last => exact w.cedes_deliver t st d last

/-! ## Scopes -/

theorem minds_setInformer (i : InformerId) (x : Watched) : Minds u w (w.setInformer i x) :=
  .of_eq (.refl _ _ _) rfl rfl

theorem minds_startWorker (i : InformerId) : Minds u w (w.startWorker i) := by
  unfold startWorker
  split
  · exact .refl u w
  · exact (w.minds_spawn _).trans (minds_setInformer _ _ _)

theorem minds_findInformer (g : FactoryId) (rid : ResourceId) (ns : String) :
    Minds u w (w.findInformer g rid ns).1 := by
  unfold findInformer
  split
  · exact .refl u w
  · unfold addInformer
    dsimp only
    refine Minds.trans ?_ (minds_tell _ _)
    exact .of_eq (.refl _ _ _) rfl rfl

theorem minds_ensureWatch (g : FactoryId) (rid : ResourceId) (ns : String) (inLoop : Bool) :
    Minds u w (w.ensureWatch g rid ns inLoop).1 := by
  have hfind : Minds u w _ := w.minds_findInformer g rid ns
  unfold ensureWatch
  split
  · exact .refl u w
  · dsimp only
    split
    · exact hfind.trans (minds_startWorker _ _)
    · split
      · exact hfind
      · exact hfind.trans (minds_setInformer _ _ _)

theorem minds_ensureLazily (g : FactoryId) (rid : ResourceId) (ns : String) (inLoop : Bool) :
    Minds u w (w.ensureLazily g rid ns inLoop) := by
  unfold ensureLazily
  split
  · exact .refl u w
  · exact w.minds_ensureWatch g rid ns true

theorem minds_get (g : FactoryId) (rid : ResourceId) (path : String) (inLoop : Bool) :
    Minds u w (w.get g rid path inLoop).1 := by
  unfold get
  dsimp only
  split
  · exact .refl u w
  · exact w.minds_ensureLazily g rid _ inLoop

theorem minds_list (g : FactoryId) (rid : ResourceId) (ns : String) (selector : Option Selector)
    (inLoop : Bool) : Minds u w (w.list g rid ns selector inLoop).1 := by
  unfold list
  dsimp only
  split
  · exact .refl u w
  · exact w.minds_ensureLazily g rid _ inLoop

/-! ## Plans -/

theorem minds_answer (op : Operation) (q : Ask) : Minds u w (w.answer op q).1 := by
  cases q with
  | object rid path => exact w.minds_get op.factory rid path op.inLoop
  | objects rid ns selector => exact w.minds_list op.factory rid ns selector op.inLoop
  | stale _ _ | namespaced _ | now => exact .refl u w
  | review ns group resource verb => exact w.minds_record _
  | mutate rid ns m => exact w.minds_record _
  | tell note => exact w.minds_tell note

theorem minds_release (op : Operation) : Minds u w (w.release op) := by
  unfold release
  split
  · exact w.minds_closeSink
  · exact .refl u w

theorem cedes_conclude (op : Operation) (result : Except Fault Next) :
    Cedes t w (w.conclude t op result) := by
  unfold conclude
  split
  · exact (w.minds_release op).cedes (.finish _)
  · exact (w.minds_release op).cedes (.report _)
  · split
    · exact w.cedes_target t _ [] _
    · exact .report _

theorem cedes_awaitSync (op : Operation) (i : InformerId) (limit : Float)
    (next : Except Fault Bool → Plan Next) : Cedes t w (w.awaitSync t op i limit next) :=
  ((w.minds_withLoop (w.loop.keeps_beginLimit t limit)).trans (minds_setInformer _ i _)).cedes
    (.await ⟨rfl, rfl⟩ (by simp))

theorem cedes_carryOut (op : Operation) (plan : Plan Next) :
    Cedes t w (carryOut t op plan w) := by
  induction plan generalizing w with
  | done result => exact w.cedes_conclude t op result
  | ask question next ih => exact (w.minds_answer op question).cedes (ih _ _)
  | sync rid ns timeout next ih =>
      have hensure : Minds (some t) w _ := w.minds_ensureWatch op.factory rid ns op.inLoop
      unfold carryOut
      split
      · next v fault h =>
          rw [h] at hensure
          exact hensure.cedes (ih _ v)
      · next v i h =>
          rw [h] at hensure
          split
          · exact hensure.cedes (ih _ v)
          · exact hensure.cedes (v.cedes_awaitSync t op i _ next)

theorem cedes_runSyncing (op : Operation) (i : InformerId) (next : Except Fault Bool → Plan Next)
    (a : Arrival) : Cedes t w (w.runSyncing t op i next a) := by
  cases a with
  | on =>
      exact (w.minds_withLoop (g := fun l => (l.endLimit t false).1)
        (w.loop.keeps_endLimit t false)).cedes (cedes_carryOut _ t op _)
  | cancelled woken =>
      have hleave : Minds (some t) w (w.setInformer i { w.informer i with
          waiters := (w.informer i).waiters.filter (· ≠ t) }) := w.minds_setInformer i _
      have hlimit := hleave.trans (minds_withLoop _ (g := fun l => (l.endLimit t true).1)
        (Loop.keeps_endLimit _ t true))
      unfold runSyncing
      dsimp only
      split
      · exact hlimit.cedes (cedes_carryOut _ t op _)
      · exact (hlimit.trans (minds_release _ op)).cedes (.finish _)

/-! ## Workers -/

theorem minds_announceSync (i : InformerId) : Minds u w (w.announceSync i) := by
  unfold announceSync
  dsimp only
  split
  · exact .of_eq (w.loop.keeps_wakeAll _) rfl rfl
  · exact .refl u w

theorem minds_stopTimer (i : InformerId) : Minds u w (w.stopTimer i) := by
  unfold stopTimer
  split
  · exact .refl u w
  · exact .of_eq (.of_eq rfl (.refl _)) rfl rfl

theorem minds_leaveWatch (i : InformerId) (c : Informer.Command) :
    Minds u w (w.leaveWatch i c) := by
  cases c with
  | next => exact .refl u w
  | list | watch _ | sleep _ | crash _ => exact w.minds_stopTimer i

theorem minds_withdraw (i : InformerId) (woken : Bool) (p : WorkerPoint) :
    Minds u w (w.withdraw t i woken p) := by
  cases p with
  | signalled _ => exact w.minds_stopTimer i
  | held => exact .of_eq (.refl _ _ _) rfl rfl
  | watching =>
      have hleave : Minds u w { w with
          cluster := w.cluster.setFeed (w.informer i).cache.key
            ((w.cluster.feed (w.informer i).cache.key).leaveTakers w.loop t woken).1
          loop := ((w.cluster.feed (w.informer i).cache.key).leaveTakers w.loop t woken).2 } :=
        .of_eq (Channel.keeps_leaveTakers _ w.loop t woken) rfl rfl
      exact hleave.trans (minds_stopTimer _ i)
  | asleep timer =>
      cases timer with
      | none => exact .refl u w
      | some id => exact .of_eq (.of_eq rfl (.refl _)) rfl rfl

theorem minds_establish (i : InformerId) : Minds u w (w.establish i) :=
  (w.minds_setInformer i _).trans (minds_tellAll _ _)

theorem cedes_callList (i : InformerId) : Cedes t w (w.callList t i) := by
  have hcluster : ∀ call cluster, Minds (some t) w { w.record call with cluster := cluster } :=
    fun _ _ => .of_eq (.refl _ _ _) rfl rfl
  unfold callList
  dsimp only
  split
  · exact (hcluster _ _).cedes (.goOn (by simp))
  · split
    · exact (hcluster _ _).cedes (.await ⟨rfl, rfl⟩ (by simp))
    · exact (w.minds_record _).cedes (.goOn (by simp))

theorem cedes_takeFeed (i : InformerId) : Cedes t w (w.takeFeed t i) := by
  unfold takeFeed
  dsimp only
  split
  · next item feed loop h =>
      have htake : Minds (some t) w { w with
          cluster := w.cluster.setFeed (w.informer i).cache.key feed, loop := loop } :=
        .of_eq (Channel.keeps_take? h) rfl rfl
      exact htake.cedes (.goOn (by simp))
  · have hset : ∀ cluster, Minds (some t) w { w with cluster := cluster } :=
      fun _ => .of_eq (.refl _ _ _) rfl rfl
    exact (hset _).cedes (.await ⟨rfl, rfl⟩ (by simp))

theorem cedes_fallAsleep (i : InformerId) (delay : Float) :
    Cedes t w (w.fallAsleep t i delay) := by
  unfold fallAsleep
  split
  · exact .giveWay
  · have hstart : Minds (some t) w { w with loop := (w.loop.startTimer delay (.wake t)).1 } :=
      .of_eq (.of_eq rfl (.refl _)) rfl rfl
    exact hstart.cedes (.await ⟨rfl, rfl⟩ (by simp))

theorem cedes_execute (i : InformerId) (c : Informer.Command) :
    Cedes t w (w.execute t i c) := by
  cases c with
  | list => exact w.cedes_callList t i
  | watch version =>
      have hstart : Minds (some t) w (w.startTimer i) := .of_eq (.of_eq rfl (.refl _)) rfl rfl
      exact (hstart.trans (minds_record _ _)).cedes (cedes_takeFeed _ t i)
  | next => exact w.cedes_takeFeed t i
  | sleep delay => exact w.cedes_fallAsleep t i delay
  | crash fault => exact .finish _

theorem cedes_signal (i : InformerId) (x : Informer.Signal) : Cedes t w (w.signal t i x) :=
  ((((w.minds_setInformer i _).trans (minds_leaveWatch _ i _)).trans
    (minds_announceSync _ i)).trans (minds_tellAll _ _)).cedes (cedes_execute _ t i _)

theorem cedes_runWorker (i : InformerId) (p : WorkerPoint) (a : Arrival) :
    Cedes t w (w.runWorker t i p a) := by
  cases a with
  | cancelled woken => exact (w.minds_withdraw t i woken p).cedes (.finish _)
  | on =>
      cases p with
      | signalled x => exact w.cedes_signal t i x
      | held => exact w.cedes_signal t i _
      | watching => exact w.cedes_takeFeed t i
      | asleep _ => exact w.cedes_signal t i .woke

/-! ## Stopping -/

theorem minds_markStopped (i : InformerId) : Minds u w (w.markStopped i) :=
  (w.minds_setInformer i _).trans (minds_tellAll _ _)

theorem minds_endLimit (cancelled : Bool) :
    Minds u w (w.withLoop fun l => (l.endLimit t cancelled).1) :=
  w.minds_withLoop (w.loop.keeps_endLimit t cancelled)

theorem cedes_allStopped (reason : StopReason) : Cedes t w (w.allStopped t reason) := by
  cases reason with
  | informer => exact .report _
  | factory n => exact (w.minds_tell _).cedes (.report _)
  | application n =>
      exact ((w.minds_tell _).trans (minds_endLimit _ t false)).cedes (.goOn (by simp))

theorem cedes_stopFailed (fault : Fault) (reason : StopReason) :
    Cedes t w (w.stopFailed t fault reason) := by
  cases reason with
  | informer | factory _ => exact .finish _
  | application n => exact (w.minds_endLimit t false).cedes (.goOn (by simp))

theorem cedes_stopNext (reason : StopReason) (informers : List InformerId) :
    Cedes t w (w.stopNext t reason informers) := by
  induction informers generalizing w with
  | nil => exact w.cedes_allStopped t reason
  | cons i rest ih =>
      unfold stopNext
      dsimp only
      split
      · exact ih w
      · next worker _ =>
          have htaken : Minds (some t) w (w.setInformer i { w.informer i with worker := none }) :=
            w.minds_setInformer i _
          split
          · exact htaken.cedes (cedes_stopFailed _ t _ reason)
          · exact (htaken.trans (minds_markStopped _ i)).cedes (ih _)
          · exact (htaken.trans (minds_withLoop _ (g := (·.cancel worker))
              (Loop.keeps_cancel _ worker))).cedes
              (.awaitTask reason i rest worker)

theorem cedes_runStopping (reason : StopReason) (current : Option (InformerId × TaskId))
    (rest : List InformerId) (a : Arrival) :
    Cedes t w (w.runStopping t reason current rest a) := by
  cases current with
  | none =>
      cases a with
      | cancelled _ => exact .finish _
      | on => exact w.cedes_stopNext t reason rest
  | some current =>
      obtain ⟨i, worker⟩ := current
      have hnext : Cedes t w _ :=
        (w.minds_markStopped i).cedes (cedes_stopNext _ t reason rest)
      cases a with
      | cancelled _ => exact hnext
      | on =>
          unfold runStopping
          dsimp only
          split
          · exact w.cedes_stopFailed t _ reason
          · exact hnext

theorem cedes_runStoppingScope (g : FactoryId) (rid : ResourceId) (ns : String) (twice : Bool)
    (a : Arrival) : Cedes t w (w.runStoppingScope t g rid ns twice a) := by
  cases a with
  | cancelled _ => exact .finish _
  | on =>
      have hensure : Minds (some t) w _ := w.minds_ensureWatch g rid ns true
      unfold runStoppingScope
      dsimp only
      split
      · next v fault h =>
          rw [h] at hensure
          exact hensure.cedes (.finish _)
      · next v i h =>
          rw [h] at hensure
          exact hensure.cedes (v.cedes_stopNext t _ _)

theorem minds_shutFactory (g : FactoryId) : Minds u w (w.shutFactory g).1 :=
  .of_eq (.refl _ _ _) rfl rfl

theorem cedes_runStoppingFactory (g : FactoryId) (a : Arrival) :
    Cedes t w (w.runStoppingFactory t g a) := by
  cases a with
  | cancelled _ => exact .finish _
  | on =>
      unfold runStoppingFactory
      dsimp only
      split
      · exact .report _
      · exact (w.minds_shutFactory g).cedes (cedes_stopNext _ t _ _)

/-! ## The application -/

theorem cedes_obey (environment : Except Fault Config) (c : Application.Command) :
    Cedes t w (w.obey t environment c) := by
  have hgo : ∀ v, Minds (some t) w v → ∀ x, Cedes t w (v.goOn t (.application x)) :=
    fun v h x => h.cedes (.goOn (by simp))
  have hlimit : ∀ delay, Minds (some t) w (w.withLoop (·.beginLimit t delay)) :=
    fun delay => w.minds_withLoop (w.loop.keeps_beginLimit t delay)
  unfold obey
  split
  · exact hgo w (.refl _ w) _
  · next config =>
      have hconnect : Minds (some t) w (w.connect config).1 := .of_eq (.refl _ _ _) rfl rfl
      exact hgo _ hconnect _
  · next config =>
      have hbuild : Minds (some t) w (w.build config).1 := .of_eq (.refl _ _ _) rfl rfl
      exact hgo _ hbuild _
  · next g =>
      split
      · exact hgo w (.refl _ w) _
      · exact ((hlimit _).trans (minds_shutFactory _ g)).cedes (cedes_stopNext _ t _ _)
  · dsimp only
    split
    · exact hgo _ (w.minds_record _) _
    · exact ((w.minds_record .close).trans (minds_withLoop _ (Loop.keeps_beginLimit _ t _))).cedes
        (.await ⟨rfl, rfl⟩ (by simp))
  · exact .report _
  · exact .finish _

theorem cedes_runApplication (x : Application.Signal) (a : Arrival) :
    Cedes t w (w.runApplication t x a) := by
  cases a with
  | cancelled _ => exact .finish _
  | on =>
      unfold runApplication
      dsimp only
      split
      · exact .report _
      · refine Minds.cedes ?_ (cedes_obey _ t _ _)
        refine Minds.trans ?_ (minds_foldl _ (fun w r => w.minds_write _ r) _)
        split <;> exact .of_eq (.refl _ _ _) rfl rfl

theorem cedes_runClosing (a : Arrival) : Cedes t w (w.runClosing t a) := by
  cases a with
  | on => exact .report _
  | cancelled _ =>
      have hlimit : Minds (some t) w _ := w.minds_endLimit t true
      unfold runClosing
      dsimp only
      split
      · exact hlimit.cedes (.goOn (by simp))
      · exact hlimit.cedes (.finish _)

/-! ## Jobs -/

/-- Whatever a task does from where it stands, in the end it cedes. -/
theorem cedes_runPoint (p : Point) (a : Arrival)
    (hp : ∀ s, p = .awaitingClose s → s < w.sinks.length) :
    Cedes t (w.asked t p a) (w.runPoint t p a) := by
  cases p with
  | worker i p => exact w.cedes_runWorker t i p a
  | planning op plan =>
      cases a with
      | cancelled _ => exact .finish _
      | on => exact w.cedes_carryOut t op plan
  | syncing op i next => exact w.cedes_runSyncing t op i next a
  | reporting call targets pods d => exact w.cedes_runReporting t call targets pods d a
  | supervising call tasks pending => exact w.cedes_runSupervising t call tasks pending a
  | clearing call cancelled => exact w.cedes_runClearing t call cancelled a
  | stream st p => exact w.cedes_runStream t st p a
  | giving s d => exact w.cedes_runGiving t d a
  | taking s => exact w.cedes_runTaking t a
  | awaitingClose s => exact w.cedes_runAwaitingClose t a (hp s rfl)
  | getting s collected race => exact w.cedes_runGetting t collected race a
  | stopping reason current rest => exact w.cedes_runStopping t reason current rest a
  | stoppingScope g rid ns twice => exact w.cedes_runStoppingScope t g rid ns twice a
  | stoppingFactory g => exact w.cedes_runStoppingFactory t g a
  | application x => exact w.cedes_runApplication t x a
  | closing => exact w.cedes_runClosing t a

end World

end LiveCluster.Simulation
