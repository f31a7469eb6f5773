import LiveCluster.Proofs.Simulation.Acts
import LiveCluster.Simulation.Run

/-!
# What every routine leaves alone

Along the definition of each routine it is shown here that a step of its task is one of
those in `Acts`. Most of what a routine does on its way is `Quiet`: it wakes tasks, or
writes to a journal, a sink or the cluster.
-/

namespace LiveCluster.Simulation

open Loop (Soft)

namespace World

/-- Every informer and every task is left where it was. -/
structure Quiet (w w' : World) : Prop extends SameInformers w w' where
  loop : Soft w.loop w'.loop

theorem Quiet.of_eq {w w' : World} (hinformers : w'.informers = w.informers)
    (hfactories : w'.factories = w.factories) (hloop : Soft w.loop w'.loop) : Quiet w w' where
  toSameInformers := .of_eq hinformers hfactories
  loop := hloop

theorem Quiet.refl (w : World) : Quiet w w :=
  .of_eq rfl rfl (.refl _)

theorem Quiet.trans {w v x : World} (h : Quiet w v) (h' : Quiet v x) : Quiet w x where
  toSameInformers := h.toSameInformers.trans h'.toSameInformers
  loop := h.loop.trans h'.loop

theorem Quiet.acts {w w' : World} (h : Quiet w w') (u : TaskId) : Acts u w w' :=
  .of_same h.toSameInformers h.loop

/-! ## Journal and tasks -/

theorem quiet_withLoop (w : World) {f : Loop Point Report → Loop Point Report}
    (h : Soft w.loop (f w.loop)) : Quiet w (w.withLoop f) :=
  .of_eq rfl rfl h

theorem quiet_record (w : World) (call : ClusterCall) : Quiet w (w.record call) :=
  .of_eq rfl rfl (.refl _)

theorem quiet_write (w : World) (setup : Option LogSetup) (r : LogRecord) :
    Quiet w (w.write setup r) := by
  unfold write
  split <;> exact .of_eq rfl rfl (.refl _)

theorem quiet_logOf (w : World) (component : String) : Quiet w (w.logOf component).1 := by
  unfold logOf
  split
  · exact .refl w
  · split <;> exact .of_eq rfl rfl (.refl _)

theorem quiet_tell (w : World) (note : Note) : Quiet w (w.tell note) := by
  cases note with
  | log r => exact (w.quiet_logOf r.component).trans (quiet_write _ _ r)
  | count _ | stale _ _ => exact .of_eq rfl rfl (.refl _)

theorem quiet_foldl {α : Type} {f : World → α → World} (hf : ∀ w a, Quiet w (f w a)) (w : World)
    (as : List α) : Quiet w (as.foldl f w) := by
  induction as generalizing w with
  | nil => exact .refl w
  | cons a rest ih => exact (hf w a).trans (ih (f w a))

theorem quiet_tellAll (w : World) (notes : List Note) : Quiet w (w.tellAll notes) :=
  quiet_foldl quiet_tell w notes

variable (w : World) (t : TaskId)

/-- A task goes to a point at which it works for no informer. -/
theorem acts_withLoop {f : Loop Point Report → Loop Point Report} {p : Point}
    (h : Loop.Moves t p w.loop (f w.loop)) (hp : p.informer? = none) :
    Acts t w (w.withLoop f) :=
  .of_moves (.of_eq rfl rfl) h fun i hi => by
    rw [hp] at hi
    cases hi

theorem acts_goOn {p : Point} (hp : p.informer? = none) : Acts t w (w.goOn t p) :=
  acts_withLoop w t (w.loop.moves_goOn t p) hp

theorem acts_await {p : Point} (hp : p.informer? = none) : Acts t w (w.await t p) :=
  acts_withLoop w t (w.loop.moves_suspend t p .signal) hp

theorem acts_finish (ending : Ending Report) : Acts t w (w.finish t ending) :=
  .of_ends (.of_eq rfl rfl) (w.loop.ends_finish t ending)

theorem acts_report (report : Report) : Acts t w (w.report t report) :=
  w.acts_finish t (.returned report)

/-! ## Sinks and their users -/

theorem quiet_setSink (s : SinkId) (x : Sink) : Quiet w (w.setSink s x) :=
  .of_eq rfl rfl (.refl _)

theorem quiet_closeSink (s : SinkId) : Quiet w (w.closeSink s) := by
  refine .of_eq rfl rfl ?_
  show Soft w.loop ((w.sink s).close w.loop).2
  unfold Sink.close
  split
  · exact .refl _
  · exact w.loop.soft_wakeAll _

theorem quiet_offer (s : SinkId) (d : Delivery) : Quiet w (w.offer s d).1 := by
  refine .of_eq rfl rfl ?_
  show Soft w.loop ((w.sink s).offer w.loop d.event d.waited).2.2
  unfold Sink.offer
  split
  · exact .refl _
  · split
    · exact .refl _
    · exact Channel.soft_give _ w.loop d.event

theorem acts_awaitRoom (s : SinkId) {p : Point} (hp : p.informer? = none) :
    Acts t w (w.awaitRoom t s p) :=
  ((w.quiet_setSink s _).acts t).trans (acts_await _ t hp)

theorem quiet_leaveRoom (s : SinkId) (woken : Bool) : Quiet w (w.leaveRoom t s woken) :=
  .of_eq rfl rfl (Channel.soft_leaveGivers _ w.loop t woken)

theorem quiet_takeEvent? {w v : World} {s : SinkId} {event : LogEvent}
    (h : w.takeEvent? s = some (v, event)) : Quiet w v := by
  obtain ⟨channel, loop, htake, rfl⟩ := takeEvent?_eq_some h
  exact .of_eq rfl rfl (Channel.soft_take? htake)

theorem acts_runGiving (s : SinkId) (d : Delivery) (a : Arrival) :
    Acts t w (w.runGiving t s d a) := by
  unfold runGiving
  cases a with
  | cancelled woken => exact ((w.quiet_leaveRoom t s woken).acts t).trans (acts_finish _ t _)
  | on =>
      have hoffer := (w.quiet_offer s d).acts t
      dsimp only
      split
      · next v h => exact (h ▸ hoffer).trans (v.acts_report t _)
      · next v h => exact (h ▸ hoffer).trans (v.acts_finish t _)
      · next v h => exact (h ▸ hoffer).trans (v.acts_awaitRoom t s rfl)

theorem acts_runTaking (s : SinkId) (a : Arrival) : Acts t w (w.runTaking t s a) := by
  unfold runTaking
  cases a with
  | cancelled woken =>
      refine Acts.trans ?_ (acts_finish _ t _)
      exact .of_soft rfl rfl (Channel.soft_leaveTakers _ w.loop t woken)
  | on =>
      dsimp only
      split
      · next v event h => exact ((quiet_takeEvent? h).acts t).trans (v.acts_report t _)
      · exact ((w.quiet_setSink s _).acts t).trans (acts_await _ t rfl)

theorem acts_runAwaitingClose (s : SinkId) (a : Arrival) :
    Acts t w (w.runAwaitingClose t s a) := by
  unfold runAwaitingClose
  cases a with
  | cancelled _ => exact ((w.quiet_setSink s _).acts t).trans (acts_finish _ t _)
  | on =>
      dsimp only
      split
      · exact w.acts_report t _
      · exact ((w.quiet_setSink s _).acts t).trans (acts_await _ t rfl)

theorem acts_got (s : SinkId) (event : LogEvent) (collected : Option (List LogEvent)) :
    Acts t w (w.got t s event collected) := by
  cases collected with
  | none => exact w.acts_report t _
  | some events => exact w.acts_goOn t rfl

theorem acts_drained (collected : Option (List LogEvent)) : Acts t w (w.drained t collected) := by
  cases collected with
  | none => exact w.acts_report t _
  | some events => exact w.acts_report t _

theorem acts_getNext (s : SinkId) (collected : Option (List LogEvent)) :
    Acts t w (w.getNext t s collected) := by
  unfold getNext
  split
  · next v event h => exact ((quiet_takeEvent? h).acts t).trans (v.acts_got t s event collected)
  · split
    · exact w.acts_drained t collected
    · have htaker := Acts.spawn t w (p := .taking s) rfl
      have hcloser := Acts.spawn t (w.spawn (.taking s)).1 (p := .awaitingClose s) rfl
      exact (htaker.trans hcloser).trans
        (acts_withLoop _ t (Loop.moves_awaitAny _ t _ _) rfl)

theorem quiet_endRace (r : Race) : Quiet w (w.endRace t r) :=
  w.quiet_withLoop (((w.loop.soft_unwatch t _).trans (Loop.soft_cancel _ _)).trans
    (Loop.soft_cancel _ _))

theorem acts_runGetting (s : SinkId) (collected : Option (List LogEvent)) (race : Option Race)
    (a : Arrival) : Acts t w (w.runGetting t s collected race a) := by
  cases race with
  | none =>
      cases a with
      | cancelled _ => exact w.acts_finish t _
      | on => exact w.acts_getNext t s collected
  | some race =>
      have hend := (w.quiet_endRace t race).acts t
      cases a with
      | cancelled _ => exact hend.trans (acts_finish _ t _)
      | on =>
          unfold runGetting
          dsimp only
          split
          · exact hend.trans (acts_got _ t s _ collected)
          · exact hend.trans (acts_finish _ t _)
          · exact hend.trans (acts_finish _ t _)
          · exact hend.trans (acts_goOn _ t rfl)

/-! ## Tails -/

theorem acts_endTail (call : TailCall) (ending : Ending Report) :
    Acts t w (w.endTail t call ending) :=
  ((w.quiet_closeSink call.sink).acts t).trans (acts_finish _ t ending)

theorem acts_cleared (call : TailCall) (cancelled : Bool) :
    Acts t w (w.cleared t call cancelled) :=
  (((w.quiet_closeSink call.sink).trans (quiet_tell _ _)).acts t).trans (acts_endTail _ t call _)

theorem acts_clear (call : TailCall) (tasks : TailTasks) (cancelled : Bool) :
    Acts t w (w.clear t call tasks cancelled) := by
  have hcancel : Quiet w
      (w.withLoop fun l => (tasks.streams ++ [tasks.closer]).foldl Loop.cancel l) :=
    w.quiet_withLoop (Loop.soft_foldl Loop.soft_cancel w.loop _)
  unfold clear
  dsimp only
  split
  · exact (hcancel.acts t).trans (acts_cleared _ t call cancelled)
  · exact (hcancel.acts t).trans (acts_withLoop _ t (Loop.moves_awaitGroup _ t _ _) rfl)

theorem acts_runClearing (call : TailCall) (cancelled : Bool) (a : Arrival) :
    Acts t w (w.runClearing t call cancelled a) := by
  cases a with
  | on => exact w.acts_cleared t call cancelled
  | cancelled _ => exact w.acts_endTail t call _

theorem acts_supervise (call : TailCall) (tasks : TailTasks) (pending : List TaskId) :
    Acts t w (w.supervise t call tasks pending) := by
  unfold supervise
  split
  · exact w.acts_clear t call tasks false
  · exact acts_withLoop w t (Loop.moves_awaitAny _ t _ _) rfl

theorem acts_runSupervising (call : TailCall) (tasks : TailTasks) (pending : List TaskId)
    (a : Arrival) : Acts t w (w.runSupervising t call tasks pending a) := by
  have hunwatch := (w.quiet_withLoop (f := (·.unwatch t (pending ++ [tasks.closer])))
    (w.loop.soft_unwatch t _))
  unfold runSupervising
  cases a with
  | cancelled _ => exact (hunwatch.acts t).trans (acts_clear _ t call tasks true)
  | on =>
      dsimp only
      split
      · exact ((hunwatch.trans (quiet_tell _ _)).acts t).trans (acts_clear _ t call tasks false)
      · exact (hunwatch.acts t).trans (acts_supervise _ t call tasks _)

theorem acts_spawnStreams (call : TailCall) (targets : List TailTarget) :
    Acts t w (w.spawnStreams call targets).1 := by
  induction targets generalizing w with
  | nil => exact .refl t w
  | cons target rest ih =>
      exact (Acts.spawn t w rfl).trans
        (ih (w.spawn (.stream ⟨call.sink, target, call.options⟩ .opening)).1)

theorem acts_openStreams (call : TailCall) (targets : List TailTarget) :
    Acts t w (w.openStreams t call targets) := by
  have hstreams := w.acts_spawnStreams t call targets
  unfold openStreams
  dsimp only
  refine (hstreams.trans (.spawn t _ (p := .awaitingClose call.sink) rfl)).trans ?_
  exact ((quiet_tell _ _).acts t).trans (acts_supervise _ t call _ _)

theorem acts_target (call : TailCall) (targets : List TailTarget) (pods : List Snapshot) :
    Acts t w (w.target t call targets pods) := by
  induction pods generalizing w targets with
  | nil => exact w.acts_openStreams t call targets
  | cons pod rest ih =>
      unfold target
      split
      · exact ih w _
      · next fault _ =>
          have hoffer := (((w.quiet_tellAll (Tailer.streamError pod "" fault)).trans
            (quiet_offer _ call.sink { event := .failure pod.name "" fault })).acts t)
          dsimp only
          split
          · next v h => exact (h ▸ hoffer).trans (ih v _)
          · next v h => exact (h ▸ hoffer).trans (v.acts_endTail t call _)
          · next v h => exact (h ▸ hoffer).trans (v.acts_awaitRoom t call.sink rfl)

theorem acts_runReporting (call : TailCall) (targets : List TailTarget) (pods : List Snapshot)
    (d : Delivery) (a : Arrival) : Acts t w (w.runReporting t call targets pods d a) := by
  unfold runReporting
  cases a with
  | cancelled woken =>
      exact ((w.quiet_leaveRoom t call.sink woken).acts t).trans (acts_endTail _ t call _)
  | on =>
      have hoffer := (w.quiet_offer call.sink d).acts t
      dsimp only
      split
      · next v h => exact (h ▸ hoffer).trans (v.acts_target t call targets pods)
      · next v h => exact (h ▸ hoffer).trans (v.acts_endTail t call _)
      · next v h => exact (h ▸ hoffer).trans (v.acts_awaitRoom t call.sink rfl)

theorem quiet_openLog (s : Stream) : Quiet w (w.openLog t s) :=
  .of_eq rfl rfl (.refl _)

theorem quiet_closeLog (s : Stream) : Quiet w (w.closeLog t s) :=
  .of_eq rfl rfl (.refl _)

theorem quiet_setLogOfStream (s : Stream) (log : Channel LogItem) :
    Quiet w (w.setLogOfStream s log) :=
  .of_eq rfl rfl (.refl _)

theorem acts_deliver (s : Stream) (d : Delivery) (last : Bool) :
    Acts t w (w.deliver t s d last) := by
  have hoffer := w.quiet_offer s.sink d
  unfold deliver
  split
  · next v h =>
      rw [h] at hoffer
      split
      · exact (hoffer.acts t).trans (v.acts_report t _)
      · exact (hoffer.acts t).trans (v.acts_goOn t rfl)
  · next v h =>
      rw [h] at hoffer
      split
      · exact ((hoffer.trans (v.quiet_tell _)).acts t).trans (acts_report _ t _)
      · exact ((hoffer.trans (v.quiet_closeLog t s)).acts t).trans (acts_report _ t _)
  · next v h =>
      rw [h] at hoffer
      exact (hoffer.acts t).trans (v.acts_awaitRoom t s.sink rfl)

theorem acts_readLog (s : Stream) : Acts t w (w.readLog t s) := by
  unfold readLog
  split
  · exact ((w.quiet_setLogOfStream s _).acts t).trans (acts_await _ t rfl)
  · next item log loop h =>
      let v : World := { w.setLogOfStream s log with loop := loop }
      have htake : Quiet w v := .of_eq rfl rfl (Channel.soft_take? h)
      cases item with
      | line text => exact (htake.acts t).trans (v.acts_deliver t s _ false)
      | ended => exact ((htake.trans (v.quiet_closeLog t s)).acts t).trans (acts_report _ t _)
      | failed fault =>
          exact (((htake.trans (v.quiet_closeLog t s)).trans (quiet_tellAll _ _)).acts t).trans
            (acts_deliver _ t s _ true)

theorem acts_quitStream (s : Stream) (woken : Bool) (p : StreamPoint) :
    Acts t w (w.quitStream t s woken p) := by
  cases p with
  | opening => exact w.acts_finish t _
  | reading =>
      refine Acts.trans ?_ (acts_finish _ t _)
      exact .of_soft rfl rfl (Channel.soft_leaveTakers _ w.loop t woken)
  | delivering d last =>
      have hleave := w.quiet_leaveRoom t s.sink woken
      unfold quitStream
      dsimp only
      split
      · exact (hleave.acts t).trans (acts_finish _ t _)
      · exact ((hleave.trans (quiet_closeLog _ t s)).acts t).trans (acts_finish _ t _)

theorem acts_runStream (s : Stream) (p : StreamPoint) (a : Arrival) :
    Acts t w (w.runStream t s p a) := by
  cases a with
  | cancelled woken => exact w.acts_quitStream t s woken p
  | on =>
      cases p with
      | opening => exact ((w.quiet_openLog t s).acts t).trans (acts_readLog _ t s)
      | reading => exact w.acts_readLog t s
      | delivering d last => exact w.acts_deliver t s d last

/-! ## Scopes -/

theorem factory_setFactory (f g : FactoryId) (x : Factory) :
    (w.setFactory f x).factory g = w.factory g ∨ g = f ∧ (w.setFactory f x).factory g = x := by
  unfold factory setFactory
  rw [List.getElem?_set]
  by_cases hfg : f = g
  · subst hfg
    rw [if_pos rfl]
    split
    · exact .inr ⟨rfl, rfl⟩
    · next h => exact .inl (by rw [List.getElem?_eq_none (Nat.le_of_not_lt h)])
  · rw [if_neg hfg]
    exact .inl rfl

/-- A factory comes to list no informers but those that it listed or that were made. -/
theorem acts_setFactory (f : FactoryId) {x : Factory}
    (hx : ∀ j, j ∈ x.informers.entries →
      j ∈ (w.factory f).informers.entries ∨ j < w.informers.length) :
    Acts t w (w.setFactory f x) := by
  refine .of_factories rfl rfl fun g j hmem => ?_
  rcases w.factory_setFactory f g x with h | ⟨rfl, h⟩
  · exact .inl (h ▸ hmem)
  · exact hx j (h ▸ hmem)

/-- Whoever serves a scope was made. -/
theorem Sound.lookup {w : World} (hs : w.Sound) {f : FactoryId} {rid : ResourceId} {ns : String}
    {i : InformerId} (h : w.lookup f rid ns = some i) : i < w.informers.length := by
  apply hs.listed f i
  unfold World.lookup at h
  dsimp only at h
  split at h
  · next j hget =>
      cases h
      exact Keyed.mem_entries_of_get? hget
  · split at h
    · cases h
    · exact Keyed.mem_entries_of_get? h

theorem acts_addInformer (f : FactoryId) (rid : ResourceId) (ns : String) :
    Acts t w (w.addInformer f rid ns).1 := by
  have happend := Acts.append t w rid ns (w.factory f).config
  unfold addInformer
  dsimp only
  refine (happend.trans (acts_setFactory _ t f fun j hmem => ?_)).trans
    ((quiet_tell _ _).acts t)
  rcases Keyed.mem_entries_set hmem with hold | rfl
  · exact .inl hold
  · refine .inr ?_
    show w.informers.length < (w.informers ++ [_]).length
    rw [List.length_append]
    exact Nat.lt_succ_self _

theorem addInformer_lt (f : FactoryId) (rid : ResourceId) (ns : String) :
    (w.addInformer f rid ns).2 < (w.addInformer f rid ns).1.informers.length := by
  rw [show (w.addInformer f rid ns).1.informers.length = w.informers.length + 1 from
    (quiet_tell _ _).length.trans List.length_append]
  exact Nat.lt_succ_self _

theorem acts_findInformer (f : FactoryId) (rid : ResourceId) (ns : String) :
    Acts t w (w.findInformer f rid ns).1 := by
  unfold findInformer
  split
  · exact .refl t w
  · exact w.acts_addInformer t f rid _

theorem findInformer_lt (f : FactoryId) (rid : ResourceId) (ns : String)
    (hs : (w.findInformer f rid ns).1.Sound) :
    (w.findInformer f rid ns).2 < (w.findInformer f rid ns).1.informers.length := by
  unfold findInformer at hs ⊢
  split
  · next h =>
      rw [h] at hs
      exact hs.lookup h
  · exact w.addInformer_lt f rid _

theorem acts_ensureWatch (f : FactoryId) (rid : ResourceId) (ns : String) (inLoop : Bool) :
    Acts t w (w.ensureWatch f rid ns inLoop).1 := by
  have hfind := w.acts_findInformer t f rid ns
  have hlt := w.findInformer_lt f rid ns
  unfold ensureWatch
  split
  · exact .refl t w
  · dsimp only
    split
    · exact hfind.trans (.startWorker t hlt)
    · split
      · exact hfind
      · next hrunning =>
          exact hfind.trans (.setInformer ⟨[.started], rfl⟩ (.inl rfl) (.inl rfl)
            (.inr (.inr fun v hv hlive => hrunning ((isRunning_iff hv).2 hlive))))

theorem acts_ensureLazily (f : FactoryId) (rid : ResourceId) (ns : String) (inLoop : Bool) :
    Acts t w (w.ensureLazily f rid ns inLoop) := by
  unfold ensureLazily
  split
  · exact .refl t w
  · exact w.acts_ensureWatch t f rid ns true

theorem acts_get (f : FactoryId) (rid : ResourceId) (path : String) (inLoop : Bool) :
    Acts t w (w.get f rid path inLoop).1 := by
  unfold get
  dsimp only
  split
  · exact .refl t w
  · exact w.acts_ensureLazily t f rid _ inLoop

theorem acts_list (f : FactoryId) (rid : ResourceId) (ns : String) (selector : Option Selector)
    (inLoop : Bool) : Acts t w (w.list f rid ns selector inLoop).1 := by
  unfold list
  dsimp only
  split
  · exact .refl t w
  · exact w.acts_ensureLazily t f rid _ inLoop

/-! ## Plans -/

theorem acts_answer (op : Operation) (q : Ask) : Acts t w (w.answer op q).1 := by
  cases q with
  | object rid path => exact w.acts_get t op.factory rid path op.inLoop
  | objects rid ns selector => exact w.acts_list t op.factory rid ns selector op.inLoop
  | stale _ _ | namespaced _ | now => exact .refl t w
  | review ns group resource verb => exact (w.quiet_record _).acts t
  | mutate rid ns m => exact (w.quiet_record _).acts t
  | tell note => exact (w.quiet_tell note).acts t

theorem quiet_release (op : Operation) : Quiet w (w.release op) := by
  unfold release
  split
  · exact w.quiet_closeSink _
  · exact .refl w

theorem acts_conclude (op : Operation) (result : Except Fault Next) :
    Acts t w (w.conclude t op result) := by
  have hrelease := (w.quiet_release op).acts t
  unfold conclude
  split
  · exact hrelease.trans (acts_finish _ t _)
  · exact hrelease.trans (acts_report _ t _)
  · split
    · exact w.acts_target t _ [] _
    · exact w.acts_report t _

/-- Who waits for an informer counts for nothing. -/
theorem acts_setWaiters (i : InformerId) (waiters : List TaskId) :
    Acts t w (w.setInformer i { w.informer i with waiters := waiters }) :=
  .of_same (.setInformer rfl rfl rfl) (.refl _)

theorem acts_awaitSync (op : Operation) (i : InformerId) (limit : Float)
    (next : Except Fault Bool → Plan Next) : Acts t w (w.awaitSync t op i limit next) := by
  have hlimit := (w.quiet_withLoop (f := (·.beginLimit t limit))
    (w.loop.soft_beginLimit t limit)).acts t
  exact (hlimit.trans (acts_setWaiters _ t i ((w.informer i).waiters ++ [t]))).trans
    (acts_await _ t rfl)

theorem acts_carryOut (op : Operation) (plan : Plan Next) : Acts t w (carryOut t op plan w) := by
  induction plan generalizing w with
  | done result => exact w.acts_conclude t op result
  | ask question next ih => exact (w.acts_answer t op question).trans (ih _ _)
  | sync rid ns timeout next ih =>
      have hensure := w.acts_ensureWatch t op.factory rid ns op.inLoop
      unfold carryOut
      split
      · next v fault h => exact (h ▸ hensure).trans (ih _ v)
      · next v i h =>
          split
          · exact (h ▸ hensure).trans (ih _ v)
          · exact (h ▸ hensure).trans (v.acts_awaitSync t op i _ next)

theorem acts_runSyncing (op : Operation) (i : InformerId) (next : Except Fault Bool → Plan Next)
    (a : Arrival) : Acts t w (w.runSyncing t op i next a) := by
  cases a with
  | on =>
      exact ((w.quiet_withLoop (f := fun l => (l.endLimit t false).1)
        (w.loop.soft_endLimit t false)).acts t).trans (acts_carryOut _ t op _)
  | cancelled woken =>
      let x : Watched :=
        { w.informer i with waiters := (w.informer i).waiters.filter (· ≠ t) }
      have hleave := w.acts_setWaiters t i ((w.informer i).waiters.filter (· ≠ t))
      have hlimit := ((w.setInformer i x).quiet_withLoop (f := fun l => (l.endLimit t true).1)
        (w.loop.soft_endLimit t true)).acts t
      unfold runSyncing
      dsimp only
      split
      · exact (hleave.trans hlimit).trans (acts_carryOut _ t op _)
      · exact ((hleave.trans hlimit).trans ((quiet_release _ op).acts t)).trans
          (acts_finish _ t _)

/-! ## Starting and stopping -/

theorem acts_markStopped {i : InformerId}
    (h : w.Serves t i ∨ (w.informer i).worker = none) : Acts t w (w.markStopped i) := by
  have hstop : Acts t w
      (w.setInformer i { w.informer i with cache := (w.informer i).cache.stopped.1 }) := by
    refine .setInformer ⟨[.stopped], rfl⟩ (.inl rfl) (.inl rfl) (.inr (h.imp_right ?_))
    intro hnone v hv
    rw [hnone] at hv
    cases hv
  exact hstop.trans ((quiet_tellAll _ _).acts t)

theorem acts_allStopped (reason : StopReason) : Acts t w (w.allStopped t reason) := by
  cases reason with
  | informer => exact w.acts_report t _
  | factory n => exact ((w.quiet_tell _).acts t).trans (acts_report _ t _)
  | application n =>
      exact (((w.quiet_tell _).trans (quiet_withLoop _ (f := fun l => (l.endLimit t false).1)
        (Loop.soft_endLimit _ t false))).acts t).trans (acts_goOn _ t rfl)

theorem acts_stopFailed (fault : Fault) (reason : StopReason) :
    Acts t w (w.stopFailed t fault reason) := by
  cases reason with
  | informer => exact w.acts_finish t _
  | factory n => exact w.acts_finish t _
  | application n =>
      exact ((w.quiet_withLoop (f := fun l => (l.endLimit t false).1)
        (w.loop.soft_endLimit t false)).acts t).trans (acts_goOn _ t rfl)

/-- An informer is taken from its worker before the worker is told, so nobody is robbed of
one that it works for. -/
theorem acts_stopNext (reason : StopReason) (informers : List InformerId) :
    Acts t w (w.stopNext t reason informers) := by
  induction informers generalizing w with
  | nil => exact w.acts_allStopped t reason
  | cons i rest ih =>
      unfold stopNext
      dsimp only
      split
      · exact ih w
      · next worker hworker =>
          have hi := lt_of_worker hworker
          let v : World := w.setInformer i { w.informer i with worker := none }
          have htaken : Acts t w v := .setInformer ⟨[], rfl⟩ (.inr rfl) (.inl rfl) (.inl rfl)
          have hnone : (v.informer i).worker = none := by rw [setInformer_self _ hi]
          split
          · exact htaken.trans (v.acts_stopFailed t _ reason)
          · exact (htaken.trans (v.acts_markStopped t (.inr hnone))).trans (ih _)
          · refine htaken.trans (.of_moves (.of_eq rfl rfl)
              ((v.loop.soft_cancel worker).touches (Loop.moves_awaitTask _ t _ worker)) ?_)
            intro j hj
            cases hj
            refine .inr ⟨?_, hnone⟩
            rw [length_setInformer]
            exact hi

theorem acts_runStopping (reason : StopReason) {current : Option (InformerId × TaskId)}
    (rest : List InformerId) (a : Arrival)
    (h : ∀ i worker, current = some (i, worker) → w.Serves t i) :
    Acts t w (w.runStopping t reason current rest a) := by
  cases current with
  | none =>
      cases a with
      | cancelled _ => exact w.acts_finish t _
      | on => exact w.acts_stopNext t reason rest
  | some current =>
      obtain ⟨i, worker⟩ := current
      have hmark := w.acts_markStopped t (.inl (h i worker rfl))
      cases a with
      | cancelled _ => exact hmark.trans (acts_stopNext _ t reason rest)
      | on =>
          unfold runStopping
          dsimp only
          split
          · exact w.acts_stopFailed t _ reason
          · exact hmark.trans (acts_stopNext _ t reason rest)

theorem acts_runStoppingScope (f : FactoryId) (rid : ResourceId) (ns : String) (twice : Bool)
    (a : Arrival) : Acts t w (w.runStoppingScope t f rid ns twice a) := by
  cases a with
  | cancelled _ => exact w.acts_finish t _
  | on =>
      have hensure := w.acts_ensureWatch t f rid ns true
      unfold runStoppingScope
      dsimp only
      split
      · next v fault h => exact (h ▸ hensure).trans (v.acts_finish t _)
      · next v i h => exact (h ▸ hensure).trans (v.acts_stopNext t _ _)

theorem acts_shutFactory (f : FactoryId) : Acts t w (w.shutFactory f).1 :=
  w.acts_setFactory t f fun _ h => absurd h List.not_mem_nil

theorem acts_runStoppingFactory (f : FactoryId) (a : Arrival) :
    Acts t w (w.runStoppingFactory t f a) := by
  cases a with
  | cancelled _ => exact w.acts_finish t _
  | on =>
      unfold runStoppingFactory
      dsimp only
      split
      · exact w.acts_report t _
      · exact (w.acts_shutFactory t f).trans (acts_stopNext _ t _ _)

theorem acts_build (config : Config) : Acts t w (w.build config).1 := by
  refine .of_factories rfl rfl fun f j hmem => ?_
  by_cases hf : f < w.factories.length
  · rw [factory, show (w.build config).1.factories = w.factories ++ [_] from rfl,
      List.getElem?_append_left hf] at hmem
    exact .inl hmem
  · -- a factory that was not there before lists nothing
    rw [factory, show (w.build config).1.factories = w.factories ++ [_] from rfl,
      List.getElem?_append_right (Nat.le_of_not_lt hf)] at hmem
    cases hnew : f - w.factories.length with
    | zero => rw [hnew] at hmem; exact absurd hmem List.not_mem_nil
    | succ n => rw [hnew] at hmem; exact absurd hmem List.not_mem_nil

theorem acts_obey (environment : Except Fault Config) (c : Application.Command) :
    Acts t w (w.obey t environment c) := by
  unfold obey
  split
  · exact w.acts_goOn t rfl
  · next config =>
      have hconnect : Quiet w (w.connect config).1 := .of_eq rfl rfl (.refl _)
      exact (hconnect.acts t).trans (acts_goOn _ t rfl)
  · exact (w.acts_build t _).trans (acts_goOn _ t rfl)
  · split
    · exact w.acts_goOn t rfl
    · exact (((w.quiet_withLoop (f := (·.beginLimit t (Float.ofNat Application.grace)))
        (w.loop.soft_beginLimit t _)).acts t).trans (acts_shutFactory _ t _)).trans
          (acts_stopNext _ t _ _)
  · dsimp only
    split
    · exact ((w.quiet_record _).acts t).trans (acts_goOn _ t rfl)
    · exact (((w.quiet_record _).trans
        (quiet_withLoop _ (f := (·.beginLimit t (Float.ofNat Application.grace)))
          (Loop.soft_beginLimit _ t _))).acts t).trans (acts_await _ t rfl)
  · exact w.acts_report t _
  · exact w.acts_finish t _

theorem acts_runApplication (s : Application.Signal) (a : Arrival) :
    Acts t w (w.runApplication t s a) := by
  cases a with
  | cancelled _ => exact w.acts_finish t _
  | on =>
      unfold runApplication
      dsimp only
      split
      · exact w.acts_report t _
      · refine Acts.trans (Quiet.acts ?_ t) (acts_obey _ t _ _)
        refine Quiet.trans ?_ (quiet_foldl (fun w r => w.quiet_write _ r) _ _)
        split <;> exact .of_eq rfl rfl (.refl _)

theorem acts_runClosing (a : Arrival) : Acts t w (w.runClosing t a) := by
  cases a with
  | on => exact w.acts_report t _
  | cancelled _ =>
      have hlimit := (w.quiet_withLoop (f := fun l => (l.endLimit t true).1)
        (w.loop.soft_endLimit t true)).acts t
      unfold runClosing
      dsimp only
      split
      · exact hlimit.trans (acts_goOn _ t rfl)
      · exact hlimit.trans (acts_finish _ t _)

end World

end LiveCluster.Simulation
