import LiveCluster.Proofs.Simulation.Staffing

/-!
# Every step leaves it known who works for whom

Along the definition of each routine it is shown here that its step is one of those in
`Staffs`.
-/

namespace LiveCluster.Simulation

open Informer (SameScope)
open Loop (Soft Urges Settles)

namespace World

variable (w : World) (t : TaskId) {v : World} {asks : FactoryId → ResourceId → Prop}
  {shuts : Prop} {about : Option (String × String)} {s : SinkId} {i : InformerId} {f : FactoryId}
  {rid : ResourceId} {ns : String} {r : Routine}

/-! ## Sinks and their users -/

theorem hires_closeSink (s : SinkId) : Hires asks shuts about w (w.closeSink s) := by
  refine .of_urges (.of_eq rfl rfl rfl rfl) (w.quiet_closeSink s).loop ?_
  show Urges w.loop ((w.sink s).close w.loop).2
  unfold Sink.close
  split
  · exact .refl _
  · exact w.loop.urges_wakeAll _

theorem hires_setSink (s : SinkId) (x : Sink) : Hires asks shuts about w (w.setSink s x) :=
  .of_loop (.of_eq rfl rfl rfl rfl) rfl

variable {w t}

theorem hires_offer {d : Delivery} {o : Sink.Offer} (h : w.offer s d = (v, o)) :
    Hires asks shuts about w v := by
  obtain rfl : (w.offer s d).1 = v := congrArg Prod.fst h
  refine .of_urges (.of_eq rfl rfl rfl rfl) (w.quiet_offer s d).loop ?_
  show Urges w.loop ((w.sink s).offer w.loop d.event d.waited).2.2
  unfold Sink.offer
  split
  · exact .refl _
  · split
    · exact .refl _
    · exact Channel.urges_give _ w.loop d.event

theorem hires_leaveRoom (w : World) (t : TaskId) (s : SinkId) (woken : Bool) :
    Hires asks shuts about w (w.leaveRoom t s woken) :=
  .of_urges (.of_eq rfl rfl rfl rfl) (w.quiet_leaveRoom t s woken).loop
    (Channel.urges_leaveGivers _ w.loop t woken)

theorem hires_takeEvent? {event : LogEvent} (h : w.takeEvent? s = some (v, event)) :
    Hires asks shuts about w v := by
  have hquiet := quiet_takeEvent? h
  obtain ⟨channel, loop, htake, rfl⟩ := takeEvent?_eq_some h
  exact .of_urges (.of_eq rfl rfl rfl rfl) hquiet.loop (Channel.urges_take? htake)

theorem staffs_awaitRoom {p : Point} (ht : w.Runs asks t r) (hp : p.routine = r)
    (hasks : p.Asks asks) : Staffs t r asks about w (w.awaitRoom t s p) :=
  (w.hires_setSink s _).staffs ht fun ht => .await ht hp hasks

theorem staffs_runGiving {d : Delivery} (ht : w.Runs asks t (.giving s d.event)) (a : Arrival) :
    Staffs t (.giving s d.event) asks about w (w.runGiving t s d a) := by
  unfold runGiving
  cases a with
  | cancelled woken => exact (w.hires_leaveRoom t s woken).staffs ht fun ht => .finish ht _
  | on =>
      dsimp only
      split
      · next h => exact (hires_offer h).staffs ht fun ht => .report ht _
      · next h => exact (hires_offer h).staffs ht fun ht => .finish ht _
      · next h => exact (hires_offer h).staffs ht fun ht => staffs_awaitRoom ht rfl trivial

theorem staffs_runTaking (ht : w.Runs asks t .taking) (a : Arrival) :
    Staffs t .taking asks about w (w.runTaking t s a) := by
  unfold runTaking
  cases a with
  | cancelled woken =>
      have hleave : Hires asks (Routine.taking = .control) about w
          { w.setSink s { w.sink s with
            channel := ((w.sink s).channel.leaveTakers w.loop t woken).1 } with
            loop := ((w.sink s).channel.leaveTakers w.loop t woken).2 } :=
        .of_urges (.of_eq rfl rfl rfl rfl) (Channel.soft_leaveTakers _ w.loop t woken)
          (Channel.urges_leaveTakers _ w.loop t woken)
      exact hleave.staffs ht fun ht => .finish ht _
  | on =>
      dsimp only
      split
      · next h => exact (hires_takeEvent? h).staffs ht fun ht => .report ht _
      · exact (w.hires_setSink s _).staffs ht fun ht => .await ht rfl trivial

theorem staffs_runAwaitingClose (ht : w.Runs asks t .awaitingClose) (a : Arrival) :
    Staffs t .awaitingClose asks about w (w.runAwaitingClose t s a) := by
  unfold runAwaitingClose
  cases a with
  | cancelled _ => exact (w.hires_setSink s _).staffs ht fun ht => .finish ht _
  | on =>
      dsimp only
      split
      · exact .report ht _
      · exact (w.hires_setSink s _).staffs ht fun ht => .await ht rfl trivial

theorem staffs_got (ht : w.Runs asks t .getting) (event : LogEvent)
    (collected : Option (List LogEvent)) :
    Staffs t .getting asks about w (w.got t s event collected) := by
  cases collected with
  | none => exact .report ht _
  | some events => exact .goOn ht rfl trivial

theorem staffs_drained (ht : w.Runs asks t r) (collected : Option (List LogEvent)) :
    Staffs t r asks about w (w.drained t collected) := by
  cases collected <;> exact .report ht _

theorem staffs_getNext (ht : w.Runs asks t .getting) (collected : Option (List LogEvent)) :
    Staffs t .getting asks about w (w.getNext t s collected) := by
  unfold getNext
  split
  · next v event h => exact (hires_takeEvent? h).staffs ht fun ht => staffs_got ht event collected
  · split
    · exact staffs_drained ht collected
    · refine (w.hires_spawn (p := .taking s) (by simp [Point.routine]) (by simp [Point.routine])
        ⟨rfl, trivial⟩).staffs ht fun ht => ?_
      refine (hires_spawn _ (p := .awaitingClose s) (by simp [Point.routine])
        (by simp [Point.routine]) ⟨rfl, trivial⟩).staffs ht fun ht => ?_
      exact .of_moves ht (Loop.moves_awaitAny _ t _ _) (Loop.settles_awaitAny _ t _ _) rfl trivial

theorem hires_endRace (w : World) (t : TaskId) (race : Race) :
    Hires asks shuts about w (w.endRace t race) :=
  w.hires_withLoop (((w.loop.soft_unwatch t _).trans (Loop.soft_cancel _ _)).trans
    (Loop.soft_cancel _ _)) (((w.loop.urges_unwatch t _).trans (Loop.urges_cancel _ _)).trans
      (Loop.urges_cancel _ _))

theorem staffs_runGetting (ht : w.Runs asks t .getting) (collected : Option (List LogEvent))
    (race : Option Race) (a : Arrival) :
    Staffs t .getting asks about w (w.runGetting t s collected race a) := by
  cases race with
  | none =>
      cases a with
      | cancelled _ => exact .finish ht _
      | on => exact staffs_getNext ht collected
  | some race =>
      cases a with
      | cancelled _ => exact (w.hires_endRace t race).staffs ht fun ht => .finish ht _
      | on =>
          unfold runGetting
          dsimp only
          refine (w.hires_endRace t race).staffs ht fun ht => ?_
          split
          · exact staffs_got ht _ collected
          · exact .finish ht _
          · exact .finish ht _
          · exact .goOn ht rfl trivial

/-! ## Tails -/

theorem staffs_endTail (ht : w.Runs asks t r) (call : TailCall) (ending : Ending Report) :
    Staffs t r asks about w (w.endTail t call ending) :=
  (w.hires_closeSink call.sink).staffs ht fun ht => .finish ht ending

theorem staffs_cleared (ht : w.Runs asks t r) (call : TailCall) (cancelled : Bool) :
    Staffs t r asks about w (w.cleared t call cancelled) :=
  ((w.hires_closeSink call.sink).trans (hires_tell _ _)).staffs ht fun ht =>
    staffs_endTail ht call _

theorem staffs_clear (ht : w.Runs asks t .call) (call : TailCall) (tasks : TailTasks)
    (cancelled : Bool) : Staffs t .call asks about w (w.clear t call tasks cancelled) := by
  unfold clear
  dsimp only
  refine (w.hires_withLoop (g := fun l => (tasks.streams ++ [tasks.closer]).foldl Loop.cancel l)
    (Loop.soft_foldl Loop.soft_cancel w.loop _) (w.loop.urges_cancelAll _)).staffs ht fun ht => ?_
  split
  · exact staffs_cleared ht call cancelled
  · exact .of_moves ht (Loop.moves_awaitGroup _ t _ _) (Loop.settles_awaitGroup _ t _ _) rfl trivial

theorem staffs_runClearing (ht : w.Runs asks t r) (call : TailCall) (cancelled : Bool)
    (a : Arrival) : Staffs t r asks about w (w.runClearing t call cancelled a) := by
  cases a with
  | on => exact staffs_cleared ht call cancelled
  | cancelled _ => exact staffs_endTail ht call _

theorem staffs_supervise (ht : w.Runs asks t .call) (call : TailCall) (tasks : TailTasks)
    (pending : List TaskId) :
    Staffs t .call asks about w (w.supervise t call tasks pending) := by
  unfold supervise
  split
  · exact staffs_clear ht call tasks false
  · exact .of_moves ht (Loop.moves_awaitAny _ t _ _) (Loop.settles_awaitAny _ t _ _) rfl trivial

theorem staffs_runSupervising (ht : w.Runs asks t .call) (call : TailCall) (tasks : TailTasks)
    (pending : List TaskId) (a : Arrival) :
    Staffs t .call asks about w (w.runSupervising t call tasks pending a) := by
  unfold runSupervising
  dsimp only
  refine (w.hires_withLoop (g := (·.unwatch t (pending ++ [tasks.closer])))
    (w.loop.soft_unwatch t _) (w.loop.urges_unwatch t _)).staffs ht fun ht => ?_
  cases a with
  | cancelled _ => exact staffs_clear ht call tasks true
  | on =>
      dsimp only
      split
      · exact (hires_tell _ _).staffs ht fun ht => staffs_clear ht call tasks false
      · exact staffs_supervise ht call tasks _

theorem hires_spawnStreams (w : World) (call : TailCall) (targets : List TailTarget) :
    Hires asks shuts about w (w.spawnStreams call targets).1 := by
  induction targets generalizing w with
  | nil => exact .refl w
  | cons target rest ih =>
      exact (w.hires_spawn (p := .stream ⟨call.sink, target, call.options⟩ .opening)
        (by simp [Point.routine]) (by simp [Point.routine]) ⟨rfl, trivial⟩).trans (ih _)

theorem staffs_openStreams (ht : w.Runs asks t .call) (call : TailCall)
    (targets : List TailTarget) :
    Staffs t .call asks about w (w.openStreams t call targets) := by
  unfold openStreams
  dsimp only
  refine ((w.hires_spawnStreams call targets).trans (hires_spawn _ (p := .awaitingClose call.sink)
    (by simp [Point.routine]) (by simp [Point.routine]) ⟨rfl, trivial⟩)).staffs ht fun ht => ?_
  exact (hires_tell _ _).staffs ht fun ht => staffs_supervise ht call _ _

theorem staffs_target (ht : w.Runs asks t .call) (call : TailCall) (targets : List TailTarget)
    (pods : List Snapshot) : Staffs t .call asks about w (w.target t call targets pods) := by
  induction pods generalizing w targets with
  | nil => exact staffs_openStreams ht call targets
  | cons pod rest ih =>
      unfold target
      split
      · exact ih ht _
      · next fault _ =>
          refine (w.hires_tellAll (Tailer.streamError pod "" fault)).staffs ht fun ht => ?_
          dsimp only
          split
          · next h => exact (hires_offer h).staffs ht fun ht => ih ht _
          · next h => exact (hires_offer h).staffs ht fun ht => staffs_endTail ht call _
          · next h => exact (hires_offer h).staffs ht fun ht => staffs_awaitRoom ht rfl trivial

theorem staffs_runReporting (ht : w.Runs asks t .call) (call : TailCall)
    (targets : List TailTarget) (pods : List Snapshot) (d : Delivery) (a : Arrival) :
    Staffs t .call asks about w (w.runReporting t call targets pods d a) := by
  unfold runReporting
  cases a with
  | cancelled woken =>
      exact (w.hires_leaveRoom t call.sink woken).staffs ht fun ht => staffs_endTail ht call _
  | on =>
      dsimp only
      split
      · next h => exact (hires_offer h).staffs ht fun ht => staffs_target ht call targets pods
      · next h => exact (hires_offer h).staffs ht fun ht => staffs_endTail ht call _
      · next h => exact (hires_offer h).staffs ht fun ht => staffs_awaitRoom ht rfl trivial

/-! ### Streams -/

theorem hires_openLog (w : World) (t : TaskId) (st : Stream) :
    Hires asks shuts about w (w.openLog t st) :=
  (w.hires_record (.streamLogs st.target.pod.ns st.target.pod.name st.target.container
    st.options) (.inl rfl)).trans (.of_loop (.of_eq rfl rfl rfl rfl) rfl)

theorem hires_closeLog (w : World) (t : TaskId) (st : Stream) :
    Hires asks shuts about w (w.closeLog t st) :=
  .of_loop (.of_eq rfl rfl rfl rfl) rfl

theorem staffs_deliver (ht : w.Runs asks t .stream) (st : Stream) (d : Delivery) (last : Bool) :
    Staffs t .stream asks about w (w.deliver t st d last) := by
  unfold deliver
  split
  · next h =>
      refine (hires_offer h).staffs ht fun ht => ?_
      split
      · exact .report ht _
      · exact .goOn ht rfl trivial
  · next h =>
      refine (hires_offer h).staffs ht fun ht => ?_
      split
      · exact (hires_tell _ _).staffs ht fun ht => .report ht _
      · exact (hires_closeLog _ t st).staffs ht fun ht => .report ht _
  · next h => exact (hires_offer h).staffs ht fun ht => staffs_awaitRoom ht rfl trivial

theorem staffs_readLog (ht : w.Runs asks t .stream) (st : Stream) :
    Staffs t .stream asks about w (w.readLog t st) := by
  unfold readLog
  split
  · have hset : ∀ log, Hires asks (Routine.stream = .control) about w (w.setLogOfStream st log) :=
      fun log => .of_loop (.of_eq rfl rfl rfl rfl) rfl
    exact (hset _).staffs ht fun ht => .await ht rfl trivial
  · next item log loop h =>
      have htake : Hires asks (Routine.stream = .control) about w
          { w.setLogOfStream st log with loop := loop } :=
        .of_urges (.of_eq rfl rfl rfl rfl) (Channel.soft_take? h) (Channel.urges_take? h)
      refine htake.staffs ht fun ht => ?_
      cases item with
      | line text => exact staffs_deliver ht st _ false
      | ended => exact (hires_closeLog _ t st).staffs ht fun ht => .report ht _
      | failed fault =>
          exact ((hires_closeLog _ t st).trans (hires_tellAll _ _)).staffs ht fun ht =>
            staffs_deliver ht st _ true

theorem staffs_quitStream (ht : w.Runs asks t .stream) (st : Stream) (woken : Bool)
    (p : StreamPoint) : Staffs t .stream asks about w (w.quitStream t st woken p) := by
  cases p with
  | opening => exact .finish ht _
  | reading =>
      have hleave : Hires asks (Routine.stream = .control) about w
          { w.setLogOfStream st ((w.logOfStream st).leaveTakers w.loop t woken).1 with
            loop := ((w.logOfStream st).leaveTakers w.loop t woken).2 } :=
        .of_urges (.of_eq rfl rfl rfl rfl) (Channel.soft_leaveTakers _ w.loop t woken)
          (Channel.urges_leaveTakers _ w.loop t woken)
      exact (hleave.trans (hires_closeLog _ t st)).staffs ht fun ht => .finish ht _
  | delivering d last =>
      unfold quitStream
      refine (w.hires_leaveRoom t st.sink woken).staffs ht fun ht => ?_
      dsimp only
      split
      · exact .finish ht _
      · exact (hires_closeLog _ t st).staffs ht fun ht => .finish ht _

theorem staffs_runStream (ht : w.Runs asks t .stream) (st : Stream) (p : StreamPoint)
    (a : Arrival) : Staffs t .stream asks about w (w.runStream t st p a) := by
  cases a with
  | cancelled woken => exact staffs_quitStream ht st woken p
  | on =>
      cases p with
      | opening => exact (w.hires_openLog t st).staffs ht fun ht => staffs_readLog ht st
      | reading => exact staffs_readLog ht st
      | delivering d last => exact staffs_deliver ht st d last

/-! ## Scopes -/

/-- A worker is made for an informer whose last worker, if any, has ended. -/
theorem Hires.startWorker (h : Hires asks shuts about w v) (hlt : i < v.informers.length)
    (hi : w.informers.length ≤ i ∨ ∃ f key, w.listed f key = some i) :
    Hires asks shuts about w (v.startWorker i) := by
  unfold World.startWorker
  split
  · exact h
  · next hidle =>
      let u : World := (v.spawn (.worker i (.signalled .started))).1
      let y : Watched := { v.informer i with
        cache := { (v.informer i).cache with state := .watching }
        worker := some v.loop.tasks.length }
      show Hires asks shuts about w (u.setInformer i y)
      have hself : (u.setInformer i y).informer i = y := setInformer_self (w := u) y hlt
      have hother : ∀ j, j ≠ i → (u.setInformer i y).informer j = v.informer j :=
        fun j hj => setInformer_other (w := u) y hj
      have hstanding : ∀ t, (u.setInformer i y).loop.standing t =
          if t = v.loop.tasks.length then some (.worker i (.signalled .started), none)
          else v.loop.standing t := v.loop.standing_spawn _
      have hnew := (hstanding v.loop.tasks.length).trans (if_pos rfl)
      have hold : ∀ {t}, t < v.loop.tasks.length →
          (u.setInformer i y).loop.standing t = v.loop.standing t :=
        fun ht => (hstanding _).trans (if_neg (Nat.ne_of_lt ht))
      have hended : ∀ {t}, (v.informer i).worker = some t → v.loop.ended t = true := by
        intro t ht
        rw [isRunning, ht] at hidle
        simpa using hidle
      have hfiles : Files asks shuts v (u.setInformer i y) := by
        refine .of_same (length_setInformer u i y) (fun j => ?_) rfl (Nat.le_refl _)
          fun _ => ⟨rfl, rfl⟩
        by_cases hj : j = i
        · subst hj
          rw [hself]
          exact ⟨rfl, rfl⟩
        · rw [hother j hj]
          exact .refl _
      exact {
        toFiles := h.toFiles.trans hfiles
        tasks := Nat.le_trans h.tasks (tasks_spawn v _)
        starts := fun j t ht => by
          by_cases hj : j = i
          · subst hj
            rw [hself] at ht
            cases ht
            exact .inr ⟨h.tasks, _, hnew, rfl⟩
          · rw [hother j hj] at ht
            refine (h.starts j t ht).imp_right fun hmade => ?_
            obtain ⟨hle, p, hp, hr⟩ := hmade
            exact ⟨hle, p, (hold (Loop.lt_of_standing hp)).trans hp, hr⟩
        calls := h.calls
        old := fun t ht => (hold (Nat.lt_of_lt_of_le ht h.tasks)).trans (h.old t ht)
        made := fun t p e hle hp => by
          rw [hstanding] at hp
          split at hp
          · next ht =>
              cases hp
              refine ⟨rfl, (fun h => by cases h), ⟨rfl, trivial⟩, fun j hj => ?_⟩
              cases hj
              rw [hself, ht]
              exact ⟨⟨Nat.lt_of_lt_of_eq hlt (length_setInformer u i y).symm, hi⟩, rfl⟩
          · obtain ⟨he, hcontrol, hbegins, hworker⟩ := h.made t p e hle hp
            refine ⟨he, hcontrol, hbegins, fun j hj => ?_⟩
            obtain ⟨hvacancy, hemployed⟩ := hworker j hj
            by_cases hji : j = i
            · -- who was made on the way has not ended
              subst hji
              have hgoing := hended hemployed
              rw [h.going hle (Loop.lt_of_standing hp)] at hgoing
              cases hgoing
            · rw [hother j hji]
              exact ⟨hvacancy.widen (Nat.le_of_eq (length_setInformer u i y).symm), hemployed⟩
        worker := fun j t ht => by
          rcases h.worker j t ht with ht | ht
          · by_cases hj : j = i
            · subst hj
              exact .inr (h.ended_back (hended ht))
            · rw [hother j hj]
              exact .inl ht
          · exact .inr ht
        items := fun habout j => by
          rw [← h.items habout j]
          by_cases hj : j = i
          · rw [hj, hself]
          · rw [hother j hj]
        defers := h.defers.trans (v.loop.defers_spawn _) }

/-- Whoever serves a scope was made. -/
theorem Filed.lookup (hw : w.Filed asks) (h : w.lookup f rid ns = some i) :
    i < w.informers.length ∧ ∃ f key, w.listed f key = some i := by
  rcases listed_of_lookup h with h | h
  · exact ⟨hw.made f _ i h, f, _, h⟩
  · exact ⟨hw.made f _ i h, f, _, h⟩

theorem hires_findInformer (hserving : (w.factory f).stopped = false) (hasks : asks f rid) :
    Hires asks shuts about w (w.findInformer f rid ns).1 := by
  have hfiles : Files asks shuts w (w.findInformer f rid ns).1 := files_findInformer hserving hasks
  unfold findInformer at hfiles ⊢
  split at hfiles
  · exact .refl w
  · let ns' := w.scopeNamespace rid ns
    obtain ⟨u, hloop, hinformers, hquiet⟩ := w.addInformer_spec f rid ns'
    have hsame : ∀ j, ((w.addInformer f rid ns').1.informer j).worker = (w.informer j).worker ∧
        ((w.addInformer f rid ns').1.informer j).cache.items = (w.informer j).cache.items := by
      intro j
      rw [hquiet.worker, hquiet.cache, informer, informer, hinformers]
      by_cases hj : j < w.informers.length
      · rw [List.getElem?_append_left hj]
        exact ⟨rfl, rfl⟩
      · -- an informer that is not there has no worker either, and nothing else
        rw [List.getElem?_eq_none (Nat.le_of_not_lt hj),
          List.getElem?_append_right (Nat.le_of_not_lt hj)]
        cases j - w.informers.length <;> exact ⟨rfl, rfl⟩
    have hcalls : (w.addInformer f rid ns').1.journal.calls = w.journal.calls :=
      (idle_tell _ _).calls
    have hsameLoop : (w.addInformer f rid ns').1.loop = w.loop := (loop_tell _ _).1
    exact .of_still hfiles hsameLoop (.of_eq hcalls) (fun j => (hsame j).1) fun _ j => (hsame j).2

theorem findInformer_spec (hw : w.Filed asks) (f : FactoryId) (rid : ResourceId) (ns : String) :
    (w.findInformer f rid ns).2 < (w.findInformer f rid ns).1.informers.length ∧
      (w.informers.length ≤ (w.findInformer f rid ns).2 ∨
        ∃ f' key, w.listed f' key = some (w.findInformer f rid ns).2) := by
  unfold findInformer
  split
  · next h => exact ⟨(hw.lookup h).1, .inr (hw.lookup h).2⟩
  · exact ⟨w.addInformer_lt f rid _, .inl (Nat.le_refl _)⟩

theorem hires_ensureWatch (hw : w.Filed asks) (hasks : asks f rid) (ns : String) (inLoop : Bool) :
    Hires asks shuts about w (w.ensureWatch f rid ns inLoop).1 := by
  obtain ⟨hlt, hi⟩ := findInformer_spec hw f rid ns
  unfold ensureWatch
  split
  · exact .refl w
  · next hserving =>
      have hfind : Hires asks shuts about w (w.findInformer f rid ns).1 :=
        hires_findInformer (by simpa using hserving) hasks
      dsimp only
      split
      · exact hfind.startWorker hlt hi
      · split
        · exact hfind
        · refine hfind.trans (.of_loop (.setInformer ?_ rfl rfl) rfl)
          exact ⟨rfl, rfl⟩

theorem hires_ensureLazily (hw : w.Filed asks) (hasks : asks f rid) (ns : String) (inLoop : Bool) :
    Hires asks shuts about w (w.ensureLazily f rid ns inLoop) := by
  unfold ensureLazily
  split
  · exact .refl w
  · exact hires_ensureWatch hw hasks ns true

theorem hires_get (hw : w.Filed asks) (hasks : asks f rid) (path : String) (inLoop : Bool) :
    Hires asks shuts about w (w.get f rid path inLoop).1 := by
  unfold get
  dsimp only
  split
  · exact .refl w
  · exact hires_ensureLazily hw hasks _ inLoop

theorem hires_list (hw : w.Filed asks) (hasks : asks f rid) (ns : String)
    (selector : Option Selector) (inLoop : Bool) :
    Hires asks shuts about w (w.list f rid ns selector inLoop).1 := by
  unfold list
  dsimp only
  split
  · exact .refl w
  · exact hires_ensureLazily hw hasks _ inLoop

/-! ## Plans -/

theorem hires_answer (hw : w.Filed asks) (op : Operation) (q : Ask)
    (hasks : ∀ rid, q.watched? = some rid → asks op.factory rid) :
    Hires asks shuts about w (w.answer op q).1 := by
  cases q with
  | object rid path => exact hires_get hw (hasks rid rfl) path op.inLoop
  | objects rid ns selector => exact hires_list hw (hasks rid rfl) ns selector op.inLoop
  | stale _ _ | namespaced _ | now => exact .refl w
  | review ns group resource verb => exact w.hires_record _ (.inl rfl)
  | mutate rid ns m => exact w.hires_record _ (.inl rfl)
  | tell note => exact w.hires_tell note

theorem hires_release (w : World) (op : Operation) : Hires asks shuts about w (w.release op) := by
  unfold release
  split
  · exact w.hires_closeSink _
  · exact .refl w

theorem staffs_conclude (ht : w.Runs asks t .call) (op : Operation) (result : Except Fault Next) :
    Staffs t .call asks about w (w.conclude t op result) := by
  unfold conclude
  split
  · exact (w.hires_release op).staffs ht fun ht => .finish ht _
  · exact (w.hires_release op).staffs ht fun ht => .report ht _
  · split
    · exact staffs_target ht _ [] _
    · exact .report ht _

/-- Who waits for an informer counts for nothing. -/
theorem hires_setWaiters (w : World) (i : InformerId) (waiters : List TaskId) :
    Hires asks shuts about w (w.setInformer i { w.informer i with waiters := waiters }) :=
  .of_loop (.setInformer (.refl _) rfl rfl) rfl

theorem staffs_awaitSync (ht : w.Runs asks t .call) (op : Operation) (i : InformerId)
    (limit : Float) {next : Except Fault Bool → Plan Next}
    (hnext : ∀ result, (next result).Asks (asks op.factory)) :
    Staffs t .call asks about w (w.awaitSync t op i limit next) := by
  refine (w.hires_withLoop (g := (·.beginLimit t limit)) (w.loop.soft_beginLimit t limit)
    (w.loop.urges_beginLimit t limit)).staffs ht fun ht => ?_
  exact (hires_setWaiters _ i ((w.informer i).waiters ++ [t])).staffs ht fun ht =>
    .await ht rfl hnext

theorem staffs_carryOut (hw : w.Filed asks) (ht : w.Runs asks t .call) (op : Operation)
    (plan : Plan Next) (hplan : plan.Asks (asks op.factory)) :
    Staffs t .call asks about w (carryOut t op plan w) := by
  induction plan generalizing w with
  | done result => exact staffs_conclude ht op result
  | ask question next ih =>
      have hanswer : Hires asks (Routine.call = .control) about w (w.answer op question).1 :=
        hires_answer hw op question hplan.1
      exact hanswer.staffs ht fun ht => ih _ (hanswer.filed hw) ht (hplan.2 _)
  | sync rid ns timeout next ih =>
      have hensure : Hires asks (Routine.call = .control) about w
          (w.ensureWatch op.factory rid ns op.inLoop).1 :=
        hires_ensureWatch hw hplan.1 ns op.inLoop
      unfold carryOut
      split
      · next v fault h =>
          rw [h] at hensure
          exact hensure.staffs ht fun ht => ih _ (hensure.filed hw) ht (hplan.2 _)
      · next v i h =>
          rw [h] at hensure
          refine hensure.staffs ht fun ht => ?_
          split
          · exact ih _ (hensure.filed hw) ht (hplan.2 _)
          · exact staffs_awaitSync ht op i _ hplan.2

theorem hires_endLimit (w : World) (cancelled : Bool) :
    Hires asks shuts about w (w.withLoop fun l => (l.endLimit t cancelled).1) :=
  w.hires_withLoop (w.loop.soft_endLimit t cancelled) (w.loop.urges_endLimit t cancelled)

theorem staffs_runSyncing (hw : w.Filed asks) (ht : w.Runs asks t .call) (op : Operation)
    (i : InformerId) {next : Except Fault Bool → Plan Next}
    (hnext : ∀ result, (next result).Asks (asks op.factory)) (a : Arrival) :
    Staffs t .call asks about w (w.runSyncing t op i next a) := by
  cases a with
  | on =>
      have hlimit : Hires asks (Routine.call = .control) about w
          (w.withLoop fun l => (l.endLimit t false).1) := w.hires_endLimit false
      exact hlimit.staffs ht fun ht => staffs_carryOut (hlimit.filed hw) ht op _ (hnext _)
  | cancelled woken =>
      have hleave : Hires asks (Routine.call = .control) about w _ :=
        (w.hires_setWaiters i ((w.informer i).waiters.filter (· ≠ t))).trans
          (hires_endLimit (t := t) _ true)
      unfold runSyncing
      dsimp only
      refine hleave.staffs ht fun ht => ?_
      split
      · exact staffs_carryOut (hleave.filed hw) ht op _ (hnext _)
      · exact (hires_release _ op).staffs ht fun ht => .finish ht _

/-! ## Workers -/

/-- The kind and the namespace of an informer's calls. -/
def watches (w : World) (i : InformerId) : String × String :=
  ((w.informer i).cache.rid.kindText, (w.informer i).cache.ns)

theorem watches_congr (h : SameScope (w.informer i).cache (v.informer i).cache) :
    v.watches i = w.watches i := by
  rw [watches, watches, h.1, h.2]

theorem Hires.watches {x : World} (h : Hires asks shuts about w x) (hi : i < w.informers.length) :
    x.watches i = w.watches i :=
  watches_congr (h.scope i hi)

/-- The script of the cluster is changed, but not which kinds have no namespaces. -/
theorem hires_setCluster (w : World) {c : Cluster}
    (h : c.clusterScoped = w.cluster.clusterScoped) :
    Hires asks shuts about w { w with cluster := c } :=
  .of_loop (.of_eq rfl rfl h rfl) rfl

theorem staffs_callList (ht : w.Runs asks t (.worker i)) (habout : about = some (w.watches i)) :
    Staffs t (.worker i) asks about w (w.callList t i) := by
  unfold callList
  dsimp only
  let kind := (w.informer i).cache.rid.kindText
  let call : ClusterCall := .list kind (w.informer i).cache.ns
  refine (w.hires_record call (.inr habout.symm)).staffs ht fun ht => ?_
  split
  · next fault cluster h =>
      refine (hires_setCluster _ (c := cluster) ?_).staffs ht fun ht => .goOn ht rfl trivial
      unfold Cluster.takeListFault? at h
      split at h <;> cases h
      rfl
  · split
    · next waiters _ =>
        exact ((w.record call).hires_setCluster (c := { w.cluster with
          held := w.cluster.held.set kind (waiters ++ [t]) }) rfl).staffs ht fun ht =>
            .await ht rfl trivial
    · exact .goOn ht rfl trivial

theorem staffs_takeFeed (ht : w.Runs asks t (.worker i)) :
    Staffs t (.worker i) asks about w (w.takeFeed t i) := by
  unfold takeFeed
  dsimp only
  split
  · next item feed loop h =>
      have htake : Hires asks (Routine.worker i = .control) about w
          { w with cluster := w.cluster.setFeed (w.informer i).cache.key feed, loop := loop } :=
        .of_urges (.of_eq rfl rfl rfl rfl) (Channel.soft_take? h) (Channel.urges_take? h)
      exact htake.staffs ht fun ht => .goOn ht rfl trivial
  · exact (w.hires_setCluster (c := w.cluster.setFeed _ _) rfl).staffs ht fun ht =>
      .await ht rfl trivial

theorem hires_startTimer (w : World) (i : InformerId) :
    Hires asks shuts about w (w.startTimer i) := by
  let y : Watched := { w.informer i with timer := some w.loop.nextTimer }
  have hset : Idle w (w.setInformer i y) := .setInformer (.refl _) rfl rfl
  exact ⟨.of_idle (hset.trans (.of_eq rfl rfl rfl rfl)) rfl fun _ => rfl,
    (w.loop.urges_startTimer _ _).defers⟩

theorem staffs_openWatch (ht : w.Runs asks t (.worker i)) (habout : about = some (w.watches i))
    (version : String) : Staffs t (.worker i) asks about w (w.openWatch t i version) := by
  let x := (w.informer i).cache
  exact ((w.hires_startTimer i).trans (hires_record _ (.watch x.rid.kindText x.ns version
    x.config.watchTimeout) (.inr habout.symm))).staffs ht fun ht => staffs_takeFeed ht

theorem staffs_fallAsleep (ht : w.Runs asks t (.worker i)) (delay : Float) :
    Staffs t (.worker i) asks about w (w.fallAsleep t i delay) := by
  unfold fallAsleep
  split
  · exact .of_moves ht (w.loop.moves_giveWay t _) (w.loop.settles_giveWay t _) rfl trivial
  · have hstart : Hires asks (Routine.worker i = .control) about w
        { w with loop := (w.loop.startTimer delay (.wake t)).1 } :=
      .of_urges (.of_eq rfl rfl rfl rfl) (w.loop.soft_startTimer delay _ (by simp))
        (w.loop.urges_startTimer delay _)
    exact hstart.staffs ht fun ht => .await ht rfl trivial

theorem hires_stopTimer (w : World) (i : InformerId) :
    Hires asks shuts about w (w.stopTimer i) := by
  unfold stopTimer
  split
  · exact .refl w
  · next timer _ =>
      let y : Watched := { w.informer i with timer := none }
      have hset : Idle w (w.setInformer i y) := .setInformer (.refl _) rfl rfl
      exact .of_urges (hset.trans (.of_eq rfl rfl rfl rfl)) (w.loop.soft_cancelTimer timer)
        (w.loop.urges_cancelTimer timer)

theorem hires_leaveWatch (w : World) (i : InformerId) (c : Informer.Command) :
    Hires asks shuts about w (w.leaveWatch i c) := by
  cases c with
  | next => exact .refl w
  | list | watch _ | sleep _ | crash _ => exact w.hires_stopTimer i

theorem staffs_execute (ht : w.Runs asks t (.worker i)) (habout : about = some (w.watches i))
    (c : Informer.Command) : Staffs t (.worker i) asks about w (w.execute t i c) := by
  cases c with
  | list => exact staffs_callList ht habout
  | watch version => exact staffs_openWatch ht habout version
  | next => exact staffs_takeFeed ht
  | sleep delay => exact staffs_fallAsleep ht delay
  | crash fault => exact .finish ht _

theorem hires_announceSync (w : World) (i : InformerId) :
    Hires asks shuts about w (w.announceSync i) := by
  unfold announceSync
  dsimp only
  split
  · let y : Watched := { w.informer i with waiters := [] }
    have hset : Idle w (w.setInformer i y) := .setInformer (.refl _) rfl rfl
    exact .of_urges (hset.trans (.of_eq rfl rfl rfl rfl)) (w.loop.soft_wakeAll _)
      (w.loop.urges_wakeAll _)
  · exact .refl w

/-- An informer is written back as one of its scope, with what it has unless that is on account of
a watch. -/
theorem hires_setCache (w : World) (i : InformerId) {c : Informer}
    (h : SameScope (w.informer i).cache c)
    (hitems : about = none → c.items = (w.informer i).cache.items) :
    Hires asks shuts about w (w.setInformer i { w.informer i with cache := c }) := by
  let y : Watched := { w.informer i with cache := c }
  have hworker : ∀ j, ((w.setInformer i y).informer j).worker = (w.informer j).worker :=
    setInformer_congr Watched.worker rfl
  exact .of_still (.setInformer h) rfl (.of_eq rfl) hworker fun habout =>
    setInformer_congr (fun x => x.cache.items) (hitems habout)

theorem staffs_signal (ht : w.Runs asks t (.worker i)) (habout : about = some (w.watches i))
    (hi : i < w.informers.length) (s : Informer.Signal) :
    Staffs t (.worker i) asks about w (w.signal t i s) := by
  let reaction := (w.informer i).cache.react s
  have hheard : Hires asks (Routine.worker i = .control) about w _ :=
    (((w.hires_setCache i ((w.informer i).cache.sameScope_react s)
      fun hnone => nomatch hnone.symm.trans habout).trans
      (hires_leaveWatch _ i reaction.command)).trans (hires_announceSync _ i)).trans
        (hires_tellAll _ reaction.notes)
  exact hheard.staffs ht fun ht =>
    staffs_execute ht (habout.trans (congrArg some (hheard.watches hi).symm)) _

theorem hires_withdraw (w : World) (t : TaskId) (i : InformerId) (woken : Bool)
    (p : WorkerPoint) : Hires asks shuts about w (w.withdraw t i woken p) := by
  cases p with
  | signalled _ => exact w.hires_stopTimer i
  | held => exact w.hires_setCluster rfl
  | watching =>
      have hleave : Hires asks shuts about w { w with
          cluster := w.cluster.setFeed (w.informer i).cache.key
            ((w.cluster.feed (w.informer i).cache.key).leaveTakers w.loop t woken).1
          loop := ((w.cluster.feed (w.informer i).cache.key).leaveTakers w.loop t woken).2 } :=
        .of_urges (.of_eq rfl rfl rfl rfl) (Channel.soft_leaveTakers _ w.loop t woken)
          (Channel.urges_leaveTakers _ w.loop t woken)
      exact hleave.trans (hires_stopTimer _ i)
  | asleep timer =>
      cases timer with
      | none => exact .refl w
      | some id =>
          exact w.hires_withLoop (g := (·.cancelTimer id)) (w.loop.soft_cancelTimer id)
            (w.loop.urges_cancelTimer id)

theorem staffs_runWorker (ht : w.Runs asks t (.worker i)) (habout : about = some (w.watches i))
    (hi : i < w.informers.length) (p : WorkerPoint) (a : Arrival) :
    Staffs t (.worker i) asks about w (w.runWorker t i p a) := by
  cases a with
  | cancelled woken => exact (w.hires_withdraw t i woken p).staffs ht fun ht => .finish ht _
  | on =>
      cases p with
      | signalled s => exact staffs_signal ht habout hi s
      | held => exact staffs_signal ht habout hi _
      | watching => exact staffs_takeFeed ht
      | asleep _ => exact staffs_signal ht habout hi .woke

/-! ## Starting and stopping -/

theorem hires_markStopped (w : World) (i : InformerId) :
    Hires asks shuts about w (w.markStopped i) :=
  (w.hires_setCache i (c := (w.informer i).cache.stopped.1) ⟨rfl, rfl⟩ fun _ => rfl).trans
    (hires_tellAll _ _)

theorem staffs_allStopped (ht : w.Runs asks t .control) (reason : StopReason) :
    Staffs t .control asks about w (w.allStopped t reason) := by
  cases reason with
  | informer => exact .report ht _
  | factory n => exact (w.hires_tell _).staffs ht fun ht => .report ht _
  | application n =>
      exact ((w.hires_tell _).trans (hires_endLimit (t := t) _ false)).staffs ht fun ht =>
        .goOn ht rfl trivial

theorem staffs_stopFailed (ht : w.Runs asks t .control) (fault : Fault) (reason : StopReason) :
    Staffs t .control asks about w (w.stopFailed t fault reason) := by
  cases reason with
  | informer => exact .finish ht _
  | factory n => exact .finish ht _
  | application n =>
      exact (hires_endLimit (t := t) w false).staffs ht fun ht => .goOn ht rfl trivial

/-- Who is some informer's worker once the worker of one has been dismissed was so before, and of
the other informers everybody is. -/
theorem worker_dismissed (w : World) (i j : InformerId) (u : TaskId) :
    (((w.setInformer i { w.informer i with worker := none }).informer j).worker = some u →
      (w.informer j).worker = some u) ∧
    ((w.informer j).worker = some u →
      ((w.setInformer i { w.informer i with worker := none }).informer j).worker = some u ∨
        j = i) := by
  rcases w.setInformer_cases i j { w.informer i with worker := none } with hj | ⟨rfl, hj⟩
  · rw [hj]
    exact ⟨id, .inl⟩
  · rw [hj]
    refine ⟨fun h => ?_, fun _ => .inr rfl⟩
    cases h

/-- A worker that has ended is dismissed. -/
theorem hires_dismiss (h : ∀ u, (w.informer i).worker = some u → w.loop.ended u = true) :
    Hires asks shuts about w (w.setInformer i { w.informer i with worker := none }) where
  toFiles := .setInformer (.refl _)
  tasks := Nat.le_refl _
  starts j u hu := .inl ((w.worker_dismissed i j u).1 hu)
  calls := .of_eq rfl
  old _ _ := rfl
  made _ _ _ hle hp := absurd (Loop.lt_of_standing (l := w.loop) hp) (Nat.not_lt.2 hle)
  worker j u hu := by
    rcases (w.worker_dismissed i j u).2 hu with hsame | rfl
    · exact .inl hsame
    · exact .inr (h u hu)
  items _ := setInformer_congr (x := { w.informer i with worker := none }) (·.cache.items) rfl
  defers := .refl _

/-- A worker is dismissed and called off, and its end is waited for. -/
theorem staffs_callOff {worker : TaskId} (ht : w.Runs asks t .control)
    (hworker : (w.informer i).worker = some worker) (reason : StopReason)
    (rest : List InformerId) : Staffs t .control asks about w
      ((w.setInformer i { w.informer i with worker := none }).withLoop fun l =>
        (l.cancel worker).awaitTask t (.stopping reason (some (i, worker)) rest) worker) := by
  let y : Watched := { w.informer i with worker := none }
  let p : Point := .stopping reason (some (i, worker)) rest
  let l : Loop Point Report := (w.loop.cancel worker).awaitTask t p worker
  show Staffs t .control asks about w { w.setInformer i y with loop := l }
  have hmoves : Loop.Moves t p w.loop l :=
    (w.loop.soft_cancel worker).touches (Loop.moves_awaitTask _ t p worker)
  have houtlasts : Outlasts { w.setInformer i y with loop := l } t i worker := by
    obtain ⟨q, hq, -⟩ := id ht
    rw [← (w.loop.soft_cancel worker).standing, Loop.standing] at hq
    obtain ⟨a, ha, hspec⟩ := Option.map_eq_some_iff.1 hq
    obtain ⟨b, hb, hpoint, hending, -, -, heases⟩ :=
      ((w.loop.cancel worker).goes_awaitTask t p worker).own a ha
    refine ⟨b, reason, rest, hb, hending.trans (congrArg Prod.snd hspec), hpoint, ?_⟩
    generalize b.wait = wait at heases
    cases heases
    rfl
  exact {
    toFiles := .of_same (length_setInformer w i y) (sameScope_setInformer (y := y) (.refl _)) rfl
      (Nat.le_refl _) fun _ => ⟨rfl, rfl⟩
    tasks := Nat.le_of_eq hmoves.length.symm
    starts := fun j u hu => .inl ((w.worker_dismissed i j u).1 hu)
    calls := .of_eq rfl
    own := ⟨p, none, ht.own hmoves, rfl, trivial⟩
    others := fun u hu _ => hmoves.others u hu
    made := fun u q e hle hq => by
      have hlt := Loop.lt_of_standing (l := l) hq
      rw [show l.tasks.length = w.loop.tasks.length from hmoves.length] at hlt
      exact absurd hlt (Nat.not_lt.2 hle)
    worker := fun j u hu => by
      rcases (w.worker_dismissed i j u).2 hu with hsame | rfl
      · exact .inl hsame
      · cases hworker.symm.trans hu
        exact .inr (.inr houtlasts)
    items := fun _ => setInformer_congr (x := y) (·.cache.items) rfl
    settles := (w.loop.urges_cancel worker).defers.settles (Loop.settles_awaitTask _ t p worker) }

theorem staffs_stopNext (ht : w.Runs asks t .control) (reason : StopReason)
    (informers : List InformerId) :
    Staffs t .control asks about w (w.stopNext t reason informers) := by
  induction informers generalizing w with
  | nil => exact staffs_allStopped ht reason
  | cons i rest ih =>
      unfold stopNext
      dsimp only
      split
      · exact ih ht
      · next worker hworker =>
          have hdismiss : w.loop.ended worker = true → Hires asks (Routine.control = .control) about
              w (w.setInformer i { w.informer i with worker := none }) := fun hended =>
            hires_dismiss fun u hu => by
              cases hworker.symm.trans hu
              exact hended
          split
          · next fault hending =>
              exact (hdismiss (Loop.ended_of_ending? hending)).staffs ht fun ht =>
                staffs_stopFailed ht fault reason
          · next hending =>
              refine (hdismiss (Loop.ended_of_ending? hending)).staffs ht fun ht => ?_
              exact (hires_markStopped _ i).staffs ht fun ht => ih ht
          · exact staffs_callOff ht hworker reason rest

theorem staffs_runStopping (ht : w.Runs asks t .control) (reason : StopReason)
    (current : Option (InformerId × TaskId)) (rest : List InformerId) (a : Arrival) :
    Staffs t .control asks about w (w.runStopping t reason current rest a) := by
  cases current with
  | none =>
      cases a with
      | cancelled _ => exact .finish ht _
      | on => exact staffs_stopNext ht reason rest
  | some current =>
      obtain ⟨i, worker⟩ := current
      have hmark : Hires asks (Routine.control = .control) about w (w.markStopped i) :=
        w.hires_markStopped i
      cases a with
      | cancelled _ => exact hmark.staffs ht fun ht => staffs_stopNext ht reason rest
      | on =>
          unfold runStopping
          dsimp only
          split
          · exact staffs_stopFailed ht _ reason
          · exact hmark.staffs ht fun ht => staffs_stopNext ht reason rest

theorem staffs_runStoppingScope (hw : w.Filed asks) (ht : w.Runs asks t .control)
    (hasks : asks f rid) (ns : String) (twice : Bool) (a : Arrival) :
    Staffs t .control asks about w (w.runStoppingScope t f rid ns twice a) := by
  cases a with
  | cancelled _ => exact .finish ht _
  | on =>
      have hensure : Hires asks (Routine.control = .control) about w
          (w.ensureWatch f rid ns true).1 := hires_ensureWatch hw hasks ns true
      unfold runStoppingScope
      dsimp only
      split
      · next h =>
          rw [h] at hensure
          exact hensure.staffs ht fun ht => .finish ht _
      · next h =>
          rw [h] at hensure
          exact hensure.staffs ht fun ht => staffs_stopNext ht _ _

theorem hires_shutFactory (hshuts : shuts) (hserving : (w.factory f).stopped = false) :
    Hires asks shuts about w (w.shutFactory f).1 :=
  .of_still (files_shutFactory hshuts hserving) rfl (.of_eq rfl) (fun _ => rfl) fun _ _ => rfl

theorem staffs_runStoppingFactory (ht : w.Runs asks t .control) (f : FactoryId) (a : Arrival) :
    Staffs t .control asks about w (w.runStoppingFactory t f a) := by
  cases a with
  | cancelled _ => exact .finish ht _
  | on =>
      unfold runStoppingFactory
      dsimp only
      split
      · exact .report ht _
      · next hserving =>
          exact (hires_shutFactory rfl (by simpa using hserving)).staffs ht fun ht =>
            staffs_stopNext ht _ _

/-! ## The application -/

theorem hires_build (w : World) (config : Config) :
    Hires asks shuts about w (w.build config).1 :=
  .of_still (files_build config) rfl (.of_eq rfl) (fun _ => rfl) fun _ _ => rfl

theorem hires_beginLimit (w : World) (t : TaskId) (delay : Float) :
    Hires asks shuts about w (w.withLoop (·.beginLimit t delay)) :=
  w.hires_withLoop (g := (·.beginLimit t delay)) (w.loop.soft_beginLimit t delay)
    (w.loop.urges_beginLimit t delay)

theorem hires_connect (w : World) (config : ConnectionConfig) :
    Hires asks shuts about w (w.connect config).1 := by
  let v := { w with cluster := w.cluster.connect.1 }
  have hcluster : Hires asks shuts about w v :=
    .of_loop (.of_eq rfl rfl w.cluster.clusterScoped_connect rfl) rfl
  exact hcluster.trans (v.hires_record (.connect config) (.inl rfl))

theorem staffs_obey (ht : w.Runs asks t .control) (environment : Except Fault Config)
    (c : Application.Command) :
    Staffs t .control asks about w (w.obey t environment c) := by
  unfold obey
  split
  · exact .goOn ht rfl trivial
  · exact (w.hires_connect _).staffs ht fun ht => .goOn ht rfl trivial
  · exact (w.hires_build _).staffs ht fun ht => .goOn ht rfl trivial
  · next f =>
      split
      · exact .goOn ht rfl trivial
      · next hserving =>
          let v := w.withLoop (·.beginLimit t (Float.ofNat Application.grace))
          have hserving : (v.factory f).stopped = false := by
            show (w.factory f).stopped = false
            simpa using hserving
          refine (w.hires_beginLimit t (Float.ofNat Application.grace)).staffs ht fun ht => ?_
          exact (hires_shutFactory (w := v) rfl hserving).staffs ht fun ht => staffs_stopNext ht _ _
  · dsimp only
    split
    · exact (w.hires_record _ (.inl rfl)).staffs ht fun ht => .goOn ht rfl trivial
    · exact ((w.hires_record _ (.inl rfl)).trans (hires_beginLimit _ t _)).staffs ht fun ht =>
        .await ht rfl trivial
  · exact .report ht _
  · exact .finish ht _

theorem staffs_runApplication (ht : w.Runs asks t .control) (s : Application.Signal)
    (a : Arrival) : Staffs t .control asks about w (w.runApplication t s a) := by
  cases a with
  | cancelled _ => exact .finish ht _
  | on =>
      unfold runApplication
      dsimp only
      split
      · exact .report ht _
      · refine Hires.staffs ?_ ht fun ht => staffs_obey ht _ _
        refine Hires.trans ?_ (hires_foldl (fun w r => ?_) _ _)
        · split <;> exact .of_loop (.of_eq rfl rfl rfl rfl) rfl
        · refine .of_loop (w.idle_write _ r) ?_
          unfold write
          split <;> rfl

theorem staffs_runClosing (ht : w.Runs asks t .control) (a : Arrival) :
    Staffs t .control asks about w (w.runClosing t a) := by
  cases a with
  | on => exact .report ht _
  | cancelled _ =>
      unfold runClosing
      dsimp only
      refine (hires_endLimit (t := t) w true).staffs ht fun ht => ?_
      split
      · exact .goOn ht rfl trivial
      · exact .finish ht _

/-! ## Every routine -/

/-- What a task's calls are about at a point. -/
def about? (w : World) : Point → Option (String × String)
  | .worker i _ => some (w.watches i)
  | _ => none

/-- Whatever a task does from where it stands, it is known who works for whom. -/
theorem staffs_runPoint {p : Point} (hw : w.Filed asks) (hp : w.loop.standing t = some (p, none))
    (hasks : p.Asks asks) (hmade : ∀ i, p.routine = .worker i → i < w.informers.length)
    (a : Arrival) : Staffs t p.routine asks (w.about? p) w (w.runPoint t p a) := by
  have ht : w.Runs asks t p.routine := ⟨p, hp, rfl, hasks⟩
  cases p with
  | worker i p => exact staffs_runWorker ht rfl (hmade i rfl) p a
  | planning op plan =>
      cases a with
      | on => exact staffs_carryOut hw ht op plan hasks
      | cancelled _ => exact .finish ht _
  | syncing op i next => exact staffs_runSyncing hw ht op i hasks a
  | reporting call targets pods d => exact staffs_runReporting ht call targets pods d a
  | supervising call tasks pending => exact staffs_runSupervising ht call tasks pending a
  | clearing call cancelled => exact staffs_runClearing ht call cancelled a
  | stream s p => exact staffs_runStream ht s p a
  | giving s d => exact staffs_runGiving ht a
  | taking s => exact staffs_runTaking ht a
  | awaitingClose s => exact staffs_runAwaitingClose ht a
  | getting s collected race => exact staffs_runGetting ht collected race a
  | stopping reason current rest => exact staffs_runStopping ht reason current rest a
  | stoppingScope f rid ns twice => exact staffs_runStoppingScope hw ht hasks ns twice a
  | stoppingFactory f => exact staffs_runStoppingFactory ht f a
  | application s => exact staffs_runApplication ht s a
  | closing => exact staffs_runClosing ht a

end World

end LiveCluster.Simulation
