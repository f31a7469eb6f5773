import LiveCluster.Proofs.Simulation.Manned
import LiveCluster.Proofs.Tail.Consuming

/-!
# A closed sink is emptied

Whoever comes with an event to a sink that is closed is refused. So, along the definition of
each routine, a task at a closed sink puts nothing in, but events leave the sink from its front,
and at the end of its step the task has nothing to put in, because it has ended or gone on. Only
who waited for room when its turn came may put its event in, or wait on.
-/

namespace LiveCluster.Simulation

/-- What a task at a point is about to put into a sink. -/
def Point.due? (s : SinkId) : Point → Option Delivery
  | .reporting call _ _ d => if call.sink = s then some d else none
  | .stream st (.delivering d _) => if st.sink = s then some d else none
  | .giving r d => if r = s then some d else none
  | _ => none

/-- The events that a task at a point has been handed, if it has ended like this or goes on. -/
def Point.handed (p : Point) (ending : Option (Ending Report)) : List LogEvent :=
  match ending, p with
  | some (.returned (.event event)), _ => event.toList
  | some (.returned (.events events)), _ => events
  | _, .getting _ (some events) _ => events
  | _, _ => []

/-- Whoever gets events and goes on, or comes to no result, has been handed those collected. -/
theorem Point.handed_getting (s : SinkId) (collected : Option (List LogEvent))
    (race : Option Race) {ending : Option (Ending Report)}
    (h : ∀ report, ending ≠ some (.returned report)) :
    (Point.getting s collected race).handed ending = collected.getD [] := by
  cases ending with
  | none => cases collected <;> rfl
  | some ending =>
      cases ending with
      | returned report => exact absurd rfl (h report)
      | failed | cancelled => cases collected <;> rfl

namespace World

variable {w w' v x : World} {s : SinkId} {t u : TaskId} {gone gone' : List LogEvent}
  {e : LogEvent} {p : Point}

/-- A task waits for room in a sink. -/
def AwaitsRoom (w : World) (s : SinkId) (t : TaskId) (e : LogEvent) : Prop :=
  ∃ p d, w.loop.standing t = some (p, none) ∧ p.due? s = some d ∧ d.waited = true ∧ d.event = e

/-- Nothing is put into a sink, and some events leave it; it stays closed if it was. -/
structure Drains (s : SinkId) (gone : List LogEvent) (w w' : World) : Prop where
  items : (w.sink s).channel.items = gone ++ (w'.sink s).channel.items
  closed : (w.sink s).closed = true → (w'.sink s).closed = true

/-- Nothing is put into a sink, and a task comes to have nothing to put in. -/
structure Quits (s : SinkId) (t : TaskId) (gone : List LogEvent) (w w' : World) : Prop
    extends Drains s gone w w' where
  clear : ∀ p, w'.loop.standing t = some (p, none) → p.due? s = none

/-! ## On the way -/

theorem Drains.and (h : Drains s gone w v) (h' : Drains s gone' v x) :
    Drains s (gone ++ gone') w x where
  items := by rw [h.items, h'.items, List.append_assoc]
  closed hs := h'.closed (h.closed hs)

theorem Drains.trans (h : Drains s [] w v) (h' : Drains s gone v x) : Drains s gone w x :=
  h.and h'

/-- What is done on the way comes first, and then the rest of a step. -/
theorem Drains.quits (h : Drains s [] w v) (h' : Quits s t gone v x) : Quits s t gone w x where
  toDrains := h.trans h'.toDrains
  clear := h'.clear

/-- Events leave the sink first, and then comes the rest of a step. -/
theorem Drains.quits_with (h : Drains s gone w v) (h' : Quits s t [] v x) :
    Quits s t gone w x where
  toDrains := (List.append_nil gone) ▸ h.and h'.toDrains
  clear := h'.clear

theorem Drains.of_sink (h : w'.sink s = w.sink s) : Drains s [] w w' where
  items := by rw [h]; rfl
  closed hs := by rw [h, hs]

theorem Drains.of_sinks (h : w'.sinks = w.sinks) : Drains s [] w w' :=
  .of_sink (by rw [sink, sink, h])

theorem Drains.refl (s : SinkId) (w : World) : Drains s [] w w :=
  .of_sink rfl

/-- Who may change no sink changes none. -/
theorem Drains.of_mild (h : Mild none w w') : Drains s [] w w' :=
  .of_sink (h.sink s (by simp))

/-- What is in a sink is left, and it is not opened. -/
theorem drains_setSink {r : SinkId} {y : Sink} {l : Loop Point Report}
    (hitems : y.channel.items = (w.sink r).channel.items)
    (hclosed : (w.sink r).closed = true → y.closed = true) :
    Drains s [] w { w.setSink r y with loop := l } := by
  have hsink := w.sink_setSink_cases r s y
  constructor
  · show _ = [] ++ ((w.setSink r y).sink s).channel.items
    rcases hsink with h | ⟨rfl, h⟩ <;> rw [h]
    · rfl
    · exact hitems.symm
  · show _ → ((w.setSink r y).sink s).closed = true
    rcases hsink with h | ⟨rfl, h⟩ <;> rw [h]
    · exact id
    · exact hclosed

theorem drains_closeSink (w : World) (r : SinkId) : Drains s [] w (w.closeSink r) :=
  drains_setSink (Sink.close_items _ w.loop) fun _ => Sink.close_closed _ w.loop

theorem drains_leaveRoom (w : World) (t : TaskId) (r : SinkId) (woken : Bool) :
    Drains s [] w (w.leaveRoom t r woken) :=
  drains_setSink (Channel.leaveGivers_items ..) id

theorem drains_tell (w : World) (note : Note) : Drains s [] w (w.tell note) :=
  .of_mild (w.mild_tell note)

theorem drains_tellAll (w : World) (notes : List Note) : Drains s [] w (w.tellAll notes) :=
  .of_mild (w.mild_tellAll notes)

theorem lt_of_items (h : (w.sink s).channel.items ≠ []) : s < w.sinks.length := by
  refine Nat.lt_of_not_le fun hle => h ?_
  rw [sink, List.getElem?_eq_none hle]
  rfl

/-- What is taken out of a sink leaves it. -/
theorem drains_takeEvent? (h : w.takeEvent? s = some (v, e)) : Drains s [e] w v := by
  have hne : (w.sink s).channel.items ≠ [] := by
    intro hempty
    rw [takeEvent?, Sink.take?, Channel.take?_eq_none_iff.2 hempty] at h
    cases h
  rcases takeEvent?_cases (lt_of_items hne) with ⟨hnone, -⟩ |
      ⟨v', e', htake, -, -, hitems, hclosed⟩
  · rw [hnone] at h
    cases h
  · rw [htake] at h
    cases h
    exact ⟨hitems, fun hs => hclosed.trans hs⟩

/-- Who comes to a closed sink with an event is refused. -/
theorem offer_unwaited {d : Delivery} (hclosed : (w.sink s).closed = true)
    (hd : d.waited = false) : ∃ v, w.offer s d = (v, .refused) ∧ Drains s [] w v := by
  have hrefused : ((w.sink s).offer w.loop d.event d.waited).1 = .refused :=
    Sink.offer_refused_iff.2 ⟨hclosed, hd⟩
  have hitems := (w.sink s).offer_items w.loop d.event d.waited
  rw [hrefused, if_neg (by simp)] at hitems
  exact ⟨(w.offer s d).1, Prod.ext rfl hrefused, drains_setSink hitems fun _ =>
    (Sink.offer_closed ..).trans hclosed⟩

/-! ## At the end of a step -/

theorem quits_moves {l : Loop Point Report} (h : Loop.Moves t p w.loop l)
    (hp : p.due? s = none) : Quits s t [] w { w with loop := l } where
  toDrains := .of_sinks rfl
  clear q hq := by
    replace hq : l.standing t = some (q, none) := hq
    rw [h.own] at hq
    obtain ⟨before, -, hsame⟩ := Option.map_eq_some_iff.1 hq
    obtain rfl : p = q := congrArg Prod.fst hsame
    exact hp

theorem quits_goOn (hp : p.due? s = none) : Quits s t [] w (w.goOn t p) :=
  quits_moves (w.loop.moves_goOn t p) hp

theorem quits_await (hp : p.due? s = none) : Quits s t [] w (w.await t p) :=
  quits_moves (w.loop.moves_suspend t p .signal) hp

theorem quits_finish (ending : Ending Report) : Quits s t [] w (w.finish t ending) where
  toDrains := .of_sinks rfl
  clear q hq := by
    replace hq : (w.loop.finish t ending).standing t = some (q, none) := hq
    rw [(w.loop.ends_finish t ending).own] at hq
    obtain ⟨before, -, hsame⟩ := Option.map_eq_some_iff.1 hq
    cases hsame

theorem quits_report (report : Report) : Quits s t [] w (w.report t report) :=
  quits_finish _

/-! ## Where a task comes to stand -/

theorem standing_moves {l : Loop Point Report} {q : Point}
    (ht : v.loop.standing t = some (p, none)) (h : Loop.Moves t q v.loop l) :
    l.standing t = some (q, none) := by
  rw [h.own, ht]
  rfl

theorem standing_awaitRoom (hsoft : Loop.Soft w.loop v.loop)
    (ht : w.loop.standing t = some (p, none)) (r : SinkId) :
    (v.awaitRoom t r p).loop.standing t = some (p, none) := by
  show (v.loop.suspend t p .signal).standing t = _
  rw [(Loop.moves_suspend _ t p .signal).own, hsoft.standing, ht]
  rfl

theorem standing_finish (hsoft : Loop.Soft w.loop v.loop)
    (ht : w.loop.standing t = some (p, none)) (ending : Ending Report) :
    (v.finish t ending).loop.standing t = some (p, some ending) := by
  show (v.loop.finish t ending).standing t = _
  rw [(v.loop.ends_finish t ending).own, hsoft.standing, ht]
  rfl

/-! ## Consumers -/

theorem handedBy_of_standing {ending : Option (Ending Report)}
    (h : w.loop.standing t = some (p, ending)) : w.handedBy t = p.handed ending := by
  rw [Loop.standing] at h
  obtain ⟨a, ha, hsame⟩ := Option.map_eq_some_iff.1 h
  cases hsame
  rw [handedBy, ha]
  rfl

/-- What a consumer comes to have been handed has left the sink, or was handed to the task that
took it in the race. -/
def Hands (t : TaskId) (race : Option Race) (gone : List LogEvent) (w w' : World) : Prop :=
  ∀ e ∈ w'.handedBy t, e ∈ w.handedBy t ∨ e ∈ gone ∨ ∃ r, race = some r ∧ e ∈ w.handedBy r.taker

/-- A task that was handed nothing more. -/
theorem hands_of_standing {race : Option Race} {q : Point} {ending : Option (Ending Report)}
    (ht : w.loop.standing t = some (p, none)) (ht' : x.loop.standing t = some (q, ending))
    (hsub : ∀ e ∈ q.handed ending, e ∈ p.handed none) : Hands t race gone w x := by
  intro e he
  rw [handedBy_of_standing ht'] at he
  rw [handedBy_of_standing ht]
  exact .inl (hsub e he)

theorem quits_runTaking (ht : w.loop.standing t = some (.taking s, none)) (a : Arrival) :
    ∃ gone, Quits s t gone w (w.runTaking t s a) ∧ Hands t none gone w (w.runTaking t s a) := by
  unfold runTaking
  cases a with
  | cancelled woken =>
      have hleave : Drains s [] w { w.setSink s { w.sink s with
          channel := ((w.sink s).channel.leaveTakers w.loop t woken).1 } with
          loop := ((w.sink s).channel.leaveTakers w.loop t woken).2 } :=
        drains_setSink (Channel.leaveTakers_items ..) id
      exact ⟨[], hleave.quits (quits_finish _), hands_of_standing ht
        (standing_finish (Channel.soft_leaveTakers _ w.loop t woken) ht .cancelled)
        fun _ he => he⟩
  | on =>
      dsimp only
      split
      · next v e h =>
          have hstands := standing_finish (quiet_takeEvent? h).loop ht
            (.returned (.event (some e)))
          refine ⟨[e], (drains_takeEvent? h).quits_with (quits_report _),
            fun e' he' => .inr (.inl ?_)⟩
          rw [show v.report t _ = v.finish t _ from rfl, handedBy_of_standing hstands] at he'
          exact he'
      · have hline : Drains s [] w (w.setSink s { w.sink s with
            channel := { (w.sink s).channel with takers := (w.sink s).channel.takers ++ [t] } }) :=
          drains_setSink rfl id
        exact ⟨[], hline.quits (quits_await rfl), hands_of_standing ht
          (standing_moves (v := w) ht (w.loop.moves_suspend t (.taking s) .signal)) fun _ he => he⟩

theorem quits_runAwaitingClose (a : Arrival) : Quits s t [] w (w.runAwaitingClose t s a) := by
  have hset : ∀ watchers, Drains s [] w (w.setSink s { w.sink s with watchers := watchers }) :=
    fun _ => drains_setSink rfl id
  unfold runAwaitingClose
  cases a with
  | cancelled _ => exact (hset _).quits (quits_finish _)
  | on =>
      dsimp only
      split
      · exact quits_report _
      · exact (hset _).quits (quits_await rfl)

theorem quits_got (collected : Option (List LogEvent)) :
    Quits s t [] w (w.got t s e collected) := by
  cases collected with
  | none => exact quits_report _
  | some events => exact quits_goOn rfl

theorem handedBy_got {race : Option Race} {collected : Option (List LogEvent)}
    (ht : w.loop.standing t = some (.getting s collected race, none)) {e' : LogEvent}
    (he : e' ∈ (w.got t s e collected).handedBy t) : e' ∈ w.handedBy t ∨ e' = e := by
  rw [handedBy_of_standing ht]
  cases collected with
  | none =>
      have hstands := standing_finish (.refl w.loop) ht (.returned (.event (some e)))
      rw [show w.got t s e none = w.finish t _ from rfl, handedBy_of_standing hstands] at he
      exact .inr (List.mem_singleton.1 he)
  | some events =>
      have hstands := standing_moves (v := w) ht
        (w.loop.moves_goOn t (.getting s (some (events ++ [e])) none))
      rw [show w.got t s e (some events) = w.goOn t _ from rfl,
        handedBy_of_standing (w := w.goOn t _) hstands] at he
      exact (List.mem_append.1 he).imp_right List.mem_singleton.1

theorem quits_drained (collected : Option (List LogEvent)) :
    Quits s t [] w (w.drained t collected) := by
  cases collected <;> exact quits_report _

theorem quits_getNext {race : Option Race} (collected : Option (List LogEvent))
    (ht : w.loop.standing t = some (.getting s collected race, none)) :
    ∃ gone, Quits s t gone w (w.getNext t s collected) ∧
      Hands t none gone w (w.getNext t s collected) := by
  unfold getNext
  split
  · next v e h =>
      have hsoft := (quiet_takeEvent? h).loop
      have hsame := (hsoft.standing t).trans ht
      refine ⟨[e], (drains_takeEvent? h).quits_with (quits_got collected), fun e' he' => ?_⟩
      rcases handedBy_got hsame he' with hold | rfl
      · rw [handedBy_of_standing hsame] at hold
        rw [handedBy_of_standing ht]
        exact .inl hold
      · exact .inr (.inl List.mem_cons_self)
  · split
    · refine ⟨[], quits_drained collected, ?_⟩
      cases collected with
      | none =>
          exact hands_of_standing ht (standing_finish (.refl w.loop) ht (.returned (.event none)))
            fun _ he => by cases he
      | some events =>
          exact hands_of_standing ht
            (standing_finish (.refl w.loop) ht (.returned (.events events))) fun _ he => he
    · let x : World := ((w.spawn (.taking s)).1.spawn (.awaitingClose s)).1
      let r : Race := ⟨w.loop.tasks.length, (w.spawn (.taking s)).1.loop.tasks.length⟩
      have hspawn : Drains s [] w x := .of_sinks rfl
      have hmoves :=
        Loop.moves_awaitAny x.loop t (.getting s collected (some r)) [r.taker, r.closer]
      have hlt := Loop.lt_of_standing ht
      have hstands : x.loop.standing t = some (.getting s collected race, none) :=
        (standing_spawn_of_lt (Nat.lt_of_lt_of_le hlt (tasks_spawn w _))).trans
          ((standing_spawn_of_lt hlt).trans ht)
      refine ⟨[], hspawn.quits (quits_moves hmoves rfl),
        hands_of_standing ht (standing_moves hstands hmoves) fun _ he => ?_⟩
      rw [Point.handed_getting s collected _ (by simp)] at he ⊢
      exact he

theorem quits_runGetting (collected : Option (List LogEvent)) (race : Option Race)
    (ht : w.loop.standing t = some (.getting s collected race, none)) (a : Arrival) :
    ∃ gone, Quits s t gone w (w.runGetting t s collected race a) ∧
      Hands t race gone w (w.runGetting t s collected race a) := by
  have hend : ∀ r, Drains s [] w (w.endRace t r) := fun _ => .of_sinks rfl
  have hkeeps : ∀ {x : World} {race' : Option Race} {ending : Option (Ending Report)},
      x.loop.standing t = some (.getting s collected race', ending) →
        (∀ report, ending ≠ some (.returned report)) → Hands t race [] w x := by
    intro x race' ending hx hending
    refine hands_of_standing ht hx fun e he => ?_
    rw [Point.handed_getting s collected _ (by simp)]
    rwa [Point.handed_getting s collected _ hending] at he
  have hfinish : ∀ {v : World} {ending : Ending Report}, Loop.Soft w.loop v.loop →
      (∀ report, ending ≠ .returned report) → Hands t race [] w (v.finish t ending) :=
    fun hsoft hending => hkeeps (standing_finish hsoft ht _)
      fun report h => hending report (Option.some.inj h)
  cases race with
  | none =>
      cases a with
      | cancelled _ => exact ⟨[], quits_finish _, hfinish (.refl _) (by simp)⟩
      | on => exact quits_getNext collected ht
  | some r =>
      have hsoft := (w.quiet_endRace t r).loop
      have hstands := (hsoft.standing t).trans ht
      cases a with
      | cancelled _ => exact ⟨[], (hend r).quits (quits_finish _), hfinish hsoft (by simp)⟩
      | on =>
          unfold runGetting
          dsimp only
          split
          · next e htaken =>
              refine ⟨[], (hend r).quits (quits_got collected), fun e' he' => ?_⟩
              rcases handedBy_got hstands he' with hold | rfl
              · rw [handedBy_of_standing hstands] at hold
                rw [handedBy_of_standing ht]
                exact .inl hold
              · refine .inr (.inr ⟨r, rfl, ?_⟩)
                obtain ⟨b, hb, hending⟩ := Option.bind_eq_some_iff.1 htaken
                rw [handedBy, hb]
                dsimp only
                rw [hending]
                exact List.mem_cons_self
          · exact ⟨[], (hend r).quits (quits_finish _), hfinish hsoft (by simp)⟩
          · exact ⟨[], (hend r).quits (quits_finish _), hfinish hsoft (by simp)⟩
          · have hmoves := (w.endRace t r).loop.moves_goOn t (Point.getting s collected none)
            exact ⟨[], (hend r).quits (quits_goOn rfl), hkeeps (standing_moves hstands hmoves)
              (by simp)⟩

/-! ## Tails -/

theorem quits_endTail (call : TailCall) (ending : Ending Report) :
    Quits s t [] w (w.endTail t call ending) :=
  (w.drains_closeSink call.sink).quits (quits_finish ending)

theorem quits_cleared (call : TailCall) (cancelled : Bool) :
    Quits s t [] w (w.cleared t call cancelled) :=
  ((w.drains_closeSink call.sink).trans (drains_tell _ _)).quits (quits_endTail call _)

theorem quits_clear (call : TailCall) (tasks : TailTasks) (cancelled : Bool) :
    Quits s t [] w (w.clear t call tasks cancelled) := by
  have hcancel : Drains s [] w (w.withLoop fun l =>
      (tasks.streams ++ [tasks.closer]).foldl Loop.cancel l) := .of_sinks rfl
  unfold clear
  dsimp only
  split
  · exact hcancel.quits (quits_cleared call cancelled)
  · exact hcancel.quits (quits_moves (Loop.moves_awaitGroup _ t _ _) rfl)

theorem quits_runClearing (call : TailCall) (cancelled : Bool) (a : Arrival) :
    Quits s t [] w (w.runClearing t call cancelled a) := by
  cases a with
  | on => exact quits_cleared call cancelled
  | cancelled _ => exact quits_endTail call _

theorem quits_supervise (call : TailCall) (tasks : TailTasks) (pending : List TaskId) :
    Quits s t [] w (w.supervise t call tasks pending) := by
  unfold supervise
  split
  · exact quits_clear call tasks false
  · exact quits_moves (Loop.moves_awaitAny _ t _ _) rfl

theorem quits_runSupervising (call : TailCall) (tasks : TailTasks) (pending : List TaskId)
    (a : Arrival) : Quits s t [] w (w.runSupervising t call tasks pending a) := by
  have hunwatch : Drains s [] w (w.withLoop (·.unwatch t (pending ++ [tasks.closer]))) :=
    .of_sinks rfl
  unfold runSupervising
  cases a with
  | cancelled _ => exact hunwatch.quits (quits_clear call tasks true)
  | on =>
      dsimp only
      split
      · exact (hunwatch.trans (drains_tell _ _)).quits (quits_clear call tasks false)
      · exact hunwatch.quits (quits_supervise call tasks _)

theorem sinks_spawnStreams (w : World) (call : TailCall) (targets : List TailTarget) :
    (w.spawnStreams call targets).1.sinks = w.sinks := by
  induction targets generalizing w with
  | nil => rfl
  | cons target rest ih => exact ih _

theorem quits_openStreams (call : TailCall) (targets : List TailTarget) :
    Quits s t [] w (w.openStreams t call targets) := by
  unfold openStreams
  dsimp only
  have hspawn :
      Drains s [] w ((w.spawnStreams call targets).1.spawn (.awaitingClose call.sink)).1 :=
    .of_sinks (w.sinks_spawnStreams call targets)
  exact (hspawn.trans (drains_tell _ _)).quits (quits_supervise call _ _)

/-- A tail that comes to a closed sink with a pod to report is over. -/
theorem quits_target (call : TailCall) (hclosed : (w.sink call.sink).closed = true)
    (targets : List TailTarget) (pods : List Snapshot) :
    Quits call.sink t [] w (w.target t call targets pods) := by
  induction pods generalizing targets with
  | nil => exact quits_openStreams call targets
  | cons pod rest ih =>
      unfold target
      split
      · exact ih _
      · next fault _ =>
          have htold : Drains call.sink [] w _ :=
            w.drains_tellAll (Tailer.streamError pod "" fault)
          obtain ⟨v, hv, hrefused⟩ := offer_unwaited
            (d := { event := .failure pod.name "" fault }) (htold.closed hclosed) rfl
          dsimp only
          rw [hv]
          exact (htold.trans hrefused).quits (quits_endTail call _)

/-! ### Streams -/

/-- A stream that comes to a closed sink with an event is over. -/
theorem quits_deliver (st : Stream) (hclosed : (w.sink st.sink).closed = true) {d : Delivery}
    (hd : d.waited = false) (last : Bool) : Quits st.sink t [] w (w.deliver t st d last) := by
  obtain ⟨v, hv, hrefused⟩ := offer_unwaited hclosed hd
  unfold deliver
  rw [hv]
  dsimp only
  split
  · exact (hrefused.trans (drains_tell _ _)).quits (quits_report _)
  · exact (hrefused.trans (.of_mild (v.mild_closeLog t st))).quits (quits_report _)

theorem quits_readLog (st : Stream) (hclosed : (w.sink st.sink).closed = true) :
    Quits st.sink t [] w (w.readLog t st) := by
  unfold readLog
  split
  · have hline : ∀ log, Drains st.sink [] w (w.setLogOfStream st log) := fun _ => .of_sinks rfl
    exact (hline _).quits (quits_await rfl)
  · next item log loop h =>
      let v : World := { w.setLogOfStream st log with loop := loop }
      have htake : Drains st.sink [] w v := .of_sinks rfl
      cases item with
      | line text => exact htake.quits (quits_deliver st (htake.closed hclosed) rfl false)
      | ended => exact (htake.trans (.of_mild (v.mild_closeLog t st))).quits (quits_report _)
      | failed fault =>
          have htold := (htake.trans (.of_mild (v.mild_closeLog t st))).trans
            (drains_tellAll _ (Tailer.streamError st.target.pod st.target.container fault))
          exact htold.quits (quits_deliver st (htold.closed hclosed) rfl true)

theorem quits_quitStream (st : Stream) (woken : Bool) (p : StreamPoint) :
    Quits s t [] w (w.quitStream t st woken p) := by
  cases p with
  | opening => exact quits_finish _
  | reading =>
      have hleave : Drains s [] w { w.setLogOfStream st
          ((w.logOfStream st).leaveTakers w.loop t woken).1 with
          loop := ((w.logOfStream st).leaveTakers w.loop t woken).2 } := .of_sinks rfl
      exact (hleave.trans (.of_mild (mild_closeLog _ t st))).quits (quits_finish _)
  | delivering d last =>
      unfold quitStream
      dsimp only
      split
      · exact (w.drains_leaveRoom t st.sink woken).quits (quits_finish _)
      · exact ((w.drains_leaveRoom t st.sink woken).trans (.of_mild (mild_closeLog _ t st))).quits
          (quits_finish _)

/-! ## Plans -/

theorem drains_release (w : World) (op : Operation) : Drains s [] w (w.release op) := by
  unfold release
  split
  · exact w.drains_closeSink _
  · exact .refl s w

theorem quits_conclude (op : Operation) (hop : op.sink = some s)
    (hclosed : (w.sink s).closed = true) (result : Except Fault Next) :
    Quits s t [] w (w.conclude t op result) := by
  unfold conclude
  split
  · exact (w.drains_release op).quits (quits_finish _)
  · exact (w.drains_release op).quits (quits_report _)
  · next start =>
      rw [hop]
      exact quits_target ⟨s, start.pods, start.options⟩ hclosed [] start.pods

theorem quits_awaitSync (op : Operation) (i : InformerId) (limit : Float)
    (next : Except Fault Bool → Plan Next) : Quits s t [] w (w.awaitSync t op i limit next) := by
  have hbegin : Drains s [] w ((w.withLoop (·.beginLimit t limit)).setInformer i
      { w.informer i with waiters := (w.informer i).waiters ++ [t] }) := .of_sinks rfl
  exact hbegin.quits (quits_await rfl)

theorem quits_carryOut (op : Operation) (hop : op.sink = some s)
    (hclosed : (w.sink s).closed = true) (plan : Plan Next) :
    Quits s t [] w (carryOut t op plan w) := by
  induction plan generalizing w with
  | done result => exact quits_conclude op hop hclosed result
  | ask question next ih =>
      have hanswer : Drains s [] w (w.answer op question).1 := .of_mild (w.mild_answer op question)
      exact hanswer.quits (ih _ (hanswer.closed hclosed))
  | sync rid ns timeout next ih =>
      have hensure : Drains s [] w (w.ensureWatch op.factory rid ns op.inLoop).1 :=
        .of_mild (w.mild_ensureWatch op.factory rid ns op.inLoop)
      unfold carryOut
      split
      · next h =>
          rw [h] at hensure
          exact hensure.quits (ih _ (hensure.closed hclosed))
      · next h =>
          rw [h] at hensure
          split
          · exact hensure.quits (ih _ (hensure.closed hclosed))
          · exact hensure.quits (quits_awaitSync op _ _ next)

theorem quits_runSyncing (op : Operation) (hop : op.sink = some s)
    (hclosed : (w.sink s).closed = true) (i : InformerId) (next : Except Fault Bool → Plan Next)
    (a : Arrival) : Quits s t [] w (w.runSyncing t op i next a) := by
  cases a with
  | on =>
      have hlimit : Drains s [] w (w.withLoop fun l => (l.endLimit t false).1) := .of_sinks rfl
      exact hlimit.quits (quits_carryOut op hop (hlimit.closed hclosed) _)
  | cancelled woken =>
      let x : World := w.setInformer i { w.informer i with
        waiters := (w.informer i).waiters.filter (· ≠ t) }
      have hlimit : Drains s [] w { x with loop := (x.loop.endLimit t true).1 } := .of_sinks rfl
      unfold runSyncing
      dsimp only
      split
      · exact hlimit.quits (quits_carryOut op hop (hlimit.closed hclosed) _)
      · exact (hlimit.trans (drains_release _ op)).quits (quits_finish _)

/-! ## A step at a closed sink -/

/-- What comes of a step of a task at a closed sink. -/
inductive Proceeds (s : SinkId) (t : TaskId) (w w' : World) : Prop
  /-- Nothing is put in. -/
  | quits (gone : List LogEvent) (h : Quits s t gone w w')
      (put : ∀ d ending, w'.loop.standing t = some (.giving s d, some ending) →
        ending = .cancelled ∨ ending = .failed .sinkClosed ∧ ∀ e, ¬w.AwaitsRoom s t e)
  /-- There is no room yet. -/
  | waits (drains : Drains s [] w w') (same : w'.loop.standing t = w.loop.standing t)
  /-- There is room now for who has waited for it. -/
  | enters (e : LogEvent) (room : w.AwaitsRoom s t e)
      (items : (w'.sink s).channel.items = (w.sink s).channel.items ++ [e])
      (closed : (w.sink s).closed = true → (w'.sink s).closed = true)
      (clear : ∀ p, w'.loop.standing t = some (p, none) → p.due? s = none)
      (put : ∀ d ending, w'.loop.standing t = some (.giving s d, some ending) →
        ending = .returned .nothing)

theorem Quits.proceeds (h : Quits s t gone w w')
    (hput : ∀ d ending, w'.loop.standing t ≠ some (.giving s d, some ending)) :
    Proceeds s t w w' :=
  .quits gone h fun d ending hd => absurd hd (hput d ending)

/-- Once its event is in, a task has nothing to put in. -/
theorem Puts.enters (h : Puts s [e] w v) (h' : Quits s t [] v x) (hroom : w.AwaitsRoom s t e)
    (hput : ∀ d ending, x.loop.standing t = some (.giving s d, some ending) →
      ending = .returned .nothing) : Proceeds s t w x :=
  .enters e hroom (by rw [← h.items, h'.items]; rfl) (fun hs => h'.closed (h.closed.trans hs))
    h'.clear hput

/-- A task that finds a sink full waits where it stood. -/
theorem Puts.waits {d : Delivery} {o : Sink.Offer} (h : Puts s [] w v) (hv : w.offer s d = (v, o))
    (ht : w.loop.standing t = some (p, none)) : Proceeds s t w (v.awaitRoom t s p) := by
  have hdrains : Drains s [] w v :=
    ⟨by rw [h.items, List.append_nil]; rfl, fun hs => h.closed.trans hs⟩
  have hline : Drains s [] v (v.setSink s { v.sink s with
      channel := { (v.sink s).channel with givers := (v.sink s).channel.givers ++ [t] } }) :=
    drains_setSink rfl id
  have hsoft := (w.quiet_offer s d).loop
  rw [hv] at hsoft
  exact .waits (hdrains.trans (hline.trans (.of_sinks rfl)))
    ((standing_awaitRoom hsoft ht s).trans ht.symm)

/-- A stream that waited for room in a sink puts its event in, or waits on. -/
theorem proceeds_deliver (st : Stream) (hs : st.sink < w.sinks.length) (last : Bool)
    (ht : w.loop.standing t = some (.stream st (.delivering ⟨e, true⟩ last), none))
    (hput : ∀ d ending, (w.deliver t st ⟨e, true⟩ last).loop.standing t ≠
      some (.giving st.sink d, some ending)) :
    Proceeds st.sink t w (w.deliver t st ⟨e, true⟩ last) := by
  have hroom : w.AwaitsRoom st.sink t e := ⟨_, _, ht, if_pos rfl, rfl, rfl⟩
  unfold deliver at hput ⊢
  obtain ⟨v, ⟨hv, hputs⟩ | ⟨hv, hputs⟩⟩ := offer_admitted hs (d := ⟨e, true⟩) (by simp)
  · rw [hv] at hput ⊢
    dsimp only at hput ⊢
    refine hputs.enters ?_ hroom fun d ending hd => absurd hd (hput d ending)
    split
    · exact quits_report _
    · exact quits_goOn rfl
  · rw [hv]
    exact hputs.waits hv ht

/-- A tail that reports a pod and did not wait for room is over. -/
theorem quits_runReporting (call : TailCall) (hclosed : (w.sink call.sink).closed = true)
    (targets : List TailTarget) (pods : List Snapshot) (a : Arrival) :
    Quits call.sink t [] w (w.runReporting t call targets pods ⟨e, false⟩ a) := by
  unfold runReporting
  cases a with
  | cancelled woken =>
      exact (w.drains_leaveRoom t call.sink woken).quits (quits_endTail call _)
  | on =>
      obtain ⟨v, hv, hrefused⟩ := offer_unwaited (d := ⟨e, false⟩) hclosed rfl
      dsimp only
      rw [hv]
      exact hrefused.quits (quits_endTail call _)

/-- A tail that waited for room to report a pod puts its event in, or waits on. -/
theorem proceeds_runReporting (call : TailCall) (hs : call.sink < w.sinks.length)
    (hclosed : (w.sink call.sink).closed = true) (targets : List TailTarget)
    (pods : List Snapshot) (a : Arrival)
    (ht : w.loop.standing t = some (.reporting call targets pods ⟨e, true⟩, none))
    (hput : ∀ d ending, (w.runReporting t call targets pods ⟨e, true⟩ a).loop.standing t ≠
      some (.giving call.sink d, some ending)) :
    Proceeds call.sink t w (w.runReporting t call targets pods ⟨e, true⟩ a) := by
  have hroom : w.AwaitsRoom call.sink t e := ⟨_, _, ht, if_pos rfl, rfl, rfl⟩
  cases a with
  | cancelled woken =>
      exact ((w.drains_leaveRoom t call.sink woken).quits (quits_endTail call _)).proceeds hput
  | on =>
      unfold runReporting at hput ⊢
      dsimp only at hput ⊢
      obtain ⟨v, ⟨hv, hputs⟩ | ⟨hv, hputs⟩⟩ := offer_admitted hs (d := ⟨e, true⟩) (by simp)
      · rw [hv] at hput ⊢
        exact hputs.enters (quits_target call (hputs.closed.trans hclosed) targets pods) hroom
          fun d ending hd => absurd hd (hput d ending)
      · rw [hv]
        exact hputs.waits hv ht

/-- A put ends, or waits on if it waited for room and there is none. -/
theorem proceeds_runGiving (hs : s < w.sinks.length) (hclosed : (w.sink s).closed = true)
    (d : Delivery) (ht : w.loop.standing t = some (.giving s d, none)) (a : Arrival) :
    Proceeds s t w (w.runGiving t s d a) := by
  have hsoft := (w.quiet_offer s d).loop
  cases a with
  | cancelled woken =>
      refine .quits [] ((w.drains_leaveRoom t s woken).quits (quits_finish _))
        fun d' ending hd => .inl ?_
      cases (standing_finish (w.quiet_leaveRoom t s woken).loop ht .cancelled).symm.trans hd
      rfl
  | on =>
      unfold runGiving
      dsimp only
      cases hwaited : d.waited with
      | false =>
          obtain ⟨v, hv, hrefused⟩ := offer_unwaited hclosed hwaited
          rw [hv] at hsoft ⊢
          refine .quits [] (hrefused.quits (quits_finish _)) fun d' ending hd => .inr ?_
          cases (standing_finish hsoft ht (.failed .sinkClosed)).symm.trans hd
          refine ⟨rfl, ?_⟩
          rintro e' ⟨q, d', hq, hd', hwaited', -⟩
          cases ht.symm.trans hq
          cases (if_pos rfl).symm.trans hd'
          rw [hwaited] at hwaited'
          cases hwaited'
      | true =>
          obtain ⟨v, ⟨hv, hputs⟩ | ⟨hv, hputs⟩⟩ := offer_admitted hs (d := d) (by simp [hwaited])
          · rw [hv] at hsoft ⊢
            refine hputs.enters (quits_report _) ⟨_, _, ht, if_pos rfl, hwaited, rfl⟩
              fun d' ending hd => ?_
            cases (standing_finish hsoft ht (.returned .nothing)).symm.trans hd
            rfl
          · rw [hv]
            dsimp only
            rw [← hwaited]
            exact hputs.waits hv ht

/-- A task at a closed sink goes on. -/
theorem proceeds_runPoint (hs : s < w.sinks.length) (hclosed : (w.sink s).closed = true)
    (ht : w.loop.standing t = some (p, none)) (hp : p.sink? = some s) (a : Arrival)
    (hroutine : ∀ q ending, (w.runPoint t p a).loop.standing t = some (q, ending) →
      q.routine = p.routine) : Proceeds s t w (w.runPoint t p a) := by
  have hput : (∀ e, p.routine ≠ .giving s e) → ∀ d ending,
      (w.runPoint t p a).loop.standing t ≠ some (.giving s d, some ending) :=
    fun hne d ending hd => hne d.event (hroutine _ _ hd).symm
  cases p with
  | giving r d =>
      cases hp
      exact proceeds_runGiving hs hclosed d ht a
  | planning op plan =>
      have hput := hput fun _ h => by cases h
      cases a with
      | on => exact (quits_carryOut op hp hclosed plan).proceeds hput
      | cancelled _ => exact Quits.proceeds (quits_finish _) hput
  | syncing op i next =>
      exact (quits_runSyncing op hp hclosed i next a).proceeds (hput fun _ h => by cases h)
  | reporting call targets pods d =>
      have hput := hput fun _ h => by cases h
      cases hp
      obtain ⟨e, waited⟩ := d
      cases waited with
      | true => exact proceeds_runReporting call hs hclosed targets pods a ht hput
      | false => exact (quits_runReporting call hclosed targets pods a).proceeds hput
  | supervising call tasks pending =>
      exact (quits_runSupervising call tasks pending a).proceeds (hput fun _ h => by cases h)
  | clearing call cancelled =>
      exact (quits_runClearing call cancelled a).proceeds (hput fun _ h => by cases h)
  | stream st q =>
      have hput := hput fun _ h => by cases h
      cases hp
      cases a with
      | cancelled woken => exact (quits_quitStream st woken q).proceeds hput
      | on =>
          cases q with
          | opening =>
              have hlog : Drains st.sink [] w _ := .of_mild (w.mild_openLog t st)
              exact (hlog.quits (quits_readLog st (hlog.closed hclosed))).proceeds hput
          | reading => exact (quits_readLog st hclosed).proceeds hput
          | delivering d last =>
              obtain ⟨e, waited⟩ := d
              cases waited with
              | true => exact proceeds_deliver st hs last ht hput
              | false => exact (quits_deliver st hclosed rfl last).proceeds hput
  | taking r =>
      cases hp
      obtain ⟨gone, h, -⟩ := quits_runTaking ht a
      exact h.proceeds (hput fun _ h => by cases h)
  | awaitingClose r =>
      cases hp
      exact (quits_runAwaitingClose a).proceeds (hput fun _ h => by cases h)
  | getting r collected race =>
      cases hp
      obtain ⟨gone, h, -⟩ := quits_runGetting collected race ht a
      exact h.proceeds (hput fun _ h => by cases h)
  | _ => cases hp

end World

end LiveCluster.Simulation
