import LiveCluster.Proofs.Access.Exchange
import LiveCluster.Proofs.Simulation.Leaving
import LiveCluster.Proofs.Tail.Opening
import LiveCluster.Proofs.Tail.Phases

/-!
# The stages of a call

A call for logs finds its pods, reports those that cannot be decoded, opens its streams,
waits for them, calls off what is left, and closes its sink. It may be cancelled at any of
its waits, more than once, and anybody may close its sink. `Stage` says where the call is,
whatever happens: which streams it has opened, that they are called off before the call ends,
and that the sink is closed by then.

A turn of the call leads from stage to stage. What the plan was told on the way is given as
the stances to which it may have come.
-/

namespace LiveCluster.Simulation

open Loop (Gentle Spares TaskBides TaskEases)

/-- The streams of a tail whose pods are known. -/
def TailCall.streams (call : TailCall) : List Stream :=
  (Tailer.allTargets call.options call.pods).map fun target => ⟨call.sink, target, call.options⟩

namespace World

variable {w w' x : World} {s : SinkId} {t v : TaskId} {told : Stance Next → Prop}
  {opened streams : List (TaskId × Stream)} {shut : Prop} {call : TailCall} {e : Ending Report}
  {op : Operation}

/-- A plan has led to the pods of a tail. -/
def Finds (told : Stance Next → Prop) (call : TailCall) : Prop :=
  told (.ready (.done (.ok (.tail ⟨call.pods, call.options⟩))))

/-- How a call ends that does not come to its pods. -/
inductive Misses (told : Stance Next → Prop) : Ending Report → Prop
  | cancelled : told .cancelled → Misses told .cancelled
  | failed {fault : Fault} : told (.ready (.done (.error fault))) → Misses told (.failed fault)
  | returned {r : Report} : told (.ready (.done (.ok (.report r)))) → Misses told (.returned r)

/-- Where a call is that tails into a sink, and which streams it has opened. `shut` says whether
its sink was closed at one of its turns. -/
inductive Stage (op : Operation) (s : SinkId) (t : TaskId) (told : Stance Next → Prop)
    (opened : List (TaskId × Stream)) (shut : Prop) (w : World) : Prop
  | finding {a : Task Point Report} {i : InformerId} {rid : ResourceId} {ns : String}
      {timeout : Option Float} {next : Except Fault Bool → Plan Next}
      (task : w.loop.task? t = some a) (going : a.ending = none)
      (point : a.point = .syncing op i next) (sink : op.sink = some s)
      (told : told (.ready (.sync rid ns timeout next))) (none : opened = [])
  | lost {e : Ending Report} (ending : w.loop.ending? t = some e)
      (closed : (w.sink s).closed = true) (misses : Misses told e) (none : opened = [])
  | reporting {a : Task Point Report} {call : TailCall} {targets : List TailTarget}
      {pods : List Snapshot} {d : Delivery} {out : List LogEvent}
      (task : w.loop.task? t = some a) (going : a.ending = none)
      (point : a.point = .reporting call targets pods d) (sink : call.sink = s)
      (finds : Finds told call) (reports : Reports call targets pods d out) (none : opened = [])
  | supervising {a : Task Point Report} {call : TailCall} {tasks : TailTasks}
      {pending : List TaskId} (task : w.loop.task? t = some a) (going : a.ending = none)
      (point : a.point = .supervising call tasks pending) (sink : call.sink = s)
      (finds : Finds told call) (ids : tasks.streams = opened.map (·.1))
      (streams : opened.map (·.2) = call.streams) (closer : w.AwaitsClose tasks.closer s)
  | clearing {a : Task Point Report} {call : TailCall} {cancelled : Bool} {members : List TaskId}
      {n : Nat} {off : Bool} (task : w.loop.task? t = some a) (going : a.ending = none)
      (point : a.point = .clearing call cancelled) (sink : call.sink = s)
      (finds : Finds told call) (wait : a.wait = .group members n off)
      (leaving : ∀ v ∈ members, w.Over v) (ids : ∀ v ∈ opened.map (·.1), v ∈ members)
      (streams : opened.map (·.2) = call.streams)
  | quit {e : Ending Report} {call : TailCall} (ending : w.loop.ending? t = some e)
      (closed : (w.sink s).closed = true) (finds : Finds told call) (none : opened = [])
      (how : e = .cancelled ∨ e = .returned .nothing ∧ shut)
  | done {e : Ending Report} {call : TailCall} (ending : w.loop.ending? t = some e)
      (closed : (w.sink s).closed = true) (sink : call.sink = s) (finds : Finds told call)
      (how : e = .cancelled ∨ e = .returned .nothing)
      (leaving : ∀ v ∈ opened.map (·.1), w.Over v) (streams : opened.map (·.2) = call.streams)

/-! ## On the way -/

/-- A task goes on that works at a sink and is no helper. -/
def Acting (w : World) (t : TaskId) (s : SinkId) : Prop :=
  ∃ a, w.loop.task? t = some a ∧ a.ending = none ∧ a.point.sink? = some s ∧
    a.point.isHelper = false

theorem Acting.bides (h : w.Acting t s) (hbides : ∀ a, w.loop.task? t = some a →
    ∃ b, x.loop.task? t = some b ∧ TaskBides a b) : x.Acting t s := by
  obtain ⟨a, ha, hgoing, hsink, hhelper⟩ := h
  obtain ⟨b, hb, hab⟩ := hbides a ha
  exact ⟨b, hb, hab.ending.trans hgoing, hab.point ▸ hsink, hab.point ▸ hhelper⟩

/-- The task of a call is on its way. -/
structure OnWay (s : SinkId) (t : TaskId) (w : World) : Prop where
  tidy : w.Tidy
  bound : s < w.sinks.length
  going : w.Acting t s

theorem OnWay.seat (h : OnWay s t w) : w.Seat t (some s) false := by
  obtain ⟨a, ha, -, hsink, hhelper⟩ := h.going
  exact ⟨a, ha, hsink, hhelper⟩

/-- Whoever is a helper is another task. -/
theorem OnWay.ne_of_seat {f : Option SinkId} (h : OnWay s t w) (hv : w.Seat v f true) :
    v ≠ t := by
  rintro rfl
  obtain ⟨a, ha, -, hhelper⟩ := hv
  obtain ⟨b, hb, -, hfalse⟩ := h.seat
  cases ha.symm.trans hb
  rw [hhelper] at hfalse
  cases hfalse

theorem OnWay.mild (h : OnWay s t w) (hw : Mild (some s) w x) : OnWay s t x where
  tidy := hw.tidy h.tidy
  bound := hw.sinks ▸ h.bound
  going := h.going.bides fun a ha => by
    obtain ⟨b, hb, hab⟩ := hw.eases t a ha
    exact ⟨b, hb, hab.bides⟩

/-- A turn of a call opens streams, and ends at a stage. -/
def Reaches (op : Operation) (s : SinkId) (t : TaskId) (told : Stance Next → Prop)
    (opened : List (TaskId × Stream)) (shut : Prop) (w w' : World) : Prop :=
  ∃ streams, Opens streams w w' ∧ Stage op s t told (opened ++ streams) shut w'

theorem Reaches.of_opens (h : Reaches op s t told opened shut x w') (hw : Opens [] w x) :
    Reaches op s t told opened shut w w' := by
  obtain ⟨streams, hopens, hstage⟩ := h
  exact ⟨streams, hw.none_then hopens, hstage⟩

theorem Reaches.of_stage (h : Stage op s t told opened shut w') (hw : Opens [] w w') :
    Reaches op s t told opened shut w w' :=
  ⟨[], hw, (List.append_nil opened).symm ▸ h⟩

/-- An offer to a sink is no stream, and leaves the sink as open as it is. -/
theorem offer_spec (hs : s < w.sinks.length) (d : Delivery) :
    Mild (some s) w (w.offer s d).1 ∧ Opens [] w (w.offer s d).1 ∧
      ((w.offer s d).1.sink s).closed = (w.sink s).closed := by
  have hgentle : Gentle w.loop (w.offer s d).1.loop := by
    show Gentle w.loop ((w.sink s).offer w.loop d.event d.waited).2.2
    unfold Sink.offer
    split
    · exact .refl _ _
    · split
      · exact .refl _ _
      · exact Channel.gentle_give _ w.loop d.event
  refine ⟨w.mild_offer d, .of_gentle hgentle, ?_⟩
  show ((w.setSink s ((w.sink s).offer w.loop d.event d.waited).2.1).sink s).closed = _
  rw [sink_setSink hs, Sink.offer_closed]

/-- Only a closed sink refuses. -/
theorem closed_of_refused {d : Delivery} (h : w.offer s d = (x, .refused)) :
    (w.sink s).closed = true := by
  have hrefused : ((w.sink s).offer w.loop d.event d.waited).1 = .refused :=
    congrArg Prod.snd h
  exact (Sink.offer_refused_iff.1 hrefused).1

theorem opens_finish (w : World) (t : TaskId) (e : Ending Report) : Opens [] w (w.finish t e) := by
  refine .of_spares (w.loop.spares_finish t e) fun a b ha hb => ?_
  cases hb.symm.trans (Loop.task?_finish ha)
  rfl

/-- A task that takes care of no stream comes to wait at a point. -/
theorem Acting.opens_goes {p : Point} {wait : Wait} (h : w.Acting t s)
    (hw : Loop.Goes t p wait w.loop w'.loop) (hp : p.isHelper = false) : Opens [] w w' := by
  refine .of_spares hw.toSpares fun a b ha hb => ?_
  obtain ⟨a', ha', -, -, hhelper⟩ := h
  cases ha.symm.trans ha'
  obtain ⟨b', hb', rfl, -⟩ := hw.own a ha
  cases hb.symm.trans hb'
  rw [stream?_of_helper hp, stream?_of_helper hhelper]

theorem Acting.goes {p : Point} {wait : Wait} {l : Loop Point Report} (h : w.Acting t s)
    (hw : Loop.Goes t p wait w.loop l) :
    ∃ a, l.task? t = some a ∧ a.ending = none ∧ a.point = p ∧ wait.Eases a.wait := by
  obtain ⟨a, ha, hgoing, -⟩ := h
  obtain ⟨b, hb, hpoint, hending, -, -, hwait⟩ := hw.own a ha
  exact ⟨b, hb, hending.trans hgoing, hpoint, hwait⟩

theorem task?_finish_of_ne (w : World) (e : Ending Report) (hv : v ≠ t) :
    (w.finish t e).loop.task? v = w.loop.task? v := by
  show (w.loop.finish t e).task? v = _
  unfold Loop.finish
  split
  · rfl
  · exact (Loop.task?_modify _ t v _).trans (if_neg (Ne.symm hv))

/-! ## The end of a tail -/

theorem endTail_spec (hw : OnWay call.sink t w) (e : Ending Report) :
    Opens [] w (w.endTail t call e) ∧ (w.endTail t call e).loop.ending? t = some e ∧
      ((w.endTail t call e).sink call.sink).closed = true ∧
      ∀ v, v ≠ t → w.Over v → (w.endTail t call e).Over v := by
  obtain ⟨hgentle, -, -, hclosed⟩ := closeSink_spec hw.bound
  have hclose : Mild (some call.sink) w (w.closeSink call.sink) := w.mild_closeSink
  obtain ⟨a, ha, -⟩ := hw.going
  obtain ⟨b, hb, -⟩ := hclose.eases t a ha
  refine ⟨.none_then (.of_gentle hgentle) (opens_finish _ t e),
    Option.bind_eq_some_iff.2 ⟨_, Loop.task?_finish hb, rfl⟩, hclosed, fun v hv hover => ?_⟩
  have hlater : (w.closeSink call.sink).Over v := hover.bides fun a ha => by
    obtain ⟨b, hb, hab⟩ := hclose.eases v a ha
    exact ⟨b, hb, hab.bides⟩
  exact hlater.of_eq (task?_finish_of_ne _ e hv)

/-- A call ends before it has opened any streams. -/
theorem reaches_quit (hw : OnWay call.sink t w) (hfinds : Finds told call)
    (how : e = .cancelled ∨ e = .returned .nothing ∧ shut) :
    Reaches op call.sink t told [] shut w (w.endTail t call e) := by
  obtain ⟨hopens, hending, hclosed, -⟩ := endTail_spec hw e
  exact .of_stage (.quit hending hclosed hfinds rfl how) hopens

/-- A call ends whose streams are over. -/
theorem reaches_done (hw : OnWay call.sink t w) (hfinds : Finds told call)
    (how : e = .cancelled ∨ e = .returned .nothing)
    (hover : ∀ v ∈ opened.map (·.1), v ≠ t ∧ w.Over v)
    (hstreams : opened.map (·.2) = call.streams) :
    Reaches op call.sink t told opened shut w (w.endTail t call e) := by
  obtain ⟨hopens, hending, hclosed, hlater⟩ := endTail_spec hw e
  exact .of_stage (.done hending hclosed rfl hfinds how
    (fun v hv => hlater v (hover v hv).1 (hover v hv).2) hstreams) hopens

theorem reaches_cleared (hw : OnWay call.sink t w) (hfinds : Finds told call) (cancelled : Bool)
    (hover : ∀ v ∈ opened.map (·.1), v ≠ t ∧ w.Over v)
    (hstreams : opened.map (·.2) = call.streams) :
    Reaches op call.sink t told opened shut w (w.cleared t call cancelled) := by
  have hclose : Mild (some call.sink) w (w.closeSink call.sink) := w.mild_closeSink
  have htell : Mild none (w.closeSink call.sink) _ := mild_tell _ (.debug Tailer.component
    "log_tail_stopped" [("path", .text call.options.path)])
  have hboth := hclose.trans htell.of_none
  refine (reaches_done (hw.mild hboth) hfinds ?_
    (fun v hv => (hover v hv).imp_right (·.mild hboth)) hstreams).of_opens
      (.none_then (.of_gentle (closeSink_spec hw.bound).1) (.of_mild htell))
  cases cancelled with
  | true => exact .inl rfl
  | false => exact .inr rfl

/-- The streams of a tail are called off, and waited for. -/
theorem reaches_clear (hw : OnWay call.sink t w) (hfinds : Finds told call) {tasks : TailTasks}
    (cancelled : Bool) (hids : tasks.streams = opened.map (·.1))
    (hstreams : opened.map (·.2) = call.streams)
    (hseats : ∀ v ∈ tasks.streams ++ [tasks.closer], w.Seat v (some call.sink) true) :
    Reaches op call.sink t told opened shut w (w.clear t call tasks cancelled) := by
  let members := tasks.streams ++ [tasks.closer]
  let x := w.withLoop fun l => members.foldl Loop.cancel l
  have hworks : Works t (some call.sink) (· ∈ members) w x :=
    .cancelAll fun v hv => ⟨hseats v hv, hv⟩
  have hbides : ∀ v a, w.loop.task? v = some a → ∃ b, x.loop.task? v = some b ∧ TaskBides a b :=
    fun v a ha => (w.loop.keeps_cancelAll members).bides ha
  have hx : OnWay call.sink t x :=
    ⟨hworks.tidy hw.tidy, hw.bound, hw.going.bides (hbides t)⟩
  have hspares : Spares (fun _ => True) w.loop x.loop := Loop.spares_foldl _ members
    fun l v _ => (l.spares_cancel v).mono fun _ _ => trivial
  have hopens : Opens [] w x := .of_bides hspares.length hbides
  have hover : ∀ v ∈ members, v ≠ t ∧ x.Over v := fun v hv =>
    ⟨hw.ne_of_seat (hseats v hv), over_cancelAll hw.tidy hseats hv⟩
  have hmembers : ∀ v ∈ opened.map (·.1), v ∈ members := fun v hv =>
    List.mem_append_left _ (hids ▸ hv)
  refine Reaches.of_opens ?_ hopens
  show Reaches op call.sink t told opened shut x (if members.all x.loop.ended then
    x.cleared t call cancelled else x.withLoop (·.awaitGroup t (.clearing call cancelled) members))
  split
  · exact reaches_cleared hx hfinds cancelled (fun v hv => hover v (hmembers v hv)) hstreams
  · have hgoes := x.loop.goes_awaitGroup t (.clearing call cancelled) members
    obtain ⟨a, ha, hgoing, hpoint, hwait⟩ := hx.going.goes hgoes
    obtain ⟨n, hgroup⟩ : ∃ n, a.wait = .group members n false := by
      generalize a.wait = wait at hwait ⊢
      cases hwait with
      | same => exact ⟨_, rfl⟩
      | ticked _ _ n => exact ⟨n, rfl⟩
    refine .of_stage (.clearing ha hgoing hpoint rfl hfinds hgroup (fun v hv => ?_) hmembers
      hstreams) (hx.going.opens_goes hgoes rfl)
    exact (hover v hv).2.bides fun b hb => by
      obtain ⟨c, hc, hbc⟩ := hgoes.eases v b (hover v hv).1 hb
      exact ⟨c, hc, hbc.bides⟩

/-- A call waits for room to report a pod. -/
theorem reaches_awaitRoom (hw : OnWay call.sink t w) (hfinds : Finds told call)
    {targets : List TailTarget} {pods : List Snapshot} {d : Delivery} {out : List LogEvent}
    (hreports : Reports call targets pods d out) :
    Reaches op call.sink t told [] shut w
      (w.awaitRoom t call.sink (.reporting call targets pods d)) := by
  have hgoes := w.loop.goes_suspend t (.reporting call targets pods d) .signal
  obtain ⟨a, ha, hgoing, hpoint, -⟩ := hw.going.goes hgoes
  exact .of_stage (.reporting ha hgoing hpoint rfl hfinds hreports rfl)
    (hw.going.opens_goes hgoes rfl)

/-! ## Waiting for the streams -/

theorem reaches_supervise (hw : OnWay call.sink t w) (hfinds : Finds told call) {tasks : TailTasks}
    (pending : List TaskId) (hids : tasks.streams = opened.map (·.1))
    (hstreams : opened.map (·.2) = call.streams)
    (hseats : ∀ v ∈ tasks.streams ++ [tasks.closer], w.Seat v (some call.sink) true)
    (hcloser : w.AwaitsClose tasks.closer call.sink) :
    Reaches op call.sink t told opened shut w (w.supervise t call tasks pending) := by
  unfold supervise
  split
  · exact reaches_clear hw hfinds false hids hstreams hseats
  · have hgoes := w.loop.goes_awaitAny t (.supervising call tasks pending)
      (pending ++ [tasks.closer])
    obtain ⟨a, ha, hgoing, hpoint, -⟩ := hw.going.goes hgoes
    have hne : tasks.closer ≠ t :=
      hw.ne_of_seat (hseats _ (List.mem_append_right _ List.mem_cons_self))
    refine .of_stage (.supervising ha hgoing hpoint rfl hfinds hids hstreams ?_)
      (hw.going.opens_goes hgoes rfl)
    exact hcloser.bides fun b hb => by
      obtain ⟨c, hc, hbc⟩ := hgoes.eases _ b hne hb
      exact ⟨c, hc, hbc.bides⟩

theorem reaches_runSupervising (hw : OnWay call.sink t w) (hfinds : Finds told call)
    {tasks : TailTasks} (pending : List TaskId) (arrival : Arrival)
    (hids : tasks.streams = opened.map (·.1)) (hstreams : opened.map (·.2) = call.streams)
    (hseats : ∀ v ∈ tasks.streams ++ [tasks.closer], w.Seat v (some call.sink) true)
    (hcloser : w.AwaitsClose tasks.closer call.sink) :
    Reaches op call.sink t told opened shut w
      (w.runSupervising t call tasks pending arrival) := by
  have hunwatch : Mild none w (w.withLoop (·.unwatch t (pending ++ [tasks.closer]))) :=
    w.mild_withLoop (w.loop.gentle_unwatch t _)
  have hafter : ∀ x, Mild none w x → OnWay call.sink t x ∧
      ∀ v ∈ tasks.streams ++ [tasks.closer], x.Seat v (some call.sink) true :=
    fun x hx => ⟨hw.mild hx.of_none, fun v hv => hx.seats _ _ _ (hseats v hv)⟩
  unfold runSupervising
  cases arrival with
  | cancelled woken =>
      obtain ⟨hx, hseats'⟩ := hafter _ hunwatch
      exact (reaches_clear hx hfinds true hids hstreams hseats').of_opens (.of_mild hunwatch)
  | on =>
      dsimp only
      split
      · have htold := hunwatch.trans (mild_tell _ (.debug Tailer.component
          "log_sink_closed_by_consumer" [("path", .text call.options.path)]))
        obtain ⟨hx, hseats'⟩ := hafter _ htold
        exact (reaches_clear hx hfinds false hids hstreams hseats').of_opens (.of_mild htold)
      · obtain ⟨hx, hseats'⟩ := hafter _ hunwatch
        exact (reaches_supervise hx hfinds _ hids hstreams hseats'
          (hcloser.mild hunwatch)).of_opens (.of_mild hunwatch)

/-! ## Opening the streams -/

/-- Before a tail waits for them, its streams are there and the task that waits for its sink to be
closed. -/
theorem opens_openStreams (w : World) (t : TaskId) (call : TailCall) (targets : List TailTarget) :
    ∃ streams closer x,
      w.openStreams t call targets =
        x.supervise t call ⟨streams.map (·.1), closer⟩ (streams.map (·.1)) ∧
      Opens streams w x ∧ Mild (some call.sink) w x ∧
      streams.map (·.2) = targets.map (fun target => ⟨call.sink, target, call.options⟩) ∧
      (∀ v ∈ streams.map (·.1) ++ [closer], x.Seat v (some call.sink) true) ∧
      x.AwaitsClose closer call.sink := by
  let y := (w.spawnStreams call targets).1
  let z := (y.spawn (.awaitingClose call.sink)).1
  let note : Note := .debug Tailer.component "log_tail_started"
    [("path", .text call.options.path), ("pods", .int call.pods.length),
      ("streams", .int (w.spawnStreams call targets).2.length)]
  obtain ⟨streams, hopens, hids, hstreams⟩ := w.opens_spawnStreams call targets
  have hmild : Mild (some call.sink) w y := w.mild_spawnStreams call targets
  have hcloser : Mild (some call.sink) y z := .spawn _ (.inr rfl) rfl
  have hclosing : Opens [] y z := .spawn y (.awaitingClose call.sink)
  have htell : Mild none z (z.tell note) := mild_tell _ note
  have hawaits : z.AwaitsClose y.loop.tasks.length call.sink :=
    ⟨_, (y.loop.task?_spawn _ _).trans (if_pos rfl), fun _ => rfl⟩
  refine ⟨streams, y.loop.tasks.length, z.tell note, ?_,
    (hopens.then_none hclosing).then_none (.of_mild htell),
    (hmild.trans hcloser).trans htell.of_none, hstreams, fun v hv => ?_, hawaits.mild htell⟩
  · rw [← hids]
    rfl
  · refine htell.seats _ _ _ ?_
    rcases List.mem_append.1 hv with hv | hv
    · exact hcloser.seats _ _ _ (w.seat_spawnStreams call (hids ▸ hv))
    · rw [List.mem_singleton.1 hv]
      exact y.seat_spawn (.awaitingClose call.sink)

theorem reaches_openStreams (hw : OnWay call.sink t w) (hfinds : Finds told call) :
    Reaches op call.sink t told [] shut w
      (w.openStreams t call (Tailer.allTargets call.options call.pods)) := by
  obtain ⟨streams, closer, x, heq, hopens, hmild, hstreams, hseats, hcloser⟩ :=
    w.opens_openStreams t call (Tailer.allTargets call.options call.pods)
  have hsupervise : Reaches op call.sink t told streams shut x
      (x.supervise t call ⟨streams.map (·.1), closer⟩ (streams.map (·.1))) :=
    reaches_supervise (hw.mild hmild) hfinds (streams.map (·.1)) rfl hstreams hseats hcloser
  obtain ⟨more, hopens', hstage⟩ := hsupervise
  rw [heq]
  exact ⟨streams ++ more, hopens.trans hopens', hstage⟩

/-- The remaining pods are gone through; only a closed sink cuts that short. -/
theorem reaches_target (hw : OnWay call.sink t w) (hfinds : Finds told call)
    (hshut : (w.sink call.sink).closed = true → shut) (pods : List Snapshot) :
    ∀ before, call.pods = before ++ pods → Reaches op call.sink t told [] shut w
      (w.target t call (Tailer.allTargets call.options before) pods) := by
  induction pods generalizing w with
  | nil =>
      intro before hpods
      rw [List.append_nil] at hpods
      rw [← hpods]
      exact reaches_openStreams hw hfinds
  | cons pod rest ih =>
      intro before hpods
      have hnext : call.pods = (before ++ [pod]) ++ rest := by rw [hpods, List.append_assoc]; rfl
      unfold target
      split
      · next more hmore =>
          have hrest := ih hw hshut (before ++ [pod]) hnext
          rwa [Tailer.allTargets_append, Tailer.allTargets_ok hmore] at hrest
      · next fault hfault =>
          have htell : Mild none w _ := w.mild_tellAll (Tailer.streamError pod "" fault)
          have hw' := hw.mild htell.of_none
          obtain ⟨hoffer, hopens, hclosed⟩ :=
            offer_spec hw'.bound { event := .failure pod.name "" fault }
          have hsame := hclosed.trans (congrArg (·.closed) (htell.sink call.sink (by simp)))
          have hboth := hw'.mild hoffer
          have hopens' := (Opens.of_mild htell).none_then hopens
          dsimp only
          split
          · next v h =>
              rw [h] at hboth hopens' hsame
              have hrest := ih hboth (fun h => hshut (hsame.symm.trans h)) (before ++ [pod]) hnext
              rw [Tailer.allTargets_append, Tailer.allTargets_error hfault,
                List.append_nil] at hrest
              exact hrest.of_opens hopens'
          · next v h =>
              have hrefused := closed_of_refused h
              rw [h] at hboth hopens'
              rw [htell.sink call.sink (by simp)] at hrefused
              exact (reaches_quit hboth hfinds (.inr ⟨rfl, hshut hrefused⟩)).of_opens hopens'
          · next v h =>
              rw [h] at hboth hopens'
              exact (reaches_awaitRoom hboth hfinds
                ⟨before, pod, fault, hpods, hfault, rfl, rfl, rfl⟩).of_opens hopens'

theorem reaches_runReporting (hw : OnWay call.sink t w) (hfinds : Finds told call)
    (hshut : (w.sink call.sink).closed = true → shut) {targets : List TailTarget}
    {pods : List Snapshot} {d : Delivery} {out : List LogEvent}
    (hreports : Reports call targets pods d out) (arrival : Arrival) :
    Reaches op call.sink t told [] shut w (w.runReporting t call targets pods d arrival) := by
  unfold runReporting
  cases arrival with
  | cancelled woken =>
      have hleave : Mild (some call.sink) w _ := w.mild_leaveRoom t woken
      exact (reaches_quit (hw.mild hleave) hfinds (.inl rfl)).of_opens
        (.of_gentle (Channel.gentle_leaveGivers _ w.loop t woken))
  | on =>
      obtain ⟨hoffer, hopens, hclosed⟩ := offer_spec hw.bound d
      have hw' := hw.mild hoffer
      dsimp only
      split
      · next v h =>
          rw [h] at hw' hopens hclosed
          obtain ⟨before, pod, fault, hpods, hfault, rfl, -, -⟩ := hreports
          have hrest : Reaches op call.sink t told [] shut v _ :=
            reaches_target hw' hfinds (fun h => hshut (hclosed.symm.trans h)) pods
              (before ++ [pod]) (by rw [hpods, List.append_assoc]; rfl)
          rw [Tailer.allTargets_append, Tailer.allTargets_error hfault, List.append_nil] at hrest
          exact hrest.of_opens hopens
      · next v h =>
          have hrefused := closed_of_refused h
          rw [h] at hw' hopens
          exact (reaches_quit hw' hfinds (.inr ⟨rfl, hshut hrefused⟩)).of_opens hopens
      · next v h =>
          rw [h] at hw' hopens
          exact (reaches_awaitRoom hw' hfinds hreports).of_opens hopens

/-! ## The end -/

theorem reaches_runClearing (hw : OnWay call.sink t w) (hfinds : Finds told call)
    (cancelled : Bool) (arrival : Arrival) (hover : ∀ v ∈ opened.map (·.1), v ≠ t ∧ w.Over v)
    (hstreams : opened.map (·.2) = call.streams) :
    Reaches op call.sink t told opened shut w (w.runClearing t call cancelled arrival) := by
  cases arrival with
  | on => exact reaches_cleared hw hfinds cancelled hover hstreams
  | cancelled woken => exact reaches_done hw hfinds (.inl rfl) hover hstreams

end World

end LiveCluster.Simulation
