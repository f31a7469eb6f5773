import LiveCluster.Proofs.Tail.Ledger

/-!
# The phases of a tail

A tail finds its pods, reports those that cannot be decoded, opens its streams, waits until
all of them have ended, and closes the sink. `Phase` says how far it is when nobody has
cancelled it and nobody else closes the sink, and what has come `out`: everything that was
ever put into the sink.
-/

namespace LiveCluster.Simulation

open Loop (StandsAt EndedAt TaskEases TaskStays Gentle)

/-- Whether a task at a point is about to find the pods whose logs go to a sink. -/
def Point.finds (s : SinkId) : Point → Prop
  | .planning op _ | .syncing op _ _ => op.sink = some s
  | _ => False

/-- Whether a task at a point helps a tail or consumes what it delivers. -/
def Point.serves : Point → Bool
  | .stream .. | .awaitingClose _ | .taking _ | .getting .. => true
  | _ => false

namespace World

variable {w w' x : World} {s : SinkId} {t u v : TaskId} {race : Option Race}
  {out given : List LogEvent} {reads : List (TaskId × LogItem)}
  {pairs : List (TaskId × TailTarget)} {call : TailCall} {p : Point}

/-- A pod that cannot be decoded is being reported, and the pods before it are done with. -/
def Reports (call : TailCall) (targets : List TailTarget) (pods : List Snapshot) (d : Delivery)
    (out : List LogEvent) : Prop :=
  ∃ before pod fault, call.pods = before ++ pod :: pods ∧
    Tailer.targets pod call.options = .error fault ∧
    targets = Tailer.allTargets call.options before ∧ d.event = .failure pod.name "" fault ∧
    out = Tailer.failures call.options before

/-- How far a tail is, and what has come out. -/
inductive Phase (s : SinkId) (t : TaskId) (race : Option Race) (out : List LogEvent)
    (reads : List (TaskId × LogItem)) (w : World) : Prop
  | finding {a : Task Point Report} (task : w.loop.task? t = some a) (going : a.ending = none)
      (plain : a.wait.isPlain = true) (point : a.point.finds s)
      (open_ : (w.sink s).closed = false) (nothing : out = []) (unread : reads = [])
      (none : NoStreams s w)
  | lost {p : Point} {e : Ending Report} (task : w.loop.EndedAt t p e) (point : p.finds s)
      (nothing : out = []) (unread : reads = []) (none : NoStreams s w)
  | reporting {call : TailCall} {targets : List TailTarget} {pods : List Snapshot}
      {d : Delivery} (task : w.loop.StandsAt t (.reporting call targets pods d))
      (sink : call.sink = s) (open_ : (w.sink s).closed = false)
      (reports : Reports call targets pods d out) (unread : reads = []) (none : NoStreams s w)
  | supervising {call : TailCall} {tasks : TailTasks} {pending : List TaskId}
      {pairs : List (TaskId × TailTarget)}
      (task : w.loop.StandsAt t (.supervising call tasks pending)) (sink : call.sink = s)
      (open_ : (w.sink s).closed = false) (streams : tasks.streams = pairs.map (·.1))
      (pending : ∀ v ∈ tasks.streams, v ∉ pending → w.loop.ended v = true)
      (closer : w.loop.StandsAt tasks.closer (.awaitingClose s))
      (apart : ∀ r, race = some r → r.closer ≠ tasks.closer)
      (ledger : Ledger s call pairs out reads w)
  | clearing {call : TailCall} {pairs : List (TaskId × TailTarget)}
      (task : w.loop.StandsAt t (.clearing call false)) (sink : call.sink = s)
      (open_ : (w.sink s).closed = false) (ledger : Ledger s call pairs out reads w)
      (ended : ∀ v ∈ pairs.map (·.1), w.loop.ended v = true)
  | done {call : TailCall} {pairs : List (TaskId × TailTarget)}
      (task : w.loop.EndedAt t (.clearing call false) (.returned .nothing))
      (sink : call.sink = s) (closed : (w.sink s).closed = true)
      (ledger : Ledger s call pairs out reads w)
      (ended : ∀ v ∈ pairs.map (·.1), w.loop.ended v = true)

/-- A task that serves has no time limit, and after its end it waits for nobody. -/
def Attends (w : World) (v : TaskId) : Prop :=
  ∃ a, w.loop.task? v = some a ∧ a.point.serves = true ∧ a.limit = none ∧
    (a.ending.isSome = true → a.wait.isPlain = true)

theorem attends_of_rests (h : w.loop.Rests v p) (hp : p.serves = true) : w.Attends v := by
  rcases h with ⟨a, ha, rfl, hending, hsteady⟩ | ⟨e, a, ha, rfl, -, hplain, hlimit⟩
  · exact ⟨a, ha, hp, hsteady.limit, by simp [hending]⟩
  · exact ⟨a, ha, hp, hlimit, fun _ => hplain⟩

theorem Attends.stays (h : w.Attends v) (hstays : ∀ a, w.loop.task? v = some a →
    ∃ b, w'.loop.task? v = some b ∧ TaskStays a b) : w'.Attends v := by
  obtain ⟨a, ha, hserves, hlimit, hplain⟩ := h
  obtain ⟨b, hb, hab⟩ := hstays a ha
  refine ⟨b, hb, hab.point ▸ hserves, hab.limit hlimit, fun hended => hab.plain (hplain ?_)⟩
  rwa [← hab.ending]

/-- What comes of a step of a tail: something is put into the sink, then the tail is in some
phase, and whoever is new at the sink serves the tail. -/
structure TailStep (s : SinkId) (t : TaskId) (race : Option Race) (out : List LogEvent)
    (reads : List (TaskId × LogItem)) (w w' : World) : Prop where
  comes : ∃ given, (w'.sink s).channel.items = (w.sink s).channel.items ++ given ∧
    Phase s t race (out ++ given) reads w'
  made : ∀ v b, w'.loop.task? v = some b → b.point.sink? = some s →
    (∃ a, w.loop.task? v = some a ∧ a.point.sink? = some s) ∨
      w'.Attends v ∧ b.point.isConsumer = false

/-- Something is put into the sink on the way. -/
structure Leads (s : SinkId) (given : List LogEvent) (w w' : World) : Prop where
  mild : Mild (some s) w w'
  items : (w'.sink s).channel.items = (w.sink s).channel.items ++ given
  closed : (w'.sink s).closed = (w.sink s).closed
  back : ∀ v b, w'.loop.task? v = some b → b.point.sink? = some s →
    ∃ a, w.loop.task? v = some a ∧ a.point.sink? = some s ∧ TaskEases a b

theorem Leads.of_puts (h : Puts s given w w') (hmild : Mild (some s) w w') :
    Leads s given w w' where
  mild := hmild
  items := h.items
  closed := h.closed
  back v b hb hsink := by
    obtain ⟨a, ha, heases⟩ := h.loop.back (fun h => h) hb
    exact ⟨a, ha, heases.point ▸ hsink, heases⟩

theorem Leads.of_mild (h : Mild none w w') : Leads s [] w w' where
  mild := h.of_none
  items := by rw [h.sink s (by simp), List.append_nil]
  closed := by rw [h.sink s (by simp)]
  back v b hb hsink := by
    by_cases hlt : v < w.loop.tasks.length
    · obtain ⟨a, ha, heases⟩ := h.back hlt hb
      exact ⟨a, ha, heases.point ▸ hsink, heases⟩
    · rcases (h.made v b (Nat.le_of_not_lt hlt) hb).1 with hnone | hnone <;>
      · rw [hnone] at hsink
        cases hsink

theorem Leads.standsAt (h : Leads s given w w') (hv : w.loop.StandsAt v p) :
    w'.loop.StandsAt v p :=
  hv.of_eases fun a => h.mild.eases v a

theorem Leads.noStreams (h : Leads s given w w') (hnone : NoStreams s w) : NoStreams s w' := by
  intro v b st q hb hpoint hst
  obtain ⟨a, ha, -, heases⟩ := h.back v b hb (by rw [hpoint]; exact congrArg some hst)
  exact hnone v a st q ha (heases.point.symm.trans hpoint) hst

/-- What is done to tasks that are no streams afterwards makes none. -/
theorem NoStreams.spares {hit : TaskId → Prop} (h : NoStreams s w)
    (hloop : Loop.Spares hit w.loop w'.loop)
    (hnew : ∀ v b st q, hit v → w'.loop.task? v = some b → b.point ≠ .stream st q) :
    NoStreams s w' := by
  intro v b st q hb hpoint hst
  by_cases hv : hit v
  · exact hnew v b st q hv hb hpoint
  · obtain ⟨a, ha, heases⟩ := hloop.back hv hb
    exact h v a st q ha (heases.point.symm.trans hpoint) hst

theorem leads_tellAll (w : World) (notes : List Note) : Leads s [] w (w.tellAll notes) :=
  .of_puts (w.puts_tellAll notes) (w.mild_tellAll notes)

/-- An event is put into an open sink, unless the sink is full. -/
theorem leads_offer (hs : s < w.sinks.length) (hopen : (w.sink s).closed = false) (d : Delivery) :
    ∃ v, w.offer s d = (v, .accepted) ∧ Leads s [d.event] w v ∨
      w.offer s d = (v, .full) ∧ Leads s [] w v := by
  have hmild := w.mild_offer (s := s) d
  obtain ⟨v, ⟨hoffer, hputs⟩ | ⟨hoffer, hputs⟩⟩ := offer_cases hs hopen d <;> rw [hoffer] at hmild
  · exact ⟨v, .inl ⟨hoffer, .of_puts hputs hmild⟩⟩
  · exact ⟨v, .inr ⟨hoffer, .of_puts hputs hmild⟩⟩

theorem TailStep.after (h : TailStep s t race (out ++ given) reads x w')
    (hitems : (x.sink s).channel.items = (w.sink s).channel.items ++ given)
    (hback : ∀ v b, x.loop.task? v = some b → b.point.sink? = some s →
      ∃ a, w.loop.task? v = some a ∧ a.point.sink? = some s) :
    TailStep s t race out reads w w' where
  comes := by
    obtain ⟨given', hitems', hphase⟩ := h.comes
    exact ⟨given ++ given', by rw [hitems', hitems, List.append_assoc],
      by rwa [← List.append_assoc]⟩
  made v b hb hsink := (h.made v b hb hsink).imp_left fun ⟨c, hc, hsink'⟩ => hback v c hc hsink'

theorem Leads.step (h : Leads s given w x) (h' : TailStep s t race (out ++ given) reads x w') :
    TailStep s t race out reads w w' :=
  h'.after h.items fun v b hb hsink =>
    (h.back v b hb hsink).imp fun _ ha => ⟨ha.1, ha.2.1⟩

/-- A step in which no task is made. -/
theorem TailStep.of_spares {hit : TaskId → Prop} (h : Phase s t race out reads w')
    (hloop : Loop.Spares hit w.loop w'.loop)
    (hhit : ∀ v, hit v → ∃ a, w.loop.task? v = some a ∧ a.point.sink? = some s)
    (hitems : (w'.sink s).channel.items = (w.sink s).channel.items) :
    TailStep s t race out reads w w' where
  comes := ⟨[], by rw [hitems, List.append_nil], by rwa [List.append_nil]⟩
  made v b hb hsink := by
    by_cases hv : hit v
    · exact .inl (hhit v hv)
    · exact .inl ((Apart.of_spares hloop).old v b hv (hloop.lt hb) hb hsink)

theorem seat_of_standsAt {f : Option SinkId} {helper : Bool} (h : w.loop.StandsAt v p)
    (hp : p.sink? = f) (hhelper : p.isHelper = helper) : w.Seat v f helper := by
  obtain ⟨a, ha, rfl, -⟩ := h
  exact ⟨a, ha, hp, hhelper⟩

theorem sink?_of_standsAt (h : w.loop.StandsAt v p) (hp : p.sink? = some s) :
    ∃ a, w.loop.task? v = some a ∧ a.point.sink? = some s := by
  obtain ⟨a, ha, rfl, -⟩ := h
  exact ⟨a, ha, hp⟩

/-! ## Waiting for the streams -/

theorem foldl_cancel_of_ended {l : Loop Point Report} {vs : List TaskId}
    (h : ∀ v ∈ vs, ∃ q e, l.EndedAt v q e) : vs.foldl Loop.cancel l = l := by
  induction vs with
  | nil => rfl
  | cons v rest ih =>
      obtain ⟨q, e, he⟩ := h v List.mem_cons_self
      rw [List.foldl_cons, he.cancel]
      exact ih fun v hv => h v (List.mem_cons_of_mem _ hv)

theorem Ledger.endedAt (h : Ledger s call pairs out reads w) (hv : v ∈ pairs.map (·.1))
    (hended : w.loop.ended v = true) : ∃ q e, w.loop.EndedAt v q e ∧ q.sink? = some s := by
  obtain ⟨tagged, -, -, haccounts⟩ := h.delivered
  obtain ⟨⟨v, target⟩, hmem, rfl⟩ := List.mem_map.1 hv
  rcases haccounts v target hmem with ⟨q, hstands, -⟩ | ⟨q, he, -⟩
  · rw [hstands.not_ended] at hended
    cases hended
  · exact ⟨_, _, he, rfl⟩

theorem Ledger.isStream (h : Ledger s call pairs out reads w) (hv : v ∈ pairs.map (·.1)) :
    ∃ a st q, w.loop.task? v = some a ∧ a.point = .stream st q ∧ st.sink = s := by
  obtain ⟨tagged, -, -, haccounts⟩ := h.delivered
  obtain ⟨⟨v, target⟩, hmem, rfl⟩ := List.mem_map.1 hv
  rcases haccounts v target hmem with ⟨q, ⟨a, ha, hpoint, -⟩, -⟩ | ⟨q, ⟨a, ha, hpoint, -⟩, -⟩ <;>
    exact ⟨a, _, q, ha, hpoint, rfl⟩

/-- What is done to tasks that are no streams does not concern the ledger. -/
theorem Ledger.spares {hit : TaskId → Prop} {l : Loop Point Report}
    (h : Ledger s call pairs out reads w) (hloop : Loop.Spares hit w.loop l)
    (hold : ∀ v a st q, hit v → w.loop.task? v = some a → a.point ≠ .stream st q)
    (hnew : ∀ v b st q, hit v → l.task? v = some b → b.point ≠ .stream st q) :
    Ledger s call pairs out reads { w with loop := l } ∧
      ∀ v ∈ pairs.map (·.1), w.loop.ended v = true → l.ended v = true := by
  have hmiss : ∀ v ∈ pairs.map (·.1), ¬hit v := fun v hv hhit => by
    obtain ⟨a, st, q, ha, hpoint, -⟩ := h.isStream hv
    exact hold v a st q hhit ha hpoint
  refine ⟨h.frame (.of_spares hloop) (fun v hv => ⟨hmiss v hv, fun _ => hmiss v hv⟩)
    fun v b st q hb hpoint _ => ?_, fun v hv hended => ?_⟩
  · exact ⟨hloop.lt hb, fun hhit => hnew v b st q hhit hb hpoint⟩
  · obtain ⟨q, e, he, -⟩ := h.endedAt hv hended
    refine (he.of_stays fun a ha => ?_).ended
    obtain ⟨b, hb, heases⟩ := hloop.eases v a (hmiss v hv) ha
    exact ⟨b, hb, heases.stays⟩

/-- A task that is no stream goes on, or ends. -/
theorem Ledger.own {q : Point} {l : Loop Point Report} (h : Ledger s call pairs out reads w)
    (hloop : Loop.Spares (· = t) w.loop l) (ht : w.loop.StandsAt t p) (hp : p.isHelper = false)
    (ht' : l.Rests t q) (hq : q.isHelper = false) :
    Ledger s call pairs out reads { w with loop := l } ∧
      ∀ v ∈ pairs.map (·.1), w.loop.ended v = true → l.ended v = true := by
  refine h.spares hloop (fun v a st q hv ha hpoint => ?_) fun v b st q' hv hb hpoint => ?_ <;>
    subst hv
  · rw [← (ht.point_eq ha).1, hpoint] at hp
    cases hp
  · rw [← ht'.point_eq hb, hpoint] at hq
    cases hq

/-- After all streams have ended only the task that waits for the sink to be closed is left. -/
theorem tailStep_clear (htidy : w.Tidy) (ht : w.loop.StandsAt t p)
    (hp : p.sink? = some s ∧ p.isHelper = false)
    (hsink : call.sink = s) (hopen : (w.sink s).closed = false) {tasks : TailTasks}
    (hstreams : tasks.streams = pairs.map (·.1))
    (hcloser : w.loop.StandsAt tasks.closer (.awaitingClose s))
    (hledger : Ledger s call pairs out reads w)
    (hended : ∀ v ∈ pairs.map (·.1), w.loop.ended v = true) :
    TailStep s t race out reads w (w.clear t call tasks false) := by
  obtain ⟨a, ha, hpoint, hgoing, hsteady⟩ := id hcloser
  have hplain : a.wait.isPlain = true :=
    (htidy.waits _ a ha).isPlain (by rw [hpoint]; rfl) (by rw [hpoint]; simp [Point.sink?])
  have hfirst : tasks.streams.foldl Loop.cancel w.loop = w.loop :=
    foldl_cancel_of_ended fun v hv => by
      obtain ⟨q, e, he, -⟩ := hledger.endedAt (hstreams ▸ hv) (hended v (hstreams ▸ hv))
      exact ⟨q, e, he⟩
  have hcancel : (tasks.streams ++ [tasks.closer]).foldl Loop.cancel w.loop =
      w.loop.cancel tasks.closer := by
    rw [List.foldl_append, hfirst]
    rfl
  have hspares := Loop.spares_cancel_of_isPlain ha hplain
  obtain ⟨b, hb, hbpoint, hbgoing, -⟩ := Loop.task?_cancel ha hgoing hplain hsteady.limit
  have hgoes := Loop.goes_awaitGroup (w.loop.cancel tasks.closer) t (.clearing call false)
    (tasks.streams ++ [tasks.closer])
  have hne : t ≠ tasks.closer := by
    rintro rfl
    rw [ht.unique hcloser] at hp
    cases hp.2
  have hclear : w.clear t call tasks false = { w with
      loop := (w.loop.cancel tasks.closer).awaitGroup t (.clearing call false)
        (tasks.streams ++ [tasks.closer]) } := by
    unfold clear withLoop
    dsimp only
    rw [hcancel, if_neg]
    rw [List.all_append, List.all_cons, Loop.ended_of_task? hb, hbgoing]
    simp
  rw [hclear]
  have htask := (ht.spares hspares hne).goes hgoes rfl
  have hboth : Loop.Spares (fun v => v = tasks.closer ∨ v = t) w.loop
      ((w.loop.cancel tasks.closer).awaitGroup t (.clearing call false)
        (tasks.streams ++ [tasks.closer])) :=
    (hspares.mono fun _ => .inl).trans (hgoes.toSpares.mono fun _ => .inr)
  have hold : ∀ v c st q, v = tasks.closer ∨ v = t → w.loop.task? v = some c →
      c.point ≠ .stream st q := by
    rintro v c st q (rfl | rfl) hc hstream
    · rw [(hcloser.point_eq hc).1] at hstream
      cases hstream
    · rw [(ht.point_eq hc).1] at hstream
      rw [hstream] at hp
      cases hp.2
  obtain ⟨hledger', hended'⟩ := hledger.spares hboth hold fun v c st q hv hc hstream => by
    rcases hv with rfl | rfl
    · obtain ⟨c', hc', heases⟩ := hgoes.eases _ b (Ne.symm hne) hb
      cases hc.symm.trans hc'
      rw [heases.point, hbpoint, hpoint] at hstream
      cases hstream
    · rw [(htask.point_eq hc).1] at hstream
      cases hstream
  refine .of_spares (.clearing htask hsink hopen hledger' fun v hv => hended' v hv (hended v hv))
    hboth ?_ rfl
  rintro v (rfl | rfl)
  · exact ⟨a, ha, by rw [hpoint]; rfl⟩
  · exact sink?_of_standsAt ht hp.1

/-- A tail waits as long as there are streams that have not ended. -/
theorem tailStep_supervise (htidy : w.Tidy) (ht : w.loop.StandsAt t p)
    (hp : p.sink? = some s ∧ p.isHelper = false)
    (hsink : call.sink = s) (hopen : (w.sink s).closed = false) {tasks : TailTasks}
    {pending : List TaskId} (hstreams : tasks.streams = pairs.map (·.1))
    (hpending : ∀ v ∈ tasks.streams, v ∉ pending → w.loop.ended v = true)
    (hcloser : w.loop.StandsAt tasks.closer (.awaitingClose s))
    (hapart : ∀ r, race = some r → r.closer ≠ tasks.closer)
    (hledger : Ledger s call pairs out reads w) :
    TailStep s t race out reads w (w.supervise t call tasks pending) := by
  unfold supervise
  split
  · next hempty =>
      rw [List.isEmpty_iff] at hempty
      subst hempty
      exact tailStep_clear htidy ht hp hsink hopen hstreams hcloser hledger fun v hv =>
        hpending v (hstreams ▸ hv) List.not_mem_nil
  · have hgoes := w.loop.goes_awaitAny t (.supervising call tasks pending)
      (pending ++ [tasks.closer])
    have htask := ht.goes hgoes rfl
    have hne : tasks.closer ≠ t := by
      rintro rfl
      rw [ht.unique hcloser] at hp
      cases hp.2
    obtain ⟨hledger', hended'⟩ := hledger.own hgoes.toSpares ht hp.2 (.inl htask) rfl
    refine .of_spares (.supervising htask hsink hopen hstreams (fun v hv hnot => ?_)
      (hcloser.spares hgoes.toSpares hne) hapart hledger') hgoes.toSpares ?_ rfl
    · exact hended' v (hstreams ▸ hv) (hpending v hv hnot)
    · rintro v rfl
      exact sink?_of_standsAt ht hp.1

theorem tailStep_runSupervising (htidy : w.Tidy)
    {tasks : TailTasks} {pending : List TaskId}
    (ht : w.loop.StandsAt t (.supervising call tasks pending)) (hsink : call.sink = s)
    (hopen : (w.sink s).closed = false) (hstreams : tasks.streams = pairs.map (·.1))
    (hpending : ∀ v ∈ tasks.streams, v ∉ pending → w.loop.ended v = true)
    (hcloser : w.loop.StandsAt tasks.closer (.awaitingClose s))
    (hapart : ∀ r, race = some r → r.closer ≠ tasks.closer)
    (hledger : Ledger s call pairs out reads w) :
    TailStep s t race out reads w (w.runSupervising t call tasks pending .on) := by
  have hgentle := w.loop.gentle_unwatch t (pending ++ [tasks.closer])
  have hleads : Leads s [] w (w.withLoop (·.unwatch t (pending ++ [tasks.closer]))) :=
    .of_mild (.of_eq hgentle rfl rfl)
  have hcloser' := hleads.standsAt hcloser
  obtain ⟨hledger', hended⟩ := hledger.spares hgentle (fun _ _ _ _ h => h.elim)
    fun _ _ _ _ h => h.elim
  unfold runSupervising
  dsimp only
  rw [hcloser'.not_ended]
  refine hleads.step ?_
  rw [List.append_nil]
  refine tailStep_supervise (hleads.mild.tidy htidy) (hleads.standsAt ht)
    ⟨congrArg some hsink, rfl⟩ hsink hopen hstreams (fun v hv hnot => ?_) hcloser' hapart hledger'
  by_cases hmem : v ∈ pending
  · -- who is no longer pending was seen to have ended
    rw [List.mem_filter] at hnot
    simpa [hmem] using hnot
  · exact hended v (hstreams ▸ hv) (hpending v hv hmem)

/-- At the end the sink is closed. -/
theorem tailStep_runClearing (hs : s < w.sinks.length)
    (ht : w.loop.StandsAt t (.clearing call false)) (hsink : call.sink = s)
    (hledger : Ledger s call pairs out reads w)
    (hended : ∀ v ∈ pairs.map (·.1), w.loop.ended v = true) :
    TailStep s t race out reads w (w.runClearing t call false .on) := by
  subst hsink
  let note : Note := .debug Tailer.component "log_tail_stopped" [("path", .text call.options.path)]
  let told := (w.closeSink call.sink).tell note
  obtain ⟨hclose, hsinks, hitems, -⟩ := closeSink_spec hs
  obtain ⟨htell, htellSinks⟩ := (w.closeSink call.sink).loop_tell note
  obtain ⟨hclose', -, hitems', hclosed⟩ :=
    closeSink_spec (w := told) (s := call.sink) (by rw [htellSinks, hsinks]; exact hs)
  have hgentle : Gentle w.loop (told.closeSink call.sink).loop := hclose.trans (htell ▸ hclose')
  have hspares := (Loop.Spares.of_gentle hgentle).trans
    ((told.closeSink call.sink).loop.spares_finish t (.returned .nothing))
  have hended' := (ht.gentle hgentle).finish (.returned .nothing)
  obtain ⟨hledger', hover⟩ := hledger.own hspares ht rfl (.inr ⟨_, hended'⟩) rfl
  refine .of_spares
    (.done hended' rfl hclosed ?_ fun v hv => hover v hv (hended v hv)) hspares ?_ ?_
  · exact hledger'.gentle (.refl _ _)
  · rintro v rfl
    exact sink?_of_standsAt ht rfl
  · refine hitems'.trans ?_
    rw [sink, htellSinks]
    exact hitems

end World

end LiveCluster.Simulation
