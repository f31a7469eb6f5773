import LiveCluster.Proofs.Tail.Phases

/-!
# How a tail begins

A tail begins with a plan that finds its pods. The pods are gone through in order, and for
each that cannot be decoded one failure is put into the sink, for which the tail may have
to wait. After the last of them the streams are opened, all at once.
-/

namespace LiveCluster.Simulation

open Loop (StandsAt EndedAt Gentle)

namespace World

variable {w w' x : World} {s : SinkId} {t v : TaskId} {race : Option Race}
  {call : TailCall} {p : Point}

/-- A tail that has opened no streams, and can go on. -/
structure Begins (s : SinkId) (t : TaskId) (race : Option Race) (p : Point) (w : World) :
    Prop where
  tidy : w.Tidy
  sink : s < w.sinks.length
  task : w.loop.StandsAt t p
  open_ : (w.sink s).closed = false
  none : NoStreams s w
  race : ∀ r, race = some r → r.closer < w.loop.tasks.length

theorem Leads.begins {given : List LogEvent} (h : Leads s given w w')
    (hw : Begins s t race p w) : Begins s t race p w' where
  tidy := h.mild.tidy hw.tidy
  sink := h.mild.sinks ▸ hw.sink
  task := h.standsAt hw.task
  open_ := h.closed.trans hw.open_
  none := h.noStreams hw.none
  race r hr := Nat.lt_of_lt_of_le (hw.race r hr) h.mild.tasks

/-! ## Opening the streams -/

/-- The tasks that are made for streams stand at their beginnings, and no others are made. -/
theorem spawnStreams_spec (w : World) (call : TailCall) (targets : List TailTarget) :
    ∃ pairs : List (TaskId × TailTarget),
      (w.spawnStreams call targets).2 = pairs.map (·.1) ∧ pairs.map (·.2) = targets ∧
      (∀ v target, (v, target) ∈ pairs → (w.spawnStreams call targets).1.loop.StandsAt v
        (.stream ⟨call.sink, target, call.options⟩ .opening)) ∧
      (∀ v b, (w.spawnStreams call targets).1.loop.task? v = some b →
        w.loop.task? v = some b ∨ v ∈ pairs.map (·.1)) ∧
      (w.spawnStreams call targets).1.sinks = w.sinks := by
  induction targets generalizing w with
  | nil => exact ⟨[], rfl, rfl, fun _ _ h => absurd h List.not_mem_nil, fun _ _ h => .inl h, rfl⟩
  | cons target rest ih =>
      let first : Point := .stream ⟨call.sink, target, call.options⟩ .opening
      obtain ⟨pairs, hids, htargets, hstand, hback, hsinks⟩ := ih (w.spawn first).1
      refine ⟨((w.spawn first).2, target) :: pairs, congrArg _ hids, congrArg _ htargets, ?_, ?_,
        hsinks⟩
      · intro v target' hmem
        rcases List.mem_cons.1 hmem with heq | hmem
        · cases heq
          have hrest := (w.spawn first).1.mild_spawnStreams call rest
          exact (w.loop.standsAt_spawn first).of_eases fun a => hrest.eases _ a
        · exact hstand v target' hmem
      · intro v b hb
        rcases hback v b hb with hold | hmem
        · rcases Loop.task?_of_spawn (show (w.loop.spawn first).1.task? v = some b from hold) with
            ⟨rfl, -⟩ | hold
          · exact .inr List.mem_cons_self
          · exact .inl hold
        · exact .inr (List.mem_cons_of_mem _ hmem)

/-- Before a tail waits for them, its streams are there and the task that waits for its sink to be
closed. -/
theorem openStreams_spec (w : World) (t : TaskId) (call : TailCall) (targets : List TailTarget) :
    ∃ (pairs : List (TaskId × TailTarget)) (closer : TaskId) (z : World),
      w.openStreams t call targets =
        z.supervise t call ⟨pairs.map (·.1), closer⟩ (pairs.map (·.1)) ∧
      pairs.map (·.2) = targets ∧ w.loop.tasks.length ≤ closer ∧ Mild (some call.sink) w z ∧
      z.sink call.sink = w.sink call.sink ∧
      (∀ v target, (v, target) ∈ pairs →
        z.loop.StandsAt v (.stream ⟨call.sink, target, call.options⟩ .opening)) ∧
      z.loop.StandsAt closer (.awaitingClose call.sink) ∧
      ∀ v b, z.loop.task? v = some b →
        w.loop.task? v = some b ∨ v ∈ pairs.map (·.1) ∨ v = closer := by
  let x := (w.spawnStreams call targets).1
  let y := (x.spawn (.awaitingClose call.sink)).1
  let note : Note := .debug Tailer.component "log_tail_started"
    [("path", .text call.options.path), ("pods", .int call.pods.length),
      ("streams", .int (w.spawnStreams call targets).2.length)]
  obtain ⟨pairs, hids, htargets, hstand, hback, hsinks⟩ := w.spawnStreams_spec call targets
  have hstreams := w.mild_spawnStreams call targets
  have hcloser : Mild (some call.sink) x y := .spawn _ (.inr rfl) rfl
  obtain ⟨htell, htellSinks⟩ := y.loop_tell note
  have hgentle : Gentle y.loop (y.tell note).loop := by rw [htell]; exact .refl _ _
  refine ⟨pairs, x.loop.tasks.length, y.tell note, ?_, htargets, hstreams.tasks,
    (hstreams.trans hcloser).trans (mild_tell _ note), ?_, ?_, ?_, ?_⟩
  · rw [← hids]
    rfl
  · rw [sink, htellSinks]
    show ((x.sinks)[call.sink]?).getD {} = _
    rw [hsinks]
    rfl
  · exact fun v target hmem => ((hstand v target hmem).spawn _).gentle hgentle
  · exact (x.loop.standsAt_spawn (.awaitingClose call.sink)).gentle hgentle
  · intro v b hb
    rw [htell] at hb
    rcases Loop.task?_of_spawn (show (x.loop.spawn (.awaitingClose call.sink)).1.task? v = some b
      from hb) with ⟨hv, -⟩ | hold
    · exact .inr (.inr hv)
    · exact (hback v b hold).imp_right .inl

/-- Nothing has come out of the streams when they are opened. -/
theorem ledger_opening {z : World} {pairs : List (TaskId × TailTarget)} {closer : TaskId}
    (hnone : NoStreams call.sink w)
    (htargets : pairs.map (·.2) = Tailer.allTargets call.options call.pods)
    (hstreams : ∀ v target, (v, target) ∈ pairs →
      z.loop.StandsAt v (.stream ⟨call.sink, target, call.options⟩ .opening))
    (hcloser : z.loop.StandsAt closer (.awaitingClose call.sink))
    (hback : ∀ v b, z.loop.task? v = some b →
      w.loop.task? v = some b ∨ v ∈ pairs.map (·.1) ∨ v = closer) :
    Ledger call.sink call pairs (Tailer.failures call.options call.pods) [] z where
  targets := htargets
  only v b st q hb hpoint hst := by
    rcases hback v b hb with hold | hmem | rfl
    · exact absurd hst (hnone v b st q hold hpoint)
    · exact hmem
    · rw [(hcloser.point_eq hb).1] at hpoint
      cases hpoint
  delivered := ⟨[], (List.append_nil _).symm, fun _ _ h => absurd h List.not_mem_nil,
    fun v target hmem => .inl ⟨.opening, hstreams v target hmem, .opening, rfl⟩⟩

/-- The streams are opened. -/
theorem tailStep_openStreams (hw : Begins s t race p w)
    (hp : p.sink? = some s ∧ p.isHelper = false) (hsink : call.sink = s) :
    TailStep s t race (Tailer.failures call.options call.pods) [] w
      (w.openStreams t call (Tailer.allTargets call.options call.pods)) := by
  subst hsink
  obtain ⟨pairs, closer, z, hopen, htargets, hle, hmild, hsame, hstreams, hcloser, hback⟩ :=
    w.openStreams_spec t call (Tailer.allTargets call.options call.pods)
  have ht' : z.loop.StandsAt t p := hw.task.of_eases fun a => hmild.eases t a
  have hrace : ∀ r, race = some r → r.closer ≠ closer := fun r hr =>
    Nat.ne_of_lt (Nat.lt_of_lt_of_le (hw.race r hr) hle)
  have hstep : TailStep call.sink t race (Tailer.failures call.options call.pods) [] z
      (z.supervise t call ⟨pairs.map (·.1), closer⟩ (pairs.map (·.1))) :=
    tailStep_supervise (hmild.tidy hw.tidy) ht' hp rfl (hsame ▸ hw.open_) rfl
      (fun v hv hnot => absurd hv hnot) hcloser hrace
      (ledger_opening hw.none htargets hstreams hcloser hback)
  have hmade : ∀ v, v ∈ pairs.map (·.1) ∨ v = closer → ∃ q, z.loop.StandsAt v q ∧
      q.sink? = some call.sink ∧ q.isHelper = true ∧ q.serves = true ∧ q.isConsumer = false := by
    rintro v (hv | rfl)
    · obtain ⟨⟨v, target⟩, hmem, rfl⟩ := List.mem_map.1 hv
      exact ⟨_, hstreams v target hmem, rfl, rfl, rfl, rfl⟩
    · exact ⟨_, hcloser, rfl, rfl, rfl, rfl⟩
  have hseats : ∀ v ∈ pairs.map (·.1) ++ [closer], z.Seat v (some call.sink) true := by
    intro v hv
    rw [List.mem_append, List.mem_singleton] at hv
    obtain ⟨q, hq, hsink', hhelper, -⟩ := hmade v hv
    exact seat_of_standsAt hq hsink' hhelper
  have hworks := z.works_supervise t call ⟨pairs.map (·.1), closer⟩ (pairs.map (·.1))
    (seat_of_standsAt ht' hp.1 hp.2) hseats
  rw [hopen]
  refine ⟨?_, fun v b hb hpoint => ?_⟩
  · obtain ⟨given, hitems, hphase⟩ := hstep.comes
    exact ⟨given, by rw [← hsame]; exact hitems, hphase⟩
  · rcases hstep.made v b hb hpoint with ⟨a, ha, hpoint'⟩ | hattends
    · refine (hback v a ha).imp (fun hold => ⟨a, hold, hpoint'⟩) fun hv => ?_
      obtain ⟨q, hq, -, hhelper, hserves, hconsumer⟩ := hmade v hv
      have hvt : v ≠ t := by
        rintro rfl
        rw [hq.unique ht', hp.2] at hhelper
        cases hhelper
      obtain ⟨b', hb', hstays⟩ := hworks.others v a hvt ha
      cases hb.symm.trans hb'
      refine ⟨(attends_of_rests (.inl hq) hserves).stays fun a ha => hworks.others v a hvt ha, ?_⟩
      rw [hstays.point, (hq.point_eq ha).1]
      exact hconsumer
    · exact .inr hattends

/-! ## Going through the pods -/

/-- The tail has to wait with the failure of a pod. -/
theorem tailStep_awaitRoom (hw : Begins s t race p w) (hp : p.sink? = some s)
    (hsink : call.sink = s) {targets : List TailTarget} {pods : List Snapshot} {d : Delivery}
    {out : List LogEvent} (hreports : Reports call targets pods d out) :
    TailStep s t race out [] w (w.awaitRoom t s (.reporting call targets pods d)) := by
  obtain ⟨hstands, -, hitems, hclosed⟩ :=
    awaitRoom_spec hw.sink hw.task (.reporting call targets pods d)
  refine .of_spares (.reporting hstands hsink (hclosed.trans hw.open_) hreports rfl ?_)
    (w.loop.spares_suspend t _ .signal) ?_ hitems
  · refine hw.none.spares (w.loop.spares_suspend t _ .signal) fun v b st q hv hb hpoint => ?_
    subst hv
    rw [(hstands.point_eq hb).1] at hpoint
    cases hpoint
  · rintro v rfl
    exact sink?_of_standsAt hw.task hp

/-- The remaining pods are gone through; what was found and reported before is kept. -/
theorem tailStep_target (hw : Begins s t race p w) (hp : p.sink? = some s ∧ p.isHelper = false)
    (hsink : call.sink = s) (pods : List Snapshot) :
    ∀ before, call.pods = before ++ pods →
      TailStep s t race (Tailer.failures call.options before) [] w
        (w.target t call (Tailer.allTargets call.options before) pods) := by
  induction pods generalizing w with
  | nil =>
      intro before hpods
      rw [List.append_nil] at hpods
      subst hpods
      exact tailStep_openStreams hw hp hsink
  | cons pod rest ih =>
      intro before hpods
      have hnext : call.pods = (before ++ [pod]) ++ rest := by rw [hpods, List.append_assoc]; rfl
      unfold target
      split
      · next more hmore =>
          have hrest := ih hw (before ++ [pod]) hnext
          rw [Tailer.failures_append, Tailer.failures_ok hmore, List.append_nil,
            Tailer.allTargets_append, Tailer.allTargets_ok hmore] at hrest
          exact hrest
      · next fault hfault =>
          subst hsink
          dsimp only
          have htold : Leads call.sink [] w _ :=
            w.leads_tellAll (Tailer.streamError pod "" fault)
          have hw' := htold.begins hw
          refine htold.step ?_
          rw [List.append_nil]
          obtain ⟨v, ⟨hoffer, hleads⟩ | ⟨hoffer, hleads⟩⟩ :=
            leads_offer hw'.sink hw'.open_ { event := .failure pod.name "" fault } <;> rw [hoffer]
          · refine hleads.step ?_
            have hrest := ih (hleads.begins hw') (before ++ [pod]) hnext
            rw [Tailer.failures_append, Tailer.failures_error hfault,
              Tailer.allTargets_append, Tailer.allTargets_error hfault, List.append_nil] at hrest
            exact hrest
          · refine hleads.step ?_
            rw [List.append_nil]
            exact tailStep_awaitRoom (hleads.begins hw') hp.1 rfl
              ⟨before, pod, fault, hpods, hfault, rfl, rfl, rfl⟩

/-- The tail comes again with the failure of a pod. -/
theorem tailStep_runReporting {targets : List TailTarget} {pods : List Snapshot} {d : Delivery}
    {out : List LogEvent} (hw : Begins s t race (.reporting call targets pods d) w)
    (hsink : call.sink = s) (hreports : Reports call targets pods d out) :
    TailStep s t race out [] w (w.runReporting t call targets pods d .on) := by
  subst hsink
  unfold runReporting
  obtain ⟨v, ⟨hoffer, hleads⟩ | ⟨hoffer, hleads⟩⟩ := leads_offer hw.sink hw.open_ d <;>
    rw [hoffer]
  · obtain ⟨before, pod, fault, hpods, hfault, rfl, hevent, rfl⟩ := hreports
    refine hleads.step ?_
    have hrest := tailStep_target (hleads.begins hw) ⟨rfl, rfl⟩ rfl pods (before ++ [pod])
      (by rw [hpods, List.append_assoc]; rfl)
    rw [Tailer.failures_append, Tailer.failures_error hfault, Tailer.allTargets_append,
      Tailer.allTargets_error hfault, List.append_nil] at hrest
    rw [hevent]
    exact hrest
  · refine hleads.step ?_
    rw [List.append_nil]
    exact tailStep_awaitRoom (hleads.begins hw) rfl rfl hreports

/-! ## Carrying out the plan -/

theorem seat_of_finds (hp : p.finds s) : p.sink? = some s ∧ p.isHelper = false := by
  cases p with
  | planning op plan => exact ⟨hp, rfl⟩
  | syncing op i next => exact ⟨hp, rfl⟩
  | _ => cases hp

/-- The tail never comes to its pods. -/
theorem tailStep_lost {e : Ending Report} (hloop : Loop.Spares (· = t) w.loop w'.loop)
    (hended : w'.loop.EndedAt t p e) (hp : p.finds s) (hseat : w.Seat t (some s) false)
    (hnone : NoStreams s w)
    (hitems : (w'.sink s).channel.items = (w.sink s).channel.items) :
    TailStep s t race [] [] w w' := by
  refine .of_spares (.lost hended hp rfl rfl ?_) hloop ?_ hitems
  · refine hnone.spares hloop fun v b st q hv hb hpoint => ?_
    subst hv
    rw [(hended.point_eq hb).1] at hpoint
    subst hpoint
    cases hp
  · rintro v rfl
    obtain ⟨a, ha, hsink, -⟩ := hseat
    exact ⟨a, ha, hsink⟩

theorem tailStep_release {op : Operation} (hop : op.sink = some s) (hw : Begins s t race p w)
    (hp : p.finds s) (e : Ending Report) :
    TailStep s t race [] [] w ((w.release op).finish t e) := by
  obtain ⟨hclose, -, hitems, -⟩ := closeSink_spec hw.sink
  have hrelease : w.release op = w.closeSink s := by
    unfold release
    rw [hop]
  rw [hrelease]
  obtain ⟨hsink, hhelper⟩ := seat_of_finds hp
  exact tailStep_lost ((Loop.Spares.of_gentle hclose).trans (Loop.spares_finish _ t e))
    ((hw.task.gentle hclose).finish e) hp (seat_of_standsAt hw.task hsink hhelper) hw.none hitems

theorem tailStep_conclude {op : Operation} (hop : op.sink = some s) (hw : Begins s t race p w)
    (hp : p.finds s) (result : Except Fault Next) :
    TailStep s t race [] [] w (w.conclude t op result) := by
  unfold conclude
  split
  · exact tailStep_release hop hw hp _
  · exact tailStep_release hop hw hp _
  · next start =>
      rw [hop]
      exact tailStep_target hw (seat_of_finds hp) rfl start.pods [] rfl

/-- The tail waits for a first listing. -/
theorem tailStep_awaitSync {op : Operation} (hop : op.sink = some s) (hw : Begins s t race p w)
    (hp : p.finds s) (i : InformerId) (limit : Float) (next : Except Fault Bool → Plan Next) :
    TailStep s t race [] [] w (w.awaitSync t op i limit next) := by
  obtain ⟨a, ha, hpoint, hending, hsteady⟩ := hw.task
  obtain ⟨-, hothers, -, hown⟩ := w.loop.beginLimit_spec t limit
  have htask : ∀ v, (w.awaitSync t op i limit next).loop.task? v =
      if t = v then ((w.loop.beginLimit t limit).task? v).map fun task =>
        { task with point := .syncing op i next, wait := .signal, turn := task.turn + 1 }
      else (w.loop.beginLimit t limit).task? v :=
    fun v => Loop.task?_modify _ t v _
  have hnow : ∃ b, (w.awaitSync t op i limit next).loop.task? t = some b ∧
      b.ending = none ∧ b.wait = .signal ∧ b.point = .syncing op i next := by
    rw [htask, if_pos rfl, hown a ha]
    exact ⟨_, rfl, hending, rfl, rfl⟩
  obtain ⟨b, hb, hgoing, hwait, hpoint'⟩ := hnow
  have hold : ∀ v c, v ≠ t → (w.awaitSync t op i limit next).loop.task? v = some c →
      w.loop.task? v = some c := by
    intro v c hv hc
    rw [htask, if_neg (Ne.symm hv), hothers v hv] at hc
    exact hc
  refine ⟨⟨[], (List.append_nil _).symm, .finding hb hgoing (by rw [hwait]; rfl)
    (by rw [hpoint']; exact hop) hw.open_ rfl rfl fun v c st q hc hstream => ?_⟩,
    fun v c hc hsink => ?_⟩
  · by_cases hv : v = t
    · subst hv
      cases hb.symm.trans hc
      rw [hpoint'] at hstream
      cases hstream
    · exact hw.none v c st q (hold v c hv hc) hstream
  · by_cases hv : v = t
    · exact .inl ⟨a, hv ▸ ha, hpoint ▸ (seat_of_finds hp).1⟩
    · exact .inl ⟨c, hold v c hv hc, hsink⟩

/-- The plan is carried out up to its end or its next wait. -/
theorem tailStep_carryOut {op : Operation} (hop : op.sink = some s) (plan : Plan Next)
    (hw : Begins s t race p w) (hp : p.finds s) :
    TailStep s t race [] [] w (carryOut t op plan w) := by
  induction plan generalizing w with
  | done result => exact tailStep_conclude hop hw hp result
  | ask question next ih =>
      have hleads : Leads s [] w _ := .of_mild (w.mild_answer op question)
      exact hleads.step (ih _ (hleads.begins hw))
  | sync rid ns timeout next ih =>
      have hmild : Mild none w _ := w.mild_ensureWatch op.factory rid ns op.inLoop
      unfold carryOut
      split
      · next v fault h =>
          rw [h] at hmild
          have hleads : Leads s [] w v := .of_mild hmild
          exact hleads.step (ih _ (hleads.begins hw))
      · next v i h =>
          rw [h] at hmild
          have hleads : Leads s [] w v := .of_mild hmild
          refine hleads.step ?_
          split
          · exact ih _ (hleads.begins hw)
          · exact tailStep_awaitSync hop (hleads.begins hw) hp i _ next

end World

end LiveCluster.Simulation
