import LiveCluster.Proofs.Tail.Calls
import LiveCluster.Proofs.Tail.Logs

/-!
# Closed sinks

A call that has ended has closed its sink. Once nothing is left to be done after that, nobody
is held up by it any more: the streams that it opened have ended, and so has whoever gets
events out of the sink or waits for it to be closed.

The other way round, who closes the sink of a call ends the call, and needs not take another
event out, but for one case: a call that waits for room to report a pod that cannot be decoded
does not hear of it.
-/

namespace LiveCluster.Simulation

open Loop (TaskBides)

namespace World

variable {w w' : World} {s : SinkId} {t v g : TaskId} {who : Option TaskId} {op : Operation}
  {plan : Plan Next} {turns : List World} {a : Task Point Report}

/-! ## Consumers -/

/-- A task gets events out of a sink, or has done so. Who is at a race has a helper in it that
waits for the sink to be closed. -/
def Gets (w : World) (v : TaskId) (s : SinkId) : Prop :=
  ∃ a, w.loop.task? v = some a ∧ (a.ending = none → ∃ collected race,
    a.point = .getting s collected race ∧ ∀ r, race = some r → w.AwaitsClose r.closer s)

theorem Acting.gets_finish (h : w.Acting v s) (e : Ending Report) : (w.finish v e).Gets v s := by
  obtain ⟨a, ha, -⟩ := h
  exact ⟨_, Loop.task?_finish ha, fun hgoing => by cases hgoing⟩

theorem Acting.gets_goOn (h : w.Acting v s) (collected : Option (List LogEvent)) :
    (w.goOn v (.getting s collected none)).Gets v s := by
  obtain ⟨a, ha, -⟩ := h
  exact ⟨_, Loop.task?_goOn ha, fun _ => ⟨collected, none, rfl, fun r hr => by cases hr⟩⟩

theorem Acting.gets_got (h : w.Acting v s) (event : LogEvent) (collected : Option (List LogEvent)) :
    (w.got v s event collected).Gets v s := by
  cases collected with
  | none => exact h.gets_finish _
  | some events => exact h.gets_goOn _

theorem Acting.mild {f : Option SinkId} (h : w.Acting v s) (hw : Mild f w w') : w'.Acting v s :=
  h.bides fun a ha => by
    obtain ⟨b, hb, hab⟩ := hw.eases v a ha
    exact ⟨b, hb, hab.bides⟩

theorem Acting.gets_getNext (h : w.Acting v s) (collected : Option (List LogEvent)) :
    (w.getNext v s collected).Gets v s := by
  unfold getNext
  split
  · next y event hy => exact (h.mild (w.mild_takeEvent? hy)).gets_got event collected
  · split
    · cases collected <;> exact h.gets_finish _
    · let x := (w.spawn (.taking s)).1
      let y := (x.spawn (.awaitingClose s)).1
      let race : Race := ⟨w.loop.tasks.length, x.loop.tasks.length⟩
      have hx : x.Acting v s := h.mild (f := some s) (.spawn w (.inr rfl) rfl)
      have hy : y.Acting v s := hx.mild (f := some s) (.spawn x (.inr rfl) rfl)
      have hcloser : y.AwaitsClose race.closer s :=
        ⟨_, (x.loop.task?_spawn _ _).trans (if_pos rfl), fun _ => rfl⟩
      have hne : race.closer ≠ v := by
        rintro rfl
        obtain ⟨a, ha, -⟩ := hx
        exact absurd rfl (Loop.ne_next_of_task? ha)
      have hgoes := y.loop.goes_awaitAny v (.getting s collected (some race))
        [race.taker, race.closer]
      obtain ⟨a, ha, -, hpoint, -⟩ := hy.goes hgoes
      refine ⟨a, ha, fun _ => ⟨collected, some race, hpoint, fun r hr => ?_⟩⟩
      cases hr
      exact hcloser.bides fun b hb => by
        obtain ⟨c, hc, hbc⟩ := hgoes.eases _ b hne hb
        exact ⟨c, hc, hbc.bides⟩

theorem Acting.gets_runGetting (h : w.Acting v s) (collected : Option (List LogEvent))
    (race : Option Race) (arrival : Arrival) :
    (w.runGetting v s collected race arrival).Gets v s := by
  cases race with
  | none =>
      cases arrival with
      | cancelled woken => exact h.gets_finish _
      | on => exact h.gets_getNext collected
  | some race =>
      have hend : (w.endRace v race).Acting v s :=
        h.bides fun a ha => (w.minds_endRace v race).keeps.bides ha
      cases arrival with
      | cancelled woken => exact hend.gets_finish _
      | on =>
          unfold runGetting
          dsimp only
          split
          · exact hend.gets_got _ collected
          · exact hend.gets_finish _
          · exact hend.gets_finish _
          · exact hend.gets_goOn collected

theorem Gets.happens (h : w.Gets v s) (hnext : Happens who w w') (hw : w.Bound) :
    w'.Gets v s := by
  obtain ⟨a, ha, hgets⟩ := h
  by_cases hv : who = some v
  · subst hv
    obtain ⟨before, after, round, -, rfl⟩ := hnext.turn
    cases harrive : (w.withReady (before ++ after) round).loop.arrive v with
    | none =>
        rw [run, harrive]
        refine ⟨a, ha, fun hgoing => ?_⟩
        obtain ⟨collected, race, hpoint, hcloser⟩ := hgets hgoing
        exact ⟨collected, race, hpoint, fun r hr =>
          (hcloser r hr).bides fun b hb => ⟨b, hb, .refl b⟩⟩
    | some arrived =>
        obtain ⟨l, p, arrival⟩ := arrived
        obtain ⟨a', ha', hgoing, rfl, -, hl⟩ := Loop.arrive_spec harrive
        cases ha.symm.trans ha'
        obtain ⟨collected, race, hpoint, -⟩ := hgets hgoing
        rw [run, harrive]
        dsimp only
        rw [hpoint]
        have hacting : Acting { w.withReady (before ++ after) round with loop := l } v s :=
          ⟨_, hl, hgoing, by rw [hpoint]; rfl, by rw [hpoint]; rfl⟩
        exact hacting.gets_runGetting collected race arrival
  · obtain ⟨b, hb, hab⟩ := (hnext.passes hw).others v a hv ha
    refine ⟨b, hb, fun hgoing => ?_⟩
    obtain ⟨collected, race, hpoint, hcloser⟩ := hgets (hab.ending.symm.trans hgoing)
    exact ⟨collected, race, hab.point.trans hpoint, fun r hr => (hcloser r hr).happens hnext hw⟩

/-- At a closed sink nobody gets events any more once nothing is left to be done. -/
theorem Gets.ended (h : w.Gets v s) (hw : Awake none w) (hquiet : w.Quiescent)
    (hclosed : (w.sink s).closed = true) : w.loop.ended v = true := by
  obtain ⟨a, ha, hgets⟩ := h
  rw [Loop.ended_of_task? ha]
  cases hgoing : a.ending with
  | some e => rfl
  | none =>
      obtain ⟨collected, race, hpoint, hcloser⟩ := hgets hgoing
      obtain ⟨hsignal, htakes⟩ := hw.awaits_signal (s := s) hquiet ha hgoing (by rw [hpoint]; rfl)
        (by rw [hpoint]; simp)
      rw [hpoint] at htakes
      cases race with
      | none => cases htakes
      | some r =>
          have hmem : r.closer ∈ a.point.awaited := by rw [hpoint]; simp [Point.awaited]
          obtain ⟨b, hb, hbgoing⟩ := hw.alert.awaits_going hquiet ha hgoing hsignal _ hmem
          have hended := (hcloser r rfl).ended hw hquiet hclosed
          rw [Loop.ended_of_task? hb, hbgoing] at hended
          cases hended

/-- The course of a task that somebody has begun at a sink to get the next event, or all of them, or
to wait until the sink is closed. -/
inductive Draws (s : SinkId) (g : TaskId) : World → Prop
  | begins (d : Session) (name : String) (r : Request) (inLoop : Bool) (lived : Lived d.world)
      (sink : d.sinkOf name = s) (known : s < d.world.sinks.length)
      (kind : r = .next name ∨ r = .all name ∨ r = .awaitClose name)
      (new : g = d.world.loop.tasks.length) : Draws s g (d.begin r inLoop).1.world
  | meanwhile {who : Option TaskId} {w w' : World} (consumer : Draws s g w)
      (happens : Happens who w w') : Draws s g w'

theorem Draws.spec (h : Draws s g w) : Lived w ∧ (w.Gets g s ∨ w.AwaitsClose g s) := by
  induction h with
  | begins d name r inLoop lived sink known kind new =>
      subst sink new
      have hnew : ∀ p, (d.world.spawn p).1.loop.task? d.world.loop.tasks.length =
          some { point := p } := fun p => (d.world.loop.task?_spawn p _).trans (if_pos rfl)
      rcases kind with rfl | rfl | rfl
      · refine ⟨lived.next (.request d (.next name) inLoop (by simp) ?_), .inl
          ⟨_, hnew _, fun _ => ⟨none, none, rfl, fun _ h => by cases h⟩⟩⟩
        exact fun k hk => Option.some.inj hk ▸ known
      · refine ⟨lived.next (.request d (.all name) inLoop (by simp) ?_), .inl
          ⟨_, hnew _, fun _ => ⟨some [], none, rfl, fun _ h => by cases h⟩⟩⟩
        exact fun k hk => Option.some.inj hk ▸ known
      · refine ⟨lived.next (.request d (.awaitClose name) inLoop (by simp) ?_), .inr
          ⟨_, hnew _, fun _ => rfl⟩⟩
        exact fun k hk => Option.some.inj hk ▸ known
  | meanwhile consumer happens ih =>
      obtain ⟨hlived, hrole⟩ := ih
      have hbound := hlived.orderly.bound
      exact ⟨hlived.next happens, hrole.imp (·.happens happens hbound) (·.happens happens hbound)⟩

theorem Draws.runReady (h : Draws s g w) (n : Nat) : Draws s g (w.runReady n) :=
  lasts_runReady (fun _ _ _ h hnext => h.meanwhile hnext) h n

/-- Whoever gets events out of a closed sink or waits for it to be closed is released. -/
theorem Draws.released (h : Draws s g w) (hquiet : w.Quiescent)
    (hclosed : (w.sink s).closed = true) : w.loop.ended g = true := by
  obtain ⟨hlived, hgets | hawaits⟩ := h.spec
  · exact hgets.ended hlived.orderly.awake hquiet hclosed
  · exact hawaits.ended hlived.orderly.awake hquiet hclosed

/-! ## Two tails -/

/-- A pod that is labelled as one of the web's. -/
def webPod (name : String) (spec : Value) : Value :=
  .record [
    ("kind", .text "Pod"),
    ("metadata", .record [
      ("namespace", .text "default"), ("name", .text name), ("resourceVersion", .text "1"),
      ("labels", .record [("app", .text "web")])]),
    ("spec", spec)]

/-- A pod with one container, which can be decoded. -/
def soundPods : List Value :=
  [webPod "a" (.record [("containers", .list [.record [("name", .text "app")]])])]

/-- Two pods that cannot be decoded. -/
def brokenPods : List Value :=
  [webPod "a" (.text "?"), webPod "b" (.text "?")]

/-- A session in which pods are watched and there is a sink that has room for one event. -/
def watchingWeb (pods : List Value) : Session :=
  (((Session.new {} {} default none).heard (.objects .pods pods)).heard
    (.ensureWatch .pods "")).heard (.sink "s" (some 1))

/-- The request to tail the web's pods into that sink. -/
def webRequest : Request :=
  .tail "s" "" (some ⟨[("app", "web")]⟩) {}

/-- What is asked on the way. -/
def webTail : Plan Next := do
  return .tail (← Tailer.ofSelector {} "" ⟨[("app", "web")]⟩ {})

/-- The world just before the first turn of the call. -/
def beforeWeb (pods : List Value) : World :=
  ((watchingWeb pods).begin webRequest true).1.world.withReady [] 0

/-- The session after that turn. -/
def tailingWeb (pods : List Value) : Session :=
  { watchingWeb pods with world := (beforeWeb pods).run (.resume 1), pending := [("tail", 1)] }

theorem world_tailingWeb (pods : List Value) :
    (tailingWeb pods).world = (beforeWeb pods).run (.resume 1) := by
  rw [tailingWeb]

theorem lived_watchingWeb (pods : List Value) : Lived (watchingWeb pods).world := by
  have hpods := (Lived.new {} {} default none).heard (r := .objects .pods pods) (by simp)
    fun _ hk => by cases hk
  have hwatch := hpods.heard (r := .ensureWatch .pods "") (by simp) fun _ hk => by cases hk
  exact hwatch.heard (by simp) fun _ hk => by cases hk

theorem call_tailingWeb {pods : List Value} {l : Loop Point Report}
    (sink : (watchingWeb pods).sinkOf "s" = 0)
    (known : 0 < (watchingWeb pods).world.sinks.length)
    (ready : ((watchingWeb pods).begin webRequest true).1.world.loop.ready = [.resume 1])
    (arrives : (beforeWeb pods).loop.arrive 1 =
      some (l, .planning { factory := 0, sink := some 0 } webTail, .on)) :
    Call 1 { factory := 0, sink := some 0 } webTail [beforeWeb pods] (tailingWeb pods).world := by
  have hknown : ∀ k, (watchingWeb pods).concerns webRequest = some k →
      k < (watchingWeb pods).world.sinks.length := fun k hk => Option.some.inj hk ▸ sink ▸ known
  rw [beforeWeb] at arrives ⊢
  rw [world_tailingWeb, beforeWeb]
  exact .requested (lived_watchingWeb pods) (by simp [webRequest]) hknown ready arrives

/-! ## What a call leaves behind -/

variable {told : Stance Next → Prop} {opened : List (TaskId × Stream)} {shut : Prop}

theorem Stage.closed_of_ended (h : Stage op s t told opened shut w)
    (hended : w.loop.ended t = true) : (w.sink s).closed = true := by
  cases h with
  | lost _ hclosed | quit _ hclosed | done _ hclosed => exact hclosed
  | finding ha hgoing | reporting ha hgoing | supervising ha hgoing | clearing ha hgoing =>
      rw [Loop.ended_of_task? ha, hgoing] at hended
      cases hended

theorem Stage.over_of_ended (h : Stage op s t told opened shut w)
    (hended : w.loop.ended t = true) : ∀ v ∈ opened.map (·.1), w.Over v := by
  cases h with
  | lost _ _ _ hnone | quit _ _ _ hnone =>
      rw [hnone]
      exact fun v hv => absurd hv List.not_mem_nil
  | done _ _ _ _ _ hover => exact hover
  | finding ha hgoing | reporting ha hgoing | supervising ha hgoing | clearing ha hgoing =>
      rw [Loop.ended_of_task? ha, hgoing] at hended
      cases hended

/-- A call that fails has opened no streams. -/
theorem Stage.none_of_failed {fault : Fault} (h : Stage op s t told opened shut w)
    (hfailed : w.loop.ending? t = some (.failed fault)) : opened = [] := by
  cases h with
  | finding _ _ _ _ _ hnone | lost _ _ _ hnone | reporting _ _ _ _ _ _ hnone
  | quit _ _ _ hnone => exact hnone
  | supervising ha hgoing | clearing ha hgoing =>
      exact absurd hfailed (Loop.ending?_ne_some ha hgoing)
  | done he _ _ _ how =>
      rw [hfailed] at he
      rcases how with rfl | rfl <;> cases he

/-- Once nothing is left to be done after a call has ended, its streams have ended and closed their
logs. -/
theorem Call.streams_over (h : Call t op plan turns w) (hop : op.sink = some s)
    (hquiet : w.Quiescent) (hended : w.loop.ended t = true) :
    ∀ v ∈ (World.opened t turns).map (·.1), w.loop.ended v = true ∧ v ∉ w.openLogs := by
  intro v hv
  have hover := ((h.stage hop).over_of_ended hended v hv).ended h.lived.orderly.awake hquiet
  exact ⟨hover, h.lived.log_closed hover⟩

/-- Whatever happens to a call, and whenever it is cancelled: when it has ended its sink is closed,
and once nothing is left to be done then, its streams have ended and closed their logs, and whoever
is at the sink as a consumer has ended too. A call that fails has opened no streams. -/
theorem Call.leaks_nothing (h : Call t op plan turns w) (hop : op.sink = some s) :
    (w.loop.ended t = true → (w.sink s).closed = true ∧ (w.Quiescent →
      (∀ v ∈ (World.opened t turns).map (·.1), w.loop.ended v = true ∧ v ∉ w.openLogs) ∧
      ∀ g, Draws s g w → w.loop.ended g = true)) ∧
    ∀ fault, w.loop.ending? t = some (.failed fault) → World.opened t turns = [] := by
  have hstage := h.stage hop
  refine ⟨fun hended => ?_, fun fault hfailed => hstage.none_of_failed hfailed⟩
  have hclosed := hstage.closed_of_ended hended
  refine ⟨hclosed, fun hquiet => ⟨h.streams_over hop hquiet hended, fun g hg => ?_⟩⟩
  exact hg.released hquiet hclosed

/-- A call is cancelled that reads a log, while somebody waits for an event of its. -/
theorem leaks_nothing_cancelled : ∃ turns w,
    ((tailingWeb soundPods).heard (.next "s")).world.openLogs = [2] ∧
      Call 1 { factory := 0, sink := some 0 } webTail turns w ∧ Draws 0 4 w ∧
      w.loop.ending? 1 = some .cancelled ∧ (w.sink 0).closed = true ∧
      (World.opened 1 turns).map (·.1) = [2] ∧ w.loop.ended 2 = true ∧ 2 ∉ w.openLogs ∧
      w.loop.ended 4 = true := by
  have hcall : Call 1 _ webTail _ (tailingWeb soundPods).world :=
    call_tailingWeb rfl (by decide) rfl rfl
  have hwaiting := hcall.heard (r := .next "s") (by simp) (by rintro k ⟨⟩; decide)
  have hover := hwaiting.heard (r := .cancel "tail") (by simp) (by rintro k ⟨⟩; decide)
  have hconsumer : Draws 0 4 _ := .begins (tailingWeb soundPods) "s" (.next "s") true hcall.lived
    rfl (by decide) (.inl rfl) rfl
  have hconsumer' := (hconsumer.runReady 40).meanwhile
    (.request ((tailingWeb soundPods).heard (.next "s")) (.cancel "tail") true (by simp)
      (by rintro k ⟨⟩; decide))
  obtain ⟨hended, -⟩ := hover.leaks_nothing rfl
  obtain ⟨hclosed, hquiet⟩ := hended rfl
  obtain ⟨hstreams, hconsumers⟩ := hquiet rfl
  have hgone := hconsumer'.runReady 40
  obtain ⟨hstream, hlog⟩ := hstreams 2 (by decide)
  exact ⟨_, _, rfl, hover, hgone, rfl, hclosed, rfl, hstream, hlog, hconsumers 4 hgone⟩

/-! ## Closing the sink of a call -/

/-- A call has found no room in its sink yet to report a pod that cannot be decoded. -/
def AwaitsReport (w : World) (s : SinkId) (t : TaskId) : Prop :=
  ∃ a call targets pods d out, w.loop.task? t = some a ∧ a.ending = none ∧
    a.point = .reporting call targets pods d ∧ call.sink = s ∧ Reports call targets pods d out

/-- A call is looking for its pods, and has not yet found out whether the cache is filled. -/
def AwaitsCache (w : World) (t : TaskId) : Prop :=
  ∃ a op i next, w.loop.task? t = some a ∧ a.ending = none ∧ a.point = .syncing op i next

theorem Stage.ended_of_closed (h : Stage op s t told opened shut w) (hw : Awake none w)
    (hquiet : w.Quiescent) (hclosed : (w.sink s).closed = true) (hpast : ¬w.AwaitsCache t) :
    w.loop.ended t = true ∨ w.AwaitsReport s t ∧ opened = [] := by
  cases h with
  | finding ha hgoing hpoint => exact absurd ⟨_, _, _, _, ha, hgoing, hpoint⟩ hpast
  | lost he | quit he | done he => exact .inl (Loop.ended_of_ending? he)
  | @reporting a call targets pods d out ha hgoing hpoint hsink _ hreports hnone =>
      exact .inr ⟨⟨a, call, targets, pods, d, out, ha, hgoing, hpoint, hsink, hreports⟩, hnone⟩
  | @supervising a call tasks pending ha hgoing hpoint hsink _ _ _ hcloser =>
      -- it would wait for the helper that waits for the sink to be closed, and that has ended
      obtain ⟨hsignal, -⟩ := hw.awaits_signal (s := s) hquiet ha hgoing
        (by rw [hpoint, ← hsink]; rfl) (by rw [hpoint]; simp)
      have hmem : tasks.closer ∈ a.point.awaited := by rw [hpoint]; simp [Point.awaited]
      obtain ⟨b, hb, hbgoing⟩ := hw.alert.awaits_going hquiet ha hgoing hsignal _ hmem
      have hover := hcloser.ended hw hquiet hclosed
      rw [Loop.ended_of_task? hb, hbgoing] at hover
      cases hover
  | clearing ha hgoing _ _ _ hwait hover =>
      -- one of those that it has called off would go on
      obtain ⟨m, hm, b, hb, hbgoing⟩ := hw.alert.group_going hquiet ha hgoing hwait
      have hgone := (hover m hm).ended hw hquiet
      rw [Loop.ended_of_task? hb, hbgoing] at hgone
      cases hgone

/-- Who closes the sink of a call that has its cache ends the call and its streams, which close
their logs, unless the call waits for room to report a pod that cannot be decoded. -/
theorem Call.closing (h : Call t op plan turns w) (hop : op.sink = some s) (hquiet : w.Quiescent)
    (hclosed : (w.sink s).closed = true) (hpast : ¬w.AwaitsCache t) :
    (w.loop.ended t = true ∧
        ∀ v ∈ (World.opened t turns).map (·.1), w.loop.ended v = true ∧ v ∉ w.openLogs) ∨
      w.AwaitsReport s t ∧ World.opened t turns = [] := by
  have hawake := h.lived.orderly.awake
  rcases (h.stage hop).ended_of_closed hawake hquiet hclosed hpast with hended | hreport
  · exact .inl ⟨hended, h.streams_over hop hquiet hended⟩
  · exact .inr hreport

/-- Who closes the sink of a call ends it that waits for room to put the lines of a log in. -/
theorem closing_while_reading : ∃ turns w,
    Call 1 { factory := 0, sink := some 0 } webTail turns w ∧ w.Quiescent ∧
      (w.sink 0).closed = true ∧ (World.opened 1 turns).map (·.1) = [2] ∧
      w.loop.ended 1 = true ∧ w.loop.ended 2 = true ∧ 2 ∉ w.openLogs := by
  have hcall : Call 1 _ webTail _ (tailingWeb soundPods).world :=
    call_tailingWeb rfl (by decide) rfl rfl
  have hreads := hcall.heard (r := .log "default/a" "app" [.line "up", .line "down"] none)
    (by simp) (by rintro k ⟨⟩)
  have hcloses := hreads.heard (r := .close "s") (by simp) (by rintro k ⟨⟩; decide)
  have hover := hcloses.closing rfl rfl rfl fun ⟨a, op, i, next, ha, hgoing, _⟩ => by
    cases ha
    cases hgoing
  rcases hover with ⟨hended, hstreams⟩ | ⟨hreport, -⟩
  · exact ⟨_, _, hcloses, rfl, rfl, rfl, hended, hstreams 2 (by decide)⟩
  · obtain ⟨a, call, targets, pods, d, out, ha, hgoing, -⟩ := hreport
    cases ha
    cases hgoing

/-- A call that waits for room to report a pod does not hear that its sink is closed. -/
theorem closing_unheard : ∃ turns w,
    Call 1 { factory := 0, sink := some 0 } webTail turns w ∧ w.Quiescent ∧
      (w.sink 0).closed = true ∧ ¬w.AwaitsCache 1 ∧ w.loop.ended 1 = false := by
  have hcall : Call 1 _ webTail _ (tailingWeb brokenPods).world :=
    call_tailingWeb rfl (by decide) rfl rfl
  have hcloses := hcall.heard (r := .close "s") (by simp) (by rintro k ⟨⟩; decide)
  refine ⟨_, _, hcloses, rfl, rfl, fun ⟨a, op, i, next, ha, _, hpoint⟩ => ?_, rfl⟩
  cases ha
  cases hpoint

end World

end LiveCluster.Simulation
