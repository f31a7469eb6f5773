import LiveCluster.Proofs.Tail.Flow

/-!
# Fan-in

What a consumer is handed of the pods that are tailed into its sink, whatever the order in
which streams, the tail and the consumer go on. Nothing is lost, nothing comes twice, what
is read from one container comes in order, and the end is seen only after everything else.
-/

namespace LiveCluster.Simulation

open Loop (StandsAt EndedAt TaskEases TaskStays Gentle)

/-- The call of a tail that has found its pods. -/
def Point.tailing? : Point → Option TailCall
  | .reporting call .. | .supervising call .. | .clearing call _ => some call
  | _ => none

theorem tailing?_of_finds {s : SinkId} {p : Point} (h : p.finds s) : p.tailing? = none := by
  cases p with
  | planning | syncing => rfl
  | _ => cases h

namespace World

variable {w w' : World} {s : SinkId} {t u v g : TaskId} {race : Option Race}
  {gets : List TaskId} {out : List LogEvent} {reads : List (TaskId × LogItem)} {p : Point}

/-- The course of a tail whose sink is its own and has one consumer, and of whom nobody is
cancelled, nor the sink closed by anybody else. The jobs that are ready are run in any order. In
between there may be anything that does not concern the sink. -/
inductive Course (s : SinkId) (t : TaskId) :
    List TaskId → List (TaskId × LogItem) → World → Prop
  | call {w : World} {op : Operation} (plan : Plan Next) (tidy : w.Tidy)
      (bound : s < w.sinks.length) (fresh : (w.sink s).closed = false)
      (empty : (w.sink s).channel.items = [])
      (free : ∀ v a, w.loop.task? v = some a → a.point.sink? ≠ some s)
      (sink : op.sink = some s) (task : t = w.loop.tasks.length) :
      Course s t [] [] (w.spawn (.planning op plan)).1
  | job {gets : List TaskId} {reads : List (TaskId × LogItem)} {w : World} {job : Job}
      (before after : List Job) (round : Nat) (course : Course s t gets reads w)
      (ready : w.loop.ready = before ++ job :: after) :
      Course s t gets (reads ++ (w.withReady (before ++ after) round).readsAt s job)
        ((w.withReady (before ++ after) round).run job)
  | get {gets : List TaskId} {reads : List (TaskId × LogItem)} {w : World} (all : Bool)
      (course : Course s t gets reads w) (answered : ∀ g ∈ gets, w.loop.ended g = true) :
      Course s t (gets ++ [w.loop.tasks.length]) reads
        (w.spawn (.getting s (if all then some [] else none) none)).1
  | elsewhere {gets : List TaskId} {reads : List (TaskId × LogItem)} {w w' : World}
      (course : Course s t gets reads w) (away : Away s w w') : Course s t gets reads w'

theorem Flows.withReady (h : Flows s t gets reads w) (ready : List Job) (round : Nat) :
    Flows s t gets reads (w.withReady ready round) := by
  have hmild : Mild none w (w.withReady ready round) :=
    .of_eq (Loop.spares_of_eq rfl rfl) rfl rfl
  exact h.away (hmild.away h.tidy (by simp))

/-- At the beginning nothing flows. -/
theorem flows_call {op : Operation} (plan : Plan Next) (htidy : w.Tidy) (hs : s < w.sinks.length)
    (hopen : (w.sink s).closed = false) (hempty : (w.sink s).channel.items = [])
    (hfree : ∀ v a, w.loop.task? v = some a → a.point.sink? ≠ some s) (hop : op.sink = some s) :
    Flows s w.loop.tasks.length [] [] (w.spawn (.planning op plan)).1 := by
  have hmild : Mild (some s) w (w.spawn (.planning op plan)).1 := .spawn w (.inr hop) rfl
  have ha : (w.spawn (.planning op plan)).1.loop.task? w.loop.tasks.length =
      some { point := .planning op plan } := (w.loop.task?_spawn _ _).trans (if_pos rfl)
  -- nobody else is at the sink
  have hnew : ∀ v b, (w.spawn (.planning op plan)).1.loop.task? v = some b →
      b.point.sink? = some s → v = w.loop.tasks.length ∧ b.point = .planning op plan := by
    intro v b hb hsink
    rcases Loop.task?_of_spawn (l := w.loop) hb with ⟨hv, rfl⟩ | hold
    · exact ⟨hv, rfl⟩
    · exact absurd hsink (hfree v b hold)
  have hpoint : ∀ v b p, (w.spawn (.planning op plan)).1.loop.task? v = some b → b.point = p →
      p.sink? = some s → p = .planning op plan := fun v b p hb hp hsink =>
    hp ▸ (hnew v b hb (hp ▸ hsink)).2
  refine ⟨hmild.tidy htidy, hs, fun v b hv hb hsink => absurd (hnew v b hb hsink).1 hv, none, ?_,
    ?_, ?_⟩
  · exact {
      getters := fun _ hg => absurd hg List.not_mem_nil
      known := fun g b c r hb hb' => by cases hpoint g b _ hb hb' rfl
      past := fun _ hg => absurd hg List.not_mem_nil
      racing := fun _ hr => by cases hr
      takers := fun v b hb hb' => by cases hpoint v b _ hb hb' rfl }
  · exact .finding ha rfl rfl hop hopen hempty rfl fun v b st q hb hb' hst => by
      cases hpoint v b _ hb hb' (congrArg some hst)
  · rintro ⟨g, hg, -⟩
    cases hg

/-- A consumer that waits for no events comes again. -/
theorem Consumer.asks_again (h : Consumer s gets none w) (collected : Option (List LogEvent))
    (hover : ∀ g ∈ gets, w.loop.ended g = true)
    (ha : Apart s (· = w.loop.tasks.length) (fun _ => False) w
      (w.spawn (.getting s collected none)).1) :
    Consumer s (gets ++ [w.loop.tasks.length]) none (w.spawn (.getting s collected none)).1 := by
  have hnow : (w.spawn (.getting s collected none)).1.loop.StandsAt w.loop.tasks.length
      (.getting s collected none) := w.loop.standsAt_spawn _
  have hended : ∀ g ∈ gets, ∃ c r e, (w.spawn (.getting s collected none)).1.loop.EndedAt g
      (.getting s c r) e := by
    intro g hg
    rcases h.getters g hg with ⟨c, hc⟩ | ⟨c, r, e, he⟩
    · have hgone := hover g hg
      rw [hc.not_ended] at hgone
      cases hgone
    · obtain ⟨a, hg', -⟩ := id he
      exact ⟨c, r, e, ha.endedAt (Loop.ne_next_of_task? hg') rfl he⟩
  exact {
    getters := fun g hg => by
      rcases List.mem_append.1 hg with hold | hlast
      · exact .inr (hended g hold)
      · rw [List.mem_singleton.1 hlast]
        exact .inl ⟨_, hnow⟩
    known := fun g b c r hb hb' => by
      rcases Loop.task?_of_spawn (l := w.loop) hb with ⟨rfl, -⟩ | hold
      · exact List.mem_append_right _ List.mem_cons_self
      · exact List.mem_append_left _ (h.known g b c r hold hb')
    past := fun g hg => by
      rw [List.dropLast_concat] at hg
      obtain ⟨c, r, e, he⟩ := hended g hg
      exact he.ended
    racing := fun _ hr => by cases hr
    takers := fun v b hb hb' hending hother => by
      rcases Loop.task?_of_spawn (l := w.loop) hb with ⟨-, rfl⟩ | hold
      · cases hb'
      · exact h.takers v b hold hb' hending hother }

/-- A task is made that is no stream. -/
theorem spared_spawn (hphase : Phase s t race out reads w) (htidy : w.Tidy)
    (hsink : p.sink? = some s) (hwards : p.wards = []) (hp : ∀ st q, p ≠ .stream st q) :
    Spared s t race (· = w.loop.tasks.length) (fun _ => False) w (w.spawn p).1 := by
  have hmild : Mild (some s) w (w.spawn p).1 := .spawn w (.inr hsink) hwards
  exact {
    apart := (hmild.works _).apart htidy
    closed := rfl
    tail := by
      obtain ⟨q, hq⟩ := hphase.tail
      exact Nat.ne_of_lt hq.lt
    miss := fun _ _ _ h => h
    streams := fun v a _ _ ha _ _ => ⟨Loop.ne_next_of_task? ha, fun _ h => h⟩
    made := fun v b st q hb hpoint _ => by
      rcases Loop.task?_of_spawn (l := w.loop) hb with ⟨-, rfl⟩ | ha
      · exact absurd hpoint (hp st q)
      · exact ⟨Loop.lt_of_task? ha, Loop.ne_next_of_task? ha⟩
    closers := fun v hv _ _ => hv.spawn _ }

/-- If all calls for events have ended there is no race. -/
theorem Consumer.no_race (h : Consumer s gets race w) (hover : ∀ g ∈ gets, w.loop.ended g = true) :
    race = none := by
  cases race with
  | none => rfl
  | some r =>
      obtain ⟨-, g, hg, c, hc⟩ := h.racing r rfl
      have hended := hover g hg
      rw [hc.not_ended] at hended
      cases hended

theorem Consumer.getter_lt (h : Consumer s gets race w) (hg : g ∈ gets) :
    g < w.loop.tasks.length := by
  rcases h.getters g hg with ⟨c, a, ha, -⟩ | ⟨c, r, e, a, ha, -⟩ <;>
    exact Loop.lt_of_task? ha

/-- Who comes again has taken nothing more. -/
theorem Consumer.taken_again (h : Consumer s gets none w) {collected : Option (List LogEvent)}
    (hcollected : collected.getD [] = [])
    (ha : Apart s (· = w.loop.tasks.length) (fun _ => False) w
      (w.spawn (.getting s collected none)).1) :
    (w.spawn (.getting s collected none)).1.taken (gets ++ [w.loop.tasks.length]) =
      w.taken gets := by
  have hnow : (w.spawn (.getting s collected none)).1.loop.StandsAt w.loop.tasks.length
      (.getting s collected none) := w.loop.standsAt_spawn _
  rw [taken, List.flatMap_append, List.flatMap_singleton, handedBy_stands hnow,
    heldBy_stands hnow, hcollected]
  exact (List.append_nil _).trans
    (h.taken_eq ha (fun g hg => ⟨Nat.ne_of_lt (h.getter_lt hg), id⟩) fun r hr => by cases hr)

/-- The consumer comes again. -/
theorem Flows.get (h : Flows s t gets reads w) (collected : Option (List LogEvent))
    (hcollected : collected.getD [] = []) (hover : ∀ g ∈ gets, w.loop.ended g = true) :
    Flows s t (gets ++ [w.loop.tasks.length]) reads
      (w.spawn (.getting s collected none)).1 := by
  obtain ⟨htidy, hs, hstaff, race, hconsumer, hphase, hdrained⟩ := h
  obtain rfl := hconsumer.no_race hover
  have hspared : Spared s t none _ _ w (w.spawn (.getting s collected none)).1 :=
    spared_spawn hphase htidy rfl rfl fun _ _ h => by cases h
  have hmild : Mild (some s) w (w.spawn (.getting s collected none)).1 := .spawn w (.inr rfl) rfl
  have hnow : (w.spawn (.getting s collected none)).1.loop.StandsAt w.loop.tasks.length
      (.getting s collected none) := w.loop.standsAt_spawn _
  refine ⟨hmild.tidy htidy, hs, fun v b hvt hb hsink => ?_, none,
    hconsumer.asks_again collected hover hspared.apart, ?_, ?_⟩
  · rcases Loop.task?_of_spawn (l := w.loop) hb with ⟨rfl, -⟩ | ha
    · exact attends_of_rests (.inl hnow) rfl
    · refine (hstaff v b hvt ha hsink).stays fun a ha' => ?_
      cases ha.symm.trans ha'
      exact ⟨b, hb, .refl b⟩
  · rw [hconsumer.taken_again hcollected hspared.apart]
    exact hphase.spared hspared fun r hr => .inl hr
  · rintro ⟨g, hg, hend⟩
    rcases List.mem_append.1 hg with hold | hlast
    · exact hdrained ⟨g, hold, hconsumer.sawEnd_back hspared.apart hold
        ⟨Nat.ne_of_lt (hconsumer.getter_lt hold), id⟩ hend⟩
    · rw [List.mem_singleton.1 hlast] at hend
      exact absurd hend (not_sawEnd_of_standsAt hnow)

theorem Course.flows (h : Course s t gets reads w) : Flows s t gets reads w := by
  induction h with
  | call plan htidy hs hopen hempty hfree hop ht =>
      subst ht
      exact flows_call plan htidy hs hopen hempty hfree hop
  | job before after round course ready ih => exact (ih.withReady _ round).run _
  | get all course answered ih => exact ih.get _ (by cases all <;> rfl) answered
  | elsewhere course away ih => exact ih.away away

/-- Jobs that are run in the order in which they became ready are run in some order. -/
theorem Course.step (h : Course s t gets reads w) (hstep : w.step? = some w') :
    ∃ more, Course s t gets (reads ++ more) w' := by
  have hround : Mild none w w.nextRound := w.mild_nextRound
  have hnext := h.elsewhere (hround.away h.flows.tidy (by simp))
  unfold step? at hstep
  dsimp only at hstep
  split at hstep
  · cases hstep
  · next job rest hready =>
      cases hstep
      exact ⟨_, hnext.job [] rest (w.nextRound.loop.round - 1) hready⟩

theorem Course.settleWithin (h : Course s t gets reads w) (n : Nat) :
    ∃ more, Course s t gets (reads ++ more) (w.settleWithin n) := by
  induction n generalizing w reads with
  | zero => exact ⟨[], (List.append_nil reads).symm ▸ h⟩
  | succ n ih =>
      unfold World.settleWithin
      split
      · next w' hstep =>
          obtain ⟨more, hmore⟩ := h.step hstep
          obtain ⟨rest, hrest⟩ := ih hmore
          exact ⟨more ++ rest, List.append_assoc reads more rest ▸ hrest⟩
      · exact ⟨[], (List.append_nil reads).symm ▸ h⟩

/-- What has come of a tail. `reported` are the failures of pods among what came into the sink,
and `rest` is what the streams delivered. -/
structure FansIn (s : SinkId) (t : TaskId) (call : TailCall) (streams : List (TaskId × TailTarget))
    (gets : List TaskId) (reads : List (TaskId × LogItem)) (held reported rest : List LogEvent)
    (w : World) : Prop where
  /-- Whatever came in has been handed to the consumer, or comes next, or is still in the sink. -/
  comes : w.handed gets ++ held ++ (w.sink s).channel.items = reported ++ rest
  single : held.length ≤ 1
  failures : reported <+: Tailer.failures call.options call.pods
  /-- Before every pod that cannot be decoded is reported, no stream is opened. -/
  opened : streams = [] ∧ rest = [] ∧ reads = [] ∧ w.loop.ended t = false ∨
    streams.map (·.2) = Tailer.allTargets call.options call.pods ∧
      reported = Tailer.failures call.options call.pods
  tasks : ∀ v target, (v, target) ∈ streams → ∃ a p, w.loop.task? v = some a ∧
    a.point = .stream ⟨s, target, call.options⟩ p
  /-- Nobody else delivers into the sink. -/
  only : ∀ v a st p, w.loop.task? v = some a → a.point = .stream st p → st.sink = s →
    v ∈ streams.map (·.1)
  apart : ∀ e ∈ reported, e.origin ∉ streams.map (·.2.origin)
  origins : ∀ e ∈ rest, e.origin ∈ streams.map (·.2.origin)
  /-- Of each stream there is, in order, what it has read, but for one event at most that it has
  yet to put in. -/
  delivered : ∀ v target, (v, target) ∈ streams → ∃ due : List LogEvent, due.length ≤ 1 ∧
    rest.filter (·.origin == target.origin) ++ due =
      target.events call.options (ofTask v reads)
  whole : ∀ v target, (v, target) ∈ streams → w.loop.ended v = true →
    Whole target call.options (ofTask v reads) (rest.filter (·.origin == target.origin))
  returned : w.loop.ended t = true → ∀ v ∈ streams.map (·.1), w.loop.ended v = true
  /-- When the consumer sees the end, everything has been handed to it. -/
  drained : (∃ g ∈ gets, w.SawEnd g) →
    w.loop.ended t = true ∧ held = [] ∧ (w.sink s).channel.items = []

variable {call : TailCall} {pairs : List (TaskId × TailTarget)} {held : List LogEvent}

theorem Ledger.fansIn (h : Ledger s call pairs out reads w)
    (hdistinct : Tailer.Distinct call.options call.pods) (hheld : held.length ≤ 1)
    (hcomes : w.handed gets ++ held ++ (w.sink s).channel.items = out)
    (hreturned : w.loop.ended t = true → ∀ v ∈ pairs.map (·.1), w.loop.ended v = true)
    (hdrained : (∃ g ∈ gets, w.SawEnd g) →
      w.loop.ended t = true ∧ held = [] ∧ (w.sink s).channel.items = []) :
    ∃ rest, FansIn s t call pairs gets reads held
      (Tailer.failures call.options call.pods) rest w := by
  obtain ⟨rest, rfl, horigins, haccounts⟩ := h.origins hdistinct
  exact ⟨rest, {
    comes := hcomes
    single := hheld
    failures := List.prefix_rfl
    opened := .inr ⟨h.targets, rfl⟩
    tasks := fun v target hpair => (haccounts v target hpair).point
    only := h.only
    apart := fun e he => by
      have hapart := hdistinct.failures he
      rwa [← h.targets, List.map_map] at hapart
    origins := horigins
    delivered := fun v target hpair => (haccounts v target hpair).due
    whole := fun v target hpair hv => (haccounts v target hpair).whole hv
    returned := hreturned
    drained := hdrained }⟩

/-- Before its streams are opened a tail has delivered failures of pods only. -/
theorem Reports.fansIn {targets : List TailTarget} {pods : List Snapshot} {d : Delivery}
    (h : Reports call targets pods d out) (ht : w.loop.ended t = false)
    (hopen : (w.sink s).closed = false) (hnone : NoStreams s w) (hheld : held.length ≤ 1)
    (hcomes : w.handed gets ++ held ++ (w.sink s).channel.items = out)
    (hdrained : (∃ g ∈ gets, w.SawEnd g) → (w.sink s).closed = true) :
    FansIn s t call [] gets [] held out [] w := by
  obtain ⟨before, pod, fault, hpods, -, -, -, hout⟩ := h
  exact {
    comes := hcomes.trans (List.append_nil _).symm
    single := hheld
    failures := by
      rw [hout, hpods, Tailer.failures_append]
      exact List.prefix_append ..
    opened := .inl ⟨rfl, rfl, rfl, ht⟩
    tasks := fun _ _ hpair => absurd hpair List.not_mem_nil
    only := fun v a st p hv hpoint hst => absurd hst (hnone v a st p hv hpoint)
    apart := fun _ _ => List.not_mem_nil
    origins := fun _ he => absurd he List.not_mem_nil
    delivered := fun _ _ hpair => absurd hpair List.not_mem_nil
    whole := fun _ _ hpair => absurd hpair List.not_mem_nil
    returned := fun _ _ hv => absurd hv List.not_mem_nil
    drained := fun hend => by
      rw [hopen] at hdrained
      cases hdrained hend }

/-- In every course of a tail the consumer is handed the failures of the pods that cannot be
decoded, and then what the streams read, of each in order. -/
theorem fan_in (h : Course s t gets reads w) {a : Task Point Report}
    (ha : w.loop.task? t = some a) (hcall : a.point.tailing? = some call)
    (hdistinct : Tailer.Distinct call.options call.pods) :
    ∃ streams held reported rest, FansIn s t call streams gets reads held reported rest w := by
  obtain ⟨-, -, -, race, hconsumer, hphase, hdrained⟩ := h.flows
  obtain ⟨held, hheld, htaken, hnone⟩ := hconsumer.taken_split
  rw [htaken] at hphase
  have hunseen : (w.sink s).closed = false → ¬∃ g ∈ gets, w.SawEnd g := fun hopen hend => by
    rw [(hdrained hend).2.1] at hopen
    cases hopen
  cases hphase with
  | @finding b hb _ _ hp =>
      cases ha.symm.trans hb
      rw [tailing?_of_finds hp] at hcall
      cases hcall
  | lost hended hp =>
      rw [(hended.point_eq ha).1, tailing?_of_finds hp] at hcall
      cases hcall
  | reporting ht hsink hopen hreports hunread hstreams =>
      rw [(ht.point_eq ha).1] at hcall
      cases hcall
      subst hunread
      exact ⟨_, held, _, _, hreports.fansIn ht.not_ended hopen hstreams hheld rfl fun hend =>
        absurd hend (hunseen hopen)⟩
  | @supervising call' tasks pending pairs ht hsink hopen _ _ _ _ hledger =>
      rw [(ht.point_eq ha).1] at hcall
      cases hcall
      have hgoing : w.loop.ended t ≠ true := by simp [ht.not_ended]
      exact ⟨pairs, held, _, hledger.fansIn hdistinct hheld rfl
        (fun hended => absurd hended hgoing) fun hend => absurd hend (hunseen hopen)⟩
  | @clearing call' pairs ht hsink hopen hledger hstreams =>
      rw [(ht.point_eq ha).1] at hcall
      cases hcall
      exact ⟨pairs, held, _, hledger.fansIn hdistinct hheld rfl (fun _ => hstreams)
        fun hend => absurd hend (hunseen hopen)⟩
  | @done call' pairs ht hsink hclosed hledger hstreams =>
      rw [(ht.point_eq ha).1] at hcall
      cases hcall
      exact ⟨pairs, held, _, hledger.fansIn hdistinct hheld rfl (fun _ => hstreams)
        fun hend => ⟨ht.ended, hnone (hdrained hend).1, (hdrained hend).2.2⟩⟩

/-- Two pods whose logs are tailed. The log of the first fails after a line. -/
def twoPods : TailCall where
  sink := 0
  pods := ["db", "web"].map fun name => ⟨"Pod", "default", name, "1", [], .record []⟩
  options := { container := some "app" }

/-- They are tailed into a sink that has room for one event. -/
def twoTailed : World where
  clock := default
  sinks := [.new 1]
  cluster := { logs := [
    ("default/db", [("app", { items := [.line "ready", .failed .timedOut] })]),
    ("default/web", [("app", { items := [.line "up", .line "down", .ended] })])] }

/-- Their tail and a call for all events, as far as they come. -/
def twoDrained : World :=
  let plan : Plan Next := .done (.ok (.tail ⟨twoPods.pods, twoPods.options⟩))
  ((twoTailed.spawn (.planning { factory := 0, sink := some 0 } plan)).1.spawn
    (.getting 0 (some []) none)).1.settleWithin 60

theorem fan_in_two_pods :
    ∃ reads streams held reported rest, Course 0 0 [1] reads twoDrained ∧
      FansIn 0 0 twoPods streams [1] reads held reported rest twoDrained ∧
      twoDrained.loop.ending? 1 = some (.returned (.events [
        .line "db" "app" "ready" false, .failure "db" "app" .timedOut,
        .line "web" "app" "up" false, .line "web" "app" "down" false])) := by
  let plan : Plan Next := .done (.ok (.tail ⟨twoPods.pods, twoPods.options⟩))
  have hcall : Course 0 0 [] [] (twoTailed.spawn
      (.planning { factory := 0, sink := some 0 } plan)).1 := by
    refine .call _ ?_ Nat.zero_lt_one rfl rfl ?_ rfl rfl
    · exact {
        wards := fun _ _ ha => by cases ha
        workers := fun _ _ hv => by cases hv
        waits := fun _ _ ha => by cases ha
        limits := fun _ _ ⟨_, htimer, _⟩ => absurd htimer List.not_mem_nil
        fresh := fun _ _ ha => by cases ha }
    · exact fun _ _ ha => by cases ha
  have hget := hcall.get true (fun _ hg => absurd hg List.not_mem_nil)
  obtain ⟨reads, hcourse⟩ := hget.settleWithin 60
  have hcourse' : Course 0 0 [1] ([] ++ reads) twoDrained := hcourse
  have hdistinct : Tailer.Distinct twoPods.options twoPods.pods := by
    refine ⟨by decide, fun pod hpod more hmore => ?_⟩
    cases hmore
    simp
  obtain ⟨a, ha, hpoint⟩ : ∃ a, twoDrained.loop.task? 0 = some a ∧
      a.point.tailing? = some twoPods := ⟨_, rfl, rfl⟩
  obtain ⟨streams, held, reported, rest, hfans⟩ := fan_in hcourse' ha hpoint hdistinct
  refine ⟨_, streams, held, reported, rest, hcourse', hfans, ?_⟩
  rfl

end World

end LiveCluster.Simulation
