import LiveCluster.Proofs.Simulation.Requests
import LiveCluster.Proofs.Simulation.Ceding

/-!
# The lives of worlds

A world begins as that of a new session. From then on the jobs that are ready are run, in
any order, time passes, and requests come at any moment, also between two jobs. `Lived` is
said of every world that can come of that, the worlds of sessions among them. In all of
them nobody is forgotten and it is known who may call off whom.
-/

namespace LiveCluster

/-- Whose turn a job is. -/
def Job.resumed? : Job → Option TaskId
  | .resume t => some t
  | _ => none

namespace Simulation

open Loop (TaskBides Alert)

theorem Point.admits.bides {p : Point} {a b : Wait} (h : p.admits a) (hab : a.Bides b) :
    p.admits b := by
  cases hab with
  | same | woken | dropped | group => exact h

namespace World

/-- What can happen to a world next, and whose turn that is, if it is a task's. -/
inductive Happens : Option TaskId → World → World → Prop
  | job {w : World} {job : Job} (before after : List Job) (round : Nat)
      (ready : w.loop.ready = before ++ job :: after) :
      Happens job.resumed? w ((w.withReady (before ++ after) round).run job)
  /-- The timers are looked at. -/
  | round (w : World) : Happens none w (w.withLoop Loop.beginRound)
  | time (w : World) (now : Float) :
      Happens none w { w with loop := { w.loop with now := now } }
  | journal (w : World) (journal : Journal) : Happens none w { w with journal := journal }
  /-- Somebody requests something, and speaks of no sinks but those that there are. -/
  | request (s : Session) (r : Request) (inLoop : Bool)
      (instant : ∀ seconds, r ≠ .advance seconds)
      (known : ∀ k, s.concerns r = some k → k < s.world.sinks.length) :
      Happens none s.world (s.begin r inLoop).1.world

/-- The worlds of sessions, whatever happens in them. -/
inductive Lived : World → Prop
  | new (watch : WatchConfig) (tail : TailConfig) (clock : Instant)
      (clusterScoped : Option (List String)) :
      Lived (Session.new watch tail clock clusterScoped).world
  | next {who : Option TaskId} {w w' : World} : Lived w → Happens who w w' → Lived w'

/-- What may become of a world, whatever happens. -/
inductive Becomes (w : World) : World → Prop
  | refl : Becomes w w
  | next {who : Option TaskId} {v x : World} : Becomes w v → Happens who v x → Becomes w x

/-- Nothing can happen without time passing or something coming from outside. -/
def Quiescent (w : World) : Prop :=
  w.loop.ready = []

/-- Tasks work only at sinks that there are. -/
def Bound (w : World) : Prop :=
  ∀ v a s, w.loop.task? v = some a → a.point.sink? = some s → s < w.sinks.length

variable {w w' : World} {t v : TaskId} {s : SinkId} {who : Option TaskId} {f : Option SinkId}
  {l : Loop Point Report}

/-! ## Sinks that there are -/

theorem Bound.works {hit : TaskId → Prop} (h : w.Bound) (hw : Works t f hit w w')
    (hf : ∀ s, f = some s → s < w.sinks.length) : w'.Bound := by
  intro v b s hb hs
  rw [hw.sinks]
  rcases hw.sink_back hb hs with ⟨a, ha, hs⟩ | hsame
  · exact h v a s ha hs
  · exact hf s hsame

theorem Bound.mild (h : w.Bound) (hw : Mild f w w')
    (hf : ∀ s, f = some s → s < w.sinks.length) : w'.Bound := by
  have hworks : Works w.loop.tasks.length f (fun _ => False) w w' := hw.works _
  exact h.works hworks hf

theorem Bound.run (h : w.Bound) (ht : w.Tidy) (job : Job) : (w.run job).Bound := by
  rcases w.run_cases job with ⟨t, l, p, arrival, rfl, harrive, hrun⟩ |
      ⟨-, ⟨id, v, -, hrun⟩ | hmild⟩
  · rw [hrun]
    obtain ⟨a, ha, -, rfl, -, -⟩ := Loop.arrive_spec harrive
    exact h.works (w.works_resume t ht harrive) fun s hs => h t a s ha hs
  · have hcancel : Mild none w (w.withLoop (·.cancelTimer id)) := w.mild_cancelTimer id
    rw [hrun]
    exact (h.mild hcancel (by simp)).works (Works.expire (u := v) (f := none)) (by simp)
  · exact h.mild hmild (by simp)

/-! ## Running a job -/

/-- Who waits is left where he is. -/
theorem Awake.of_bides (h : Awake none w) (halert : Alert Point.awaited none l)
    (hbides : ∀ v b, l.task? v = some b →
      b.wait = .none ∨ ∃ a, w.loop.task? v = some a ∧ TaskBides a b) :
    Awake none { w with loop := l } where
  alert := halert
  admits v b _ hb hending := by
    rcases hbides v b hb with hnone | ⟨a, ha, hab⟩
    · rw [hnone]
      trivial
    · rw [hab.point]
      exact (h.admits v a (by simp) ha (hab.ending.symm.trans hending)).bides hab.wait
  heard v b s _ hb hending hpoint hsignal := by
    rcases hbides v b hb with hnone | ⟨a, ha, hab⟩
    · rw [hsignal] at hnone
      cases hnone
    · refine h.heard v a s (by simp) ha (hab.ending.symm.trans hending)
        (hab.point.symm.trans hpoint) ?_
      have hwait := hab.wait
      rw [hsignal] at hwait
      exact hwait.signal
  runs _ ht := by cases ht

variable {before after : List Job} {round : Nat} {job : Job}

theorem task?_arrive {p : Point} {arrival : Arrival} {l' : Loop Point Report}
    (h : l.arrive t = some (l', p, arrival)) (hv : v ≠ t) : l'.task? v = l.task? v := by
  unfold Loop.arrive at h
  split at h
  · cases h
  · split at h
    · cases h
    · cases h
      exact (Loop.task?_modify _ t v _).trans (if_neg (Ne.symm hv))

/-- A task is on its way. -/
theorem Awake.arrive {p : Point} {arrival : Arrival} (h : Awake none w)
    (hready : w.loop.ready = before ++ .resume t :: after)
    (harrive : (w.withReady (before ++ after) round).loop.arrive t = some (l, p, arrival)) :
    Awake (some t) { w.withReady (before ++ after) round with loop := l } where
  alert := h.alert.arrive hready harrive
  admits v a hv ha hending := by
    have hne : v ≠ t := fun heq => hv (congrArg some heq.symm)
    exact h.admits v a (by simp) ((task?_arrive harrive hne).symm.trans ha) hending
  heard v a s hv ha hending hpoint hsignal := by
    have hne : v ≠ t := fun heq => hv (congrArg some heq.symm)
    exact h.heard v a s (by simp) ((task?_arrive harrive hne).symm.trans ha) hending hpoint hsignal
  runs u hu := by
    cases hu
    obtain ⟨a, -, hending, -, -, hl⟩ := Loop.arrive_spec harrive
    exact ⟨_, hl, hending, rfl⟩

theorem minds_ring (w : World) (alarm : Alarm) : Minds none w (w.ring alarm) := by
  cases alarm with
  | wake t => exact w.minds_withLoop (w.loop.keeps_wake t)
  | expire t => exact w.minds_withLoop (g := (·.expire t)) (w.loop.keeps_expire t)
  | establish i => exact w.minds_establish i

/-- Of all tasks but the one whose turn it is nothing more is known than that they wait, and have
a log open if they had one. A closed sink stays closed, and a log is opened only by a stream that
begins. -/
structure Passes (who : Option TaskId) (w w' : World) : Prop where
  others : ∀ v a, who ≠ some v → w.loop.task? v = some a →
    ∃ b, w'.loop.task? v = some b ∧ TaskBides a b
  closed : ∀ s, (w.sink s).closed = true → (w'.sink s).closed = true
  opens : ∀ v ∈ w'.openLogs, v ∈ w.openLogs ∨
    who = some v ∧ ∃ a st, w.loop.task? v = some a ∧ a.point = .stream st .opening
  logs : ∀ v ∈ w.openLogs, who ≠ some v → v ∈ w'.openLogs

theorem Minds.passes (h : Minds none w w') : Passes who w w' where
  others _ _ _ ha := h.keeps.bides ha
  closed := h.closed
  opens _ hv := .inl (h.opens hv)
  logs v hv _ := h.logs v hv (by simp)

/-- What a job does, of which the rest of the queue is left. -/
theorem passes_run (w : World) (job : Job) (hbound : w.Bound) :
    Passes job.resumed? w (w.run job) := by
  cases job with
  | resume t =>
      cases harrive : w.loop.arrive t with
      | none =>
          rw [run, harrive]
          exact (Minds.refl none w).passes
      | some arrived =>
          obtain ⟨l, p, arrival⟩ := arrived
          obtain ⟨a, ha, -, rfl, -, -⟩ := Loop.arrive_spec harrive
          have hcedes := cedes_runPoint { w with loop := l } t a.point arrival fun s hs =>
            hbound t a s ha (by rw [hs]; rfl)
          obtain ⟨hloop, hsinks, hlogs, hopens⟩ :=
            asked_spec { w with loop := l } t a.point arrival
          rw [run, harrive]
          refine ⟨fun v b hv hb => ?_, fun s hs => hcedes.closed s ?_, fun v hv => ?_,
            fun v hv hne => hcedes.logs v (hlogs hv) fun heq => hne (congrArg some heq.symm)⟩
          · have hne : v ≠ t := fun heq => hv (congrArg some heq.symm)
            obtain ⟨c, hc, hending, hstirs⟩ :=
              hcedes.others v b hne (by rw [hloop]; exact (task?_arrive harrive hne).trans hb)
            exact ⟨c, hc, .of_stirs hending hstirs⟩
          · rw [sink, hsinks]
            exact hs
          · refine (hopens v (hcedes.opens hv)).imp_right ?_
            rintro ⟨rfl, st, hpoint⟩
            exact ⟨rfl, a, st, ha, hpoint⟩
  | notify t turn => exact (w.minds_withLoop (w.loop.keeps_notify t turn)).passes
  | tick t =>
      exact ⟨fun v a _ ha => Loop.bides_tick_on ha, fun _ h => h, fun _ hv => .inl hv,
        fun _ hv _ => hv⟩
  | alarm id =>
      have hcancel : Minds none w (w.withLoop (·.cancelTimer id)) :=
        .of_eq (.of_eq rfl (.refl _)) rfl rfl
      unfold run
      dsimp only
      split
      · next alarm loop h =>
          rw [Loop.takeAlarm?] at h
          obtain ⟨timer, -, heq⟩ := Option.map_eq_some_iff.1 h
          cases heq
          exact (hcancel.trans (minds_ring _ _)).passes
      · exact (Minds.refl none w).passes

theorem Awake.run (h : Awake none w) (hbound : w.Bound)
    (hready : w.loop.ready = before ++ job :: after) :
    Awake none ((w.withReady (before ++ after) round).run job) := by
  have hsame : ∀ v b, (w.withReady (before ++ after) round).loop.task? v = some b →
      b.wait = .none ∨ ∃ a, w.loop.task? v = some a ∧ TaskBides a b :=
    fun v b hb => .inr ⟨b, hb, .refl b⟩
  cases job with
  | resume t =>
      cases harrive : (w.withReady (before ++ after) round).loop.arrive t with
      | none =>
          rw [World.run, harrive]
          exact h.of_bides (h.alert.gone hready harrive) hsame
      | some arrived =>
          obtain ⟨l, p, arrival⟩ := arrived
          obtain ⟨a, ha, -, rfl, -, -⟩ := Loop.arrive_spec harrive
          have harrived := h.arrive hready harrive
          rw [World.run, harrive]
          exact (cedes_runPoint { w.withReady (before ++ after) round with loop := l } t a.point
            arrival fun s hs => hbound t a s ha (by rw [hs]; rfl)).awake
            (harrived.asked _ t a.point arrival)
  | notify t turn =>
      refine h.of_bides (l := (w.withReady (before ++ after) round).loop.notify t turn)
        (h.alert.notify hready) fun v b hb => ?_
      exact ((w.withReady (before ++ after) round).loop.keeps_notify t turn).bides_back hb
  | tick t =>
      refine h.of_bides (l := (w.withReady (before ++ after) round).loop.tick t)
        (h.alert.tick hready) fun v b hb => .inr ?_
      exact Loop.bides_tick (l := (w.withReady (before ++ after) round).loop) hb
  | alarm id =>
      have hrest : Awake none (w.withReady (before ++ after) round) :=
        h.of_bides (h.alert.alarm hready) hsame
      have hcancel : Minds none (w.withReady (before ++ after) round)
          ((w.withReady (before ++ after) round).withLoop (·.cancelTimer id)) :=
        .of_eq (.of_eq rfl (.refl _)) rfl rfl
      unfold World.run
      dsimp only
      split
      · next alarm loop h =>
          rw [Loop.takeAlarm?] at h
          obtain ⟨timer, -, heq⟩ := Option.map_eq_some_iff.1 h
          cases heq
          exact hrest.minds (hcancel.trans (minds_ring _ _))
      · exact hrest

end World

/-! ## Requests -/

namespace Session

open World (Minds)

variable (s : Session) {u : Option TaskId}

theorem minds_script (r : Request) : Minds u s.world (s.script r) := by
  have hitem : ∀ path container w item, Minds u w (addLog path container w item) :=
    fun path container w item => .of_eq (Channel.keeps_give _ w.loop item) rfl rfl
  unfold script
  split
  · exact .of_eq (.refl _ _ _) rfl rfl
  · exact .of_eq (.refl _ _ _) rfl rfl
  · unfold hold
    split <;> exact .of_eq (.refl _ _ _) rfl rfl
  · exact .of_eq (s.world.loop.keeps_wakeAll _) rfl rfl
  · exact .of_eq (Channel.keeps_give _ s.world.loop _) rfl rfl
  · next path container items closing =>
      have hitems := s.world.minds_foldl (u := u) (hitem path container) items
      dsimp only
      split
      · exact hitems.trans (World.minds_closeSink _)
      · exact hitems
  all_goals exact .of_eq (.refl _ _ _) rfl rfl

theorem minds_findAccessor (rid : ResourceId) : Minds u s.world (s.findAccessor rid).1.world := by
  unfold findAccessor
  dsimp only
  split
  · exact .refl _ _
  · refine Minds.trans ?_ (World.minds_tellAll _ _)
    exact .of_eq (.refl _ _ _) rfl rfl

theorem minds_takeAccessor (rid : ResourceId) (withoutTailer : Bool) :
    Minds u s.world (s.takeAccessor rid withoutTailer).1.world := by
  have hfind : Minds u s.world _ := s.minds_findAccessor rid
  unfold takeAccessor
  split
  · next h =>
      rw [h] at hfind
      exact hfind
  · next h =>
      rw [h] at hfind
      dsimp only
      split <;> exact hfind

theorem minds_begun (p : Point) : Minds u s.world (s.begun p).1.world :=
  s.world.minds_spawn p

theorem minds_access (rid : ResourceId) (withoutTailer : Bool) (what : Access) (inLoop : Bool) :
    Minds u s.world (s.access rid withoutTailer what inLoop).1.world := by
  have htake : Minds u s.world _ := s.minds_takeAccessor rid withoutTailer
  unfold access
  split
  · next h =>
      rw [h] at htake
      exact htake
  · next s' _ _ accessor h =>
      rw [h] at htake
      split
      · exact htake
      · exact htake.trans (s'.minds_begun _)

theorem minds_takeAll (i : SinkId) (n : Nat) (w : World) : Minds u w (takeAll i n w).1 := by
  induction n generalizing w with
  | zero => exact .refl _ w
  | succ n ih =>
      unfold takeAll
      split
      · exact .refl _ w
      · next v event h => exact (w.minds_takeEvent? h).trans (ih v)

theorem minds_addSink (name : String) (limit : Int) :
    Minds u s.world (s.addSink name limit).1.world := by
  refine .of_sinks (.refl _ _ _) rfl fun r => .inl ?_
  show ((s.world.sinks ++ [Sink.new limit])[r]?.getD {}).closed =
      (s.world.sinks[r]?.getD {}).closed ∧
    ∀ v, u ≠ some v → v ∈ (s.world.sinks[r]?.getD {}).watchers →
      v ∈ ((s.world.sinks ++ [Sink.new limit])[r]?.getD {}).watchers
  by_cases hr : r < s.world.sinks.length
  · rw [List.getElem?_append_left hr]
    exact ⟨rfl, fun _ _ h => h⟩
  · -- whoever looks for a sink that is not there finds an open one that nobody watches
    rw [List.getElem?_eq_none (Nat.le_of_not_lt hr),
      List.getElem?_append_right (Nat.le_of_not_lt hr)]
    refine ⟨?_, fun v _ hv => by cases hv⟩
    cases r - s.world.sinks.length <;> rfl

/-- Who requests something minds the tasks that there are. -/
theorem minds_begin (r : Request) (inLoop : Bool) (hr : ∀ seconds, r ≠ .advance seconds) :
    Minds none s.world (s.begin r inLoop).1.world := by
  have hscript : Minds none s.world _ := s.minds_script r
  have hensure := fun rid ns => s.world.minds_ensureWatch (u := none) s.factory rid ns inLoop
  cases r with
  | advance seconds => exact absurd rfl (hr seconds)
  | sink name limit | applicationSink name => exact s.minds_addSink _ _
  | cancel call =>
      show Minds none s.world (s.cancelled call)
      unfold cancelled
      split
      · next t _ => exact s.world.minds_withLoop (g := (·.cancel t)) (s.world.loop.keeps_cancel t)
      · exact .refl _ _
  | ensureWatch rid ns =>
      rw [world_begin_ensureWatch]
      exact hensure rid ns
  | informer rid ns =>
      have hensure := hensure rid ns
      unfold begin
      dsimp only
      split
      · next h =>
          rw [h] at hensure
          exact hensure
      · next h =>
          rw [h] at hensure
          exact hensure
  | get rid path | raw rid path => exact s.world.minds_get s.factory rid path inLoop
  | list rid ns selector => exact s.world.minds_list s.factory rid ns selector inLoop
  | waitSynced | stop | stopInformer | allows | require | start | quit | put | next | all
  | awaitClose | tail | tailPod => exact s.minds_begun _
  | forward verb rid ns name body propagation grace =>
      unfold begin
      dsimp only
      split
      · exact s.minds_begun _
      · exact .refl _ _
  | accessor rid withoutTailer =>
      have htake : Minds none s.world _ := s.minds_takeAccessor rid withoutTailer
      unfold begin
      dsimp only
      split
      · next h =>
          rw [h] at htake
          exact htake
      · next s' identity _ _ h =>
          rw [h] at htake
          show Minds none s.world (s'.indexOf identity).1.world
          rw [world_indexOf]
          exact htake
  | access rid withoutTailer what => exact s.minds_access rid withoutTailer what inLoop
  | close sink => exact s.world.minds_closeSink
  | drain sink => exact minds_takeAll _ _ s.world
  | applicationScopes =>
      unfold begin
      dsimp only
      split <;> exact .refl _ _
  | state | scopes | sinkState | samples | running => exact .refl _ _
  | register | launch => exact .of_eq (.refl _ _ _) rfl rfl
  | objects | failLists | hold | letGo | feed | log | deny | failReviews | failMutations
  | version => exact hscript

theorem bound_begin (r : Request) (inLoop : Bool) (h : s.world.Bound)
    (hr : ∀ seconds, r ≠ .advance seconds)
    (hknown : ∀ k, s.concerns r = some k → k < s.world.sinks.length) :
    (s.begin r inLoop).1.world.Bound := by
  have hadd : ∀ sink : Sink, World.Bound { s.world with sinks := s.world.sinks ++ [sink] } := by
    intro sink v a k ha hk
    show k < (s.world.sinks ++ [sink]).length
    rw [List.length_append]
    exact Nat.lt_of_lt_of_le (h v a k ha hk) (Nat.le_add_right _ _)
  cases hspecial : isSpecial r with
  | false => exact h.mild (s.mild_begin r inLoop hspecial) hknown
  | true =>
      cases r with
      | advance seconds => exact absurd rfl (hr seconds)
      | sink | applicationSink => exact hadd _
      | cancel call =>
          show (s.cancelled call).Bound
          unfold cancelled
          split
          · next t _ =>
              exact h.works (World.Works.cancelAny (u := t) (f := none) t) (by simp)
          · exact h
      | _ => cases hspecial

end Session

/-! ## Whatever happens -/

namespace World

variable {w w' : World} {who : Option TaskId}

/-- What holds of every world that has lived. -/
structure Orderly (w : World) : Prop where
  tidy : w.Tidy
  bound : w.Bound
  awake : w.Awake none

theorem mild_withReady (w : World) {f : Option SinkId} (ready : List Job) (round : Nat) :
    Mild f w (w.withReady ready round) :=
  .of_eq (Loop.spares_of_eq rfl rfl) rfl rfl

theorem Orderly.of_still (h : w.Orderly) (hmild : Mild none w w') (hminds : Minds none w w') :
    w'.Orderly :=
  ⟨hmild.tidy h.tidy, h.bound.mild hmild (by simp), h.awake.minds hminds⟩

theorem Happens.orderly (h : Happens who w w') (hw : w.Orderly) : w'.Orderly := by
  cases h with
  | @job _ job before after round hready =>
      have hrest : Mild none w _ := w.mild_withReady (before ++ after) round
      exact ⟨(hrest.tidy hw.tidy).run job,
        (hw.bound.mild hrest (by simp)).run (hrest.tidy hw.tidy) job,
        hw.awake.run hw.bound hready⟩
  | round =>
      exact hw.of_still (.of_eq (Loop.gentle_beginRound _) rfl rfl)
        (.of_eq (.of_eq rfl (List.sublist_append_left ..)) rfl rfl)
  | time _ now => exact hw.of_still (w.mild_now now) (.of_eq (.of_eq rfl (.refl _)) rfl rfl)
  | journal => exact hw.of_still (.of_eq (.refl _ _) rfl rfl) (.of_eq (.refl _ _ _) rfl rfl)
  | request s r inLoop hr hknown =>
      exact ⟨s.tidy_begin r inLoop hw.tidy, s.bound_begin r inLoop hw.bound hr hknown,
        hw.awake.minds (s.minds_begin r inLoop hr)⟩

theorem Happens.passes (h : Happens who w w') (hw : w.Bound) : Passes who w w' := by
  cases h with
  | @job _ job before after round hready =>
      have hrun := passes_run (w.withReady (before ++ after) round) job hw
      exact ⟨hrun.others, hrun.closed, hrun.opens, hrun.logs⟩
  | round => exact Minds.passes (.of_eq (.of_eq rfl (List.sublist_append_left ..)) rfl rfl)
  | time => exact Minds.passes (.of_eq (.of_eq rfl (.refl _)) rfl rfl)
  | journal => exact Minds.passes (.of_eq (.refl _ _ _) rfl rfl)
  | request s r inLoop hr hknown => exact (s.minds_begin r inLoop hr).passes

theorem orderly_new (watch : WatchConfig) (tail : TailConfig) (clock : Instant)
    (clusterScoped : Option (List String)) :
    (Session.new watch tail clock clusterScoped).world.Orderly where
  tidy := Session.tidy_new ..
  bound _ _ _ ha := by cases ha
  awake := {
    alert := fun _ _ _ ha => by cases ha
    admits := fun _ _ _ ha => by cases ha
    heard := fun _ _ _ _ ha => by cases ha
    runs := fun _ ht => by cases ht }

theorem Lived.orderly (h : Lived w) : w.Orderly := by
  induction h with
  | new watch tail clock clusterScoped => exact orderly_new watch tail clock clusterScoped
  | next _ hnext ih => exact hnext.orderly ih

theorem Lived.becomes (h : Lived w) (hw : Becomes w w') : Lived w' := by
  induction hw with
  | refl => exact h
  | next _ hnext ih => exact ih.next hnext

/-! ## Sessions -/

theorem Lived.nextRound (h : Lived w) : Lived w.nextRound := by
  unfold World.nextRound
  split
  · exact h.next (.round w)
  · exact h

theorem Lived.step (h : Lived w) (hstep : w.step? = some w') : Lived w' := by
  unfold step? at hstep
  dsimp only at hstep
  split at hstep
  · cases hstep
  · next job rest hready =>
      cases hstep
      exact h.nextRound.next (.job [] rest (w.nextRound.loop.round - 1) hready)

theorem Lived.settleWithin (h : Lived w) (n : Nat) : Lived (w.settleWithin n) := by
  induction n generalizing w with
  | zero => exact h
  | succ n ih =>
      unfold World.settleWithin
      split
      · next hstep => exact ih (h.step hstep)
      · exact h

theorem Lived.advanceWithin (h : Lived w) (n : Nat) (target : Float) :
    Lived (w.advanceWithin n target) := by
  induction n generalizing w with
  | zero => exact h
  | succ n ih =>
      unfold World.advanceWithin
      split
      · split
        · exact ih ((h.next (.time w _)).settleWithin patience)
        · exact (h.next (.time w _)).settleWithin patience
      · exact (h.next (.time w _)).settleWithin patience

/-- What comes of a request is a world that has lived, if the sinks are there of which it
speaks. -/
theorem Lived.perform {s : Session} (h : Lived s.world) (name : String) (r : Request)
    (inLoop : Bool) (hknown : ∀ k, s.concerns r = some k → k < s.world.sinks.length) :
    Lived (s.perform name r inLoop).1.world := by
  have hclear := h.next (.journal s.world {})
  refine Lived.settleWithin ?_ patience
  by_cases hr : ∃ seconds, r = .advance seconds
  · obtain ⟨seconds, rfl⟩ := hr
    exact hclear.advanceWithin patience _
  · refine hclear.next (.request (s.withWorld { s.world with journal := {} }) r inLoop
      (fun seconds hseconds => hr ⟨seconds, hseconds⟩) fun k hk => hknown k ?_)
    cases r <;> exact hk

end World

end Simulation

end LiveCluster
