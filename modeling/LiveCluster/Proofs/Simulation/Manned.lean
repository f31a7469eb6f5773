import LiveCluster.Proofs.Simulation.Hiring
import LiveCluster.Proofs.Simulation.Lives

/-!
# Every worker is somebody's

A task that works for an informer and has not ended is the worker of that informer, or somebody
who stops the informer waits for its end. `Manned` says so, and holds of every world that has
lived; what each step does to lists and workers is known with it.
-/

namespace LiveCluster

namespace Plan

variable {α β : Type} {asks : ResourceId → Prop}

theorem Asks.bind {p : Plan α} {f : α → Plan β} (hp : p.Asks asks) (hf : ∀ a, (f a).Asks asks) :
    (p.bind f).Asks asks := by
  induction p with
  | done result =>
      cases result with
      | error fault => trivial
      | ok a => exact hf a
  | ask question next ih => exact ⟨hp.1, fun answer => ih answer (hp.2 answer)⟩
  | sync rid ns timeout next ih => exact ⟨hp.1, fun result => ih result (hp.2 result)⟩

/-- Where everything may be asked for, every plan may be carried out. -/
theorem asks_of_all (h : ∀ rid, asks rid) (p : Plan α) : p.Asks asks := by
  induction p with
  | done => trivial
  | ask question next ih => exact ⟨fun rid _ => h rid, ih⟩
  | sync rid ns timeout next ih => exact ⟨h rid, ih⟩

end Plan

namespace Simulation

namespace Session

open World (Hires)

/-- Whether a request may begin something that stops informers. -/
def controls : Request → Bool
  | .stop | .stopInformer .. | .start | .quit => true
  | _ => false

/-- Whether a request asks only for caches that may be asked for. -/
def Poses (asks : FactoryId → ResourceId → Prop) (s : Session) : Request → Prop
  | .ensureWatch rid _ | .informer rid _ | .waitSynced rid _ _ | .get rid _ | .raw rid _
  | .list rid _ _ | .stopInformer rid _ _ => asks s.factory rid
  | .forward .. | .allows .. | .require .. | .access .. | .tail .. | .tailPod .. =>
    ∀ f rid, asks f rid
  | _ => True

variable (s : Session) {asks : FactoryId → ResourceId → Prop} {shuts : Prop}
  {about : Option (String × String)}

theorem poses_of_all (hall : ∀ f rid, asks f rid) (r : Request) : s.Poses asks r := by
  cases r <;> first | exact hall | exact hall _ _ | trivial

theorem hires_script (r : Request) : Hires asks shuts about s.world (s.script r) := by
  have hgive : ∀ {w : World} {c : Cluster} {l : Loop Point Report},
      c.clusterScoped = w.cluster.clusterScoped → Loop.Soft w.loop l → Loop.Urges w.loop l →
        Hires asks shuts about w { w with cluster := c, loop := l } :=
    fun hc hloop hurges => .of_urges (.of_eq rfl rfl hc rfl) hloop hurges
  have hset : ∀ {c : Cluster}, c.clusterScoped = s.world.cluster.clusterScoped →
      Hires asks shuts about s.world { s.world with cluster := c } := s.world.hires_setCluster
  unfold script
  split
  · exact hset rfl
  · exact hset rfl
  · unfold hold
    split
    · exact .refl _
    · exact hset rfl
  · exact hgive rfl (s.world.loop.soft_wakeAll _) (s.world.loop.urges_wakeAll _)
  · exact hgive rfl (Channel.soft_give _ s.world.loop _) (Channel.urges_give _ s.world.loop _)
  · next path container items closing =>
      have hitem : ∀ w item, Hires asks shuts about w (addLog path container w item) :=
        fun w item => .of_urges (.of_eq rfl rfl rfl rfl)
          (Channel.soft_give (w.cluster.log path container) w.loop item)
          (Channel.urges_give (w.cluster.log path container) w.loop item)
      have hitems := World.hires_foldl hitem s.world items
      dsimp only
      split
      · exact hitems.trans (World.hires_closeSink _ _)
      · exact hitems
  all_goals exact hset rfl

theorem hires_begun {p : Point} (hp : ∀ i, p.routine ≠ .worker i)
    (hcontrol : p.routine = .control → shuts) (hbegins : p.Begins asks) :
    Hires asks shuts about s.world (s.begun p).1.world :=
  s.world.hires_spawn hp hcontrol hbegins

theorem hires_planned {plan : Plan Next} (sink : Option SinkId)
    (hasks : plan.Asks (asks s.factory)) :
    Hires asks shuts about s.world (s.planned plan sink).1.world :=
  s.hires_begun (by simp [Point.routine]) (by simp [Point.routine]) ⟨rfl, hasks⟩

theorem hires_findAccessor (rid : ResourceId) :
    Hires asks shuts about s.world (s.findAccessor rid).1.world := by
  unfold findAccessor
  dsimp only
  split
  · exact .refl _
  · refine Hires.trans ?_ (World.hires_tellAll _ _)
    exact .of_loop (.of_eq rfl rfl rfl rfl) rfl

theorem hires_takeAccessor (rid : ResourceId) (withoutTailer : Bool) :
    Hires asks shuts about s.world (s.takeAccessor rid withoutTailer).1.world := by
  have hfind : Hires asks shuts about s.world _ := s.hires_findAccessor rid
  unfold takeAccessor
  split
  · next h =>
      rw [h] at hfind
      exact hfind
  · next h =>
      rw [h] at hfind
      dsimp only
      split <;> exact hfind

theorem hires_access (hall : ∀ f rid, asks f rid) (rid : ResourceId) (withoutTailer : Bool)
    (what : Access) (inLoop : Bool) :
    Hires asks shuts about s.world (s.access rid withoutTailer what inLoop).1.world := by
  have htake : Hires asks shuts about s.world _ := s.hires_takeAccessor rid withoutTailer
  unfold access
  split
  · next h =>
      rw [h] at htake
      exact htake
  · next s' _ f accessor h =>
      rw [h] at htake
      split
      · exact htake
      · next plan sink _ =>
          exact htake.trans (s'.hires_begun (by simp [Point.routine]) (by simp [Point.routine])
            ⟨rfl, plan.asks_of_all (hall f)⟩)

theorem hires_takeAll (k : SinkId) (n : Nat) (w : World) :
    Hires asks shuts about w (takeAll k n w).1 := by
  induction n generalizing w with
  | zero => exact .refl w
  | succ n ih =>
      unfold takeAll
      split
      · exact .refl w
      · next v event h => exact (World.hires_takeEvent? h).trans (ih v)

/-- Who requests something may make a worker, or a task that stops informers. -/
theorem hires_begin (r : Request) (inLoop : Bool) (hw : s.world.Filed asks)
    (hr : ∀ seconds, r ≠ .advance seconds) (hposes : s.Poses asks r)
    (hcontrols : controls r = true → shuts) :
    Hires asks shuts about s.world (s.begin r inLoop).1.world := by
  have hscript : Hires asks shuts about s.world (s.script r) := s.hires_script r
  have hensure : ∀ rid ns, asks s.factory rid →
      Hires asks shuts about s.world (s.world.ensureWatch s.factory rid ns inLoop).1 :=
    fun rid ns hasks => World.hires_ensureWatch hw hasks ns inLoop
  cases r with
  | advance seconds => exact absurd rfl (hr seconds)
  | sink name limit | applicationSink name => exact .of_loop (.of_eq rfl rfl rfl rfl) rfl
  | cancel call =>
      show Hires asks shuts about s.world (s.cancelled call)
      unfold cancelled
      split
      · next t _ =>
          exact s.world.hires_withLoop (g := (·.cancel t)) (s.world.loop.soft_cancel t)
            (s.world.loop.urges_cancel t)
      · exact .refl _
  | ensureWatch rid ns =>
      rw [world_begin_ensureWatch]
      exact hensure rid ns hposes
  | informer rid ns =>
      have hensure := hensure rid ns hposes
      unfold begin
      dsimp only
      split
      · next h =>
          rw [h] at hensure
          exact hensure
      · next h =>
          rw [h] at hensure
          exact hensure
  | get rid path | raw rid path => exact World.hires_get hw hposes path inLoop
  | list rid ns selector => exact World.hires_list hw hposes ns selector inLoop
  | waitSynced rid ns timeout =>
      exact s.hires_planned none (Plan.Asks.bind ⟨hposes, fun _ => trivial⟩ fun _ => trivial)
  | stop | start | quit =>
      exact s.hires_begun (by simp [Point.routine]) (fun _ => hcontrols rfl) ⟨rfl, trivial⟩
  | stopInformer rid ns twice =>
      exact s.hires_begun (by simp [Point.routine]) (fun _ => hcontrols rfl) ⟨rfl, hposes⟩
  | put | next | all | awaitClose =>
      exact s.hires_begun (by simp [Point.routine]) (by simp [Point.routine]) ⟨rfl, trivial⟩
  | allows | require => exact s.hires_planned none (Plan.asks_of_all (hposes s.factory) _)
  | tail sink ns selector options => exact s.hires_planned _ (Plan.asks_of_all (hposes s.factory) _)
  | tailPod sink path options => exact s.hires_planned _ (Plan.asks_of_all (hposes s.factory) _)
  | forward verb rid ns name body propagation grace =>
      unfold begin
      dsimp only
      split
      · exact s.hires_planned none (Plan.asks_of_all (hposes s.factory) _)
      · exact .refl _
  | accessor rid withoutTailer =>
      have htake : Hires asks shuts about s.world _ := s.hires_takeAccessor rid withoutTailer
      unfold begin
      dsimp only
      split
      · next h =>
          rw [h] at htake
          exact htake
      · next s' identity _ _ h =>
          rw [h] at htake
          show Hires asks shuts about s.world (s'.indexOf identity).1.world
          rw [world_indexOf]
          exact htake
  | access rid withoutTailer what => exact s.hires_access hposes rid withoutTailer what inLoop
  | close sink => exact s.world.hires_closeSink _
  | drain sink => exact hires_takeAll _ _ s.world
  | applicationScopes =>
      unfold begin
      dsimp only
      split <;> exact .refl _
  | state | scopes | sinkState | samples | running => exact .refl _
  | register | launch => exact .of_loop (.of_eq rfl rfl rfl rfl) rfl
  | objects | failLists | hold | letGo | feed | log | deny | failReviews | failMutations
  | version => exact hscript

end Session

/-! ## What every step does to lists and workers -/

namespace World

open Loop (Patient)

variable {w w' x : World} {asks : FactoryId → ResourceId → Prop} {shuts : Prop}
  {about : Option (String × String)} {t u v : TaskId} {i : InformerId} {r : Routine}
  {who : Option TaskId} {before after : List Job} {job : Job} {round : Nat}

/-- What is known in every world of who works for whom. -/
structure Manned (asks : FactoryId → ResourceId → Prop) (w : World) : Prop where
  filed : w.Filed asks
  patient : Patient none w.loop
  asks : ∀ v p, w.loop.standing v = some (p, none) → p.Asks asks
  made : ∀ v p i, w.loop.standing v = some (p, none) → p.routine = .worker i →
    i < w.informers.length
  employed : ∀ i v, (w.informer i).worker = some v →
    ∃ p e, w.loop.standing v = some (p, e) ∧ p.routine = .worker i
  /-- Who works for an informer is its worker, or somebody waits for its end. -/
  manned : ∀ v p i, w.loop.standing v = some (p, none) → p.routine = .worker i →
    (w.informer i).worker = some v ∨ ∃ u, w.Outlasts u i v

theorem Outlasts.bides (h : w.Outlasts u i v) (hbides : ∀ a, w.loop.task? u = some a →
    ∃ b, w'.loop.task? u = some b ∧ Loop.TaskBides a b) : w'.Outlasts u i v := by
  obtain ⟨a, reason, rest, ha, hgoing, hpoint, hwait⟩ := h
  obtain ⟨b, hb, hab⟩ := hbides a ha
  refine ⟨b, reason, rest, hb, hab.ending.trans hgoing, hab.point.trans hpoint, ?_⟩
  have hbides := hab.wait
  rw [hwait] at hbides
  generalize b.wait = wait at hbides
  cases hbides
  rfl

theorem Manned.engages (h : w.Manned asks) (hw : Engages asks shuts about w w')
    (hpatient : Patient none w'.loop) (houtlasts : ∀ u i v, w.Outlasts u i v → w'.Outlasts u i v) :
    w'.Manned asks where
  filed := hw.filed h.filed
  patient := hpatient
  asks v p hp := by
    by_cases hv : v < w.loop.tasks.length
    · exact h.asks v p ((hw.old v hv).symm.trans hp)
    · exact (hw.made v p _ (Nat.le_of_not_lt hv) hp).2.2.1.2
  made v p i hp hi := by
    by_cases hv : v < w.loop.tasks.length
    · exact Nat.lt_of_lt_of_le (h.made v p i ((hw.old v hv).symm.trans hp) hi) hw.informers
    · exact ((hw.made v p _ (Nat.le_of_not_lt hv) hp).2.2.2 i hi).1.lt
  employed i v hv := by
    rcases hw.starts i v hv with hold | ⟨-, p, hp, hi⟩
    · obtain ⟨p, e, hp, hi⟩ := h.employed i v hold
      exact ⟨p, e, (hw.old v (Loop.lt_of_standing hp)).trans hp, hi⟩
    · exact ⟨p, none, hp, hi⟩
  manned v p i hp hi := by
    by_cases hv : v < w.loop.tasks.length
    · have hold := (hw.old v hv).symm.trans hp
      rcases h.manned v p i hold hi with hworker | ⟨u, hu⟩
      · refine .inl ((hw.worker i v hworker).resolve_right ?_)
        rw [ended_of_standing hold]
        simp
      · exact .inr ⟨u, houtlasts u i v hu⟩
    · exact .inl ((hw.made v p _ (Nat.le_of_not_lt hv) hp).2.2.2 i hi).2

theorem Manned.employs (h : w.Manned asks) (hw : Employs t r asks about w w')
    (ht : ∃ p, w.loop.standing t = some (p, none) ∧ p.routine = r)
    (hpatient : Patient none w'.loop)
    (houtlasts : ∀ u i v, u ≠ t → w.Outlasts u i v → w'.Outlasts u i v)
    (hdone : ∀ i v, w.Outlasts t i v → w.loop.ended v = true) : w'.Manned asks := by
  obtain ⟨q, hq, hr⟩ := ht
  obtain ⟨q', e', hq', hr', hasks'⟩ := hw.own
  have htlt := Loop.lt_of_standing hq
  -- a task that was there is in its routine as it was before
  have hold : ∀ {v p}, v < w.loop.tasks.length → w'.loop.standing v = some (p, none) →
      ∃ p', w.loop.standing v = some (p', none) ∧ p'.routine = p.routine := by
    intro v p hv hp
    by_cases hvt : v = t
    · subst hvt
      cases hq'.symm.trans hp
      exact ⟨q, hq, hr.trans hr'.symm⟩
    · exact ⟨p, (hw.others v hvt hv).symm.trans hp, rfl⟩
  refine ⟨hw.filed h.filed, hpatient, fun v p hp => ?_, fun v p i hp hi => ?_,
    fun i v hv => ?_, fun v p i hp hi => ?_⟩
  · by_cases hv : v < w.loop.tasks.length
    · by_cases hvt : v = t
      · subst hvt
        cases hq'.symm.trans hp
        exact hasks'
      · exact h.asks v p ((hw.others v hvt hv).symm.trans hp)
    · exact (hw.made v p _ (Nat.le_of_not_lt hv) hp).2.2.1.2
  · by_cases hv : v < w.loop.tasks.length
    · obtain ⟨p', hp', hsame⟩ := hold hv hp
      exact Nat.lt_of_lt_of_le (h.made v p' i hp' (hsame.trans hi)) hw.informers
    · exact ((hw.made v p _ (Nat.le_of_not_lt hv) hp).2.2.2 i hi).1.lt
  · rcases hw.starts i v hv with hworker | ⟨-, p, hp, hi⟩
    · obtain ⟨p, e, hp, hi⟩ := h.employed i v hworker
      by_cases hvt : v = t
      · subst hvt
        cases hq.symm.trans hp
        exact ⟨q', e', hq', hr'.trans (hr.symm.trans hi)⟩
      · exact ⟨p, e, (hw.others v hvt (Loop.lt_of_standing hp)).trans hp, hi⟩
    · exact ⟨p, none, hp, hi⟩
  · by_cases hv : v < w.loop.tasks.length
    · obtain ⟨p', hp', hsame⟩ := hold hv hp
      have hgoing : w.loop.ended v = false := by
        rw [ended_of_standing hp']
        rfl
      rcases h.manned v p' i hp' (hsame.trans hi) with hworker | ⟨u, hu⟩
      · rcases hw.worker i v hworker with hkept | hended | hstops
        · exact .inl hkept
        · rw [hgoing] at hended
          cases hended
        · exact .inr ⟨t, hstops⟩
      · by_cases hut : u = t
        · subst hut
          rw [hdone i v hu] at hgoing
          cases hgoing
        · exact .inr ⟨u, houtlasts u i v hut hu⟩
    · exact ((hw.made v p _ (Nat.le_of_not_lt hv) hp).2.2.2 i hi).2.imp_right fun hstops =>
        ⟨t, hstops⟩

/-! ## Running a job -/

theorem hires_ring (w : World) (alarm : Alarm) : Hires asks shuts about w (w.ring alarm) := by
  cases alarm with
  | wake t =>
      exact w.hires_withLoop (g := (·.wake t)) (w.loop.soft_wake t) (w.loop.urges_wake t)
  | expire t =>
      exact w.hires_withLoop (g := (·.expire t)) (w.loop.soft_expire t) (w.loop.urges_expire t)
  | establish i =>
      let x : Watched := { w.informer i with
        cache := (w.informer i).cache.establish.1, timer := none }
      have hset : Hires asks shuts about w (w.setInformer i x) :=
        .of_loop (.setInformer (w.informer i).cache.sameScope_establish
          (w.informer i).cache.establish_items rfl) rfl
      exact hset.trans (hires_tellAll _ _)

/-- A job that is nobody's turn. -/
theorem hires_run (w : World) (hjob : ∀ t, job ≠ .resume t) :
    Hires asks shuts about w (w.run job) := by
  cases job with
  | resume t => exact absurd rfl (hjob t)
  | notify t turn =>
      exact w.hires_withLoop (g := (·.notify t turn)) (w.loop.soft_notify t turn)
        (w.loop.urges_notify t turn)
  | tick t => exact w.hires_withLoop (g := (·.tick t)) (w.loop.soft_tick t) (w.loop.urges_tick t)
  | alarm id =>
      unfold run
      dsimp only
      split
      · next alarm loop h =>
          rw [Loop.takeAlarm?] at h
          obtain ⟨timer, -, heq⟩ := Option.map_eq_some_iff.1 h
          cases heq
          exact (w.hires_withLoop (g := (·.cancelTimer id)) (w.loop.soft_cancelTimer id)
            (w.loop.urges_cancelTimer id)).trans (hires_ring _ _)
      · exact .refl w

/-- Whatever is done to the queue, tasks stay where they are. -/
theorem engages_withReady (w : World) (ready : List Job) (round : Nat) :
    Engages asks shuts about w (w.withReady ready round) :=
  .of_idle (.of_eq rfl rfl rfl rfl) rfl fun _ => rfl

/-- What a step does to lists and workers, whoever takes it. -/
structure Shifts (asks : FactoryId → ResourceId → Prop) (shuts : Prop) (w w' : World) : Prop
    extends Enrols asks shuts w w' where
  lasts : ∀ v p e, w.loop.standing v = some (p, e) → ∃ p' e',
    w'.loop.standing v = some (p', e') ∧ p'.routine = p.routine ∧
      (e.isSome = true → e'.isSome = true)
  made : ∀ v p e, w.loop.tasks.length ≤ v → w'.loop.standing v = some (p, e) →
    e = none ∧ (p.routine = .control → shuts) ∧ p.isFirst = true ∧
      ∀ i, p.routine = .worker i → Vacancy w w' i
  worker : ∀ i v, (w.informer i).worker = some v → (w'.informer i).worker = some v ∨
    w.loop.ended v = true ∨ ∃ t, w'.Outlasts t i v

/-- Whether it is the turn of a task with a routine. -/
def TurnOf (w : World) (who : Option TaskId) (r : Routine) : Prop :=
  ∃ t p, who = some t ∧ w.loop.standing t = some (p, none) ∧ p.routine = r

/-- The calls of a step that belong to a watch are those of a worker whose turn it is. -/
def Dials (who : Option TaskId) (w w' : World) : Prop :=
  ∃ cs, w'.journal.calls = w.journal.calls ++ cs ∧
    ∀ c ∈ cs, ∀ scope, c.scope? = some scope → ∃ i, w.TurnOf who (.worker i) ∧ w.watches i = scope

theorem Shifts.of_shuts {shuts' : Prop} (h : Shifts asks shuts w w') (hshuts : shuts → shuts') :
    Shifts asks shuts' w w' where
  toFiles := h.toFiles.of_shuts hshuts
  tasks := h.tasks
  starts := h.starts
  lasts := h.lasts
  made v p e hle hp := by
    obtain ⟨he, hcontrol, hrest⟩ := h.made v p e hle hp
    exact ⟨he, fun hr => hshuts (hcontrol hr), hrest⟩
  worker := h.worker

theorem Engages.shifts (h : Engages asks shuts about w w') : Shifts asks shuts w w' where
  toEnrols := h.toEnrols
  lasts v p e hp := ⟨p, e, (h.old v (Loop.lt_of_standing hp)).trans hp, rfl, id⟩
  made v p e hle hp := by
    obtain ⟨he, hcontrol, hbegins, hworker⟩ := h.made v p e hle hp
    exact ⟨he, hcontrol, hbegins.1, fun i hi => (hworker i hi).1⟩
  worker i v hv := (h.worker i v hv).imp_right .inl

theorem Employs.shifts (h : Employs t r asks about w w')
    (ht : ∃ p, w.loop.standing t = some (p, none) ∧ p.routine = r) :
    Shifts asks (r = .control) w w' where
  toEnrols := h.toEnrols
  lasts v p e hp := by
    by_cases hv : v = t
    · subst hv
      obtain ⟨q, hq, hr⟩ := ht
      obtain ⟨q', e', hq', hr', -⟩ := h.own
      cases hq.symm.trans hp
      exact ⟨q', e', hq', hr'.trans hr.symm, by simp⟩
    · exact ⟨p, e, (h.others v hv (Loop.lt_of_standing hp)).trans hp, rfl, id⟩
  made v p e hle hp := by
    obtain ⟨he, hcontrol, hbegins, hworker⟩ := h.made v p e hle hp
    exact ⟨he, hcontrol, hbegins.1, fun i hi => (hworker i hi).1⟩
  worker i v hv := (h.worker i v hv).imp_right (Or.imp_right fun hstops => ⟨t, hstops⟩)

theorem Calls.dials (h : Calls about w w')
    (habout : ∀ scope, about = some scope → ∃ i, w.TurnOf who (.worker i) ∧ w.watches i = scope) :
    Dials who w w' := by
  obtain ⟨cs, hcs, hscope⟩ := h
  refine ⟨cs, hcs, fun c hc scope hcall => habout scope ?_⟩
  rcases hscope c hc with hnone | habout
  · rw [hcall] at hnone
    cases hnone
  · exact habout.symm.trans hcall

/-- Who waits for a group is a tail that ends when it goes on. -/
theorem ended_runPoint {p : Point} {wait : Wait} (hadmits : p.admits wait)
    (hgroup : wait.isGroup = true) (w : World) (t : TaskId) (a : Arrival) :
    (w.runPoint t p a).loop.ended t = true := by
  obtain ⟨call, cancelled, rfl⟩ : ∃ call cancelled, p = .clearing call cancelled := by
    cases wait with
    | group => exact hadmits
    | none | signal | woken | dropped | task => cases hgroup
  cases a with
  | on => exact Loop.ended_finish _ t _
  | cancelled => exact Loop.ended_finish _ t _

/-- A job is run. -/
theorem Manned.run (h : w.Manned asks) (hw : w.Orderly)
    (hready : w.loop.ready = before ++ job :: after) :
    ((w.withReady (before ++ after) round).run job).Manned asks ∧
      Shifts asks (w.TurnOf job.resumed? .control) w
        ((w.withReady (before ++ after) round).run job) ∧
      Dials job.resumed? w ((w.withReady (before ++ after) round).run job) := by
  have hpasses := (Happens.job before after round hready).passes hw.bound
  have houtlasts : ∀ u i v, job.resumed? ≠ some u → w.Outlasts u i v →
      ((w.withReady (before ++ after) round).run job).Outlasts u i v :=
    fun u i v hu hout => hout.bides fun a ha => hpasses.others u a hu ha
  let m := w.withReady (before ++ after) round
  have hwaits : ∀ {x shuts}, Engages asks shuts none w x → Patient none x.loop →
      (∀ u i v, w.Outlasts u i v → x.Outlasts u i v) →
      x.Manned asks ∧ Shifts asks shuts w x ∧ Dials job.resumed? w x :=
    fun hengages hpatient hout =>
      ⟨h.engages hengages hpatient hout, hengages.shifts, hengages.calls.dials (by simp)⟩
  by_cases hresume : ∃ t, job = .resume t
  · obtain ⟨t, rfl⟩ := hresume
    cases harrive : m.loop.arrive t with
    | none =>
        -- its task has ended
        have hrun : m.run (.resume t) = m := by rw [run, harrive]
        have hended : w.loop.ended t = true := Loop.ended_of_arrive (l := m.loop) harrive
        rw [hrun] at houtlasts ⊢
        exact hwaits (w.engages_withReady _ _) (h.patient.gone hready hended) fun u i v hout => hout
    | some arrived =>
        obtain ⟨l, p, arrival⟩ := arrived
        obtain ⟨a, ha, hgoing, rfl, -, -⟩ := Loop.arrive_spec harrive
        obtain ⟨hstanding, hsoft⟩ := Loop.arrive_standing harrive
        obtain ⟨hpatient, honce⟩ := h.patient.arrive hready harrive ha
        let x : World := { m with loop := l }
        have hrun : m.run (.resume t) = x.runPoint t a.point arrival := by rw [run, harrive]
        have hengages : Engages asks (a.point.routine = .control) (w.about? a.point) w x :=
          .of_idle (.of_eq rfl rfl rfl rfl) hsoft.length hsoft.standing
        have hstaffs : Staffs t a.point.routine asks (w.about? a.point) x
            (x.runPoint t a.point arrival) :=
          staffs_runPoint (hengages.filed h.filed) ((hsoft.standing t).trans hstanding)
            (h.asks t _ hstanding) (fun i => h.made t _ i hstanding) arrival
        have hemploys := hengages.employs ⟨_, hstanding, rfl, h.asks t _ hstanding⟩
          hstaffs.toEmploys
        have hfree : l.resumes t = 0 ∨ (x.runPoint t a.point arrival).loop.ended t = true := by
          cases hgroup : a.wait.isGroup with
          | false => exact .inl (honce hgroup).1
          | true =>
              exact .inr (ended_runPoint (hw.awake.admits t a (by simp) ha hgoing) hgroup x t _)
        rw [hrun] at houtlasts ⊢
        refine ⟨h.employs hemploys ⟨_, hstanding, rfl⟩ (hstaffs.settles hpatient hfree)
          (fun u i v hu => houtlasts u i v fun heq => hu (Option.some.inj heq).symm)
          (fun i v hout => ?_), ?_, ?_⟩
        · obtain ⟨b, reason, rest, hb, -, -, hwait⟩ := hout
          cases ha.symm.trans hb
          exact (honce (by rw [hwait]; rfl)).2 v hwait
        · exact (hemploys.shifts ⟨_, hstanding, rfl⟩).of_shuts fun hr => ⟨t, _, rfl, hstanding, hr⟩
        · refine hemploys.calls.dials fun scope hscope => ?_
          cases hp : a.point with
          | worker i p =>
              rw [hp] at hscope hstanding
              exact ⟨i, ⟨t, _, rfl, hstanding, rfl⟩, Option.some.inj hscope⟩
          | _ =>
              rw [hp] at hscope
              cases hscope
  · have hjob : ∀ t, job ≠ .resume t := fun t ht => hresume ⟨t, ht⟩
    have hhires : Hires asks (w.TurnOf job.resumed? .control) none m (m.run job) := m.hires_run hjob
    have hpatient : Patient none m.loop := h.patient.taken hready hjob
    refine hwaits ((w.engages_withReady _ _).trans hhires.toEngages) (hhires.defers _ hpatient).1
      fun u i v => houtlasts u i v ?_
    cases job with
    | resume t => exact absurd rfl (hjob t)
    | notify | tick | alarm => simp [Job.resumed?]

/-! ## Whatever happens -/

/-- Where anything may be asked of any factory. -/
def anything (_ : FactoryId) (_ : ResourceId) : Prop :=
  True

theorem manned_new (asks : FactoryId → ResourceId → Prop) (watch : WatchConfig)
    (tail : TailConfig) (clock : Instant) (clusterScoped : Option (List String)) :
    (Session.new watch tail clock clusterScoped).world.Manned asks := by
  let w := (Session.new watch tail clock clusterScoped).world
  have hlisted : ∀ f key, w.listed f key = none := by
    intro f key
    show (([{ config := watch }] : List Factory)[f]?.getD default).informers.get? key = none
    rcases f with - | f <;> rfl
  have hnobody : ∀ {i f key}, w.listed f key ≠ some i := by
    intro i f key h
    rw [hlisted] at h
    cases h
  have hstanding : ∀ {v s}, w.loop.standing v ≠ some s := by
    intro v s h
    cases h
  exact {
    filed := {
      made := fun f key i h => absurd h hnobody
      key := fun f key i h => absurd h hnobody
      asked := fun f key i h => absurd h hnobody
      unscoped := fun f key i h => absurd h hnobody
      once := fun f g key key' i h => absurd h hnobody
      older := fun f key i j h => absurd h hnobody
      nodup := fun f => by
        show (([{ config := watch }] : List Factory)[f]?.getD default).informers.keys.Nodup
        rcases f with - | f <;> exact List.nodup_nil }
    patient := {
      known := fun _ _ => rfl
      once := fun _ _ _ ha => by cases ha
      asked := fun _ _ _ ha => by cases ha
      waiters := fun _ _ _ hb => by cases hb
      runs := fun _ ht => by cases ht }
    asks := fun v p hp => absurd hp hstanding
    made := fun v p i hp => absurd hp hstanding
    employed := fun _ _ hv => by cases hv
    manned := fun v p i hp => absurd hp hstanding }

theorem Manned.journal (h : w.Manned asks) (journal : Journal) :
    World.Manned asks { w with journal := journal } :=
  ⟨h.filed.of_same rfl (fun _ => .refl _) rfl fun _ => rfl, h.patient, h.asks, h.made, h.employed,
    h.manned⟩

theorem shifts_journal (w : World) (journal : Journal) :
    Shifts asks shuts w { w with journal := journal } where
  toFiles := .of_same rfl (fun _ => .refl _) rfl (Nat.le_refl _) fun _ => ⟨rfl, rfl⟩
  tasks := Nat.le_refl _
  starts _ _ hv := .inl hv
  lasts _ p e hp := ⟨p, e, hp, rfl, id⟩
  made _ _ _ hle hp := absurd (Loop.lt_of_standing (l := w.loop) hp) (Nat.not_lt.2 hle)
  worker _ _ hv := .inl hv

/-- Somebody requests something. -/
theorem Manned.begin {s : Session} (h : s.world.Manned asks) (r : Request) (inLoop : Bool)
    (hr : ∀ seconds, r ≠ .advance seconds) (hposes : s.Poses asks r)
    (hcontrols : Session.controls r = true → shuts) :
    (s.begin r inLoop).1.world.Manned asks ∧ Shifts asks shuts s.world (s.begin r inLoop).1.world ∧
      Dials none s.world (s.begin r inLoop).1.world := by
  have hhires : Hires asks shuts none s.world (s.begin r inLoop).1.world :=
    s.hires_begin r inLoop h.filed hr hposes hcontrols
  refine ⟨h.engages hhires.toEngages (hhires.defers _ h.patient).1 fun u i v hout => ?_,
    hhires.shifts, hhires.calls.dials (by simp)⟩
  exact hout.bides fun a ha => (s.minds_begin r inLoop hr).keeps.bides ha

/-- Time passes, or timers are looked at. -/
theorem Manned.still (h : w.Manned asks) {l : Loop Point Report} (hloop : Loop.Soft w.loop l)
    (hurges : Loop.Urges w.loop l) (hbides : ∀ v a, w.loop.task? v = some a →
      ∃ b, l.task? v = some b ∧ Loop.TaskBides a b) :
    World.Manned asks { w with loop := l } ∧ Shifts asks shuts w { w with loop := l } := by
  have hhires : Hires asks shuts none w { w with loop := l } :=
    .of_urges (.of_eq rfl rfl rfl rfl) hloop hurges
  exact ⟨h.engages hhires.toEngages (h.patient.urges hurges) fun u i v hout =>
    hout.bides (hbides u), hhires.shifts⟩

theorem Happens.manned (h : Happens who w w') (hw : w.Orderly) (hm : w.Manned anything) :
    w'.Manned anything ∧ Shifts anything True w w' := by
  have hothers := h.passes hw.bound
  cases h with
  | job before after round hready =>
      obtain ⟨hm', hshifts, -⟩ := hm.run hw hready
      exact ⟨hm', hshifts.of_shuts fun _ => trivial⟩
  | round =>
      exact hm.still (w.loop.soft_beginRound) (w.loop.urges_beginRound)
        fun v a ha => hothers.others v a (by simp) ha
  | time _ now =>
      exact hm.still ⟨rfl, fun _ => rfl, fun _ _ h => h⟩ (.of_ready rfl fun _ => rfl)
        fun v a ha => hothers.others v a (by simp) ha
  | journal _ journal => exact ⟨hm.journal journal, w.shifts_journal journal⟩
  | request s r inLoop hr _ =>
      obtain ⟨hm', hshifts, -⟩ := hm.begin r inLoop hr (s.poses_of_all (fun _ _ => trivial) r)
        fun _ => trivial
      exact ⟨hm', hshifts⟩

/-- The calls of a watch are made by a worker in its turn; or the journal is put aside. -/
theorem Happens.dials (h : Happens who w w') (hw : w.Orderly) (hm : w.Manned anything) :
    Dials who w w' ∨ ∃ journal, w' = { w with journal := journal } := by
  cases h with
  | job before after round hready => exact .inl (hm.run hw hready).2.2
  | round => exact .inl ⟨[], (List.append_nil _).symm, by simp⟩
  | time _ now => exact .inl ⟨[], (List.append_nil _).symm, by simp⟩
  | journal _ journal => exact .inr ⟨journal, rfl⟩
  | request s r inLoop hr _ =>
      exact .inl (hm.begin r inLoop hr (s.poses_of_all (fun _ _ => trivial) r)
        fun _ => trivial).2.2

/-- Whoever has lived knows who works for whom. -/
theorem Lived.manned (h : Lived w) : w.Manned anything := by
  induction h with
  | new watch tail clock clusterScoped => exact manned_new _ watch tail clock clusterScoped
  | next hw hnext ih => exact (hnext.manned hw.orderly ih).1

/-! ## Where everybody stands -/

theorem ending?_of_standing {s : Point × Option (Ending Report)}
    (h : w.loop.standing t = some s) : w.loop.ending? t = s.2 := by
  rw [Loop.standing] at h
  obtain ⟨a, ha, rfl⟩ := Option.map_eq_some_iff.1 h
  rw [Loop.ending?, ha]
  rfl

theorem Lived.shifts (hw : Lived w) (h : Happens who w w') : Shifts anything True w w' :=
  (h.manned hw.orderly hw.manned).2

/-- When it is a task's turn it goes on, unless it has ended. -/
theorem Happens.goes (h : Happens (some t) w w') : w'.loop.standing t = w.loop.standing t ∧
      w'.sinks = w.sinks ∧ w'.loop.tasks = w.loop.tasks ∧ w'.openLogs = w.openLogs ∨
    ∃ ready round l p arrival, (w.withReady ready round).loop.arrive t = some (l, p, arrival) ∧
      w.loop.standing t = some (p, none) ∧ Loop.Soft w.loop l ∧
      w' = { w.withReady ready round with loop := l }.runPoint t p arrival := by
  generalize hwho : some t = who at h
  cases h with
  | @job _ job before after round hready =>
      cases job with
      | resume u =>
          cases hwho
          rw [run]
          split
          · next l p arrival harrive =>
              obtain ⟨hstanding, hsoft⟩ := Loop.arrive_standing harrive
              exact .inr ⟨_, _, l, p, arrival, harrive, hstanding,
                ⟨hsoft.length, hsoft.standing, hsoft.arms⟩, rfl⟩
          · exact .inl ⟨rfl, rfl, rfl, rfl⟩
      | notify | tick | alarm => cases hwho
  | round | time | journal | request => cases hwho

/-- Where a task stands it stood before, or it is new and at a first point, or it was its turn and
it has gone on with its routine. -/
theorem Happens.stood {p : Point} {e : Option (Ending Report)} (h : Happens who w w')
    (hw : Lived w) (hp : w'.loop.standing v = some (p, e)) :
    w.loop.standing v = some (p, e) ∨
      w.loop.standing v = none ∧ e = none ∧ p.isFirst = true ∨
        who = some v ∧ ∃ q, w.loop.standing v = some (q, none) ∧ q.sink? = p.sink? ∧
          q.routine = p.routine := by
  have hshifts := hw.shifts h
  cases hq : w.loop.standing v with
  | none =>
      refine .inr (.inl ⟨rfl, ?_⟩)
      obtain ⟨he, -, hfirst, -⟩ := hshifts.made v p e (Loop.le_of_standing_eq_none hq) hp
      exact ⟨he, hfirst⟩
  | some before =>
      obtain ⟨q, e'⟩ := before
      have hothers : who ≠ some v → w.loop.standing v = some (p, e) := by
        intro hv
        obtain ⟨a, ha, hsame⟩ := Option.map_eq_some_iff.1 hq
        obtain ⟨b, hb, hab⟩ := (h.passes hw.orderly.bound).others v a hv ha
        rw [Loop.standing, hb] at hp
        rw [Loop.standing, ha, ← hp, Option.map_some, Option.map_some, hab.point, hab.ending]
      by_cases hv : who = some v
      · subst hv
        rcases h.goes with ⟨hsame, -⟩ | ⟨ready, round, l, p', arrival, harrive, hstood, -, rfl⟩
        · exact .inl (hq ▸ hsame.symm.trans hp)
        · refine .inr (.inr ⟨rfl, q, ?_⟩)
          cases hq.symm.trans hstood
          obtain ⟨p'', e'', hp'', hroutine, -⟩ := hshifts.lasts v q none hq
          cases hp.symm.trans hp''
          have hrest : Mild none w (w.withReady ready round) := w.mild_withReady ready round
          have hworks :=
            works_resume (w.withReady ready round) v (hrest.tidy hw.orderly.tidy) harrive
          obtain ⟨a, ha, hsame⟩ := Option.map_eq_some_iff.1 hq
          obtain ⟨b, hb, hsink, -⟩ := hworks.seats v _ _ ⟨a, ha, rfl, rfl⟩
          obtain ⟨c, hc, hpoint⟩ := Option.map_eq_some_iff.1 hp
          cases hb.symm.trans hc
          obtain rfl : a.point = q := congrArg Prod.fst hsame
          obtain rfl : b.point = p := congrArg Prod.fst hpoint
          exact ⟨rfl, hsink.symm, hroutine.symm⟩
      · exact .inl (hq ▸ hothers hv)

end World

end Simulation

end LiveCluster
