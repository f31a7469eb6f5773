import LiveCluster.Proofs.Simulation.Elsewhere
import LiveCluster.Proofs.Simulation.Sessions

/-!
# What a request leaves alone

A request makes a task, or changes the script, or looks. The tasks that there are it leaves
where they are, except that one may be cancelled. So it is known in every session who may
call off whom, and a request that does not concern a sink leaves alone whoever works there.
-/

namespace LiveCluster.Simulation

open Loop (TaskEases)

namespace World

variable {w w' : World} {s : SinkId} {f : Option SinkId}

/-- A sink is made. -/
theorem away_addSink (hs : s < w.sinks.length) (sink : Sink) :
    Away s w { w with sinks := w.sinks ++ [sink] } where
  sinks := by
    show w.sinks.length ≤ (w.sinks ++ [sink]).length
    rw [List.length_append]
    exact Nat.le_add_right _ _
  sink := by
    show ((w.sinks ++ [sink])[s]?).getD {} = _
    rw [List.getElem?_append_left hs]
    rfl
  eases _ a ha _ := ⟨a, ha, .refl a⟩
  nobody _ b hb hs := ⟨b, hb, hs⟩
  tidy ht := ⟨ht.wards, ht.workers,
    fun u a ha => (ht.waits u a ha).keeps fun _ _ _ h => h, ht.limits, ht.fresh⟩

/-- Time passes. -/
theorem mild_now (w : World) (now : Float) :
    Mild f w { w with loop := { w.loop with now := now } } :=
  .of_eq (Loop.spares_of_eq rfl rfl) rfl rfl

theorem Tidy.run (ht : w.Tidy) (job : Job) : (w.run job).Tidy := by
  rcases w.run_cases job with ⟨t, l, p, arrival, rfl, harrive, hrun⟩ |
      ⟨-, ⟨id, v, -, hrun⟩ | hmild⟩
  · rw [hrun]
    exact (w.works_resume t ht harrive).tidy ht
  · have hcancel : Mild none w (w.withLoop (·.cancelTimer id)) := w.mild_cancelTimer id
    rw [hrun]
    exact (Works.expire (u := v) (f := none)).tidy (hcancel.tidy ht)
  · exact hmild.tidy ht

theorem Tidy.step (ht : w.Tidy) (h : w.step? = some w') : w'.Tidy := by
  have hnext : Mild none w w.nextRound := w.mild_nextRound
  unfold step? at h
  dsimp only at h
  split at h
  · cases h
  · next job rest _ =>
      cases h
      have htake : Mild none w.nextRound { w.nextRound with loop := { w.nextRound.loop with
          ready := rest, round := w.nextRound.loop.round - 1 } } :=
        .of_eq (Loop.spares_of_eq rfl rfl) rfl rfl
      exact (htake.tidy (hnext.tidy ht)).run job

theorem Tidy.settleWithin (ht : w.Tidy) (n : Nat) : (w.settleWithin n).Tidy := by
  induction n generalizing w with
  | zero => exact ht
  | succ n ih =>
      unfold World.settleWithin
      split
      · next w' h => exact ih (ht.step h)
      · exact ht

theorem Tidy.advanceWithin (ht : w.Tidy) (n : Nat) (target : Float) :
    (w.advanceWithin n target).Tidy := by
  have hnow : ∀ {w : World}, w.Tidy → ∀ now : Float,
      (settle { w with loop := { w.loop with now := now } }).Tidy := fun {w} ht now =>
    ((w.mild_now (f := none) now).tidy ht).settleWithin patience
  induction n generalizing w with
  | zero => exact ht
  | succ n ih =>
      unfold World.advanceWithin
      split
      · split
        · exact ih (hnow ht _)
        · exact hnow ht _
      · exact hnow ht _

end World

namespace Session

open World (Mild Works Away Tidy)

variable (s : Session) {f : Option SinkId} {k : SinkId}

/-- The sink that a request concerns, if any. Who cancels a call concerns himself with the sink
that the call works at. -/
def concerns : Request → Option SinkId
  | .log _ _ _ closing => closing.map s.sinkOf
  | .put sink _ | .next sink | .all sink | .awaitClose sink | .close sink | .drain sink
  | .tail sink .. | .tailPod sink .. | .access _ _ (.tail sink _) => some (s.sinkOf sink)
  | .cancel call =>
    (s.pending.get? call).bind fun t => (s.world.loop.task? t).bind (·.point.sink?)
  | _ => none

/-- Whether a request makes a sink, lets time pass or cancels a call. -/
def isSpecial : Request → Bool
  | .sink .. | .applicationSink _ | .advance _ | .cancel _ => true
  | _ => false

theorem mild_begun {p : Point} (hsink : p.sink? = none ∨ p.sink? = f) (hwards : p.wards = []) :
    Mild f s.world (s.begun p).1.world :=
  .spawn s.world hsink hwards

theorem mild_addFeed (w : World) (scope : String) (item : FeedItem) :
    Mild f w (addFeed w scope item) :=
  .of_eq (Channel.gentle_give _ w.loop item) rfl rfl

theorem mild_addLog (path container : String) (w : World) (item : LogItem) :
    Mild f w (addLog path container w item) :=
  .of_eq (Channel.gentle_give _ w.loop item) rfl rfl

theorem mild_script (r : Request) : Mild (s.concerns r) s.world (s.script r) := by
  unfold script
  split
  · exact .of_eq (.refl _ _) rfl rfl
  · exact .of_eq (.refl _ _) rfl rfl
  · unfold hold
    split <;> exact .of_eq (.refl _ _) rfl rfl
  · exact .of_eq (s.world.loop.gentle_wakeAll _) rfl rfl
  · exact mild_addFeed _ _ _
  · next path container items closing =>
      have hitems : ∀ {f}, Mild f s.world (items.foldl (addLog path container) s.world) :=
        s.world.mild_foldl (mild_addLog path container) items
      dsimp only
      split
      · exact hitems.trans (World.mild_closeSink _)
      · exact hitems
  all_goals exact .of_eq (.refl _ _) rfl rfl

theorem mild_findAccessor (rid : ResourceId) :
    Mild f s.world (s.findAccessor rid).1.world := by
  unfold findAccessor
  dsimp only
  split
  · exact .refl _ _
  · refine Mild.trans ?_ (World.mild_tellAll _ _)
    exact .of_eq (.refl _ _) rfl rfl

theorem mild_takeAccessor (rid : ResourceId) (withoutTailer : Bool) :
    Mild f s.world (s.takeAccessor rid withoutTailer).1.world := by
  have hfind : Mild f s.world _ := s.mild_findAccessor rid
  unfold takeAccessor
  split
  · next h =>
      rw [h] at hfind
      exact hfind
  · next h =>
      rw [h] at hfind
      dsimp only
      split <;> exact hfind

theorem sinks_findAccessor (rid : ResourceId) :
    (s.findAccessor rid).1.sinks = s.sinks := by
  unfold findAccessor
  dsimp only
  split <;> rfl

theorem sinks_takeAccessor (rid : ResourceId) (withoutTailer : Bool) :
    (s.takeAccessor rid withoutTailer).1.sinks = s.sinks := by
  have hfind := s.sinks_findAccessor rid
  unfold takeAccessor
  split
  · next h =>
      rw [h] at hfind
      exact hfind
  · next h =>
      rw [h] at hfind
      dsimp only
      split <;> exact hfind

/-- The sink of a plan is that of the request. -/
theorem sink_of_planOf {a : Accessor} {what : Access} {plan : Plan Next} {sink : Option SinkId}
    (h : s.planOf a what = some (plan, sink)) (rid : ResourceId) (withoutTailer : Bool) :
    sink = s.concerns (.access rid withoutTailer what) := by
  cases what with
  | restart path | resolve path | tail name options =>
      simp only [planOf, Option.bind_eq_bind, Option.bind_eq_some_iff] at h
      obtain ⟨kind, -, h⟩ := h
      split at h
      · cases h
        rfl
      · cases h
  | _ =>
      cases h
      rfl

theorem concerns_congr {s' : Session} (hsinks : s'.sinks = s.sinks)
    (hlength : s'.world.sinks.length = s.world.sinks.length) (rid : ResourceId)
    (withoutTailer : Bool) (what : Access) :
    s'.concerns (.access rid withoutTailer what) = s.concerns (.access rid withoutTailer what) := by
  cases what with
  | tail name options =>
      show some (s'.sinkOf name) = some (s.sinkOf name)
      rw [sinkOf, sinkOf, hsinks, hlength]
  | _ => rfl

theorem mild_access (rid : ResourceId) (withoutTailer : Bool) (what : Access) (inLoop : Bool) :
    Mild (s.concerns (.access rid withoutTailer what)) s.world
      (s.access rid withoutTailer what inLoop).1.world := by
  have htake : Mild (s.concerns (.access rid withoutTailer what)) s.world _ :=
    s.mild_takeAccessor rid withoutTailer
  have hsinks := s.sinks_takeAccessor rid withoutTailer
  unfold access
  split
  · next h =>
      rw [h] at htake
      exact htake
  · next s' _ _ accessor h =>
      rw [h] at htake hsinks
      split
      · exact htake
      · next plan sink hplan =>
          refine htake.trans (s'.mild_begun (.inr ?_) rfl)
          rw [← s.concerns_congr hsinks htake.sinks]
          exact s'.sink_of_planOf hplan rid withoutTailer

theorem mild_takeAll (i : SinkId) (n : Nat) (w : World) : Mild (some i) w (takeAll i n w).1 := by
  induction n generalizing w with
  | zero => exact .refl _ w
  | succ n ih =>
      unfold takeAll
      split
      · exact .refl _ w
      · next v event h => exact (World.mild_takeEvent? w h).trans (ih v)

/-- What a request does besides making a sink, letting time pass and cancelling a call. -/
theorem mild_begin (r : Request) (inLoop : Bool) (hr : isSpecial r = false) :
    Mild (s.concerns r) s.world (s.begin r inLoop).1.world := by
  have hscript := s.mild_script r
  have hensure : ∀ {f} rid ns, Mild f s.world (s.world.ensureWatch s.factory rid ns inLoop).1 :=
    fun rid ns => s.world.mild_ensureWatch s.factory rid ns inLoop
  cases r with
  | sink | applicationSink | advance | cancel => cases hr
  | ensureWatch rid ns =>
      rw [world_begin_ensureWatch]
      exact hensure rid ns
  | informer rid ns =>
      have hensure : Mild none s.world _ := hensure rid ns
      unfold begin
      dsimp only
      split
      · next h =>
          rw [h] at hensure
          exact hensure
      · next h =>
          rw [h] at hensure
          exact hensure
  | get rid path | raw rid path => exact s.world.mild_get s.factory rid path inLoop
  | list rid ns selector => exact s.world.mild_list s.factory rid ns selector inLoop
  | waitSynced | stop | stopInformer | allows | require | start | quit =>
      exact s.mild_begun (.inl rfl) rfl
  | put | next | all | awaitClose | tail | tailPod => exact s.mild_begun (.inr rfl) rfl
  | forward verb rid ns name body propagation grace =>
      unfold begin
      dsimp only
      split
      · exact s.mild_begun (.inl rfl) rfl
      · exact .refl _ _
  | accessor rid withoutTailer =>
      have htake : Mild none s.world _ := s.mild_takeAccessor rid withoutTailer
      unfold begin
      dsimp only
      split
      · next h =>
          rw [h] at htake
          exact htake
      · next s' identity _ _ h =>
          rw [h] at htake
          show Mild none s.world (s'.indexOf identity).1.world
          rw [world_indexOf]
          exact htake
  | access rid withoutTailer what => exact s.mild_access rid withoutTailer what inLoop
  | close sink => exact s.world.mild_closeSink
  | drain sink => exact mild_takeAll _ _ s.world
  | applicationScopes =>
      unfold begin
      dsimp only
      split <;> exact .refl _ _
  | state | scopes | sinkState | samples | running => exact .refl _ _
  | register | launch => exact .of_eq (.refl _ _) rfl rfl
  | objects | failLists | hold | letGo | feed | log | deny | failReviews | failMutations
  | version => exact hscript

/-- A request that does not concern a sink and lets no time pass leaves alone whoever works
there. -/
theorem away_begin (r : Request) (inLoop : Bool) (ht : s.world.Tidy)
    (hk : k < s.world.sinks.length) (hconcerns : s.concerns r ≠ some k)
    (hadvance : ∀ seconds, r ≠ .advance seconds) :
    Away k s.world (s.begin r inLoop).1.world := by
  cases hr : isSpecial r with
  | false => exact (s.mild_begin r inLoop hr).away ht hconcerns
  | true =>
      cases r with
      | advance seconds => exact absurd rfl (hadvance seconds)
      | sink | applicationSink => exact World.away_addSink hk _
      | cancel call =>
          show Away k s.world (s.cancelled call)
          unfold cancelled
          cases hcall : s.pending.get? call with
          | none => exact (Mild.refl none s.world).away ht (by simp)
          | some t =>
              refine s.world.away_cancel ht fun a ha => ?_
              simpa [concerns, hcall, ha] using hconcerns
      | _ => cases hr

/-- In every session it is known who may call off whom. -/
theorem tidy_begin (r : Request) (inLoop : Bool) (ht : s.world.Tidy) :
    (s.begin r inLoop).1.world.Tidy := by
  cases hr : isSpecial r with
  | false => exact (s.mild_begin r inLoop hr).tidy ht
  | true =>
      cases r with
      | advance seconds => exact ht.advanceWithin _ _
      | sink | applicationSink =>
          exact ⟨ht.wards, ht.workers, fun u a ha => (ht.waits u a ha).keeps fun _ _ _ h => h,
            ht.limits, ht.fresh⟩
      | cancel call =>
          show (s.cancelled call).Tidy
          unfold cancelled
          split
          · next t _ => exact (Works.cancelAny (u := t) (f := none) t).tidy ht
          · exact ht
      | _ => cases hr

theorem tidy_perform (name : String) (r : Request) (inLoop : Bool) (ht : s.world.Tidy) :
    (s.perform name r inLoop).1.world.Tidy := by
  have hclear : Mild none s.world { s.world with journal := {} } := .of_eq (.refl _ _) rfl rfl
  exact ((s.withWorld _).tidy_begin r inLoop (hclear.tidy ht)).settleWithin _

theorem tidy_new (watch : WatchConfig) (tail : TailConfig) (clock : Instant)
    (clusterScoped : Option (List String)) :
    (Session.new watch tail clock clusterScoped).world.Tidy where
  wards _ _ ha := by cases ha
  workers i v hv := by cases hv
  waits _ _ ha := by cases ha
  limits _ _ he := by
    obtain ⟨timer, hmem, -⟩ := he
    exact absurd hmem List.not_mem_nil
  fresh _ _ ha := by cases ha

variable {s} in
theorem Leads.tidy {s' : Session} (h : Leads s s') (ht : s.world.Tidy) : s'.world.Tidy := by
  induction h with
  | refl => exact ht
  | @perform s' name r inLoop _ ih => exact s'.tidy_perform name r inLoop ih
  | @misstep s' fault _ ih =>
      have hclear : Mild none s'.world { s'.world with journal := {} } :=
        .of_eq (.refl _ _) rfl rfl
      exact hclear.tidy ih

end Session

end LiveCluster.Simulation
