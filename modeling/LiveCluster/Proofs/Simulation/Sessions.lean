import LiveCluster.Proofs.Simulation.Follow
import LiveCluster.Simulation.Session

/-!
# Workers of a session

Whatever is requested of a session, its workers follow their runs: requests themselves
only wake and make tasks, and after each the world is settled.
-/

namespace LiveCluster.Simulation.Session

open World (Quiet Carries Acts)

variable (s : Session)

/-- A task is made that works for no informer. -/
theorem carries_begun {p : Point} (hp : p.informer? = none) :
    Carries s.world (s.begun p).1.world :=
  .of_acts fun u => Acts.spawn u s.world hp

theorem quiet_addFeed (w : World) (scope : String) (item : FeedItem) :
    Quiet w (addFeed w scope item) :=
  .of_eq rfl rfl (Channel.soft_give _ w.loop item)

theorem quiet_addLog (path container : String) (w : World) (item : LogItem) :
    Quiet w (addLog path container w item) :=
  .of_eq rfl rfl (Channel.soft_give _ w.loop item)

/-- Scripting the cluster wakes tasks and does no more. -/
theorem quiet_script (r : Request) : Quiet s.world (s.script r) := by
  unfold script
  split
  · exact .of_eq rfl rfl (.refl _)
  · exact .of_eq rfl rfl (.refl _)
  · unfold hold
    split <;> exact .of_eq rfl rfl (.refl _)
  · exact .of_eq rfl rfl (s.world.loop.soft_wakeAll _)
  · exact quiet_addFeed _ _ _
  · next path container items closing =>
      have hitems := World.quiet_foldl (quiet_addLog path container) s.world items
      dsimp only
      split
      · exact hitems.trans (World.quiet_closeSink _ _)
      · exact hitems
  all_goals exact .of_eq rfl rfl (.refl _)

theorem quiet_findAccessor (rid : ResourceId) :
    Quiet s.world (s.findAccessor rid).1.world := by
  unfold findAccessor
  dsimp only
  split
  · exact .refl _
  · refine Quiet.trans ?_ (World.quiet_tellAll _ _)
    exact .of_eq rfl rfl (.refl _)

theorem quiet_takeAccessor (rid : ResourceId) (withoutTailer : Bool) :
    Quiet s.world (s.takeAccessor rid withoutTailer).1.world := by
  have hfind := s.quiet_findAccessor rid
  unfold takeAccessor
  split
  · next h =>
      rw [h] at hfind
      exact hfind
  · next h =>
      rw [h] at hfind
      dsimp only
      split <;> exact hfind

theorem world_indexOf (identity : Option (RegistryId × Nat)) :
    (s.indexOf identity).1.world = s.world := by
  unfold indexOf
  split
  · rfl
  · dsimp only
    split <;> rfl

theorem carries_access (rid : ResourceId) (withoutTailer : Bool) (what : Access)
    (inLoop : Bool) : Carries s.world (s.access rid withoutTailer what inLoop).1.world := by
  have htake := (s.quiet_takeAccessor rid withoutTailer).carries
  unfold access
  split
  · next h =>
      rw [h] at htake
      exact htake
  · next s' _ _ accessor h =>
      rw [h] at htake
      split
      · exact htake
      · exact htake.trans (s'.carries_begun rfl)

theorem quiet_takeAll (i : SinkId) (n : Nat) (w : World) : Quiet w (takeAll i n w).1 := by
  induction n generalizing w with
  | zero => exact .refl w
  | succ n ih =>
      unfold takeAll
      split
      · exact .refl w
      · next v event h => exact (World.quiet_takeEvent? h).trans (ih v)

theorem world_begin_ensureWatch (rid : ResourceId) (ns : String) (inLoop : Bool) :
    (s.begin (.ensureWatch rid ns) inLoop).1.world =
      (s.world.ensureWatch s.factory rid ns inLoop).1 := by
  unfold begin
  dsimp only
  split
  · next h => rw [h]; rfl
  · next h => rw [h]; rfl

/-- Whatever is requested, runs go on. -/
theorem carries_begin (r : Request) (inLoop : Bool) :
    Carries s.world (s.begin r inLoop).1.world := by
  have hscript := (s.quiet_script r).carries
  have hensure := fun rid ns => Carries.of_acts fun u =>
    s.world.acts_ensureWatch u s.factory rid ns inLoop
  have hget := fun rid path => Carries.of_acts fun u =>
    s.world.acts_get u s.factory rid path inLoop
  cases r with
  | advance seconds => exact s.world.carries_advance seconds
  | ensureWatch rid ns =>
      rw [world_begin_ensureWatch]
      exact hensure rid ns
  | informer rid ns =>
      have hensure := hensure rid ns
      unfold begin
      dsimp only
      split
      · next h =>
          rw [h] at hensure
          exact hensure
      · next h =>
          rw [h] at hensure
          exact hensure
  | get rid path | raw rid path => exact hget rid path
  | list rid ns selector =>
      exact .of_acts fun u => s.world.acts_list u s.factory rid ns selector inLoop
  | waitSynced | stop | stopInformer | allows | require | put | next | all | awaitClose | tail
  | tailPod | start | quit => exact s.carries_begun rfl
  | forward verb rid ns name body propagation grace =>
      unfold begin
      dsimp only
      split
      · exact s.carries_begun rfl
      · exact .refl _
  | accessor rid withoutTailer =>
      have htake := (s.quiet_takeAccessor rid withoutTailer).carries
      unfold begin
      dsimp only
      split
      · next h =>
          rw [h] at htake
          exact htake
      · next s' identity _ _ h =>
          rw [h] at htake
          show Carries s.world (s'.indexOf identity).1.world
          rw [world_indexOf]
          exact htake
  | access rid withoutTailer what => exact s.carries_access rid withoutTailer what inLoop
  | close sink => exact (s.world.quiet_closeSink _).carries
  | drain sink => exact (quiet_takeAll _ _ s.world).carries
  | cancel call =>
      unfold begin changed cancelled
      dsimp only
      split
      · next t _ =>
          exact (s.world.quiet_withLoop (f := (·.cancel t)) (s.world.loop.soft_cancel t)).carries
      · exact .refl _
  | applicationScopes =>
      unfold begin
      dsimp only
      split <;> exact .refl _
  | state | scopes | sinkState | samples | running => exact .refl _
  | register | sink | launch | applicationSink =>
      refine Quiet.carries ?_
      exact .of_eq rfl rfl (.refl _)
  | objects | failLists | hold | letGo | feed | log | deny | failReviews | failMutations
  | version => exact hscript

/-- Whatever is requested, and whatever comes of it, runs go on. -/
theorem carries_perform (name : String) (r : Request) (inLoop : Bool) :
    Carries s.world (s.perform name r inLoop).1.world := by
  let cleared := s.withWorld { s.world with journal := {} }
  have hclear : Quiet s.world cleared.world := .of_eq rfl rfl (.refl _)
  exact (hclear.carries.trans (cleared.carries_begin r inLoop)).trans (World.carries_settle _)

/-! ## What holds of every session -/

/-- The sessions that come of a session by one step after another. -/
inductive Leads (s : Session) : Session → Prop
  | refl : Leads s s
  | perform {s' : Session} (name : String) (r : Request) (inLoop : Bool) :
      Leads s s' → Leads s (s'.perform name r inLoop).1
  | misstep {s' : Session} (fault : Fault) : Leads s s' → Leads s (s'.misstep fault).1

variable {s} {s' : Session}

theorem Leads.carries (h : Leads s s') : Carries s.world s'.world := by
  induction h with
  | refl => exact .refl _
  | @perform s' name r inLoop _ ih => exact ih.trans (s'.carries_perform name r inLoop)
  | @misstep s' fault _ ih =>
      have hclear : Quiet s'.world { s'.world with journal := {} } := .of_eq rfl rfl (.refl _)
      exact ih.trans hclear.carries

theorem sound_new (watch : WatchConfig) (tail : TailConfig) (clock : Instant)
    (clusterScoped : Option (List String)) :
    (Session.new watch tail clock clusterScoped).world.Sound where
  timers id i h := by
    obtain ⟨timer, hmem, -⟩ := h
    exact absurd hmem List.not_mem_nil
  serves u i h := by
    obtain ⟨p, hp, -⟩ := h
    cases hp
  listed f i h := by
    cases f with
    | zero => exact absurd h List.not_mem_nil
    | succ f => exact absurd h List.not_mem_nil

theorem Leads.sound {watch : WatchConfig} {tail : TailConfig} {clock : Instant}
    {clusterScoped : Option (List String)} (h : Leads (.new watch tail clock clusterScoped) s) :
    s.world.Sound :=
  h.carries.sound (sound_new watch tail clock clusterScoped)

/-- Every informer of a session was new once, and what happened to it since is what can happen
to an informer. -/
theorem Leads.lived {watch : WatchConfig} {tail : TailConfig} {clock : Instant}
    {clusterScoped : Option (List String)} (h : Leads (.new watch tail clock clusterScoped) s)
    {i : InformerId} (hi : i < s.world.informers.length) :
    ∃ rid ns config ds, (s.world.informer i).cache = (Informer.new rid ns config).lived ds :=
  h.carries.made i (Nat.zero_le i) hi

/-- The worker of a scope that is watched for the first time follows a run, for as long as it
is the worker of that scope's informer. -/
theorem Leads.tracks {rid : ResourceId} {ns : String} (hs : s.world.Sound)
    (hopen : (s.world.factory s.factory).stopped = false)
    (hnew : s.world.lookup s.factory rid ns = none) (name : String)
    (h : Leads (s.perform name (.ensureWatch rid ns) true).1 s')
    (hw : (s'.world.informer s.world.informers.length).worker = some s.world.loop.tasks.length) :
    ∃ past, s'.world.Tracks s.world.informers.length s.world.loop.tasks.length
      (.new rid (s.world.scopeNamespace rid ns) (s.world.factory s.factory).config) past := by
  let w : World := { s.world with journal := {} }
  have hclear : Quiet s.world w := .of_eq rfl rfl (.refl _)
  have hsound : w.Sound := (hclear.acts 0).sound hs
  have hbegun := World.tracks_ensureWatch (w := w) hsound hopen hnew
  have hensured := (w.acts_ensureWatch 0 s.factory rid ns true).sound hsound
  have hworld : Carries (w.ensureWatch s.factory rid ns true).1 s'.world := by
    have hsettle := ((s.withWorld w).begin (.ensureWatch rid ns) true).1.world.carries_settle
    have hrest := hsettle.trans h.carries
    rw [world_begin_ensureWatch] at hrest
    exact hrest
  obtain ⟨past, -, htracks⟩ := hworld.tracks hensured hbegun hw
  exact ⟨past, htracks⟩

end LiveCluster.Simulation.Session
