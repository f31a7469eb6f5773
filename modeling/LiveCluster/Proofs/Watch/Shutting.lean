import LiveCluster.Proofs.Simulation.Leaving
import LiveCluster.Proofs.Simulation.Manned

/-!
# Stopping a factory

A factory that is stopped gives up its list first and then stops the informers one after
another. From then on it serves nobody, and nobody comes to work for them again. Those who
worked for them have all ended once the stop has returned. A stop that fails, since it came
to a worker that had failed, leaves the others of the list at work: so what is said of the
workers and their calls is said of stops that return.
-/

namespace LiveCluster.Simulation

namespace World

variable {w w' v x : World} {t u : TaskId} {who : Option TaskId} {f : FactoryId} {i : InformerId}
  {n : Nat} {L : InformerId → Prop} {asks : FactoryId → ResourceId → Prop} {shuts : Prop}

/-! ## Informers that nobody lists -/

/-- Some informers were made, and no factory lists them. -/
def Unlisted (L : InformerId → Prop) (w : World) : Prop :=
  ∀ i, L i → i < w.informers.length ∧ ∀ f key, w.listed f key ≠ some i

/-- Nobody comes to work for an informer that no factory lists. -/
theorem Unlisted.not_vacancy (h : Unlisted L w) (hi : L i) : ¬ Vacancy w w' i := by
  obtain ⟨hlt, hlisted⟩ := h i hi
  rintro ⟨-, hnew | ⟨f, key, hkey⟩⟩
  · exact absurd hlt (Nat.not_lt.2 hnew)
  · exact hlisted f key hkey

theorem Unlisted.shifts (h : Unlisted L w) (hw : Shifts asks shuts w w') : Unlisted L w' := by
  intro i hi
  obtain ⟨hlt, hlisted⟩ := h i hi
  refine ⟨Nat.lt_of_lt_of_le hlt hw.informers, fun f key hkey => ?_⟩
  rcases hw.new f key i hkey with hold | hnew
  · exact hlisted f key hold
  · exact absurd hlt (Nat.not_lt.2 hnew.fresh.1)

theorem Unlisted.idle (h : Unlisted L w) (hw : Shifts asks shuts w w') (hi : L i)
    (hidle : (w.informer i).worker = none) : (w'.informer i).worker = none := by
  cases hworker : (w'.informer i).worker with
  | none => rfl
  | some v =>
      rcases hw.starts i v hworker with hold | ⟨hle, p, hp, hr⟩
      · rw [hidle] at hold
        cases hold
      · exact absurd ((hw.made v p none hle hp).2.2.2 i hr) (h.not_vacancy hi)

/-- A task goes on and works for an informer. -/
def WorksFor (w : World) (t : TaskId) (i : InformerId) : Prop :=
  ∃ p, w.loop.standing t = some (p, none) ∧ p.routine = .worker i

/-- Who works for an informer that nobody lists did so before. -/
theorem Unlisted.worksFor (h : Unlisted L w) (hw : Shifts asks shuts w w') (hi : L i)
    (ht : w'.WorksFor t i) : w.WorksFor t i := by
  obtain ⟨p, hp, hr⟩ := ht
  cases hold : w.loop.standing t with
  | none =>
      obtain ⟨-, -, -, hvacancy⟩ := hw.made t p none (Loop.le_of_standing_eq_none hold) hp
      exact absurd (hvacancy i hr) (h.not_vacancy hi)
  | some s =>
      obtain ⟨q, e⟩ := s
      obtain ⟨p', e', hp', hr', hended⟩ := hw.lasts t q e hold
      cases hp.symm.trans hp'
      cases e with
      | none => exact ⟨q, hold, hr'.symm.trans hr⟩
      | some e => simp at hended

/-! ## How far a stop has come -/

/-- A task that stops the informers of a factory has come so far: those are left to be stopped
that are behind the one whose end it waits for, or none is left, or a worker had failed. -/
inductive Halting (t : TaskId) (n : Nat) (L : InformerId → Prop) (w : World) : Prop
  | underway (current : InformerId × TaskId) (rest : List InformerId)
      (point : w.loop.standing t = some (.stopping (.factory n) (some current) rest, none))
      (idle : ∀ i, L i → (w.informer i).worker = none ∨ i ∈ rest)
  | done (idle : ∀ i, L i → (w.informer i).worker = none)
  | raised (fault : Fault) (failed : w.loop.ending? t = some (.failed fault))

theorem halting_finish (w : World) {p : Point} (ht : w.loop.standing t = some (p, none))
    (fault : Fault) : Halting t n L (w.finish t (.failed fault)) := by
  have hown := (w.loop.ends_finish t (.failed fault)).own
  rw [ht] at hown
  exact .raised fault
    (ending?_of_standing (w := w.finish t (.failed fault)) (s := (p, some (.failed fault))) hown)

theorem worker_markStopped (w : World) (i j : InformerId) :
    ((w.markStopped i).informer j).worker = (w.informer j).worker := by
  have hset : Idle w (w.setInformer i { w.informer i with
      cache := (w.informer i).cache.stopped.1 }) := .setInformer ⟨rfl, rfl⟩ rfl rfl
  exact (hset.trans (idle_tellAll _ _)).worker j

theorem standing_markStopped (w : World) (i : InformerId)
    {s : Point × Option (Ending Report)} (ht : w.loop.standing t = some s) :
    (w.markStopped i).loop.standing t = some s := by
  have hmark : Hires anything True none w (w.markStopped i) := w.hires_markStopped i
  exact (hmark.old t (Loop.lt_of_standing ht)).trans ht

theorem halting_stopNext (w : World) (informers : List InformerId) {p : Point}
    (ht : w.loop.standing t = some (p, none))
    (hL : ∀ i, L i → (w.informer i).worker = none ∨ i ∈ informers) :
    Halting t n L (w.stopNext t (.factory n) informers) := by
  induction informers generalizing w with
  | nil =>
      refine .done fun i hi => ?_
      have hidle := (w.idle_tell (.info Forward.component "factory_stopped"
        [("informers", .int n)])).worker i
      exact hidle.trans ((hL i hi).resolve_right (by simp))
  | cons j rest ih =>
      unfold stopNext
      dsimp only
      split
      · next hnone =>
          refine ih w ht fun i hi => ?_
          rcases hL i hi with hidle | hmem
          · exact .inl hidle
          · rcases List.mem_cons.1 hmem with rfl | hmem
            · exact .inl hnone
            · exact .inr hmem
      · next worker hworker =>
          -- the worker is dismissed before it is looked at
          let y : Watched := { w.informer j with worker := none }
          have hleft : ∀ i, L i → ((w.setInformer j y).informer i).worker = none ∨ i ∈ rest := by
            intro i hi
            by_cases hij : i = j
            · subst hij
              rw [setInformer_self y (lt_of_worker hworker)]
              exact .inl rfl
            · rw [setInformer_other y hij]
              exact (hL i hi).imp_right fun hmem => (List.mem_cons.1 hmem).resolve_left hij
          split
          · exact halting_finish (w.setInformer j y) ht _
          · refine ih _ (standing_markStopped _ j ht) fun i hi => ?_
            rw [worker_markStopped]
            exact hleft i hi
          · have hmoves := (w.loop.soft_cancel worker).touches
              (Loop.moves_awaitTask _ t (.stopping (.factory n) (some (j, worker)) rest) worker)
            exact .underway (j, worker) rest (hmoves.own.trans (by rw [ht]; rfl)) hleft

theorem halting_runStopping (w : World) {p : Point} (ht : w.loop.standing t = some (p, none))
    (current : InformerId × TaskId) (rest : List InformerId) (a : Arrival)
    (hL : ∀ i, L i → (w.informer i).worker = none ∨ i ∈ rest) :
    Halting t n L (w.runStopping t (.factory n) (some current) rest a) := by
  obtain ⟨j, worker⟩ := current
  have hnext : Halting t n L ((w.markStopped j).stopNext t (.factory n) rest) :=
    halting_stopNext _ rest (standing_markStopped w j ht) fun i hi => by
      rw [worker_markStopped]
      exact hL i hi
  cases a with
  | cancelled _ => exact hnext
  | on =>
      unfold runStopping
      dsimp only
      split
      · exact halting_finish w ht _
      · exact hnext

theorem Halting.happens (h : Halting t n L w) (hnext : Happens who w w') (hw : Lived w)
    (hL : Unlisted L w) : Halting t n L w' := by
  obtain ⟨-, hshifts⟩ := hnext.manned hw.orderly hw.manned
  have hstay : ∀ i, L i → (w.informer i).worker = none → (w'.informer i).worker = none :=
    fun i hi hidle => hL.idle hshifts hi hidle
  cases h with
  | underway current rest hpoint hidle =>
      by_cases hwho : who = some t
      · subst hwho
        obtain ⟨before, after, round, -, rfl⟩ := hnext.turn
        let m := w.withReady (before ++ after) round
        cases harrive : m.loop.arrive t with
        | none =>
            have hended := Loop.ended_of_arrive harrive
            rw [show m.loop.ended t = w.loop.ended t from rfl, ended_of_standing hpoint] at hended
            cases hended
        | some arrived =>
            obtain ⟨l, p, arrival⟩ := arrived
            obtain ⟨hstanding, hsoft⟩ := Loop.arrive_standing harrive
            have hpoint' : l.standing t = some (.stopping (.factory n) (some current) rest, none) :=
              (hsoft.standing t).trans hpoint
            cases hstanding.symm.trans hpoint
            rw [run, harrive]
            exact halting_runStopping { m with loop := l } hpoint' current rest arrival hidle
      · obtain ⟨a, ha, hs⟩ := Option.map_eq_some_iff.1 hpoint
        obtain ⟨b, hb, hab⟩ := (hnext.passes hw.orderly.bound).others t a hwho ha
        refine .underway current rest ?_ fun i hi => (hidle i hi).imp_left (hstay i hi)
        rw [Loop.standing, hb, ← hs, ← hab.point, ← hab.ending]
        rfl
  | done hidle => exact .done fun i hi => hstay i hi (hidle i hi)
  | raised fault hfailed => exact .raised fault (hnext.keeps_ending hw.orderly.bound hfailed)

/-! ## A factory that was stopped -/

/-- A factory was stopped, and has given up its list. -/
structure Unserving (w : World) (f : FactoryId) : Prop where
  stopped : (w.factory f).stopped = true
  lists : (w.factory f).informers = []

theorem Unserving.shifts (h : w.Unserving f) (hw : Shifts asks shuts w w') : w'.Unserving f := by
  obtain ⟨hstopped, hsame⟩ := hw.stopped f h.stopped
  exact ⟨hstopped, hsame.trans h.lists⟩

theorem Unserving.listed (h : w.Unserving f) (key : String) : w.listed f key = none := by
  rw [World.listed, h.lists]
  rfl

theorem Unserving.lookup (h : w.Unserving f) (rid : ResourceId) (ns : String) :
    w.lookup f rid ns = none := by
  unfold World.lookup
  rw [h.lists]
  dsimp only [Keyed.get?]
  split <;> simp_all

theorem Unserving.scopeState (h : w.Unserving f) (rid : ResourceId) (ns : String) :
    w.scopeState f rid ns = (.unwatched, 0) := by
  rw [World.scopeState, h.lookup]

theorem Unserving.ensureWatch (h : w.Unserving f) (rid : ResourceId) (ns : String) (inLoop : Bool) :
    w.ensureWatch f rid ns inLoop = (w, .error (.badState .factoryStopped)) := by
  rw [World.ensureWatch, if_pos h.stopped]

theorem Unserving.ensureLazily (h : w.Unserving f) (rid : ResourceId) (ns : String)
    (inLoop : Bool) : w.ensureLazily f rid ns inLoop = w := by
  rw [World.ensureLazily, h.stopped]
  rfl

theorem Unserving.get (h : w.Unserving f) (rid : ResourceId) (path : String) (inLoop : Bool) :
    w.get f rid path inLoop = (w, none) := by
  unfold World.get
  dsimp only
  rw [h.lookup, h.ensureLazily]

theorem Unserving.list (h : w.Unserving f) (rid : ResourceId) (ns : String)
    (selector : Option Selector) (inLoop : Bool) : w.list f rid ns selector inLoop = (w, []) := by
  unfold World.list
  dsimp only
  rw [h.lookup, h.ensureLazily]

theorem factories_markStopped (w : World) (i : InformerId) :
    (w.markStopped i).factories = w.factories :=
  (idle_tellAll _ _).factories

theorem factories_stopNext (w : World) (t : TaskId) (reason : StopReason)
    (informers : List InformerId) : (w.stopNext t reason informers).factories = w.factories := by
  induction informers generalizing w with
  | nil =>
      cases reason with
      | informer => rfl
      | factory n | application n => exact (w.idle_tell _).factories
  | cons i rest ih =>
      unfold stopNext
      dsimp only
      split
      · exact ih w
      · split
        · cases reason <;> rfl
        · exact (ih _).trans (factories_markStopped _ i)
        · rfl

/-- A factory that is stopped has given up its list, and its informers are being stopped. -/
theorem halting_runStoppingFactory (w : World)
    (ht : w.loop.standing t = some (.stoppingFactory f, none))
    (hserving : (w.factory f).stopped = false) (a : Arrival)
    (hshut : ((w.runStoppingFactory t f a).factory f).stopped = true) :
    (w.runStoppingFactory t f a).Unserving f ∧
      ∃ n, Halting t n (fun i => ∃ key, w.listed f key = some i) (w.runStoppingFactory t f a) := by
  cases a with
  | cancelled woken =>
      rw [show ((w.runStoppingFactory t f (.cancelled woken)).factory f).stopped =
        (w.factory f).stopped from rfl, hserving] at hshut
      cases hshut
  | on =>
      let x : World := (w.shutFactory f).1
      let informers := Keyed.entries (w.factory f).informers
      have hrun : w.runStoppingFactory t f .on =
          x.stopNext t (.factory informers.length) informers := by
        unfold runStoppingFactory
        rw [hserving]
        rfl
      have hfactory : (w.runStoppingFactory t f .on).factory f = x.factory f := by
        rw [hrun, factory, factories_stopNext, ← factory]
      refine ⟨⟨hshut, ?_⟩, informers.length, ?_⟩
      · rw [hfactory] at hshut ⊢
        rcases w.factory_setFactory f f { w.factory f with stopped := true, informers := [] }
          with hsame | ⟨-, hsame⟩
        · -- the factory is there, since it was stopped
          rw [show x.factory f = w.factory f from hsame, hserving] at hshut
          cases hshut
        · rw [show x.factory f = _ from hsame]
      · rw [hrun]
        refine halting_stopNext x informers ht fun i hi => .inr ?_
        obtain ⟨key, hkey⟩ := hi
        exact Keyed.mem_entries_of_get? hkey

/-- The turn in which a factory is stopped. -/
theorem shut_of_turn (hw : Lived w) (hstop : Happens (some t) w w')
    (ht : w.loop.standing t = some (.stoppingFactory f, none))
    (hserving : (w.factory f).stopped = false) (hshut : (w'.factory f).stopped = true) :
    w'.Unserving f ∧ Unlisted (fun i => ∃ key, w.listed f key = some i) w' ∧
      ∃ n, Halting t n (fun i => ∃ key, w.listed f key = some i) w' := by
  obtain ⟨-, hshifts⟩ := hstop.manned hw.orderly hw.manned
  have hfiled := hw.manned.filed
  suffices hsuffices : w'.Unserving f ∧
      ∃ n, Halting t n (fun i => ∃ key, w.listed f key = some i) w' by
    obtain ⟨hshut, hhalting⟩ := hsuffices
    refine ⟨hshut, ?_, hhalting⟩
    rintro i ⟨key, hi⟩
    have hlt := hfiled.made f key i hi
    refine ⟨Nat.lt_of_lt_of_le hlt hshifts.informers, fun g key' hi' => ?_⟩
    rcases hshifts.new g key' i hi' with hold | hnew
    · obtain rfl := hfiled.once f g key key' i hi hold
      rw [hshut.listed] at hi'
      cases hi'
    · exact absurd hlt (Nat.not_lt.2 hnew.fresh.1)
  obtain ⟨before, after, round, -, rfl⟩ := hstop.turn
  let m := w.withReady (before ++ after) round
  cases harrive : m.loop.arrive t with
  | none =>
      have hended := Loop.ended_of_arrive harrive
      rw [show m.loop.ended t = w.loop.ended t from rfl, ended_of_standing ht] at hended
      cases hended
  | some arrived =>
      obtain ⟨l, p, arrival⟩ := arrived
      obtain ⟨hstanding, hsoft⟩ := Loop.arrive_standing harrive
      cases hstanding.symm.trans ht
      have hrun : m.run (.resume t) =
          World.runStoppingFactory { m with loop := l } t f arrival := by
        rw [run, harrive]
        rfl
      rw [hrun] at hshut ⊢
      exact halting_runStoppingFactory { m with loop := l } ((hsoft.standing t).trans ht) hserving
        arrival hshut

/-- What is known of the informers that a factory had when a task stopped it. -/
structure StopsAll (t : TaskId) (f : FactoryId) (L : InformerId → Prop) (w v : World) : Prop where
  state : ∀ rid ns, v.scopeState f rid ns = (.unwatched, 0)
  ensureWatch : ∀ rid ns inLoop,
    v.ensureWatch f rid ns inLoop = (v, .error (.badState .factoryStopped))
  get : ∀ rid path inLoop, v.get f rid path inLoop = (v, none)
  list : ∀ rid ns selector inLoop, v.list f rid ns selector inLoop = (v, [])
  /-- Nobody comes to work for them. -/
  nobody : ∀ u i, L i → v.WorksFor u i → w.WorksFor u i
  /-- Once the stop has returned only those still work whose end somebody else waits for. -/
  returned : ∀ report, v.loop.ending? t = some (.returned report) →
    ∀ u i, L i → v.WorksFor u i → ∃ s, s ≠ t ∧ v.Outlasts s i u

/-- Nobody works for some informers, and no calls are made for them. -/
structure Silent (L : InformerId → Prop) (w : World) : Prop where
  nobody : ∀ u i, L i → ¬ w.WorksFor u i
  calls : ∀ who w', Happens who w w' → (∃ journal, w' = { w with journal := journal }) ∨
    ∃ cs, w'.journal.calls = w.journal.calls ++ cs ∧
      ∀ c ∈ cs, ∀ scope, c.scope? = some scope → ∃ i, ¬ L i ∧ w.watches i = scope

theorem silent_of_nobody (hw : Lived w) (h : ∀ u i, L i → ¬ w.WorksFor u i) : Silent L w := by
  refine ⟨h, fun who w' hnext => ?_⟩
  rcases hnext.dials hw.orderly hw.manned with ⟨cs, hcs, hturn⟩ | hjournal
  · refine .inr ⟨cs, hcs, fun c hc scope hscope => ?_⟩
    obtain ⟨i, ⟨u, p, -, hp, hr⟩, hwatches⟩ := hturn c hc scope hscope
    exact ⟨i, fun hi => h u i hi ⟨p, hp, hr⟩, hwatches⟩
  · exact .inl hjournal

/-- What is known as long as a factory has been stopped. -/
structure Halted (t : TaskId) (f : FactoryId) (L : InformerId → Prop) (w v : World) : Prop where
  lived : Lived v
  shut : v.Unserving f
  unlisted : Unlisted L v
  halting : ∃ n, Halting t n L v
  nobody : ∀ u i, L i → v.WorksFor u i → w.WorksFor u i

theorem Halted.happens (h : Halted t f L w v) (hnext : Happens who v x) : Halted t f L w x := by
  obtain ⟨-, hshifts⟩ := hnext.manned h.lived.orderly h.lived.manned
  obtain ⟨n, hhalting⟩ := h.halting
  exact {
    lived := h.lived.next hnext
    shut := h.shut.shifts hshifts
    unlisted := h.unlisted.shifts hshifts
    halting := ⟨n, hhalting.happens hnext h.lived h.unlisted⟩
    nobody := fun u i hi hu => h.nobody u i hi (h.unlisted.worksFor hshifts hi hu) }

theorem Halted.becomes (h : Halted t f L w v) (hx : Becomes v x) : Halted t f L w x := by
  induction hx with
  | refl => exact h
  | next _ hnext ih => exact ih.happens hnext

/-- Once a stop has returned its informers have nobody who works for them, but for those who are
being stopped by somebody else. -/
theorem Halted.returned (h : Halted t f L w v) {report : Report}
    (hreturned : v.loop.ending? t = some (.returned report)) (hi : L i) (hu : v.WorksFor u i) :
    ∃ s, s ≠ t ∧ v.Outlasts s i u := by
  obtain ⟨n, hhalting⟩ := h.halting
  obtain ⟨p, hp, hr⟩ := hu
  have hidle : (v.informer i).worker = none := by
    cases hhalting with
    | underway current rest hpoint _ =>
        rw [ending?_of_standing hpoint] at hreturned
        cases hreturned
    | done hidle => exact hidle i hi
    | raised fault hfailed =>
        rw [hfailed] at hreturned
        cases hreturned
  rcases h.lived.manned.manned u p i hp hr with hworker | ⟨s, hs⟩
  · rw [hidle] at hworker
    cases hworker
  · refine ⟨s, ?_, hs⟩
    rintro rfl
    obtain ⟨a, -, -, ha, hgoing, -⟩ := hs
    rw [Loop.ending?, ha] at hreturned
    cases hgoing.symm.trans hreturned

theorem Halted.stopsAll (h : Halted t f L w v) : StopsAll t f L w v where
  state := h.shut.scopeState
  ensureWatch := h.shut.ensureWatch
  get := h.shut.get
  list := h.shut.list
  nobody := h.nobody
  returned _ hreturned _ _ hi hu := h.returned hreturned hi hu

/-- A factory has made an informer at some time. -/
def HasMade (f : FactoryId) (w : World) (i : InformerId) : Prop :=
  ∃ y key, Lived y ∧ Becomes y w ∧ y.listed f key = some i

/-- What a factory lists it lists until it is stopped. -/
theorem listed_of_becomes {key : String} (hw : Lived w) (hv : Becomes w v)
    (hserving : (v.factory f).stopped = false) (hi : w.listed f key = some i) :
    v.listed f key = some i := by
  induction hv with
  | refl => exact hi
  | next hv hnext ih =>
      have hlived := hw.becomes hv
      obtain ⟨-, hshifts⟩ := hnext.manned hlived.orderly hlived.manned
      rcases hshifts.kept f key i (ih (hshifts.serving_back hserving)) with hkept | ⟨-, hstopped⟩
      · exact hkept
      · rw [hserving] at hstopped
        cases hstopped

/-- A factory that a task has stopped serves nobody from then on, whatever happens: every scope
is unwatched, to ensure a watch is refused, and reads find nothing and start nothing. Nobody comes
to work again for any informer that the factory ever made. Once the stop has returned, nobody
works for them but those whose end another stop waits for; and if there are none of these, the
cluster is never called for them again. -/
theorem stopping_factory_stops_all (hw : Lived w) (hstop : Happens (some t) w w')
    (ht : w.loop.standing t = some (.stoppingFactory f, none))
    (hserving : (w.factory f).stopped = false) (hshut : (w'.factory f).stopped = true)
    (hv : Becomes w' v) :
    StopsAll t f (HasMade f w) w' v ∧
      ∀ report, v.loop.ending? t = some (.returned report) →
        (∀ s u i, HasMade f w i → ¬ v.Outlasts s i u) →
          ∀ x, Becomes v x → Silent (HasMade f w) x := by
  have hL : (fun i => ∃ key, w.listed f key = some i) = HasMade f w := by
    funext i
    exact propext ⟨fun ⟨key, hi⟩ => ⟨w, key, hw, .refl, hi⟩,
      fun ⟨y, key, hy, hyw, hi⟩ => ⟨key, listed_of_becomes hy hyw hserving hi⟩⟩
  obtain ⟨hshut, hunlisted, hhalting⟩ := shut_of_turn hw hstop ht hserving hshut
  have hhalted : Halted t f (HasMade f w) w' w' :=
    ⟨hw.next hstop, hshut, hL ▸ hunlisted, hL ▸ hhalting, fun _ _ _ hu => hu⟩
  have hthen := hhalted.becomes hv
  refine ⟨hthen.stopsAll, fun report hreturned hnone x hx => ?_⟩
  have hlater : Halted t f (HasMade f w) v x :=
    Halted.becomes { hthen with nobody := fun _ _ _ hu => hu } hx
  refine silent_of_nobody hlater.lived fun u i hi hu => ?_
  obtain ⟨s, -, hs⟩ := hthen.returned hreturned hi (hlater.nobody u i hi hu)
  exact hnone s u i hi hs

/-- Pods are watched, and the factory is to be stopped before their worker has had a turn. -/
def podsStopping : World :=
  let s : Session := .new {} {} default none
  ((s.begin (.ensureWatch .pods "") true).1.begin .stop true).1.world

/-- The factory is stopped, and the worker has been told. -/
def podsShut : World :=
  (podsStopping.withReady [.resume 0] 0).run (.resume 1)

/-- The worker has ended, and then the stop. -/
def podsStopped : World :=
  (((podsShut.withReady [] 0).run (.resume 0)).withReady [] 0).run (.resume 1)

theorem lived_podsStopping : Lived podsStopping := by
  let s : Session := .new {} {} default none
  have hfirst : Lived (s.begin (.ensureWatch .pods "") true).1.world :=
    .next (.new ..) (.request s _ _ (by simp) fun k hk => by cases hk)
  exact .next hfirst (.request _ _ _ (by simp) fun k hk => by cases hk)

/-- A worker that was there is gone once the factory has been stopped. -/
theorem stopping_factory_stops_all_pods :
    podsStopping.WorksFor 0 0 ∧ podsStopped.loop.ending? 1 = some (.returned .nothing) ∧
      Silent (HasMade 0 podsStopping) podsStopped := by
  have hstop : Happens (some 1) podsStopping podsShut :=
    @Happens.job podsStopping (.resume 1) [.resume 0] [] 0 rfl
  have hthen : Becomes podsShut podsStopped :=
    .next (.next .refl (@Happens.job podsShut (.resume 0) [] [] 0 rfl))
      (@Happens.job _ (.resume 1) [] [] 0 rfl)
  have h := stopping_factory_stops_all lived_podsStopping hstop rfl rfl rfl hthen
  refine ⟨⟨_, rfl, rfl⟩, rfl, h.2 .nothing rfl (fun s u i _ hs => ?_) _ .refl⟩
  obtain ⟨a, reason, rest, ha, hgoing, -⟩ := hs
  rcases s with - | - | s <;> cases ha <;> cases hgoing

end World

end LiveCluster.Simulation
