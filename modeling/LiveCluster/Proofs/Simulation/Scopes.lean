import LiveCluster.Proofs.Simulation.Workers

/-!
# Whom factories list

A factory lists an informer under the key of its scope, and it makes one only for a scope
that nobody serves. `Filed` is what holds of all lists, and `Files` is what a step does to
them: it may add informers that it has made, and it strikes none off unless it stops the
factory. What may be asked of which factory is left open.
-/

namespace LiveCluster

namespace Informer

/-- Whatever happens to an informer, it serves its scope. -/
def SameScope (i j : Informer) : Prop :=
  j.rid = i.rid ∧ j.ns = i.ns

theorem SameScope.refl (i : Informer) : SameScope i i :=
  ⟨rfl, rfl⟩

theorem SameScope.trans {i j k : Informer} (h : SameScope i j) (h' : SameScope j k) :
    SameScope i k :=
  ⟨h'.1.trans h.1, h'.2.trans h.2⟩

theorem SameScope.key {i j : Informer} (h : SameScope i j) : j.key = i.key := by
  rw [Informer.key, Informer.key, h.1, h.2]

theorem sameScope_proceed (i : Informer) (notes : List Note) :
    SameScope i (i.proceed notes).informer := by
  unfold proceed
  split <;> exact .refl _

theorem sameScope_pause (i : Informer) (notes : List Note) (fault : Fault) :
    SameScope i (i.pause notes fault).informer := by
  have hcount : SameScope i (i.countFailure fault).1 := by
    unfold countFailure
    dsimp only
    split <;> exact .refl _
  unfold pause
  dsimp only
  split <;> exact hcount

theorem sameScope_recover (i : Informer) (notes : List Note) (fault : Fault) :
    SameScope i (i.recover notes fault).informer := by
  unfold recover
  dsimp only
  split
  · exact sameScope_proceed { i with needList := true } _
  · split <;> exact sameScope_pause { i with needList := true } _ fault

theorem sameScope_establish (i : Informer) : SameScope i i.establish.1 := by
  unfold establish
  split <;> exact .refl _

theorem sameScope_applyEvent (i : Informer) (e : WatchEvent) : SameScope i (i.applyEvent e).1 := by
  unfold applyEvent
  split
  · exact .refl i
  · next version _ =>
      have hversion :
          SameScope i (if version.isEmpty then i else { i with version := version }) := by
        split <;> exact .refl _
      dsimp only
      split <;> exact hversion

theorem sameScope_react (i : Informer) (x : Signal) : SameScope i (i.react x).informer := by
  cases x with
  | started => exact sameScope_proceed { i with needList := true } []
  | woke => exact i.sameScope_proceed []
  | listFailed fault | watchFailed fault => exact i.sameScope_recover _ fault
  | listed items version =>
      unfold react
      dsimp only
      split
      · next j notes h =>
          have hlisted : SameScope i j := by
            unfold relist at h
            cases hitems : Partition.ofListing items [] with
            | error fault => rw [hitems] at h; cases h
            | ok found => rw [hitems] at h; cases h; exact .refl _
          exact hlisted.trans (sameScope_proceed { j with needList := false } _)
      · exact i.sameScope_recover _ _
  | event e =>
      have happlied := i.sameScope_establish.trans (sameScope_applyEvent _ e)
      unfold react
      dsimp only
      split
      · exact happlied
      · exact happlied.trans (sameScope_recover _ _ _)
  | ended =>
      have hpaused := i.sameScope_pause [] closedEarly
      rw [react]
      split
      · exact i.sameScope_proceed _
      · dsimp only
        split
        · exact hpaused.trans (sameScope_recover _ _ _)
        · exact hpaused

end Informer

namespace Simulation.World

open Informer (SameScope)

variable {w w' x : World} {asks : FactoryId → ResourceId → Prop} {shuts : Prop}
  {f g : FactoryId} {i : InformerId} {rid : ResourceId} {ns key : String}

/-- The informer that a factory lists under a key. -/
def listed (w : World) (f : FactoryId) (key : String) : Option InformerId :=
  (w.factory f).informers.get? key

/-- Every list is in order: it has informers that were asked for, each in one list and under its
own key only. -/
structure Filed (asks : FactoryId → ResourceId → Prop) (w : World) : Prop where
  made : ∀ f key i, w.listed f key = some i → i < w.informers.length
  key : ∀ f key i, w.listed f key = some i → (w.informer i).cache.key = key
  asked : ∀ f key i, w.listed f key = some i →
    ∃ rid, asks f rid ∧ (w.informer i).cache.rid = rid.kindOnly
  /-- A kind without namespaces is watched in all of them. -/
  unscoped : ∀ f key i, w.listed f key = some i →
    w.cluster.namespaced (w.informer i).cache.rid = false → (w.informer i).cache.ns = ""
  once : ∀ f g key key' i, w.listed f key = some i → w.listed g key' = some i → f = g
  /-- Nobody is made once somebody serves all namespaces of the kind. -/
  older : ∀ f key i j, w.listed f key = some i →
    w.listed f ((w.informer i).cache.rid.scopeKey "") = some j → i ≤ j
  nodup : ∀ f, (w.factory f).informers.keys.Nodup

/-- A factory has come to list an informer that was made for it, of a scope that it did not
serve. -/
structure Subscribes (asks : FactoryId → ResourceId → Prop) (w w' : World) (f : FactoryId)
    (key : String) (i : InformerId) : Prop where
  fresh : w.informers.length ≤ i ∧ i < w'.informers.length
  vacant : w.listed f key = none ∧
    w.listed f ((w'.informer i).cache.rid.scopeKey "") = none
  serving : (w.factory f).stopped = false

/-- What a step does to the lists of factories; who `shuts` may stop a factory. -/
structure Files (asks : FactoryId → ResourceId → Prop) (shuts : Prop) (w w' : World) : Prop where
  informers : w.informers.length ≤ w'.informers.length
  scope : ∀ i, i < w.informers.length → SameScope (w.informer i).cache (w'.informer i).cache
  clusterScoped : w'.cluster.clusterScoped = w.cluster.clusterScoped
  factories : w.factories.length ≤ w'.factories.length
  kept : ∀ f key i, w.listed f key = some i →
    w'.listed f key = some i ∨ shuts ∧ (w'.factory f).stopped = true
  serving : ∀ f, (w.factory f).stopped = false → (w'.factory f).stopped = false ∨ shuts
  stopped : ∀ f, (w.factory f).stopped = true →
    (w'.factory f).stopped = true ∧ (w'.factory f).informers = (w.factory f).informers
  new : ∀ f key i, w'.listed f key = some i →
    w.listed f key = some i ∨ Subscribes asks w w' f key i
  /-- Whoever was made is listed, if the factory is there of which it was asked. -/
  lists : ∀ i, w.informers.length ≤ i → i < w'.informers.length → ∃ f, (∃ rid, asks f rid) ∧
    (w.factories.length ≤ f ∨ shuts ∧ (w'.factory f).stopped = true ∨
      ∃ key, w'.listed f key = some i)
  filed : w.Filed asks → w'.Filed asks

theorem namespaced_congr (h : w'.cluster.clusterScoped = w.cluster.clusterScoped)
    (rid : ResourceId) : w'.cluster.namespaced rid = w.cluster.namespaced rid := by
  rw [Cluster.namespaced, h, ← Cluster.namespaced]

theorem Subscribes.widen (h : Subscribes asks w w' f key i)
    (hinformers : w'.informers.length ≤ x.informers.length)
    (hscope : SameScope (w'.informer i).cache (x.informer i).cache) :
    Subscribes asks w x f key i where
  fresh := ⟨h.fresh.1, Nat.lt_of_lt_of_le h.fresh.2 hinformers⟩
  vacant := by
    rw [hscope.1]
    exact h.vacant
  serving := h.serving

/-- What was vacant in the end was vacant before. -/
theorem Files.vacant (h : Files asks shuts w w') (hserving : (w'.factory f).stopped = false)
    (hnone : w'.listed f key = none) : w.listed f key = none := by
  cases hlisted : w.listed f key with
  | none => rfl
  | some i =>
      rcases h.kept f key i hlisted with hkept | ⟨-, hstopped⟩
      · rw [hnone] at hkept
        cases hkept
      · rw [hserving] at hstopped
        cases hstopped

theorem Files.serving_back (h : Files asks shuts w w') (hserving : (w'.factory f).stopped = false) :
    (w.factory f).stopped = false := by
  cases hstopped : (w.factory f).stopped with
  | false => rfl
  | true =>
      rw [(h.stopped f hstopped).1] at hserving
      cases hserving

theorem Files.trans (h : Files asks shuts w w') (h' : Files asks shuts w' x) :
    Files asks shuts w x where
  informers := Nat.le_trans h.informers h'.informers
  scope i hi := (h.scope i hi).trans (h'.scope i (Nat.lt_of_lt_of_le hi h.informers))
  clusterScoped := h'.clusterScoped.trans h.clusterScoped
  factories := Nat.le_trans h.factories h'.factories
  kept f key i hi := by
    rcases h.kept f key i hi with hi | ⟨hshuts, hstopped⟩
    · exact h'.kept f key i hi
    · exact .inr ⟨hshuts, (h'.stopped f hstopped).1⟩
  serving f hf := (h.serving f hf).elim (h'.serving f) .inr
  stopped f hf := by
    obtain ⟨hstopped, hsame⟩ := h.stopped f hf
    obtain ⟨hstopped', hsame'⟩ := h'.stopped f hstopped
    exact ⟨hstopped', hsame'.trans hsame⟩
  new f key i hi := by
    rcases h'.new f key i hi with hi | hnew
    · refine (h.new f key i hi).imp_right fun hnew => ?_
      exact hnew.widen h'.informers (h'.scope i hnew.fresh.2)
    · exact .inr {
        fresh := ⟨Nat.le_trans h.informers hnew.fresh.1, hnew.fresh.2⟩
        vacant := ⟨h.vacant hnew.serving hnew.vacant.1, h.vacant hnew.serving hnew.vacant.2⟩
        serving := h.serving_back hnew.serving }
  lists i hle hlt := by
    by_cases hi : i < w'.informers.length
    · obtain ⟨f, hasks, hf⟩ := h.lists i hle hi
      refine ⟨f, hasks, hf.imp_right fun hf => ?_⟩
      rcases hf with ⟨hshuts, hstopped⟩ | ⟨key, hkey⟩
      · exact .inl ⟨hshuts, (h'.stopped f hstopped).1⟩
      · exact (h'.kept f key i hkey).symm.imp_right fun hkept => ⟨key, hkept⟩
    · obtain ⟨f, hasks, hf⟩ := h'.lists i (Nat.le_of_not_lt hi) hlt
      exact ⟨f, hasks, hf.imp_left (Nat.le_trans h.factories)⟩
  filed hw := h'.filed (h.filed hw)

theorem Files.of_shuts {shuts' : Prop} (h : Files asks shuts w w') (hshuts : shuts → shuts') :
    Files asks shuts' w w' :=
  { h with
    kept := fun f key i hi => (h.kept f key i hi).imp_right (And.imp_left hshuts)
    serving := fun f hf => (h.serving f hf).imp_right hshuts
    lists := fun i hle hlt => by
      obtain ⟨f, hasks, hf⟩ := h.lists i hle hlt
      exact ⟨f, hasks, hf.imp_right (Or.imp_left (And.imp_left hshuts))⟩ }

theorem Filed.of_same (h : w.Filed asks) (hlength : w'.informers.length = w.informers.length)
    (hscope : ∀ i, SameScope (w.informer i).cache (w'.informer i).cache)
    (hcluster : w'.cluster.clusterScoped = w.cluster.clusterScoped)
    (hfactories : ∀ f, (w'.factory f).informers = (w.factory f).informers) : w'.Filed asks := by
  have hlisted : ∀ f key, w'.listed f key = w.listed f key := fun f key => by
    rw [listed, hfactories, ← listed]
  exact {
    made := fun f key i hi => hlength ▸ h.made f key i (hlisted f key ▸ hi)
    key := fun f key i hi => (hscope i).key.trans (h.key f key i (hlisted f key ▸ hi))
    asked := fun f key i hi => by
      rw [(hscope i).1]
      exact h.asked f key i (hlisted f key ▸ hi)
    unscoped := fun f key i hi hns => by
      rw [(hscope i).1, namespaced_congr hcluster] at hns
      rw [(hscope i).2]
      exact h.unscoped f key i (hlisted f key ▸ hi) hns
    once := fun f g key key' i hi hi' =>
      h.once f g key key' i (hlisted f key ▸ hi) (hlisted g key' ▸ hi')
    older := fun f key i j hi hj => by
      rw [(hscope i).1, hlisted] at hj
      exact h.older f key i j (hlisted f key ▸ hi) hj
    nodup := fun f => by
      rw [hfactories]
      exact h.nodup f }

/-- No list is changed. -/
theorem Files.of_same (hlength : w'.informers.length = w.informers.length)
    (hscope : ∀ i, SameScope (w.informer i).cache (w'.informer i).cache)
    (hcluster : w'.cluster.clusterScoped = w.cluster.clusterScoped)
    (hcount : w.factories.length ≤ w'.factories.length)
    (hfactories : ∀ f, (w'.factory f).informers = (w.factory f).informers ∧
      (w'.factory f).stopped = (w.factory f).stopped) : Files asks shuts w w' := by
  have hlisted : ∀ f key, w'.listed f key = w.listed f key := fun f key => by
    rw [listed, (hfactories f).1, ← listed]
  exact {
    informers := Nat.le_of_eq hlength.symm
    scope := fun i _ => hscope i
    clusterScoped := hcluster
    factories := hcount
    kept := fun f key i hi => .inl ((hlisted f key).trans hi)
    serving := fun f hf => .inl ((hfactories f).2.trans hf)
    stopped := fun f hf => ⟨(hfactories f).2.trans hf, (hfactories f).1⟩
    new := fun f key i hi => .inl (hlisted f key ▸ hi)
    lists := fun i hle hlt => absurd (hlength ▸ hlt) (Nat.not_lt.2 hle)
    filed := fun hw => hw.of_same hlength hscope hcluster fun f => (hfactories f).1 }

theorem sameScope_setInformer {y : Watched} (h : SameScope (w.informer i).cache y.cache)
    (j : InformerId) : SameScope (w.informer j).cache ((w.setInformer i y).informer j).cache := by
  rcases w.setInformer_cases i j y with hj | ⟨rfl, hj⟩ <;> rw [hj]
  · exact .refl _
  · exact h

theorem Files.setInformer {y : Watched} (h : SameScope (w.informer i).cache y.cache) :
    Files asks shuts w (w.setInformer i y) :=
  .of_same (length_setInformer w i y) (sameScope_setInformer h) rfl (Nat.le_refl _) fun _ =>
    ⟨rfl, rfl⟩

theorem Files.refl (w : World) : Files asks shuts w w :=
  .of_same rfl (fun _ => .refl _) rfl (Nat.le_refl _) fun _ => ⟨rfl, rfl⟩

/-! ## Who does not touch the lists -/

/-- Nothing is changed that bears on who watches what. -/
structure Idle (w w' : World) : Prop where
  length : w'.informers.length = w.informers.length
  scope : ∀ i, SameScope (w.informer i).cache (w'.informer i).cache
  items : ∀ i, (w'.informer i).cache.items = (w.informer i).cache.items
  worker : ∀ i, (w'.informer i).worker = (w.informer i).worker
  factories : w'.factories = w.factories
  clusterScoped : w'.cluster.clusterScoped = w.cluster.clusterScoped
  calls : w'.journal.calls = w.journal.calls

theorem Idle.of_eq (hinformers : w'.informers = w.informers)
    (hfactories : w'.factories = w.factories)
    (hcluster : w'.cluster.clusterScoped = w.cluster.clusterScoped)
    (hcalls : w'.journal.calls = w.journal.calls) : Idle w w' where
  length := by rw [hinformers]
  scope i := by
    rw [informer, informer, hinformers]
    exact .refl _
  items i := by rw [informer, informer, hinformers]
  worker i := by rw [informer, informer, hinformers]
  factories := hfactories
  clusterScoped := hcluster
  calls := hcalls

theorem Idle.refl (w : World) : Idle w w :=
  .of_eq rfl rfl rfl rfl

theorem Idle.trans (h : Idle w w') (h' : Idle w' x) : Idle w x where
  length := h'.length.trans h.length
  scope i := (h.scope i).trans (h'.scope i)
  items i := (h'.items i).trans (h.items i)
  worker i := (h'.worker i).trans (h.worker i)
  factories := h'.factories.trans h.factories
  clusterScoped := h'.clusterScoped.trans h.clusterScoped
  calls := h'.calls.trans h.calls

theorem Idle.files (h : Idle w w') : Files asks shuts w w' :=
  .of_same h.length h.scope h.clusterScoped (Nat.le_of_eq (by rw [h.factories])) fun f => by
    rw [factory, factory, h.factories]
    exact ⟨rfl, rfl⟩

/-- An informer is changed in something else than its scope, what it has, and its worker. -/
theorem Idle.setInformer {y : Watched} (hscope : SameScope (w.informer i).cache y.cache)
    (hitems : y.cache.items = (w.informer i).cache.items)
    (hworker : y.worker = (w.informer i).worker) : Idle w (w.setInformer i y) where
  length := length_setInformer w i y
  scope := sameScope_setInformer hscope
  items j := setInformer_congr (·.cache.items) hitems j
  worker j := setInformer_congr Watched.worker hworker j
  factories := rfl
  clusterScoped := rfl
  calls := rfl

theorem idle_write (w : World) (setup : Option LogSetup) (r : LogRecord) :
    Idle w (w.write setup r) := by
  unfold write
  split <;> exact .of_eq rfl rfl rfl rfl

theorem idle_logOf (w : World) (component : String) : Idle w (w.logOf component).1 := by
  unfold logOf
  split
  · exact .refl w
  · split <;> exact .of_eq rfl rfl rfl rfl

theorem idle_tell (w : World) (note : Note) : Idle w (w.tell note) := by
  cases note with
  | log r => exact (w.idle_logOf r.component).trans (idle_write _ _ r)
  | count _ | stale _ _ => exact .of_eq rfl rfl rfl rfl

theorem idle_foldl {α : Type} {h : World → α → World} (hh : ∀ w a, Idle w (h w a)) (w : World)
    (as : List α) : Idle w (as.foldl h w) := by
  induction as generalizing w with
  | nil => exact .refl w
  | cons a rest ih => exact (hh w a).trans (ih (h w a))

theorem idle_tellAll (w : World) (notes : List Note) : Idle w (w.tellAll notes) :=
  idle_foldl idle_tell w notes

/-! ## New lists -/

/-- What is written back of a factory that is there. -/
theorem factory_setFactory_self (y : Factory) (hf : f < w.factories.length) :
    (w.setFactory f y).factory f = y := by
  rw [factory, setFactory, List.getElem?_set_self hf]
  rfl

/-- An informer is made, and a factory lists it under its key. -/
structure Enlists (f : FactoryId) (cache : Informer) (w v : World) : Prop where
  length : v.informers.length = w.informers.length + 1
  old : ∀ j, j < w.informers.length → v.informer j = w.informer j
  made : v.informer w.informers.length = { cache := cache }
  clusterScoped : v.cluster.clusterScoped = w.cluster.clusterScoped
  factories : v.factories.length = w.factories.length
  factory : ∀ g, v.factory g = w.factory g ∨ g = f ∧ v.factory g = { w.factory f with
    informers := (w.factory f).informers.set cache.key w.informers.length }
  own : f < w.factories.length → v.listed f cache.key = some w.informers.length

variable {cache : Informer} {v : World}

/-- A list is as before, but that the scope has come to be served. -/
theorem Enlists.listed (h : Enlists f cache w v) (g : FactoryId) (key : String) :
    v.listed g key = w.listed g key ∨
      g = f ∧ key = cache.key ∧ v.listed g key = some w.informers.length := by
  rcases h.factory g with hg | ⟨rfl, hg⟩
  · exact .inl (by rw [World.listed, hg, ← World.listed])
  · rw [World.listed, hg, Keyed.get?_set]
    split
    · next hkey => exact .inr ⟨rfl, hkey, rfl⟩
    · exact .inl rfl

theorem Enlists.listed_cases (h : Enlists f cache w v) (hi : v.listed g key = some i) :
    w.listed g key = some i ∨ g = f ∧ key = cache.key ∧ i = w.informers.length := by
  rcases h.listed g key with hsame | ⟨hg, hkey, hself⟩
  · exact .inl (hsame ▸ hi)
  · rw [hself] at hi
    exact .inr ⟨hg, hkey, (Option.some.inj hi).symm⟩

theorem Enlists.stopped (h : Enlists f cache w v) (g : FactoryId) :
    (v.factory g).stopped = (w.factory g).stopped := by
  rcases h.factory g with hg | ⟨rfl, hg⟩ <;> rw [hg]

/-- The lists stay in order if the informer was asked for and nobody serves all namespaces. -/
theorem Filed.enlists (hw : w.Filed asks) (h : Enlists f cache w v)
    (hasked : ∃ rid, asks f rid ∧ cache.rid = rid.kindOnly)
    (hall : w.listed f (cache.rid.scopeKey "") = none)
    (hns : w.cluster.namespaced cache.rid = false → cache.ns = "") : v.Filed asks where
  made g k j hj := by
    rw [h.length]
    rcases h.listed_cases hj with hold | ⟨-, -, rfl⟩
    · exact Nat.lt_succ_of_lt (hw.made g k j hold)
    · exact Nat.lt_succ_self _
  key g k j hj := by
    rcases h.listed_cases hj with hold | ⟨-, rfl, rfl⟩
    · rw [h.old j (hw.made g k j hold)]
      exact hw.key g k j hold
    · rw [h.made]
  asked g k j hj := by
    rcases h.listed_cases hj with hold | ⟨rfl, -, rfl⟩
    · rw [h.old j (hw.made g k j hold)]
      exact hw.asked g k j hold
    · rw [h.made]
      exact hasked
  unscoped g k j hj hunscoped := by
    rw [namespaced_congr h.clusterScoped] at hunscoped
    rcases h.listed_cases hj with hold | ⟨-, -, rfl⟩
    · rw [h.old j (hw.made g k j hold)] at hunscoped ⊢
      exact hw.unscoped g k j hold hunscoped
    · rw [h.made] at hunscoped ⊢
      exact hns hunscoped
  once g g' k k' j hj hj' := by
    rcases h.listed_cases hj with hold | ⟨rfl, -, rfl⟩ <;>
      rcases h.listed_cases hj' with hold' | ⟨rfl, -, heq⟩
    · exact hw.once g g' k k' j hold hold'
    · exact absurd (heq ▸ hw.made g k j hold) (Nat.lt_irrefl _)
    · exact absurd (hw.made g' k' _ hold') (Nat.lt_irrefl _)
    · rfl
  older g k j j' hj hj' := by
    rcases h.listed_cases hj with hold | ⟨rfl, -, rfl⟩
    · rw [h.old j (hw.made g k j hold)] at hj'
      rcases h.listed_cases hj' with hold' | ⟨-, -, rfl⟩
      · exact hw.older g k j j' hold hold'
      · exact Nat.le_of_lt (hw.made g k j hold)
    · rw [h.made] at hj'
      rcases h.listed_cases hj' with hold' | ⟨-, -, rfl⟩
      · rw [hall] at hold'
        cases hold'
      · exact Nat.le_refl _
  nodup g := by
    rcases h.factory g with hg | ⟨rfl, hg⟩ <;> rw [hg]
    · exact hw.nodup g
    · exact Keyed.nodup_keys_set (hw.nodup g) _ _

/-- A factory comes to list an informer of a scope that it did not serve. -/
theorem Enlists.files (h : Enlists f cache w v) (hserving : (w.factory f).stopped = false)
    (hasked : ∃ rid, asks f rid ∧ cache.rid = rid.kindOnly)
    (hexact : w.listed f cache.key = none) (hall : w.listed f (cache.rid.scopeKey "") = none)
    (hns : w.cluster.namespaced cache.rid = false → cache.ns = "") :
    Files asks shuts w v where
  informers := h.length ▸ Nat.le_succ _
  scope j hj := by
    rw [h.old j hj]
    exact .refl _
  clusterScoped := h.clusterScoped
  factories := Nat.le_of_eq h.factories.symm
  kept g k j hj := .inl (by
    rcases h.listed g k with hsame | ⟨rfl, rfl, -⟩
    · rw [hsame, hj]
    · rw [hexact] at hj
      cases hj)
  serving g hg := .inl (by rw [h.stopped, hg])
  stopped g hg := by
    refine ⟨by rw [h.stopped, hg], ?_⟩
    rcases h.factory g with hsame | ⟨rfl, -⟩
    · rw [hsame]
    · rw [hserving] at hg
      cases hg
  new g k j hj := by
    refine (h.listed_cases hj).imp_right ?_
    rintro ⟨rfl, rfl, rfl⟩
    exact {
      fresh := ⟨Nat.le_refl _, h.length ▸ Nat.lt_succ_self _⟩
      vacant := by
        rw [h.made]
        exact ⟨hexact, hall⟩
      serving := hserving }
  lists j hle hlt := by
    have hj : j = w.informers.length := by
      have hlength := h.length
      omega
    obtain ⟨rid, hasks, -⟩ := hasked
    refine ⟨f, ⟨rid, hasks⟩, ?_⟩
    by_cases hf : f < w.factories.length
    · exact .inr (.inr ⟨cache.key, hj ▸ h.own hf⟩)
    · exact .inl (Nat.le_of_not_lt hf)
  filed hw := hw.enlists h hasked hall hns

theorem files_addInformer (hserving : (w.factory f).stopped = false) (hasks : asks f rid)
    (hexact : w.listed f (rid.scopeKey ns) = none) (hall : w.listed f (rid.scopeKey "") = none)
    (hns : w.cluster.namespaced rid = false → ns = "") :
    Files asks shuts w (w.addInformer f rid ns).1 := by
  let cache : Informer := .new rid ns (w.factory f).config
  let u : World := { w with informers := w.informers ++ [({ cache := cache } : Watched)] }
  let y : Factory := { w.factory f with
    informers := (w.factory f).informers.set cache.key w.informers.length }
  have henlists : Enlists f cache w (u.setFactory f y) := {
    length := List.length_append
    old := fun j hj => by
      show ((w.informers ++ [_])[j]?).getD default = (w.informers[j]?).getD default
      rw [List.getElem?_append_left hj]
    made := by
      show ((w.informers ++ [_])[w.informers.length]?).getD default = _
      rw [List.getElem?_concat_length]
      rfl
    clusterScoped := rfl
    factories := List.length_set ..
    factory := fun g => u.factory_setFactory f g y
    own := fun hf => by
      rw [listed, factory_setFactory_self (w := u) y hf, Keyed.get?_set, if_pos rfl] }
  unfold addInformer
  dsimp only
  exact (henlists.files hserving ⟨rid, hasks, rfl⟩ hexact hall hns).trans (idle_tell _ _).files

/-- Where nobody serves a scope, its own key is free, and so is that of all namespaces. -/
theorem vacant_of_lookup (h : w.lookup f rid ns = none) :
    w.listed f (rid.scopeKey (w.scopeNamespace rid ns)) = none ∧
      w.listed f (rid.scopeKey "") = none := by
  unfold lookup at h
  dsimp only at h
  split at h
  · cases h
  · next hexact =>
      refine ⟨hexact, ?_⟩
      split at h
      · next hempty =>
          rw [String.isEmpty_iff.1 hempty] at hexact
          exact hexact
      · exact h

/-- Whoever serves a scope is listed under its key or under that of all namespaces. -/
theorem listed_of_lookup (h : w.lookup f rid ns = some i) :
    w.listed f (rid.scopeKey (w.scopeNamespace rid ns)) = some i ∨
      w.listed f (rid.scopeKey "") = some i := by
  unfold lookup at h
  dsimp only at h
  split at h
  · next j hexact =>
      cases h
      exact .inl hexact
  · split at h
    · cases h
    · exact .inr h

theorem scopeNamespace_unscoped (h : w.cluster.namespaced rid = false) :
    w.scopeNamespace rid ns = "" := by
  rw [World.scopeNamespace, h]
  rfl

theorem files_findInformer (hserving : (w.factory f).stopped = false) (hasks : asks f rid) :
    Files asks shuts w (w.findInformer f rid ns).1 := by
  unfold findInformer
  split
  · exact .refl w
  · next hnone =>
      obtain ⟨hexact, hall⟩ := vacant_of_lookup hnone
      exact files_addInformer hserving hasks hexact hall scopeNamespace_unscoped

/-- A factory is stopped, and lists nobody any more. -/
theorem files_shutFactory (hshuts : shuts) (hserving : (w.factory f).stopped = false) :
    Files asks shuts w (w.shutFactory f).1 := by
  have hfactory : ∀ g, (w.shutFactory f).1.factory g = w.factory g ∨ g = f ∧
      (w.shutFactory f).1.factory g = { w.factory f with stopped := true, informers := [] } :=
    fun g => w.factory_setFactory f g _
  have hlisted : ∀ g k j, (w.shutFactory f).1.listed g k = some j → w.listed g k = some j := by
    intro g k j hj
    rcases hfactory g with h | ⟨-, h⟩
    · rwa [listed, h] at hj
    · rw [listed, h] at hj
      cases hj
  exact {
    informers := Nat.le_refl _
    scope := fun _ _ => .refl _
    clusterScoped := rfl
    factories := Nat.le_of_eq (List.length_set ..).symm
    kept := fun g k j hj => by
      rcases hfactory g with h | ⟨-, h⟩
      · exact .inl (by rwa [listed, h])
      · exact .inr ⟨hshuts, by rw [h]⟩
    serving := fun _ _ => .inr hshuts
    stopped := fun g hg => by
      rcases hfactory g with h | ⟨rfl, h⟩ <;> rw [h]
      · exact ⟨hg, rfl⟩
      · rw [hserving] at hg
        cases hg
    new := fun g k j hj => .inl (hlisted g k j hj)
    lists := fun j hle hlt => absurd hlt (Nat.not_lt.2 hle)
    filed := fun hw => {
      made := fun g k j hj => hw.made g k j (hlisted g k j hj)
      key := fun g k j hj => hw.key g k j (hlisted g k j hj)
      asked := fun g k j hj => hw.asked g k j (hlisted g k j hj)
      unscoped := fun g k j hj => hw.unscoped g k j (hlisted g k j hj)
      once := fun g g' k k' j hj hj' => hw.once g g' k k' j (hlisted g k j hj) (hlisted g' k' j hj')
      older := fun g k j j' hj hj' =>
        hw.older g k j j' (hlisted g k j hj) (hlisted g _ j' hj')
      nodup := fun g => by
        rcases hfactory g with h | ⟨-, h⟩ <;> rw [h]
        · exact hw.nodup g
        · exact List.nodup_nil } }

/-- A factory is made that lists nobody. -/
theorem files_build (config : Config) : Files asks shuts w (w.build config).1 := by
  refine .of_same rfl (fun _ => .refl _) rfl ?_ fun g => ?_
  · show w.factories.length ≤ (w.factories ++ [_]).length
    rw [List.length_append]
    exact Nat.le_add_right _ _
  · show (((w.factories ++ [_])[g]?).getD default).informers = _ ∧
      (((w.factories ++ [_])[g]?).getD default).stopped = _
    by_cases hg : g < w.factories.length
    · rw [List.getElem?_append_left hg]
      exact ⟨rfl, rfl⟩
    · -- a factory that is not there lists nobody either
      rw [factory, List.getElem?_eq_none (Nat.le_of_not_lt hg),
        List.getElem?_append_right (Nat.le_of_not_lt hg)]
      cases g - w.factories.length <;> exact ⟨rfl, rfl⟩

end Simulation.World

end LiveCluster
