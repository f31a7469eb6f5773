import LiveCluster.Proofs.Simulation.Manned
import LiveCluster.Proofs.Text.Keys
import Mathlib.Logic.Relation

/-!
# One subscription per scope

Whatever is asked of a factory, and whenever, a scope is watched once: its informer is listed
under its own key and never replaced, and one task at most works for it. Keys tell kinds
apart only if no part of the name of a kind holds a separator, so only such kinds are asked
for here.
-/

namespace LiveCluster

namespace Simulation

open ResourceId (Plain)

/-- Only the first factory is asked, and only for plain kinds. -/
def plainly (f : FactoryId) (rid : ResourceId) : Prop :=
  f = 0 ∧ rid.Plain

/-- A request that may ask the first factory for caches of plain kinds, and stops nothing. -/
structure Session.Consults (s : Session) (r : Request) : Prop where
  first : s.factory = 0
  plain : s.Poses plainly r
  spares : Session.controls r = false
  instant : ∀ seconds, r ≠ .advance seconds
  known : ∀ k, s.concerns r = some k → k < s.world.sinks.length

namespace World

open Informer (SameScope)

variable {w w' : World} {who : Option TaskId} {i j : InformerId} {t : TaskId} {key ns : String}
  {rid : ResourceId} {asks : FactoryId → ResourceId → Prop}

/-- What can happen next while a factory is only asked for caches. -/
inductive Consults : Option TaskId → World → World → Prop
  | job {w : World} {job : Job} (before after : List Job) (round : Nat)
      (ready : w.loop.ready = before ++ job :: after) :
      Consults job.resumed? w ((w.withReady (before ++ after) round).run job)
  | round (w : World) : Consults none w (w.withLoop Loop.beginRound)
  | time (w : World) (now : Float) :
      Consults none w { w with loop := { w.loop with now := now } }
  | journal (w : World) (journal : Journal) : Consults none w { w with journal := journal }
  | request (s : Session) (r : Request) (inLoop : Bool) (consults : s.Consults r) :
      Consults none s.world (s.begin r inLoop).1.world

/-- The worlds of sessions whose factory is only asked for caches. -/
inductive Consulted : World → Prop
  | new (watch : WatchConfig) (tail : TailConfig) (clock : Instant)
      (clusterScoped : Option (List String)) :
      Consulted (Session.new watch tail clock clusterScoped).world
  | next {who : Option TaskId} {w w' : World} : Consulted w → Consults who w w' → Consulted w'

theorem Consults.happens (h : Consults who w w') : Happens who w w' := by
  cases h with
  | job before after round hready => exact .job before after round hready
  | round => exact .round _
  | time _ now => exact .time _ now
  | journal _ journal => exact .journal _ journal
  | request s r inLoop hr => exact .request s r inLoop hr.instant hr.known

theorem Consulted.lived (h : Consulted w) : Lived w := by
  induction h with
  | new watch tail clock clusterScoped => exact .new watch tail clock clusterScoped
  | next _ hnext ih => exact ih.next hnext.happens

/-! ## What holds of a factory that is only asked for caches -/

/-- The factory is there and serves, it lists every informer, and nobody stops any. -/
structure Subscribed (w : World) : Prop where
  orderly : w.Orderly
  manned : w.Manned plainly
  present : 0 < w.factories.length
  serving : (w.factory 0).stopped = false
  lists : ∀ i, i < w.informers.length → ∃ key, w.listed 0 key = some i
  free : ∀ v p e, w.loop.standing v = some (p, e) → p.routine ≠ .control

theorem subscribed_new (watch : WatchConfig) (tail : TailConfig) (clock : Instant)
    (clusterScoped : Option (List String)) :
    (Session.new watch tail clock clusterScoped).world.Subscribed where
  orderly := orderly_new watch tail clock clusterScoped
  manned := manned_new _ watch tail clock clusterScoped
  present := Nat.zero_lt_one
  serving := rfl
  lists i hi := absurd hi (Nat.not_lt_zero i)
  free _ _ _ hp := by cases hp

theorem Subscribed.not_turnOf (h : w.Subscribed) : ¬ w.TurnOf who .control := by
  rintro ⟨t, p, -, hp, hr⟩
  exact h.free t p _ hp hr

theorem Subscribed.shifts (h : w.Subscribed) (hw : w'.Orderly) (hm : w'.Manned plainly)
    (hshifts : Shifts plainly False w w') : w'.Subscribed where
  orderly := hw
  manned := hm
  present := Nat.lt_of_lt_of_le h.present hshifts.factories
  serving := (hshifts.serving 0 h.serving).resolve_right id
  lists i hi := by
    by_cases hold : i < w.informers.length
    · obtain ⟨key, hkey⟩ := h.lists i hold
      exact ⟨key, (hshifts.kept 0 key i hkey).resolve_right fun hstopped => hstopped.1⟩
    · obtain ⟨f, ⟨rid, rfl, -⟩, hlists⟩ := hshifts.lists i (Nat.le_of_not_lt hold) hi
      rcases hlists with hnone | ⟨hfalse, -⟩ | hkey
      · exact absurd h.present (Nat.not_lt.2 hnone)
      · exact hfalse.elim
      · exact hkey
  free v p e hp hr := by
    cases hv : w.loop.standing v with
    | none => exact (hshifts.made v p e (Loop.le_of_standing_eq_none hv) hp).2.1 hr
    | some s =>
        obtain ⟨p', e', hp', hr', -⟩ := hshifts.lasts v s.1 s.2 hv
        cases hp.symm.trans hp'
        exact h.free v s.1 s.2 hv (hr'.symm.trans hr)

/-- What one step does to a factory that is only asked for caches. -/
theorem Consults.shifts (h : Consults who w w') (hw : w.Subscribed) :
    w'.Subscribed ∧ Shifts plainly False w w' := by
  have horderly := h.happens.orderly hw.orderly
  have hothers := h.happens.passes hw.orderly.bound
  suffices hsuffices : w'.Manned plainly ∧ Shifts plainly False w w' from
    ⟨hw.shifts horderly hsuffices.1 hsuffices.2, hsuffices.2⟩
  cases h with
  | job before after round hready =>
      obtain ⟨hm, hshifts, -⟩ := hw.manned.run hw.orderly hready
      exact ⟨hm, hshifts.of_shuts hw.not_turnOf⟩
  | round =>
      exact hw.manned.still (w.loop.soft_beginRound) (w.loop.urges_beginRound)
        fun v a ha => hothers.others v a (by simp) ha
  | time _ now =>
      exact hw.manned.still ⟨rfl, fun _ => rfl, fun _ _ h => h⟩ (.of_ready rfl fun _ => rfl)
        fun v a ha => hothers.others v a (by simp) ha
  | journal _ journal => exact ⟨hw.manned.journal journal, w.shifts_journal journal⟩
  | request s r inLoop hr =>
      have hnever : Session.controls r = true → False := fun hcontrols => by
        rw [hr.spares] at hcontrols
        cases hcontrols
      obtain ⟨hm, hshifts, -⟩ := hw.manned.begin r inLoop hr.instant hr.plain hnever
      exact ⟨hm, hshifts⟩

theorem Consulted.subscribed (h : Consulted w) : w.Subscribed := by
  induction h with
  | new watch tail clock clusterScoped => exact subscribed_new watch tail clock clusterScoped
  | next _ hnext ih => exact (hnext.shifts ih).1

/-! ## What is handed out -/

end World

end Simulation

/-- An informer is of the kind that was asked for, and of its namespace or of all of them. -/
def Informer.Meets (x : Informer) (rid : ResourceId) (ns : String) : Prop :=
  (x.rid.group = rid.group ∧ x.rid.version = rid.version ∧ x.rid.resource = rid.resource) ∧
    (x.ns = ns ∨ x.ns = "")

namespace Simulation.World

open ResourceId (Plain)

variable {w w' : World} {who : Option TaskId} {i j : InformerId} {t : TaskId} {key ns : String}
  {rid : ResourceId} {asks : FactoryId → ResourceId → Prop}

theorem scopeNamespace_cases (w : World) (rid : ResourceId) (ns : String) :
    w.scopeNamespace rid ns = ns ∨ w.scopeNamespace rid ns = "" := by
  unfold scopeNamespace Forward.scopeNamespace
  split
  · exact .inl rfl
  · exact .inr rfl

/-- Whoever is listed under the key of a scope serves that scope. -/
theorem Filed.scope (hw : w.Filed plainly) (hrid : rid.Plain)
    (h : w.listed 0 (rid.scopeKey ns) = some i) :
    (w.informer i).cache.rid = rid.kindOnly ∧ (w.informer i).cache.ns = ns := by
  obtain ⟨rid', ⟨-, hplain⟩, hrid'⟩ := hw.asked 0 _ i h
  have hkey := hw.key 0 _ i h
  rw [Informer.key, hrid'] at hkey
  have hkind' : rid'.kindOnly.Plain := ⟨hplain.slash, hplain.sign⟩
  obtain ⟨hkind, hns⟩ := hkind'.scopeKey_inj hrid hkey
  exact ⟨hrid'.trans hkind, hns⟩

/-- Whom a factory lists for a scope, or for all namespaces of its kind, meets what was asked. -/
theorem Filed.meets (hw : w.Filed plainly) (hrid : rid.Plain) {ns' : String}
    (hns : ns' = ns ∨ ns' = "") (h : w.listed 0 (rid.scopeKey ns') = some i ∨
      w.listed 0 (rid.scopeKey "") = some i) : (w.informer i).cache.Meets rid ns := by
  rcases h with hlisted | hlisted
  · obtain ⟨hkind, hscope⟩ := hw.scope hrid hlisted
    rw [Informer.Meets, hkind, hscope]
    exact ⟨⟨rfl, rfl, rfl⟩, hns⟩
  · obtain ⟨hkind, hscope⟩ := hw.scope hrid hlisted
    rw [Informer.Meets, hkind]
    exact ⟨⟨rfl, rfl, rfl⟩, .inr hscope⟩

/-- Whoever is found is listed, if the factory is there. -/
theorem listed_findInformer (w : World) (rid : ResourceId) (ns : String)
    (hpresent : 0 < w.factories.length) :
    (w.findInformer 0 rid ns).1.listed 0 (rid.scopeKey (w.scopeNamespace rid ns)) =
        some (w.findInformer 0 rid ns).2 ∨
      (w.findInformer 0 rid ns).1.listed 0 (rid.scopeKey "") =
        some (w.findInformer 0 rid ns).2 := by
  unfold findInformer
  split
  · next h => exact listed_of_lookup h
  · refine .inl ?_
    let cache : Informer := .new rid (w.scopeNamespace rid ns) (w.factory 0).config
    let u : World := { w with informers := w.informers ++ [({ cache := cache } : Watched)] }
    let y : Factory := { w.factory 0 with
      informers := (w.factory 0).informers.set cache.key w.informers.length }
    have hlisted : (u.setFactory 0 y).listed 0 cache.key = some w.informers.length := by
      rw [listed, factory_setFactory_self (w := u) y hpresent, Keyed.get?_set, if_pos rfl]
    unfold addInformer
    dsimp only
    rw [listed, factory, (idle_tell _ _).factories, ← factory, ← listed]
    exact hlisted

theorem listed_startWorker (w : World) (i : InformerId) (f : FactoryId) (key : String) :
    (w.startWorker i).listed f key = w.listed f key := by
  unfold startWorker
  split <;> rfl

/-- Who is handed out was found, and its worker was started if tasks can be made. -/
theorem ensureWatch_ok {f : FactoryId} {inLoop : Bool}
    (h : (w.ensureWatch f rid ns inLoop).2 = .ok i) :
    (w.findInformer f rid ns).2 = i ∧
      ((w.ensureWatch f rid ns inLoop).1 = (w.findInformer f rid ns).1.startWorker i ∨
        (w.ensureWatch f rid ns inLoop).1 = (w.findInformer f rid ns).1) := by
  unfold ensureWatch at h ⊢
  split
  · next hstopped =>
      rw [if_pos hstopped] at h
      cases h
  · next hserving =>
      rw [if_neg hserving] at h
      dsimp only at h ⊢
      split
      · next hloop =>
          rw [if_pos hloop] at h
          cases h
          exact ⟨rfl, .inl rfl⟩
      · next hloop =>
          rw [if_neg hloop] at h
          split
          · next hrunning =>
              rw [if_pos hrunning] at h
              cases h
              exact ⟨rfl, .inr rfl⟩
          · next hidle =>
              rw [if_neg hidle] at h
              cases h

/-- Whoever is handed out meets what was asked. -/
theorem Filed.handed (hw : w.Filed plainly) (hpresent : 0 < w.factories.length)
    (hrid : rid.Plain) {inLoop : Bool} (h : (w.ensureWatch 0 rid ns inLoop).2 = .ok i) :
    ((w.ensureWatch 0 rid ns inLoop).1.informer i).cache.Meets rid ns := by
  have hhires : Hires plainly False none w (w.ensureWatch 0 rid ns inLoop).1 :=
    hires_ensureWatch hw ⟨rfl, hrid⟩ ns inLoop
  refine (hhires.filed hw).meets hrid (w.scopeNamespace_cases rid ns) ?_
  have hfound := w.listed_findInformer rid ns hpresent
  obtain ⟨rfl, hstarted | hsame⟩ := ensureWatch_ok h
  · rw [hstarted, listed_startWorker, listed_startWorker]
    exact hfound
  · rw [hsame]
    exact hfound

/-- What is read is read from somebody who meets what was asked. -/
theorem Filed.got (hw : w.Filed plainly) (hrid : rid.Plain) {path : String} {inLoop : Bool}
    {x : Snapshot} (h : (w.get 0 rid path inLoop).2 = some x) :
    ∃ i, i < w.informers.length ∧ (w.informer i).cache.Meets rid (Path.split path).1 ∧
      (w.informer i).cache.items.get? path = some x := by
  obtain ⟨i, hi, hfound⟩ := get_eq_some_iff.1 h
  exact ⟨i, (hw.lookup hi).1, hw.meets hrid (w.scopeNamespace_cases rid _) (listed_of_lookup hi),
    hfound⟩

theorem Filed.read (hw : w.Filed plainly) (hrid : rid.Plain) {selector : Option Selector}
    {inLoop : Bool} {x : Snapshot} (h : x ∈ (w.list 0 rid ns selector inLoop).2) :
    ∃ i, i < w.informers.length ∧ (w.informer i).cache.Meets rid ns ∧
      x ∈ (w.informer i).cache.items.entries := by
  obtain ⟨i, hi, hmem, -⟩ := mem_list_iff.1 h
  exact ⟨i, (hw.lookup hi).1, hw.meets hrid (w.scopeNamespace_cases rid ns) (listed_of_lookup hi),
    hmem⟩

/-! ## One subscription per scope -/

/-- Every scope that is watched has one informer, and one task at most works for it. -/
structure OneEach (w : World) : Prop where
  /-- Who is listed is listed under the key of its own scope, and everybody is listed. -/
  stored : ∀ key i, w.listed 0 key = some i ↔
    i < w.informers.length ∧ (w.informer i).cache.key = key
  unscoped : ∀ i, i < w.informers.length →
    w.cluster.namespaced (w.informer i).cache.rid = false → (w.informer i).cache.ns = ""
  /-- Nobody was made for a kind after the one that serves all its namespaces. -/
  older : ∀ i j, i < w.informers.length →
    w.listed 0 ((w.informer i).cache.rid.scopeKey "") = some j → i ≤ j
  /-- Who is handed out, also to a task on its way, meets what was asked. -/
  handed : ∀ loop rid ns inLoop i, rid.Plain →
    (World.ensureWatch { w with loop := loop } 0 rid ns inLoop).2 = .ok i →
      ((World.ensureWatch { w with loop := loop } 0 rid ns inLoop).1.informer i).cache.Meets rid ns
  got : ∀ rid path inLoop x, rid.Plain → (w.get 0 rid path inLoop).2 = some x →
    ∃ i, i < w.informers.length ∧ (w.informer i).cache.Meets rid (Path.split path).1 ∧
      (w.informer i).cache.items.get? path = some x
  read : ∀ rid ns selector inLoop x, rid.Plain → x ∈ (w.list 0 rid ns selector inLoop).2 →
    ∃ i, i < w.informers.length ∧ (w.informer i).cache.Meets rid ns ∧
      x ∈ (w.informer i).cache.items.entries
  /-- Two tasks that go on and work for one key are one. -/
  alone : ∀ t u p q i j, w.loop.standing t = some (p, none) → p.routine = .worker i →
    w.loop.standing u = some (q, none) → q.routine = .worker j →
      (w.informer i).cache.key = (w.informer j).cache.key → t = u

/-- What a step leaves of the list, adds to it, and calls for. -/
structure Adds (who : Option TaskId) (w w' : World) : Prop where
  kept : ∀ key i, w.listed 0 key = some i → w'.listed 0 key = some i
  /-- Who was made serves a scope that nobody served. -/
  vacant : ∀ i, w.informers.length ≤ i → i < w'.informers.length →
    w.listed 0 (w'.informer i).cache.key = none ∧
      w.listed 0 ((w'.informer i).cache.rid.scopeKey "") = none
  calls : Dials who w w' ∨ ∃ journal, w' = { w with journal := journal }

theorem Subscribed.stored (h : w.Subscribed) : w.listed 0 key = some i ↔
    i < w.informers.length ∧ (w.informer i).cache.key = key := by
  have hfiled := h.manned.filed
  refine ⟨fun hi => ⟨hfiled.made 0 key i hi, hfiled.key 0 key i hi⟩, fun ⟨hi, hkey⟩ => ?_⟩
  obtain ⟨key', hkey'⟩ := h.lists i hi
  rw [← hkey, hfiled.key 0 key' i hkey']
  exact hkey'

/-- Who works for an informer is its worker, since nobody is being stopped. -/
theorem Subscribed.worker (h : w.Subscribed) {p : Point} (hp : w.loop.standing t = some (p, none))
    (hi : p.routine = .worker i) : (w.informer i).worker = some t := by
  refine (h.manned.manned t p i hp hi).resolve_right ?_
  rintro ⟨u, a, reason, rest, ha, hgoing, hpoint, -⟩
  refine h.free u a.point none ?_ (by rw [hpoint]; rfl)
  rw [Loop.standing, ha, ← hgoing]
  rfl

theorem Subscribed.oneEach (h : w.Subscribed) : w.OneEach where
  stored _ _ := h.stored
  unscoped i hi := h.manned.filed.unscoped 0 _ i (h.stored.2 ⟨hi, rfl⟩)
  older i j hi := h.manned.filed.older 0 _ i j (h.stored.2 ⟨hi, rfl⟩)
  handed loop rid ns inLoop i hrid hi := by
    have hfiled : World.Filed plainly { w with loop := loop } :=
      h.manned.filed.of_same rfl (fun _ => .refl _) rfl fun _ => rfl
    exact hfiled.handed h.present hrid hi
  got _ _ _ _ hrid hx := h.manned.filed.got hrid hx
  read _ _ _ _ _ hrid hx := h.manned.filed.read hrid hx
  alone t u p q i j hp hi hq hj hkey := by
    have hlisted := h.stored.2 ⟨h.manned.made t p i hp hi, rfl⟩
    have hlisted' := h.stored.2 ⟨h.manned.made u q j hq hj, rfl⟩
    rw [hkey, hlisted'] at hlisted
    cases hlisted
    have hworker := h.worker hp hi
    rw [h.worker hq hj] at hworker
    exact (Option.some.inj hworker).symm

theorem Subscribed.kept (h : w.Subscribed) (hw : Consults who w w')
    (hi : w.listed 0 key = some i) : w'.listed 0 key = some i :=
  ((hw.shifts h).2.kept 0 key i hi).resolve_right (·.1)

theorem Consulted.adds (h : Consulted w) (hw : Consults who w w') : Adds who w w' := by
  obtain ⟨hw', hshifts⟩ := hw.shifts h.subscribed
  refine ⟨fun key i => h.subscribed.kept hw, fun i hle hlt => ?_,
    hw.happens.dials h.lived.orderly h.lived.manned⟩
  rcases hshifts.new 0 _ i (hw'.stored.2 ⟨hlt, rfl⟩) with hold | hnew
  · exact absurd (h.subscribed.stored.1 hold).1 (Nat.not_lt.2 hle)
  · exact hnew.vacant

/-- Whatever caches a factory is asked for and whenever, it has one informer for each scope,
under the key of that scope, and keeps it; one for a namespace is made only when nobody
serves it. Whoever is handed out or read from is of the kind and the namespace that were
asked for, or of all namespaces. One task at most works for a scope, and it makes all
the calls of the scope's watch in its turns. -/
theorem one_subscription_per_scope (h : Consulted w) :
    w.OneEach ∧
      (∀ v, Relation.ReflTransGen (fun x y => ∃ who, Consults who x y) w v →
        ∀ key i, w.listed 0 key = some i → v.listed 0 key = some i) ∧
      ∀ who w', Consults who w w' → Adds who w w' := by
  refine ⟨h.subscribed.oneEach, fun v hv key i hi => ?_, fun who w' => h.adds⟩
  suffices hsuffices : v.Subscribed ∧ v.listed 0 key = some i from hsuffices.2
  induction hv with
  | refl => exact ⟨h.subscribed, hi⟩
  | tail _ hnext ih =>
      obtain ⟨who, hnext⟩ := hnext
      exact ⟨(hnext.shifts ih.1).1, ih.1.kept hnext ih.2⟩

/-- The pods of a namespace are asked for, and then those of all. -/
def podsAsked : Session :=
  let s : Session := .new {} {} default none
  ((s.begin (.ensureWatch .pods "a") true).1.begin (.ensureWatch .pods "") true).1

theorem plain_pods : ResourceId.pods.Plain :=
  ⟨by decide, by decide⟩

theorem consulted_podsAsked : Consulted podsAsked.world := by
  let s : Session := .new {} {} default none
  have hconsults : ∀ (s : Session) ns, s.factory = 0 → s.Consults (.ensureWatch .pods ns) :=
    fun s ns hs => ⟨hs, ⟨hs, plain_pods⟩, rfl, by simp, fun k hk => by cases hk⟩
  have hfirst : Consulted (s.begin (.ensureWatch .pods "a") true).1.world :=
    .next (.new ..) (.request s _ _ (hconsults s "a" rfl))
  exact .next hfirst (.request _ _ _ (hconsults _ "" rfl))

/-- Both scopes are watched, each by a task of its own. -/
theorem one_subscription_per_scope_pods :
    podsAsked.world.OneEach ∧
      podsAsked.world.listed 0 (ResourceId.pods.scopeKey "a") = some 0 ∧
      podsAsked.world.listed 0 (ResourceId.pods.scopeKey "") = some 1 ∧
      (podsAsked.world.informer 0).worker = some 0 ∧ (podsAsked.world.informer 1).worker = some 1 :=
  ⟨(one_subscription_per_scope consulted_podsAsked).1, rfl, rfl, rfl, rfl⟩

end Simulation.World

end LiveCluster
