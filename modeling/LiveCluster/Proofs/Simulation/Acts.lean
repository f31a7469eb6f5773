import LiveCluster.Proofs.Loop.Standing
import LiveCluster.Proofs.Watch.Intact
import LiveCluster.Simulation.Scope

/-!
# What routines leave alone

Many routines share one world. To say that a worker is what its informer makes of it,
and nothing else, it has to be known of every other routine that it leaves the worker
alone. `Acts` says this of a step of one task, together with what holds of all
informers: things happen to them as to any informer, and the timer of a watch is known
to the informer whose watch it is.

`Acts` can be composed, so what a routine does is shown piece by piece along its
definition. The pieces are few: changes that only wake tasks or write a journal, a task
that moves or ends or makes another task, and changes of an informer by someone who
works for it.
-/

namespace LiveCluster.Simulation

open Loop (Soft Touches)

/-- The informer that a task at a point works for: it is its worker, or is stopping it. -/
def Point.informer? : Point → Option InformerId
  | .worker i _ => some i
  | .stopping _ (some (i, _)) _ => some i
  | _ => none

namespace World

/-- Whether a task that goes on works for an informer. -/
def Serves (w : World) (u : TaskId) (i : InformerId) : Prop :=
  ∃ p, w.loop.standing u = some (p, none) ∧ p.informer? = some i

/-- Whether a task goes on. -/
def Live (w : World) (u : TaskId) : Prop :=
  ∃ p, w.loop.standing u = some (p, none)

/-- What is known of informers and timers in every world. -/
structure Sound (w : World) : Prop where
  /-- A timer that will establish a watch is the one that its informer knows. -/
  timers : ∀ id i, w.loop.arms id i → (w.informer i).timer = some id
  /-- Who works for an informer works for one that was made. -/
  serves : ∀ u i, w.Serves u i → i < w.informers.length
  /-- Factories list informers that were made. -/
  listed : ∀ f i, i ∈ Keyed.entries (w.factory f).informers → i < w.informers.length

/-- What can come of a world in which things happen. -/
structure Evolves (w w' : World) : Prop where
  tasks : w.loop.tasks.length ≤ w'.loop.tasks.length
  informers : w.informers.length ≤ w'.informers.length
  lived : ∀ i, i < w.informers.length →
    ∃ ds, (w'.informer i).cache = (w.informer i).cache.lived ds
  made : ∀ i, w.informers.length ≤ i → i < w'.informers.length →
    ∃ rid ns config ds, (w'.informer i).cache = (Informer.new rid ns config).lived ds
  /-- A worker that was replaced never comes back. -/
  worker : ∀ i t, i < w.informers.length → t < w.loop.tasks.length →
    (w'.informer i).worker = some t → (w.informer i).worker = some t
  sound : w.Sound → w'.Sound

/-- Whether nobody but the worker works for an informer. -/
def Alone (w : World) (i : InformerId) (t : TaskId) : Prop :=
  ∀ u, u ≠ t → ¬w.Serves u i

/-- What is left as it is of an informer and its worker. -/
structure Keeps (i : InformerId) (t : TaskId) (w w' : World) : Prop where
  cache : w.Live t → (w'.informer i).cache = (w.informer i).cache
  standing : w'.loop.standing t = w.loop.standing t
  arms : ∀ id, w'.loop.arms id i → w.loop.arms id i

/-- What can come of a step of a task: workers of other informers than it works for are left
alone, as long as nobody else works for those. -/
structure Acts (u : TaskId) (w w' : World) : Prop extends Evolves w w' where
  alone : ∀ i t, i < w.informers.length → t < w.loop.tasks.length → w.Alone i t →
    (w'.informer i).worker = some t → w'.Alone i t
  keeps : ∀ i t, t ≠ u → i < w.informers.length → t < w.loop.tasks.length → w.Alone i t →
    (w'.informer i).worker = some t → Keeps i t w w'

theorem informer_of_le {w : World} {i : InformerId} (h : w.informers.length ≤ i) :
    w.informer i = default := by
  rw [informer, List.getElem?_eq_none h]
  rfl

theorem lt_of_worker {w : World} {i : InformerId} {t : TaskId}
    (h : (w.informer i).worker = some t) : i < w.informers.length := by
  apply Nat.lt_of_not_le
  intro hle
  rw [informer_of_le hle] at h
  cases h

theorem lt_of_timer {w : World} {i : InformerId} {id : TimerId}
    (h : (w.informer i).timer = some id) : i < w.informers.length := by
  apply Nat.lt_of_not_le
  intro hle
  rw [informer_of_le hle] at h
  cases h

theorem isRunning_iff {w : World} {i : InformerId} {t : TaskId}
    (h : (w.informer i).worker = some t) : w.isRunning i = true ↔ w.Live t := by
  rw [isRunning, h, Live, ← Loop.ended_eq_false_iff]
  simp

theorem Evolves.refl (w : World) : Evolves w w where
  tasks := Nat.le_refl _
  informers := Nat.le_refl _
  lived _ _ := ⟨[], rfl⟩
  made _ hle hlt := absurd hlt (Nat.not_lt.2 hle)
  worker _ _ _ _ h := h
  sound h := h

theorem Evolves.trans {w v x : World} (h : Evolves w v) (h' : Evolves v x) : Evolves w x where
  tasks := Nat.le_trans h.tasks h'.tasks
  informers := Nat.le_trans h.informers h'.informers
  lived i hi := by
    obtain ⟨ds, hds⟩ := h.lived i hi
    obtain ⟨ds', hds'⟩ := h'.lived i (Nat.lt_of_lt_of_le hi h.informers)
    exact ⟨ds ++ ds', by rw [hds', hds, Informer.lived_append]⟩
  made i hle hlt := by
    by_cases hi : i < v.informers.length
    · obtain ⟨rid, ns, config, ds, hds⟩ := h.made i hle hi
      obtain ⟨ds', hds'⟩ := h'.lived i hi
      exact ⟨rid, ns, config, ds ++ ds', by rw [hds', hds, Informer.lived_append]⟩
    · exact h'.made i (Nat.le_of_not_lt hi) hlt
  worker i t hi ht hw :=
    h.worker i t hi ht
      (h'.worker i t (Nat.lt_of_lt_of_le hi h.informers) (Nat.lt_of_lt_of_le ht h.tasks) hw)
  sound hs := h'.sound (h.sound hs)

theorem Acts.refl (u : TaskId) (w : World) : Acts u w w where
  toEvolves := .refl w
  alone _ _ _ _ ha _ := ha
  keeps _ _ _ _ _ _ _ := ⟨fun _ => rfl, rfl, fun _ h => h⟩

theorem Acts.trans {u : TaskId} {w v x : World} (h : Acts u w v) (h' : Acts u v x) :
    Acts u w x where
  toEvolves := h.toEvolves.trans h'.toEvolves
  alone i t hi ht ha hw := by
    have hi' := Nat.lt_of_lt_of_le hi h.informers
    have ht' := Nat.lt_of_lt_of_le ht h.tasks
    exact h'.alone i t hi' ht' (h.alone i t hi ht ha (h'.worker i t hi' ht' hw)) hw
  keeps i t hu hi ht ha hw := by
    have hi' := Nat.lt_of_lt_of_le hi h.informers
    have ht' := Nat.lt_of_lt_of_le ht h.tasks
    have hw' := h'.worker i t hi' ht' hw
    have hfirst := h.keeps i t hu hi ht ha hw'
    have hsecond := h'.keeps i t hu hi' ht' (h.alone i t hi ht ha hw') hw
    exact {
      cache := fun hlive => by
        obtain ⟨p, hp⟩ := hlive
        exact (hsecond.cache ⟨p, hfirst.standing ▸ hp⟩).trans (hfirst.cache ⟨p, hp⟩)
      standing := hsecond.standing.trans hfirst.standing
      arms := fun id harms => hfirst.arms id (hsecond.arms id harms) }

theorem Serves.of_standing {w w' : World} {u : TaskId} {i : InformerId} (h : w'.Serves u i)
    (hs : w'.loop.standing u = w.loop.standing u) : w.Serves u i := by
  obtain ⟨p, hp, hi⟩ := h
  exact ⟨p, hs ▸ hp, hi⟩

/-! ## Changes that concern no informer -/

/-- Nothing that counts is changed of the informers. -/
structure SameInformers (w w' : World) : Prop where
  length : w'.informers.length = w.informers.length
  cache : ∀ i, (w'.informer i).cache = (w.informer i).cache
  worker : ∀ i, (w'.informer i).worker = (w.informer i).worker
  timer : ∀ i, (w'.informer i).timer = (w.informer i).timer
  factories : w'.factories = w.factories

theorem SameInformers.of_eq {w w' : World} (hinformers : w'.informers = w.informers)
    (hfactories : w'.factories = w.factories) : SameInformers w w' where
  length := by rw [hinformers]
  cache i := by rw [informer, informer, hinformers]
  worker i := by rw [informer, informer, hinformers]
  timer i := by rw [informer, informer, hinformers]
  factories := hfactories

theorem SameInformers.trans {w v x : World} (h : SameInformers w v) (h' : SameInformers v x) :
    SameInformers w x where
  length := h'.length.trans h.length
  cache i := (h'.cache i).trans (h.cache i)
  worker i := (h'.worker i).trans (h.worker i)
  timer i := (h'.timer i).trans (h.timer i)
  factories := h'.factories.trans h.factories

/-- A task moves, or ends, or changes how others wait. It may come to work for an informer
that has no worker any more. -/
theorem Acts.of_touches {u : TaskId} {w w' : World}
    {f : Point × Option (Ending Report) → Point × Option (Ending Report)}
    (hsame : SameInformers w w') (hloop : Touches u f w.loop w'.loop)
    (hserves : ∀ i, w'.Serves u i →
      w.Serves u i ∨ i < w.informers.length ∧ (w.informer i).worker = none) :
    Acts u w w' where
  tasks := Nat.le_of_eq hloop.length.symm
  informers := Nat.le_of_eq hsame.length.symm
  lived i _ := ⟨[], hsame.cache i⟩
  made i hle hlt := absurd (hsame.length ▸ hlt) (Nat.not_lt.2 hle)
  worker i _ _ _ h := hsame.worker i ▸ h
  sound hs := {
    timers := fun id i h => by
      rw [hsame.timer]
      exact hs.timers id i (hloop.arms id i h)
    serves := fun v i h => by
      rw [hsame.length]
      by_cases hv : v = u
      · subst hv
        rcases hserves i h with hserves | ⟨hi, -⟩
        · exact hs.serves v i hserves
        · exact hi
      · exact hs.serves v i (h.of_standing (hloop.others v hv))
    listed := fun f i h => by
      rw [factory, hsame.factories] at h
      rw [hsame.length]
      exact hs.listed f i h }
  alone i _ _ _ ha hw v hv h := by
    by_cases hvu : v = u
    · subst hvu
      rcases hserves i h with hserves | ⟨-, hnone⟩
      · exact ha v hv hserves
      · rw [hsame.worker, hnone] at hw
        cases hw
    · exact ha v hv (h.of_standing (hloop.others v hvu))
  keeps i t hu _ _ _ _ := {
    cache := fun _ => hsame.cache i
    standing := hloop.others t hu
    arms := fun id h => hloop.arms id i h }

theorem Acts.of_same {u : TaskId} {w w' : World} (hsame : SameInformers w w')
    (hloop : Soft w.loop w'.loop) : Acts u w w' :=
  .of_touches hsame (hloop.touches_id u) fun _ h => .inl (h.of_standing (hloop.standing u))

theorem Acts.of_soft {u : TaskId} {w w' : World} (hinformers : w'.informers = w.informers)
    (hfactories : w'.factories = w.factories) (hloop : Soft w.loop w'.loop) : Acts u w w' :=
  .of_same (.of_eq hinformers hfactories) hloop

/-- A task goes to a point at which it works for nobody else than before. -/
theorem Acts.of_moves {u : TaskId} {w w' : World} {p : Point}
    (hsame : SameInformers w w') (hloop : Loop.Moves u p w.loop w'.loop)
    (hp : ∀ i, p.informer? = some i →
      w.Serves u i ∨ i < w.informers.length ∧ (w.informer i).worker = none) : Acts u w w' := by
  refine .of_touches hsame hloop fun i h => hp i ?_
  obtain ⟨q, hq, hi⟩ := h
  rw [hloop.own] at hq
  cases hstanding : w.loop.standing u with
  | none => rw [hstanding] at hq; cases hq
  | some s =>
      rw [hstanding, Option.map_some, Option.some.injEq, Prod.mk.injEq] at hq
      rw [hq.1]
      exact hi

theorem Acts.of_ends {u : TaskId} {w w' : World} {e : Ending Report}
    (hsame : SameInformers w w') (hloop : Loop.Ends u e w.loop w'.loop) : Acts u w w' := by
  refine .of_touches hsame hloop fun i h => ?_
  obtain ⟨q, hq, -⟩ := h
  rw [hloop.own] at hq
  cases hstanding : w.loop.standing u with
  | none => rw [hstanding] at hq; cases hq
  | some s => rw [hstanding] at hq; cases hq

/-! ## Changes of informers and tasks -/

theorem informer_setInformer (w : World) (i j : InformerId) (x : Watched) :
    (w.setInformer i x).informer j =
      if i = j ∧ j < w.informers.length then x else w.informer j := by
  unfold informer setInformer
  rw [List.getElem?_set]
  by_cases hij : i = j
  · subst hij
    rw [if_pos rfl]
    by_cases hlt : i < w.informers.length
    · rw [if_pos hlt, if_pos ⟨rfl, hlt⟩]
      rfl
    · rw [if_neg hlt, if_neg (fun h => hlt h.2), List.getElem?_eq_none (Nat.le_of_not_lt hlt)]
  · rw [if_neg hij, if_neg (fun h => hij h.1)]

theorem setInformer_cases (w : World) (i j : InformerId) (x : Watched) :
    (w.setInformer i x).informer j = w.informer j ∨
      j = i ∧ (w.setInformer i x).informer j = x := by
  rw [informer_setInformer]
  split
  · next h => exact .inr ⟨h.1.symm, rfl⟩
  · exact .inl rfl

theorem setInformer_self {w : World} {i : InformerId} (x : Watched) (hi : i < w.informers.length) :
    (w.setInformer i x).informer i = x := by
  rw [informer_setInformer, if_pos ⟨rfl, hi⟩]

theorem setInformer_other {w : World} {i j : InformerId} (x : Watched) (hij : j ≠ i) :
    (w.setInformer i x).informer j = w.informer j := by
  rw [informer_setInformer, if_neg (fun h => hij h.1.symm)]

theorem length_setInformer (w : World) (i : InformerId) (x : Watched) :
    (w.setInformer i x).informers.length = w.informers.length :=
  List.length_set ..

/-- What is written back as it was stays as it was. -/
theorem setInformer_congr {α : Type} (f : Watched → α) {w : World} {i : InformerId} {x : Watched}
    (h : f x = f (w.informer i)) (j : InformerId) :
    f ((w.setInformer i x).informer j) = f (w.informer j) := by
  rcases w.setInformer_cases i j x with hsame | ⟨rfl, hself⟩
  · rw [hsame]
  · rw [hself, h]

theorem SameInformers.setInformer {w : World} {i : InformerId} {x : Watched}
    (hcache : x.cache = (w.informer i).cache) (hworker : x.worker = (w.informer i).worker)
    (htimer : x.timer = (w.informer i).timer) : SameInformers w (w.setInformer i x) where
  length := length_setInformer w i x
  cache j := setInformer_congr Watched.cache hcache j
  worker j := setInformer_congr Watched.worker hworker j
  timer j := setInformer_congr Watched.timer htimer j
  factories := rfl

/-- Something happens to one informer, and no task is touched. -/
structure Changes (i : InformerId) (w w' : World) : Prop where
  length : w'.informers.length = w.informers.length
  factories : w'.factories = w.factories
  others : ∀ j, j ≠ i → w'.informer j = w.informer j
  lived : ∃ ds, (w'.informer i).cache = (w.informer i).cache.lived ds
  /-- A worker that is named anew has still to be made. -/
  worker : ∀ t, t < w.loop.tasks.length → (w'.informer i).worker = some t →
    (w.informer i).worker = some t
  loop : Soft w.loop w'.loop
  timer : w.Sound → ∀ id, w'.loop.arms id i → (w'.informer i).timer = some id

theorem Changes.setInformer {w : World} {i : InformerId} {x : Watched} {l : Loop Point Report}
    (hlived : ∃ ds, x.cache = (w.informer i).cache.lived ds)
    (hworker : ∀ t, t < w.loop.tasks.length → x.worker = some t → (w.informer i).worker = some t)
    (hloop : Soft w.loop l) (htimer : w.Sound → ∀ id, l.arms id i → x.timer = some id) :
    Changes i w { w.setInformer i x with loop := l } := by
  let v : World := { w.setInformer i x with loop := l }
  have hself : v.informer i = w.informer i ∨ v.informer i = x :=
    (w.setInformer_cases i i x).imp_right And.right
  exact {
    length := length_setInformer w i x
    factories := rfl
    others := fun j hj => setInformer_other (w := w) x hj
    lived := by
      rcases hself with h | h
      · exact ⟨[], by rw [h]; rfl⟩
      · rw [h]
        exact hlived
    worker := by
      rcases hself with h | h
      · rw [h]
        exact fun _ _ hw => hw
      · rw [h]
        exact hworker
    loop := hloop
    timer := fun hs id harms => by
      rcases hself with h | h
      · rw [h]
        exact hs.timers id i (hloop.arms id i harms)
      · rw [h]
        exact htimer hs id harms }

theorem Changes.evolves {i : InformerId} {w w' : World} (h : Changes i w w') : Evolves w w' where
  tasks := Nat.le_of_eq h.loop.length.symm
  informers := Nat.le_of_eq h.length.symm
  lived j _ := by
    by_cases hj : j = i
    · exact hj ▸ h.lived
    · exact ⟨[], by rw [h.others j hj]; rfl⟩
  made j hle hlt := absurd (h.length ▸ hlt) (Nat.not_lt.2 hle)
  worker j t _ ht hw := by
    by_cases hj : j = i
    · subst hj
      exact h.worker t ht hw
    · rwa [h.others j hj] at hw
  sound hs := {
    timers := fun id j harms => by
      by_cases hj : j = i
      · subst hj
        exact h.timer hs id harms
      · rw [h.others j hj]
        exact hs.timers id j (h.loop.arms id j harms)
    serves := fun v j hserves => by
      rw [h.length]
      exact hs.serves v j (hserves.of_standing (h.loop.standing v))
    listed := fun f j hmem => by
      rw [factory, h.factories] at hmem
      rw [h.length]
      exact hs.listed f j hmem }

/-- An informer is changed in nothing that counts, or by a task that works for it, or while
its worker does not go on. -/
theorem Changes.acts {u : TaskId} {i : InformerId} {w w' : World} (h : Changes i w w')
    (hmine : (w'.informer i).cache = (w.informer i).cache ∨ w.Serves u i ∨
      ∀ t, (w'.informer i).worker = some t → ¬w.Live t) : Acts u w w' where
  toEvolves := h.evolves
  alone j _ _ _ ha _ v hv hserves := ha v hv (hserves.of_standing (h.loop.standing v))
  keeps j t hu _ _ ha hw := {
    cache := fun hlive => by
      by_cases hj : j = i
      · subst hj
        rcases hmine with hsame | hserves | hover
        · exact hsame
        · exact absurd hserves (ha u hu.symm)
        · exact absurd hlive (hover t hw)
      · rw [h.others j hj]
    standing := h.loop.standing t
    arms := fun id harms => h.loop.arms id j harms }

theorem Acts.setInformer {u : TaskId} {w : World} {i : InformerId} {x : Watched}
    (hlived : ∃ ds, x.cache = (w.informer i).cache.lived ds)
    (hworker : x.worker = (w.informer i).worker ∨ x.worker = none)
    (htimer : x.timer = (w.informer i).timer ∨ (w.Sound → ∀ id, ¬w.loop.arms id i))
    (hmine : x.cache = (w.informer i).cache ∨ w.Serves u i ∨
      ∀ t, x.worker = some t → ¬w.Live t) :
    Acts u w (w.setInformer i x) := by
  have hchanges : Changes i w (w.setInformer i x) := by
    refine .setInformer hlived (fun t _ hw => ?_) (.refl _) fun hs id harms => ?_
    · rcases hworker with hsame | hnone
      · rwa [← hsame]
      · rw [hnone] at hw
        cases hw
    · rcases htimer with hsame | hnone
      · rw [hsame]
        exact hs.timers id i harms
      · exact absurd harms (hnone hs id)
  refine hchanges.acts ?_
  rcases w.setInformer_cases i i x with h | ⟨-, h⟩
  · exact .inl (by rw [h])
  · rw [h]
    exact hmine

theorem serves_spawn {w : World} {p : Point} {v : TaskId} {i : InformerId}
    (h : (w.spawn p).1.Serves v i) :
    w.Serves v i ∨ v = w.loop.tasks.length ∧ p.informer? = some i := by
  obtain ⟨q, hq, hi⟩ := h
  rw [show (w.spawn p).1.loop = (w.loop.spawn p).1 from rfl, Loop.standing_spawn] at hq
  split at hq
  · next hv =>
      cases hq
      exact .inr ⟨hv, hi⟩
  · exact .inl ⟨q, hq, hi⟩

theorem standing_spawn_of_lt {w : World} {p : Point} {t : TaskId} (ht : t < w.loop.tasks.length) :
    (w.spawn p).1.loop.standing t = w.loop.standing t := by
  rw [show (w.spawn p).1.loop = (w.loop.spawn p).1 from rfl, Loop.standing_spawn,
    if_neg (Nat.ne_of_lt ht)]

theorem tasks_spawn (w : World) (p : Point) :
    w.loop.tasks.length ≤ (w.spawn p).1.loop.tasks.length := by
  show w.loop.tasks.length ≤ (w.loop.tasks ++ [_]).length
  rw [List.length_append]
  exact Nat.le_add_right _ _

/-- A task is made that works for an informer only if the informer has been waiting for it. -/
theorem Acts.spawnFor (u : TaskId) (w : World) {p : Point}
    (hmade : ∀ i, p.informer? = some i → w.Sound → i < w.informers.length)
    (hnew : ∀ i t, p.informer? = some i → t < w.loop.tasks.length →
      (w.informer i).worker ≠ some t) : Acts u w (w.spawn p).1 where
  tasks := tasks_spawn w p
  informers := Nat.le_refl _
  lived _ _ := ⟨[], rfl⟩
  made _ hle hlt := absurd hlt (Nat.not_lt.2 hle)
  worker _ _ _ _ h := h
  sound hs := {
    timers := hs.timers
    serves := fun v i h => by
      rcases serves_spawn h with hold | ⟨-, hi⟩
      · exact hs.serves v i hold
      · exact hmade i hi hs
    listed := hs.listed }
  alone i t _ ht ha hw v hv h := by
    rcases serves_spawn h with hold | ⟨-, hi⟩
    · exact ha v hv hold
    · exact hnew i t hi ht hw
  keeps i t _ _ ht _ _ := {
    cache := fun _ => rfl
    standing := standing_spawn_of_lt ht
    arms := fun _ h => h }

theorem Acts.spawn (u : TaskId) (w : World) {p : Point} (hp : p.informer? = none) :
    Acts u w (w.spawn p).1 := by
  refine .spawnFor u w (fun i hi => ?_) fun i t hi => ?_
  · rw [hp] at hi
    cases hi
  · rw [hp] at hi
    cases hi

/-! ## The timers of watches -/

/-- The timer of a watch is stopped. -/
theorem Acts.stopTimer (u : TaskId) (w : World) (i : InformerId) : Acts u w (w.stopTimer i) := by
  unfold World.stopTimer
  split
  · exact .refl u w
  · next timer htimer =>
      let x : Watched := { w.informer i with timer := none }
      have hchanges : Changes i w { w.setInformer i x with loop := w.loop.cancelTimer timer } := by
        refine .setInformer ⟨[], rfl⟩ (fun _ _ hw => hw) (w.loop.soft_cancelTimer timer) ?_
        intro hs id harms
        obtain ⟨harms, hother⟩ := Loop.arms_cancelTimer harms
        have hknown := hs.timers id i harms
        rw [htimer, Option.some.injEq] at hknown
        exact absurd hknown.symm hother
      exact hchanges.acts (.inl (setInformer_congr (x := x) Watched.cache rfl i))

/-- The timer of a watch is started by who works for the informer, which knows of it. -/
theorem Acts.startLoopTimer {u : TaskId} {w : World} {i : InformerId} (delay : Float)
    (hserves : w.Serves u i)
    (htimer : w.Sound → (w.informer i).timer = some w.loop.nextTimer) :
    Acts u w { w with loop := (w.loop.startTimer delay (.establish i)).1 } where
  tasks := Nat.le_refl _
  informers := Nat.le_refl _
  lived _ _ := ⟨[], rfl⟩
  made j hle hlt := absurd hlt (Nat.not_lt.2 hle)
  worker _ _ _ _ h := h
  sound hs := {
    timers := fun id j harms => by
      rcases Loop.arms_startTimer harms with hold | ⟨rfl, halarm⟩
      · exact hs.timers id j hold
      · cases halarm
        exact htimer hs
    serves := hs.serves
    listed := hs.listed }
  alone _ _ _ _ ha _ := ha
  keeps j t hu _ _ ha _ := {
    cache := fun _ => rfl
    standing := rfl
    arms := fun id harms => by
      rcases Loop.arms_startTimer harms with hold | ⟨-, halarm⟩
      · exact hold
      · cases halarm
        exact absurd hserves (ha u hu.symm) }

/-! ## Informers and factories that come and go -/

theorem not_live_new (w : World) : ¬w.Live w.loop.tasks.length := by
  rintro ⟨p, hp⟩
  exact Nat.lt_irrefl _ (Loop.lt_of_standing hp)

/-- A worker is started in the place of one that has ended. -/
theorem Acts.startWorker (u : TaskId) {w : World} {i : InformerId}
    (hi : w.Sound → i < w.informers.length) : Acts u w (w.startWorker i) := by
  unfold World.startWorker
  split
  · exact .refl u w
  dsimp only
  let p : Point := .worker i (.signalled .started)
  let cache : Informer := { (w.informer i).cache with state := .watching }
  let x : Watched := { w.informer i with cache := cache, worker := some w.loop.tasks.length }
  let v : World := w.setInformer i x
  -- the informer may as well name its worker before that is made
  show Acts u w (v.spawn p).1
  have hnew : ∀ t, t < w.loop.tasks.length → x.worker ≠ some t := by
    rintro t ht hw
    cases hw
    exact Nat.lt_irrefl _ ht
  have hnamed : Changes i w v :=
    .setInformer ⟨[.started], rfl⟩ (fun t ht hw => absurd hw (hnew t ht)) (.refl _)
      fun hs id harms => hs.timers id i harms
  by_cases hlt : i < w.informers.length
  · have hself : v.informer i = x := setInformer_self x hlt
    refine (hnamed.acts (.inr (.inr fun t ht => ?_))).trans (.spawnFor u v ?_ ?_)
    · rw [hself] at ht
      cases ht
      exact w.not_live_new
    · intro j hj _
      cases hj
      exact (length_setInformer w i x).symm ▸ hlt
    · intro j t hj ht
      cases hj
      rw [hself]
      exact hnew t ht
  · have hsame : v = w := by
      show ({ w with informers := w.informers.set i x } : World) = w
      rw [List.set_eq_of_length_le (Nat.le_of_not_lt hlt)]
    rw [hsame]
    refine .spawnFor u w ?_ ?_
    · intro j hj hs
      cases hj
      exact hi hs
    · intro j t hj _ hw
      cases hj
      exact hlt (lt_of_worker hw)

/-- An informer is made that has no worker yet. -/
theorem Acts.append (u : TaskId) (w : World) (rid : ResourceId) (ns : String)
    (config : WatchConfig) :
    Acts u w { w with informers :=
      w.informers ++ [({ cache := .new rid ns config } : Watched)] } := by
  let w' : World := { w with informers :=
    w.informers ++ [({ cache := .new rid ns config } : Watched)] }
  show Acts u w w'
  have hsame : ∀ j, j < w.informers.length → w'.informer j = w.informer j := by
    intro j hj
    show ((w.informers ++ [_])[j]?).getD default = (w.informers[j]?).getD default
    rw [List.getElem?_append_left hj]
  have hlength : w'.informers.length = w.informers.length + 1 := List.length_append
  exact {
    tasks := Nat.le_refl _
    informers := hlength ▸ Nat.le_succ _
    lived := fun j hj => ⟨[], by rw [hsame j hj]; rfl⟩
    made := fun j hle hlt => by
      rw [hlength] at hlt
      obtain rfl : j = w.informers.length := Nat.le_antisymm (Nat.le_of_lt_succ hlt) hle
      refine ⟨rid, ns, config, [], ?_⟩
      show (((w.informers ++ [_])[w.informers.length]?).getD default).cache = _
      rw [List.getElem?_concat_length]
      rfl
    worker := fun j t hj _ hw => hsame j hj ▸ hw
    sound := fun hs => {
      timers := fun id j harms => by
        have hknown := hs.timers id j harms
        rwa [hsame j (lt_of_timer hknown)]
      serves := fun v j h => hlength ▸ Nat.lt_succ_of_lt (hs.serves v j h)
      listed := fun f j h => hlength ▸ Nat.lt_succ_of_lt (hs.listed f j h) }
    alone := fun _ _ _ _ ha _ => ha
    keeps := fun j t _ hj _ _ _ => {
      cache := fun _ => by rw [hsame j hj]
      standing := rfl
      arms := fun _ h => h } }

/-- Factories come to list no informers but those that were made. -/
theorem Acts.of_factories {u : TaskId} {w w' : World} (hloop : w'.loop = w.loop)
    (hinformers : w'.informers = w.informers)
    (hlisted : ∀ f j, j ∈ Keyed.entries (w'.factory f).informers →
      j ∈ Keyed.entries (w.factory f).informers ∨ j < w.informers.length) : Acts u w w' := by
  have hsame : ∀ j, w'.informer j = w.informer j := fun j => by
    rw [informer, informer, hinformers]
  have hserves : ∀ v j, w'.Serves v j → w.Serves v j := fun v j h =>
    h.of_standing (by rw [hloop])
  exact {
    tasks := Nat.le_of_eq (by rw [hloop])
    informers := Nat.le_of_eq (by rw [hinformers])
    lived := fun j _ => ⟨[], by rw [hsame]; rfl⟩
    made := fun j hle hlt => absurd (hinformers ▸ hlt) (Nat.not_lt.2 hle)
    worker := fun j _ _ _ hw => hsame j ▸ hw
    sound := fun hs => {
      timers := fun id j harms => by
        rw [hsame]
        exact hs.timers id j (hloop ▸ harms)
      serves := fun v j h => hinformers ▸ hs.serves v j (hserves v j h)
      listed := fun f j hmem => by
        rw [hinformers]
        rcases hlisted f j hmem with hold | hj
        · exact hs.listed f j hold
        · exact hj }
    alone := fun j _ _ _ ha _ v hv h => ha v hv (hserves v j h)
    keeps := fun j t _ _ _ _ _ => {
      cache := fun _ => by rw [hsame]
      standing := by rw [hloop]
      arms := fun _ h => hloop ▸ h } }

end World

end LiveCluster.Simulation
