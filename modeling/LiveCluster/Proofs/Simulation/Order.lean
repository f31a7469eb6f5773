import LiveCluster.Proofs.Loop.Waiting
import LiveCluster.Simulation.Scope

/-!
# Who may disturb whom

A task works at one sink all its life, or at none. It calls off nobody but tasks that it
made for its own sink, and those work only there; a worker, which can be called off by
who stops its informer, works at none. `Tidy` is what has to hold of a world for that,
and then a step of a task leaves alone who works at other sinks, and those sinks. That
is `Works`.

Most of what a routine does on its way moves nobody and calls nobody off, and is `Mild`.
-/

namespace LiveCluster.Simulation

open Loop (TaskEases TaskStays Gentle Spares)

/-- The sink at which a task at a point works. -/
def Point.sink? : Point → Option SinkId
  | .planning op _ | .syncing op _ _ => op.sink
  | .reporting call _ _ _ | .supervising call _ _ | .clearing call _ => some call.sink
  | .stream s _ => some s.sink
  | .giving s _ | .taking s | .awaitingClose s | .getting s _ _ => some s
  | _ => none

/-- The tasks that a task at a point may call off. -/
def Point.wards : Point → List TaskId
  | .supervising _ tasks _ => tasks.streams ++ [tasks.closer]
  | .getting _ _ (some race) => [race.taker, race.closer]
  | _ => []

/-- Whether a task at a point is about to carry out the plan of an operation at a sink. -/
def Point.isPlanning : Point → Bool
  | .planning op _ => op.sink.isSome
  | _ => false

theorem Point.isPlanning_eq_false {p : Point} (h : p.sink? = none) : p.isPlanning = false := by
  unfold isPlanning
  split
  · next op plan =>
      rw [show op.sink = none from h]
      rfl
  · rfl

/-- Whether a task at a point waits for nobody's end. -/
def Point.isHelper : Point → Bool
  | .stream .. | .giving .. | .taking _ | .awaitingClose _ => true
  | _ => false

namespace World

/-- Whether a task works at a sink, or at none, and as a helper or not. -/
def Seat (w : World) (v : TaskId) (f : Option SinkId) (helper : Bool) : Prop :=
  ∃ a, w.loop.task? v = some a ∧ a.point.sink? = f ∧ a.point.isHelper = helper

/-- Whether a task at a point may wait like this. -/
structure WaitsAs (w : World) (p : Point) (wait : Wait) : Prop where
  task : ∀ other, wait = .task other → p.sink? = none ∧ w.Seat other none false
  group : ∀ members n calledOff, wait = .group members n calledOff →
    p.isHelper = false ∧ ∀ v ∈ members, w.Seat v p.sink? true

/-- What is known in every world of who may call off whom. -/
structure Tidy (w : World) : Prop where
  wards : ∀ u a, w.loop.task? u = some a → a.ending = none →
    ∀ v ∈ a.point.wards, w.Seat v a.point.sink? true
  workers : ∀ i v, (w.informer i).worker = some v → w.Seat v none false
  waits : ∀ u a, w.loop.task? u = some a → w.WaitsAs a.point a.wait
  /-- A timer that will end a time limit is known to the task whose limit it is. -/
  limits : ∀ id v, w.loop.expires id v → w.Seat v none false ∨
    ∃ a, w.loop.task? v = some a ∧
      (a.ending.isSome = true ∨ ∃ limit, a.limit = some limit ∧ limit.timer = id)
  fresh : ∀ u a, w.loop.task? u = some a → a.point.isPlanning = true → a.limit = none

theorem WaitsAs.of_isPlain (w : World) (p : Point) {wait : Wait} (h : wait.isPlain = true) :
    w.WaitsAs p wait where
  task _ hwait := by rw [hwait] at h; cases h
  group _ _ _ hwait := by rw [hwait] at h; cases h

variable {w w' x : World} {u v : TaskId} {f : Option SinkId} {helper : Bool} {p q : Point}

/-- Whoever had a seat has it still. -/
def KeepsSeats (w w' : World) : Prop :=
  ∀ v f helper, w.Seat v f helper → w'.Seat v f helper

/-- Who was there before works where it worked. -/
theorem KeepsSeats.back {b : Task Point Report} (h : KeepsSeats w w')
    (hlt : v < w.loop.tasks.length) (hb : w'.loop.task? v = some b) :
    ∃ a, w.loop.task? v = some a ∧ b.point.sink? = a.point.sink? := by
  obtain ⟨a, ha⟩ := Loop.exists_task? hlt
  obtain ⟨b', hb', hsink, -⟩ := h v _ _ ⟨a, ha, rfl, rfl⟩
  cases hb.symm.trans hb'
  exact ⟨a, ha, hsink⟩

theorem WaitsAs.keeps {wait : Wait} (h : w.WaitsAs p wait) (hseats : KeepsSeats w w') :
    w'.WaitsAs p wait where
  task other hwait := (h.task other hwait).imp_right (hseats _ _ _)
  group members n calledOff hwait :=
    (h.group members n calledOff hwait).imp_right fun hall v hv => hseats _ _ _ (hall v hv)

/-- A helper at a sink waits for nobody's end. -/
theorem WaitsAs.isPlain {wait : Wait} (h : w.WaitsAs p wait) (hhelper : p.isHelper = true)
    (hsink : p.sink? ≠ none) : wait.isPlain = true := by
  cases wait with
  | task other => exact absurd (h.task other rfl).1 hsink
  | group members n calledOff =>
      rw [(h.group members n calledOff rfl).1] at hhelper
      cases hhelper
  | none | signal | woken | dropped => rfl

theorem WaitsAs.eases {wait wait' : Wait} (h : w.WaitsAs p wait) (heases : wait.Eases wait') :
    w.WaitsAs p wait' := by
  cases heases with
  | same => exact h
  | woken => exact .of_isPlain w p rfl
  | ticked members n n' calledOff =>
      exact {
        task := fun _ hwait => by cases hwait
        group := fun _ _ _ hwait => by
          cases hwait
          exact h.group members n calledOff rfl }

theorem WaitsAs.at {wait : Wait} (h : w.WaitsAs p wait) (hsink : q.sink? = p.sink?)
    (hhelper : q.isHelper = p.isHelper) : w.WaitsAs q wait where
  task other hwait := by rw [hsink]; exact h.task other hwait
  group members n calledOff hwait := by
    rw [hsink, hhelper]
    exact h.group members n calledOff hwait

/-! ### One task -/

/-- What is known of each task by itself. -/
structure Placed (w : World) (a : Task Point Report) : Prop where
  wards : a.ending = none → ∀ v ∈ a.point.wards, w.Seat v a.point.sink? true
  waits : w.WaitsAs a.point a.wait
  fresh : a.point.isPlanning = true → a.limit = none

variable {a b : Task Point Report}

theorem Tidy.placed (h : w.Tidy) (ha : w.loop.task? v = some a) : w.Placed a :=
  ⟨h.wards v a ha, h.waits v a ha, h.fresh v a ha⟩

theorem Placed.keeps (h : w.Placed a) (hseats : KeepsSeats w w') : w'.Placed a where
  wards hending v hv := hseats _ _ _ (h.wards hending v hv)
  waits := h.waits.keeps hseats
  fresh := h.fresh

theorem Placed.eases (h : w.Placed a) (heases : TaskEases a b) : w.Placed b where
  wards hending := by
    rw [heases.point]
    exact h.wards (heases.ending ▸ hending)
  waits := by
    rw [heases.point]
    exact h.waits.eases heases.wait
  fresh hplanning := by
    rw [heases.point] at hplanning
    exact heases.limit.trans (h.fresh hplanning)

/-! ## Moving nobody -/

/-- Nobody is moved or called off; the tasks that are made work at a given sink, or at none, and
nothing is changed but that sink, the informers, and what does not count. -/
structure Mild (f : Option SinkId) (w w' : World) : Prop where
  tasks : w.loop.tasks.length ≤ w'.loop.tasks.length
  eases : ∀ v a, w.loop.task? v = some a → ∃ b, w'.loop.task? v = some b ∧ TaskEases a b
  made : ∀ v b, w.loop.tasks.length ≤ v → w'.loop.task? v = some b →
    (b.point.sink? = none ∨ b.point.sink? = f) ∧ b.point.wards = [] ∧ b.wait.isPlain = true ∧
      b.limit = none
  sinks : w'.sinks.length = w.sinks.length
  sink : ∀ s, f ≠ some s → w'.sink s = w.sink s
  workers : ∀ i v, (w'.informer i).worker = some v →
    (w.informer i).worker = some v ∨ w'.Seat v none false
  expires : ∀ id v, w'.loop.expires id v → w.loop.expires id v

theorem Mild.seats (h : Mild f w w') : KeepsSeats w w' := by
  rintro v g helper ⟨a, ha, hsink, hhelper⟩
  obtain ⟨b, hb, heases⟩ := h.eases v a ha
  exact ⟨b, hb, heases.point ▸ hsink, heases.point ▸ hhelper⟩

theorem Mild.refl (f : Option SinkId) (w : World) : Mild f w w where
  tasks := Nat.le_refl _
  eases _ a ha := ⟨a, ha, .refl a⟩
  made _ _ hle hb := absurd (Loop.lt_of_task? hb) (Nat.not_lt.2 hle)
  sinks := rfl
  sink _ _ := rfl
  workers _ _ h := .inl h
  expires _ _ h := h

/-- Who was there before was at most eased. -/
theorem Mild.back {b : Task Point Report} (h : Mild f w w') (hlt : v < w.loop.tasks.length)
    (hb : w'.loop.task? v = some b) : ∃ a, w.loop.task? v = some a ∧ TaskEases a b := by
  obtain ⟨a, ha⟩ := Loop.exists_task? hlt
  obtain ⟨b', hb', heases⟩ := h.eases v a ha
  cases hb.symm.trans hb'
  exact ⟨a, ha, heases⟩

theorem Mild.trans (h : Mild f w w') (h' : Mild f w' x) : Mild f w x where
  tasks := Nat.le_trans h.tasks h'.tasks
  eases v a ha := by
    obtain ⟨b, hb, hab⟩ := h.eases v a ha
    obtain ⟨c, hc, hbc⟩ := h'.eases v b hb
    exact ⟨c, hc, hab.trans hbc⟩
  made v c hle hc := by
    by_cases hlt : v < w'.loop.tasks.length
    · obtain ⟨b, hb, heases⟩ := h'.back hlt hc
      obtain ⟨hsink, hwards, hplain, hlimit⟩ := h.made v b hle hb
      rw [heases.point, heases.wait.isPlain, heases.limit]
      exact ⟨hsink, hwards, hplain, hlimit⟩
    · exact h'.made v c (Nat.le_of_not_lt hlt) hc
  sinks := h'.sinks.trans h.sinks
  sink s hs := (h'.sink s hs).trans (h.sink s hs)
  workers i v hw := by
    rcases h'.workers i v hw with hold | hseat
    · exact (h.workers i v hold).imp_right (h'.seats _ _ _)
    · exact .inr hseat
  expires id v he := h.expires id v (h'.expires id v he)

theorem Mild.of_none (h : Mild none w w') : Mild f w w' where
  tasks := h.tasks
  eases := h.eases
  made v b hle hb := (h.made v b hle hb).imp_left fun hsink => .inl (hsink.elim id id)
  sinks := h.sinks
  sink s _ := h.sink s (by simp)
  workers := h.workers
  expires := h.expires

theorem Mild.tidy (h : Mild f w w') (ht : w.Tidy) : w'.Tidy := by
  have hplaced : ∀ v b, w'.loop.task? v = some b → w'.Placed b := by
    intro v b hb
    by_cases hlt : v < w.loop.tasks.length
    · obtain ⟨a, ha, heases⟩ := h.back hlt hb
      exact ((ht.placed ha).eases heases).keeps h.seats
    · obtain ⟨-, hwards, hplain, hlimit⟩ := h.made v b (Nat.le_of_not_lt hlt) hb
      exact ⟨by simp [hwards], .of_isPlain w' _ hplain, fun _ => hlimit⟩
  exact {
    wards := fun v b hb => (hplaced v b hb).wards
    workers := fun i v hw =>
      (h.workers i v hw).elim (fun hold => h.seats _ _ _ (ht.workers i v hold)) id
    waits := fun v b hb => (hplaced v b hb).waits
    limits := fun id v he => by
      rcases ht.limits id v (h.expires id v he) with hseat | ⟨a, ha, hknown⟩
      · exact .inl (h.seats _ _ _ hseat)
      · obtain ⟨b, hb, heases⟩ := h.eases v a ha
        rw [← heases.ending, ← heases.limit] at hknown
        exact .inr ⟨b, hb, hknown⟩
    fresh := fun v b hb => (hplaced v b hb).fresh }

/-- No task is made, no sink is changed but one, and informers come to have no worker but one that
works at no sink. -/
theorem Mild.of_gentle (hloop : Gentle w.loop w'.loop) (hsinks : w'.sinks.length = w.sinks.length)
    (hsink : ∀ s, f ≠ some s → w'.sink s = w.sink s)
    (hworkers : ∀ i v, (w'.informer i).worker = some v →
      (w.informer i).worker = some v ∨ w'.Seat v none false) :
    Mild f w w' where
  tasks := Nat.le_of_eq hloop.length.symm
  eases v a ha := hloop.eases v a (fun h => h) ha
  made _ _ hle hb := absurd (hloop.lt hb) (Nat.not_lt.2 hle)
  sinks := hsinks
  sink := hsink
  workers := hworkers
  expires := hloop.expires

/-- Nothing that counts is changed but that waits are eased. -/
theorem Mild.of_eq (hloop : Gentle w.loop w'.loop) (hsinks : w'.sinks = w.sinks)
    (hinformers : w'.informers = w.informers) : Mild f w w' :=
  .of_gentle hloop (by rw [hsinks]) (fun s _ => by rw [World.sink, World.sink, hsinks])
    fun i v hw => .inl (by rwa [informer, ← hinformers])

theorem Mild.spawn (w : World) {p : Point} (hsink : p.sink? = none ∨ p.sink? = f)
    (hwards : p.wards = []) : Mild f w (w.spawn p).1 where
  tasks := by
    show w.loop.tasks.length ≤ (w.loop.tasks ++ [_]).length
    rw [List.length_append]
    exact Nat.le_add_right _ _
  eases v a ha := by
    refine ⟨a, ?_, .refl a⟩
    show (w.loop.spawn p).1.task? v = some a
    rw [Loop.task?_spawn, if_neg (Loop.ne_next_of_task? ha)]
    exact ha
  made v b hle hb := by
    obtain ⟨-, rfl⟩ := Loop.eq_of_spawn_new (l := w.loop) hb (.inr hle)
    exact ⟨hsink, hwards, rfl, rfl⟩
  sinks := rfl
  sink _ _ := rfl
  workers _ _ h := .inl h
  expires _ _ h := h

/-! ## A step of a task -/

/-- What can come of a step of a task that works at a sink, or at none: it alone is moved, and
nobody at a sink is called off but those who are hit. -/
structure Works (u : TaskId) (f : Option SinkId) (hit : TaskId → Prop) (w w' : World) :
    Prop where
  tasks : w.loop.tasks.length ≤ w'.loop.tasks.length
  seats : KeepsSeats w w'
  others : ∀ v a, v ≠ u → w.loop.task? v = some a →
    ∃ b, w'.loop.task? v = some b ∧ TaskStays a b
  eased : w.Tidy → ∀ v a, v ≠ u → ¬hit v → w.loop.task? v = some a → a.point.sink? ≠ none →
    ∃ b, w'.loop.task? v = some b ∧ TaskEases a b
  made : ∀ v b, w.loop.tasks.length ≤ v → w'.loop.task? v = some b →
    b.point.sink? = none ∨ b.point.sink? = f
  sinks : w'.sinks.length = w.sinks.length
  sink : ∀ s, f ≠ some s → w'.sink s = w.sink s
  tidy : w.Tidy → w'.Tidy

variable {hit hit' : TaskId → Prop}

theorem Mild.works (h : Mild f w w') (u : TaskId) : Works u f hit w w' where
  tasks := h.tasks
  seats := h.seats
  others v a _ ha := by
    obtain ⟨b, hb, heases⟩ := h.eases v a ha
    exact ⟨b, hb, heases.stays⟩
  eased _ v a _ _ ha _ := h.eases v a ha
  made v b hle hb := (h.made v b hle hb).1
  sinks := h.sinks
  sink := h.sink
  tidy := h.tidy

/-- Who works at a sink worked there before, or it is the sink of the step. -/
theorem Works.sink_back {b : Task Point Report} (h : Works u f hit w w')
    (hb : w'.loop.task? v = some b) (hs : b.point.sink? = some s) :
    (∃ a, w.loop.task? v = some a ∧ a.point.sink? = some s) ∨ f = some s := by
  by_cases hlt : v < w.loop.tasks.length
  · obtain ⟨a, ha, hsink⟩ := h.seats.back hlt hb
    exact .inl ⟨a, ha, hsink.symm.trans hs⟩
  · rcases h.made v b (Nat.le_of_not_lt hlt) hb with hnone | hsame
    · rw [hnone] at hs
      cases hs
    · exact .inr (hsame.symm.trans hs)

theorem Works.refl (u : TaskId) (f : Option SinkId) (hit : TaskId → Prop) (w : World) :
    Works u f hit w w :=
  (Mild.refl f w).works u

/-- One step after another; the second may also hit who was made in the first. -/
theorem Works.and (h : Works u f hit w w') (h' : Works u f hit' w' x)
    (hhit : ∀ v, hit' v → hit v ∨ w.loop.tasks.length ≤ v) : Works u f hit w x where
  tasks := Nat.le_trans h.tasks h'.tasks
  seats v g helper hseat := h'.seats _ _ _ (h.seats _ _ _ hseat)
  others v a hv ha := by
    obtain ⟨b, hb, hab⟩ := h.others v a hv ha
    obtain ⟨c, hc, hbc⟩ := h'.others v b hv hb
    exact ⟨c, hc, hab.trans hbc⟩
  eased ht v a hv hmiss ha hsome := by
    obtain ⟨b, hb, hab⟩ := h.eased ht v a hv hmiss ha hsome
    have hmiss' : ¬hit' v := by
      intro hv'
      rcases hhit v hv' with hold | hnew
      · exact hmiss hold
      · exact Nat.not_lt.2 hnew (Loop.lt_of_task? ha)
    obtain ⟨c, hc, hbc⟩ := h'.eased (h.tidy ht) v b hv hmiss' hb (hab.point ▸ hsome)
    exact ⟨c, hc, hab.trans hbc⟩
  made v c hle hc := by
    by_cases hlt : v < w'.loop.tasks.length
    · obtain ⟨b, hb, hsink⟩ := h'.seats.back hlt hc
      rw [hsink]
      exact h.made v b hle hb
    · exact h'.made v c (Nat.le_of_not_lt hlt) hc
  sinks := h'.sinks.trans h.sinks
  sink s hs := (h'.sink s hs).trans (h.sink s hs)
  tidy ht := h'.tidy (h.tidy ht)

theorem Works.trans (h : Works u f hit w w') (h' : Works u f hit w' x) : Works u f hit w x :=
  h.and h' fun _ => .inl

/-- Nothing is changed but the loop, in which no task is made. -/
theorem Works.of_loop {l : Loop Point Report} (hlength : l.tasks.length = w.loop.tasks.length)
    (hseats : KeepsSeats w { w with loop := l })
    (hothers : ∀ v a, v ≠ u → w.loop.task? v = some a → ∃ b, l.task? v = some b ∧ TaskStays a b)
    (heased : w.Tidy → ∀ v a, v ≠ u → ¬hit v → w.loop.task? v = some a → a.point.sink? ≠ none →
      ∃ b, l.task? v = some b ∧ TaskEases a b)
    (hplaced : w.Tidy → ∀ v a b, w.loop.task? v = some a → l.task? v = some b → w.Placed b)
    (hlimits : w.Tidy → ∀ id v, l.expires id v → Seat { w with loop := l } v none false ∨
      ∃ b, l.task? v = some b ∧
        (b.ending.isSome = true ∨ ∃ limit, b.limit = some limit ∧ limit.timer = id)) :
    Works u f hit w { w with loop := l } where
  tasks := Nat.le_of_eq hlength.symm
  seats := hseats
  others := hothers
  eased := heased
  made _ _ hle hb := absurd (hlength ▸ Loop.lt_of_task? hb) (Nat.not_lt.2 hle)
  sinks := rfl
  sink _ _ := rfl
  tidy ht := by
    have hplaced' : ∀ v b, l.task? v = some b → Placed { w with loop := l } b := by
      intro v b hb
      obtain ⟨a, ha⟩ := Loop.exists_task? (hlength ▸ Loop.lt_of_task? hb)
      exact (hplaced ht v a b ha hb).keeps hseats
    exact {
      wards := fun v b hb => (hplaced' v b hb).wards
      workers := fun i v hw => hseats _ _ _ (ht.workers i v hw)
      waits := fun v b hb => (hplaced' v b hb).waits
      limits := hlimits ht
      fresh := fun v b hb => (hplaced' v b hb).fresh }

/-- The task itself, and nobody else, is touched. -/
theorem Works.of_own {l : Loop Point Report} (hloop : Spares (· = u) w.loop l)
    (hown : ∀ a, w.loop.task? u = some a → ∃ b, l.task? u = some b ∧
      b.point.sink? = a.point.sink? ∧ b.point.isHelper = a.point.isHelper ∧
      (w.Tidy → w.Placed b ∧
        ∀ id, l.expires id u → a.point.sink? = none ∧ a.point.isHelper = false ∨
          b.ending.isSome = true ∨ ∃ limit, b.limit = some limit ∧ limit.timer = id)) :
    Works u f hit w { w with loop := l } := by
  have hothers : ∀ v a, v ≠ u → w.loop.task? v = some a →
      ∃ b, l.task? v = some b ∧ TaskEases a b := hloop.eases
  have hseats : KeepsSeats w { w with loop := l } := by
    rintro v g helper ⟨a, ha, hsink, hhelper⟩
    by_cases hv : v = u
    · subst hv
      obtain ⟨b, hb, hsink', hhelper', -⟩ := hown a ha
      exact ⟨b, hb, hsink'.trans hsink, hhelper'.trans hhelper⟩
    · obtain ⟨b, hb, heases⟩ := hothers v a hv ha
      exact ⟨b, hb, heases.point ▸ hsink, heases.point ▸ hhelper⟩
  refine .of_loop hloop.length hseats (fun v a hv ha => ?_)
    (fun _ v a hv _ ha _ => hothers v a hv ha) (fun ht v a b ha hb => ?_) fun ht id v he => ?_
  · obtain ⟨b, hb, heases⟩ := hothers v a hv ha
    exact ⟨b, hb, heases.stays⟩
  · by_cases hv : v = u
    · subst hv
      obtain ⟨b', hb', -, -, htidy⟩ := hown a ha
      cases hb.symm.trans hb'
      exact (htidy ht).1
    · obtain ⟨b', hb', heases⟩ := hothers v a hv ha
      cases hb.symm.trans hb'
      exact (ht.placed ha).eases heases
  · rcases ht.limits id v (hloop.expires id v he) with hseat | ⟨a, ha, hknown⟩
    · exact .inl (hseats _ _ _ hseat)
    · by_cases hv : v = u
      · subst hv
        obtain ⟨b, hb, hsink, hhelper, htidy⟩ := hown a ha
        rcases (htidy ht).2 id he with ⟨hnone, hfalse⟩ | hlimit
        · exact .inl ⟨b, hb, hsink.trans hnone, hhelper.trans hfalse⟩
        · exact .inr ⟨b, hb, hlimit⟩
      · obtain ⟨b, hb, heases⟩ := hothers v a hv ha
        rw [← heases.ending, ← heases.limit] at hknown
        exact .inr ⟨b, hb, hknown⟩

/-- A time limit that is not touched is as well known as before. -/
theorem Tidy.limits_same (ht : w.Tidy) (ha : w.loop.task? u = some a)
    (hlimit : b.limit = a.limit) (hending : b.ending = a.ending) {id : TimerId}
    (he : w.loop.expires id u) : a.point.sink? = none ∧ a.point.isHelper = false ∨
      b.ending.isSome = true ∨ ∃ limit, b.limit = some limit ∧ limit.timer = id := by
  rw [hlimit, hending]
  rcases ht.limits id u he with ⟨a', ha', hfree⟩ | ⟨a', ha', hknown⟩
  · cases ha.symm.trans ha'
    exact .inl hfree
  · cases ha.symm.trans ha'
    exact .inr hknown

/-- A task goes to another point of its routine and waits there. -/
theorem Works.goes {wait : Wait} {l : Loop Point Report} (hloop : Loop.Goes u p wait w.loop l)
    (hseat : w.Seat u p.sink? p.isHelper) (hp : p.isPlanning = false)
    (hwards : ∀ v ∈ p.wards, w.Seat v p.sink? true) (hwait : w.WaitsAs p wait) :
    Works u f hit w { w with loop := l } := by
  refine .of_own hloop.toSpares fun a ha => ?_
  obtain ⟨a', ha', hsink, hhelper⟩ := hseat
  cases ha.symm.trans ha'
  obtain ⟨b, hb, rfl, hending, -, hlimit, heases⟩ := hloop.own a ha
  refine ⟨b, hb, hsink.symm, hhelper.symm, fun ht =>
    ⟨⟨fun _ => hwards, hwait.eases heases, by simp [hp]⟩, ?_⟩⟩
  exact fun id he => ht.limits_same ha hlimit hending (hloop.expires id u he)

theorem Works.await (hseat : w.Seat u p.sink? p.isHelper)
    (hp : p.isPlanning = false ∧ p.wards = []) : Works u f hit w (w.await u p) :=
  .goes (w.loop.goes_suspend u p .signal) hseat hp.1 (by simp [hp.2]) (.of_isPlain w p rfl)

/-- A task goes on at another point of its routine. -/
theorem Works.goOn (hseat : w.Seat u p.sink? p.isHelper)
    (hp : p.isPlanning = false ∧ p.wards = []) : Works u f hit w (w.goOn u p) := by
  refine .of_own (w.loop.spares_goOn u p) fun a ha => ?_
  obtain ⟨a', ha', hsink, hhelper⟩ := hseat
  cases ha.symm.trans ha'
  refine ⟨_, Loop.task?_goOn ha, hsink.symm, hhelper.symm, fun ht =>
    ⟨⟨by simp [hp.2], ?_, by simp [hp.1]⟩, ?_⟩⟩
  · exact (ht.waits u a ha).at hsink.symm hhelper.symm
  · exact fun id he => ht.limits_same ha rfl rfl he

theorem Works.finish (e : Ending Report) : Works u f hit w (w.finish u e) := by
  refine .of_own (w.loop.spares_finish u e) fun a ha => ?_
  refine ⟨_, Loop.task?_finish ha, rfl, rfl, fun ht =>
    ⟨⟨?_, .of_isPlain w _ rfl, fun _ => rfl⟩, ?_⟩⟩
  · intro hending
    cases hending
  · exact fun _ _ => .inr (.inl rfl)

theorem Works.arrive {l : Loop Point Report} {a : Arrival}
    (h : w.loop.arrive u = some (l, p, a)) : Works u f hit w { w with loop := l } := by
  refine .of_own (Loop.spares_arrive h) fun a ha => ?_
  obtain ⟨a', ha', hending, -, -, hl⟩ := Loop.arrive_spec h
  cases ha.symm.trans ha'
  refine ⟨_, hl, rfl, rfl, fun ht => ⟨⟨?_, .of_isPlain w _ rfl, ht.fresh u a ha⟩, ?_⟩⟩
  · exact fun _ => ht.wards u a ha hending
  · exact fun id he => ht.limits_same ha rfl rfl ((Loop.spares_arrive h).expires id u he)

theorem Tidy.arrive {l : Loop Point Report} {a : Arrival} (h : w.Tidy)
    (harrive : w.loop.arrive u = some (l, p, a)) : Tidy { w with loop := l } := by
  have hworks : Works u none (fun _ => False) w { w with loop := l } := .arrive harrive
  exact hworks.tidy h

/-! ## Calling off -/

theorem WaitsAs.turns {wait wait' : Wait} (h : w.WaitsAs p wait) (hturns : wait.Turns wait') :
    w.WaitsAs p wait' := by
  cases hturns with
  | same => exact h
  | dropped _ => exact .of_isPlain w p rfl
  | calledOff members n off off' =>
      exact {
        task := fun _ hwait => by cases hwait
        group := fun _ _ _ hwait => by
          cases hwait
          exact h.group members n off rfl }

theorem Placed.turns (h : w.Placed a) (hturns : Loop.TaskTurns a b) : w.Placed b where
  wards hending := by
    rw [hturns.point]
    exact h.wards (hturns.ending ▸ hending)
  waits := by
    rw [hturns.point]
    exact h.waits.turns hturns.wait
  fresh hplanning := by
    have hsame := hturns.limit
    rw [h.fresh (hturns.point ▸ hplanning)] at hsame
    exact Option.map_eq_none_iff.1 hsame

/-- Who works at a sink is called off only if it is hit. -/
theorem Works.of_turns {l : Loop Point Report} (hturns : Loop.Turns w.loop l)
    (hspares : Spares hit' w.loop l)
    (hhit : w.Tidy → ∀ v a, hit' v → w.loop.task? v = some a → a.point.sink? = none ∨ hit v) :
    Works u f hit w { w with loop := l } := by
  have hseats : KeepsSeats w { w with loop := l } := by
    rintro v g helper ⟨a, ha, hsink, hhelper⟩
    obtain ⟨b, hb, hab⟩ := hturns v a ha
    exact ⟨b, hb, hab.point ▸ hsink, hab.point ▸ hhelper⟩
  refine .of_loop hspares.length hseats (fun v a _ ha => ?_) (fun ht v a _ hmiss ha hsome => ?_)
    (fun ht v a b ha hb => ?_) fun ht id v he => ?_
  · obtain ⟨b, hb, hab⟩ := hturns v a ha
    exact ⟨b, hb, hab.stays⟩
  · exact hspares.eases v a (fun hv => (hhit ht v a hv ha).elim hsome hmiss) ha
  · obtain ⟨b', hb', hab⟩ := hturns v a ha
    cases hb.symm.trans hb'
    exact (ht.placed ha).turns hab
  · rcases ht.limits id v (hspares.expires id v he) with hseat | ⟨a, ha, hknown⟩
    · exact .inl (hseats _ _ _ hseat)
    · obtain ⟨b, hb, hab⟩ := hturns v a ha
      refine .inr ⟨b, hb, ?_⟩
      rw [hab.ending]
      refine hknown.imp_right ?_
      rintro ⟨limit, hlimit, rfl⟩
      have hsame := hab.limit
      rw [hlimit, Option.map_some, Option.map_eq_some_iff] at hsame
      exact hsame

/-- Who is called off together with a task works where it works, or at none. -/
theorem Tidy.passesTo (ht : w.Tidy) {v x : TaskId} (ha : w.loop.task? v = some a)
    (hx : v = x ∨ w.loop.passesTo v x) (hb : w.loop.task? x = some b) :
    b.point.sink? = none ∨ b.point.sink? = a.point.sink? := by
  rcases hx with rfl | ⟨a', ha', hmem⟩
  · cases ha.symm.trans hb
    exact .inr rfl
  · cases ha.symm.trans ha'
    have hwaits := ht.waits v a ha
    cases hwait : a.wait with
    | task other =>
        rw [hwait, Wait.targets, List.mem_singleton] at hmem
        subst hmem
        obtain ⟨-, b', hb', hnone, -⟩ := hwaits.task x hwait
        cases hb.symm.trans hb'
        exact .inl hnone
    | group members n off =>
        rw [hwait] at hmem
        obtain ⟨b', hb', hsink, -⟩ := (hwaits.group members n off hwait).2 x hmem
        cases hb.symm.trans hb'
        exact .inr hsink
    | none | signal | woken | dropped =>
        rw [hwait] at hmem
        cases hmem

/-- A task is cancelled that works at no sink, or that is hit. -/
theorem Works.cancel {v : TaskId} (hv : w.Seat v none false ∨ ∃ s, w.Seat v (some s) true ∧ hit v) :
    Works u f hit w (w.withLoop (·.cancel v)) := by
  refine .of_turns (w.loop.turns_cancel v) (w.loop.spares_cancel v) fun ht x b hx hb => ?_
  rcases hv with ⟨a, ha, hnone, -⟩ | ⟨s, ⟨a, ha, hsome, hhelper⟩, hit⟩
  · rcases ht.passesTo ha (hx.imp_left Eq.symm) hb with hnone' | hsame
    · exact .inl hnone'
    · exact .inl (hsame.trans hnone)
  · -- a helper passes nothing on
    rcases hx with rfl | ⟨a', ha', hmem⟩
    · exact .inr hit
    · cases ha.symm.trans ha'
      have hplain := (ht.waits v a ha).isPlain hhelper (by rw [hsome]; simp)
      rw [Wait.targets_of_isPlain hplain] at hmem
      cases hmem

/-- Whoever is cancelled, only he is hit and those to whom he passes it on. -/
theorem Works.cancelAny (v : TaskId) :
    Works u f (fun x => x = v ∨ w.loop.passesTo v x) w (w.withLoop (·.cancel v)) :=
  .of_turns (w.loop.turns_cancel v) (w.loop.spares_cancel v) fun _ _ _ hx _ => .inr hx

theorem Works.expire {v : TaskId} :
    Works u f (fun x => x = v ∨ w.loop.passesTo v x) w (w.withLoop (·.expire v)) :=
  .of_turns (w.loop.turns_expire v) (w.loop.spares_expire v) fun _ _ _ hx _ => .inr hx

/-- Tasks are cancelled one after another. -/
theorem Works.cancelAll {s : SinkId} {vs : List TaskId}
    (hvs : ∀ v ∈ vs, w.Seat v (some s) true ∧ hit v) :
    Works u f hit w (w.withLoop fun l => vs.foldl Loop.cancel l) := by
  induction vs generalizing w with
  | nil => exact .refl u f hit w
  | cons v rest ih =>
      have hfirst : Works u f hit w (w.withLoop (·.cancel v)) :=
        .cancel (.inr ⟨s, hvs v List.mem_cons_self⟩)
      exact hfirst.trans (ih fun x hx =>
        (hvs x (List.mem_cons_of_mem v hx)).imp_left (hfirst.seats _ _ _))

/-! ## Time limits -/

theorem Works.endLimit (cancelled : Bool) :
    Works u f hit w (w.withLoop fun l => (l.endLimit u cancelled).1) := by
  refine .of_own (w.loop.spares_endLimit u cancelled) fun a ha => ?_
  obtain ⟨⟨b, hb, hpoint, hending, -, hwait, hlimit⟩, hgone⟩ := Loop.endLimit_spec ha cancelled
  refine ⟨b, hb, by rw [hpoint], by rw [hpoint], fun ht => ⟨⟨?_, ?_, fun _ => hlimit⟩, ?_⟩⟩
  · rw [hpoint, hending]
    exact ht.wards u a ha
  · rw [hpoint, hwait]
    exact ht.waits u a ha
  · intro id he
    have hold := (w.loop.spares_endLimit u cancelled).expires id u he
    rcases ht.limits_same ha rfl rfl hold with hfree | hended | ⟨limit, hlimit, rfl⟩
    · exact .inl hfree
    · exact .inr (.inl (hending ▸ hended))
    · exact absurd rfl (hgone limit ‹_› _ u he)

theorem Tidy.endLimit (h : w.Tidy) (u : TaskId) (cancelled : Bool) :
    Tidy (w.withLoop fun l => (l.endLimit u cancelled).1) := by
  have hworks : Works u none (fun _ => False) w _ := .endLimit cancelled
  exact hworks.tidy h

/-- A time limit begins for a task, which may go to another point and wait there. -/
theorem Works.of_limit {l : Loop Point Report} {id₀ : TimerId}
    (hlength : l.tasks.length = w.loop.tasks.length)
    (hothers : ∀ v, v ≠ u → l.task? v = w.loop.task? v)
    (hexpires : ∀ id v, l.expires id v → w.loop.expires id v ∨ v = u ∧ id = id₀)
    (hown : ∀ a, w.loop.task? u = some a → ∃ b, l.task? u = some b ∧ b.ending = a.ending ∧
      b.point.sink? = a.point.sink? ∧ b.point.isHelper = a.point.isHelper ∧
      (∃ limit, b.limit = some limit ∧ limit.timer = id₀) ∧ (w.Tidy → w.Placed b))
    (hu : w.Seat u none false ∨ ∃ a, w.loop.task? u = some a ∧ a.limit = none) :
    Works u f hit w { w with loop := l } := by
  have hseats : KeepsSeats w { w with loop := l } := by
    rintro v g helper ⟨a, ha, hsink, hhelper⟩
    by_cases hv : v = u
    · subst hv
      obtain ⟨b, hb, -, hsink', hhelper', -⟩ := hown a ha
      exact ⟨b, hb, hsink'.trans hsink, hhelper'.trans hhelper⟩
    · exact ⟨a, (hothers v hv).trans ha, hsink, hhelper⟩
  refine .of_loop hlength hseats (fun v a hv ha => ⟨a, (hothers v hv).trans ha, .refl a⟩)
    (fun _ v a hv _ ha _ => ⟨a, (hothers v hv).trans ha, .refl a⟩) (fun ht v a b ha hb => ?_)
    fun ht id v he => ?_
  · by_cases hv : v = u
    · subst hv
      obtain ⟨b', hb', -, -, -, -, hplaced⟩ := hown a ha
      cases hb.symm.trans hb'
      exact hplaced ht
    · exact ht.placed ((hothers v hv).symm.trans hb)
  · by_cases hv : v = u
    · subst hv
      rcases hu with hseat | ⟨a, ha, hnone⟩
      · exact .inl (hseats _ _ _ hseat)
      · obtain ⟨b, hb, hending, -, -, ⟨limit, hlimit, htimer⟩, -⟩ := hown a ha
        rcases hexpires id v he with hbefore | ⟨-, rfl⟩
        · rcases ht.limits_same ha rfl rfl hbefore with ⟨hsink, hhelper⟩ | hended | hlimit'
          · exact .inl (hseats _ _ _ ⟨a, ha, hsink, hhelper⟩)
          · exact .inr ⟨b, hb, .inl (hending ▸ hended)⟩
          · rw [hnone] at hlimit'
            obtain ⟨_, hlimit', -⟩ := hlimit'
            cases hlimit'
        · exact .inr ⟨b, hb, .inr ⟨limit, hlimit, htimer⟩⟩
    · have hbefore := (hexpires id v he).resolve_right fun h => hv h.1
      refine (ht.limits id v hbefore).imp (hseats _ _ _) ?_
      exact Exists.imp fun b => .imp_left (hothers v hv).trans

/-- A time limit begins for a task that works at no sink. -/
theorem Works.beginLimit (delay : Float) (hu : w.Seat u none false) :
    Works u f hit w (w.withLoop (·.beginLimit u delay)) := by
  obtain ⟨hlength, hothers, hexpires, hown⟩ := w.loop.beginLimit_spec u delay
  refine .of_limit hlength hothers hexpires (fun a ha => ?_) (.inl hu)
  obtain ⟨a', ha', hnone, -⟩ := hu
  cases ha.symm.trans ha'
  refine ⟨_, hown a ha, rfl, rfl, rfl, ⟨_, rfl, rfl⟩,
    fun ht => ⟨ht.wards u a ha, ht.waits u a ha, ?_⟩⟩
  intro hplanning
  rw [Point.isPlanning_eq_false hnone] at hplanning
  cases hplanning

/-- A task that has no time limit waits at another point within one. -/
theorem Works.awaitWithin (delay : Float)
    (hu : w.Seat u none false ∨ ∃ a, w.loop.task? u = some a ∧ a.limit = none)
    (hseat : w.Seat u p.sink? p.isHelper) (hp : p.isPlanning = false ∧ p.wards = []) :
    Works u f hit w ((w.withLoop (·.beginLimit u delay)).await u p) := by
  obtain ⟨hlength, hothers, hexpires, hown⟩ := w.loop.beginLimit_spec u delay
  have hmoved : ∀ v, ((w.loop.beginLimit u delay).suspend u p .signal).task? v =
      if u = v then ((w.loop.beginLimit u delay).task? v).map fun task =>
        { task with point := p, wait := .signal, turn := task.turn + 1 }
      else (w.loop.beginLimit u delay).task? v :=
    fun v => Loop.task?_modify _ u v _
  show Works u f hit w { w with loop := (w.loop.beginLimit u delay).suspend u p .signal }
  refine .of_limit ((Loop.length_modify _ u _).trans hlength) (fun v hv => ?_) hexpires
    (fun a ha => ?_) hu
  · rw [hmoved, if_neg (Ne.symm hv)]
    exact hothers v hv
  · obtain ⟨a', ha', hsink, hhelper⟩ := hseat
    cases ha.symm.trans ha'
    rw [hmoved, if_pos rfl, hown a ha]
    refine ⟨_, rfl, rfl, hsink.symm, hhelper.symm, ⟨_, rfl, rfl⟩, fun _ => ⟨?_, ?_, ?_⟩⟩
    · simp [hp.2]
    · exact .of_isPlain w p rfl
    · simp [hp.1]

end World

end LiveCluster.Simulation
