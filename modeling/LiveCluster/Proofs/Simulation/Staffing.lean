import LiveCluster.Proofs.Loop.Patience
import LiveCluster.Proofs.Simulation.Follow
import LiveCluster.Proofs.Simulation.Scopes
import LiveCluster.Proofs.Simulation.Steps

/-!
# Who works for whom

A task has one routine all its life. The routine of a worker is that of its informer, which
names it; a worker is made only when the informer has none that goes on, and nobody but a
worker calls the cluster on account of a watch. That is shown here along the definition of
each routine: what a routine does on its way only `Hires`, and what its whole step does is
`Staffs`. Only who stops an informer dismisses its worker, and waits for it then.
-/

namespace LiveCluster

/-- The kind and the namespace of a call that belongs to a watch. -/
def ClusterCall.scope? : ClusterCall → Option (String × String)
  | .list kind ns => some (kind, ns)
  | .watch kind ns .. => some (kind, ns)
  | _ => none

/-- The kind of whose cache something is asked that may start a watch. -/
def Ask.watched? : Ask → Option ResourceId
  | .object rid _ => some rid
  | .objects rid .. => some rid
  | _ => none

/-- Whether a plan asks only for caches that may be asked for. -/
def Plan.Asks {α : Type} (asks : ResourceId → Prop) : Plan α → Prop
  | .done _ => True
  | .ask q next => (∀ rid, q.watched? = some rid → asks rid) ∧ ∀ answer, (next answer).Asks asks
  | .sync rid _ _ next => asks rid ∧ ∀ result, (next result).Asks asks

namespace Simulation

open Loop (Soft Touches Urges Defers Settles)

/-- What a task does all its life. -/
inductive Routine where
  | worker (informer : InformerId)
  | call
  | stream
  | giving (sink : SinkId) (event : LogEvent)
  | taking
  | awaitingClose
  | getting
  /-- Stopping informers, or running the application. -/
  | control

def Point.routine : Point → Routine
  | .worker i _ => .worker i
  | .planning .. | .syncing .. | .reporting .. | .supervising .. | .clearing .. => .call
  | .stream .. => .stream
  | .giving s d => .giving s d.event
  | .taking _ => .taking
  | .awaitingClose _ => .awaitingClose
  | .getting .. => .getting
  | .stopping .. | .stoppingScope .. | .stoppingFactory _ | .application _ | .closing => .control

/-- Whether a task at a point will ask only for what may be asked for. -/
def Point.Asks (asks : FactoryId → ResourceId → Prop) : Point → Prop
  | .planning op plan => plan.Asks (asks op.factory)
  | .syncing op _ next => ∀ result, (next result).Asks (asks op.factory)
  | .stoppingScope f rid _ _ => asks f rid
  | _ => True

/-- Whether a task may begin at a point: it has done nothing yet. -/
def Point.isFirst : Point → Bool
  | .worker _ (.signalled .started) | .planning .. | .stream _ .opening => true
  | .taking _ | .awaitingClose _ => true
  | .giving _ d => !d.waited
  | .getting _ collected none => (collected.getD []).isEmpty
  | .stoppingScope .. | .stoppingFactory _ | .application _ => true
  | _ => false

/-- Whether a task may begin at a point, and will ask only for what may be asked for. -/
def Point.Begins (asks : FactoryId → ResourceId → Prop) (p : Point) : Prop :=
  p.isFirst = true ∧ p.Asks asks

namespace World

variable {w w' x : World} {asks : FactoryId → ResourceId → Prop} {shuts : Prop}
  {about : Option (String × String)} {t v : TaskId} {r : Routine} {i : InformerId}

/-- A task that stops an informer waits for the worker, which it has told. -/
def Outlasts (w : World) (t : TaskId) (i : InformerId) (v : TaskId) : Prop :=
  ∃ a reason rest, w.loop.task? t = some a ∧ a.ending = none ∧
    a.point = .stopping reason (some (i, v)) rest ∧ a.wait = .task v

/-- The calls that belong to watches are about one scope, or there are none. -/
def Calls (about : Option (String × String)) (w w' : World) : Prop :=
  ∃ cs, w'.journal.calls = w.journal.calls ++ cs ∧ ∀ c ∈ cs, c.scope? = none ∨ c.scope? = about

/-- An informer for which a worker may be made: it is listed, or new. -/
structure Vacancy (w w' : World) (i : InformerId) : Prop where
  lt : i < w'.informers.length
  served : w.informers.length ≤ i ∨ ∃ f key, w.listed f key = some i

/-- Who comes to work for whom. -/
structure Enrols (asks : FactoryId → ResourceId → Prop) (shuts : Prop) (w w' : World) : Prop
    extends Files asks shuts w w' where
  tasks : w.loop.tasks.length ≤ w'.loop.tasks.length
  starts : ∀ i v, (w'.informer i).worker = some v → (w.informer i).worker = some v ∨
    w.loop.tasks.length ≤ v ∧ ∃ p, w'.loop.standing v = some (p, none) ∧ p.routine = .worker i

/-- Nobody is moved, and a worker is replaced only when it has ended. What an informer has changes
only on account of a watch. -/
structure Engages (asks : FactoryId → ResourceId → Prop) (shuts : Prop)
    (about : Option (String × String)) (w w' : World) : Prop extends Enrols asks shuts w w' where
  calls : Calls about w w'
  old : ∀ v, v < w.loop.tasks.length → w'.loop.standing v = w.loop.standing v
  made : ∀ v p e, w.loop.tasks.length ≤ v → w'.loop.standing v = some (p, e) →
    e = none ∧ (p.routine = .control → shuts) ∧ p.Begins asks ∧
      ∀ i, p.routine = .worker i → Vacancy w w' i ∧ (w'.informer i).worker = some v
  worker : ∀ i v, (w.informer i).worker = some v →
    (w'.informer i).worker = some v ∨ w.loop.ended v = true
  items : about = none → ∀ i, (w'.informer i).cache.items = (w.informer i).cache.items

/-- What a task does on its way. -/
structure Hires (asks : FactoryId → ResourceId → Prop) (shuts : Prop)
    (about : Option (String × String)) (w w' : World) : Prop
    extends Engages asks shuts about w w' where
  defers : Defers w.loop w'.loop

/-- A task has gone on with its routine, and nobody else is moved. A worker is replaced only when
it has ended, or its end is waited for. What an informer has changes only on account of a watch. -/
structure Employs (t : TaskId) (r : Routine) (asks : FactoryId → ResourceId → Prop)
    (about : Option (String × String)) (w w' : World) : Prop
    extends Enrols asks (r = .control) w w' where
  calls : Calls about w w'
  own : ∃ p e, w'.loop.standing t = some (p, e) ∧ p.routine = r ∧ p.Asks asks
  others : ∀ v, v ≠ t → v < w.loop.tasks.length → w'.loop.standing v = w.loop.standing v
  made : ∀ v p e, w.loop.tasks.length ≤ v → w'.loop.standing v = some (p, e) →
    e = none ∧ (p.routine = .control → r = .control) ∧ p.Begins asks ∧
      ∀ i, p.routine = .worker i →
        Vacancy w w' i ∧ ((w'.informer i).worker = some v ∨ w'.Outlasts t i v)
  worker : ∀ i v, (w.informer i).worker = some v → (w'.informer i).worker = some v ∨
    w.loop.ended v = true ∨ w'.Outlasts t i v
  items : about = none → ∀ i, (w'.informer i).cache.items = (w.informer i).cache.items

/-- What comes of a step of a task with a routine. -/
structure Staffs (t : TaskId) (r : Routine) (asks : FactoryId → ResourceId → Prop)
    (about : Option (String × String)) (w w' : World) : Prop
    extends Employs t r asks about w w' where
  settles : Settles t w.loop w'.loop

/-- A task goes on with its routine. -/
def Runs (w : World) (asks : FactoryId → ResourceId → Prop) (t : TaskId) (r : Routine) : Prop :=
  ∃ p, w.loop.standing t = some (p, none) ∧ p.routine = r ∧ p.Asks asks

theorem Runs.lt (h : w.Runs asks t r) : t < w.loop.tasks.length := by
  obtain ⟨p, hp, -⟩ := h
  exact Loop.lt_of_standing hp

theorem Engages.runs (h : Engages asks shuts about w w') (ht : w.Runs asks t r) :
    w'.Runs asks t r := by
  obtain ⟨p, hp, hr⟩ := id ht
  exact ⟨p, (h.old t ht.lt).trans hp, hr⟩

theorem ended_of_standing {s : Point × Option (Ending Report)}
    (h : w.loop.standing v = some s) : w.loop.ended v = s.2.isSome := by
  rw [Loop.standing] at h
  obtain ⟨a, ha, rfl⟩ := Option.map_eq_some_iff.1 h
  exact Loop.ended_of_task? ha

/-- Who had ended before something was done on the way, or was not there, is who has ended then,
but for those who were made. -/
theorem Engages.ended_back (h : Engages asks shuts about w w') (hended : w'.loop.ended v = true) :
    w.loop.ended v = true := by
  by_cases hv : v < w.loop.tasks.length
  · obtain ⟨a, ha⟩ := Loop.exists_task? hv
    have hs : w.loop.standing v = some (a.point, a.ending) := Loop.standing_of_task? ha
    rw [ended_of_standing ((h.old v hv).trans hs)] at hended
    rw [ended_of_standing hs, hended]
  · rw [Loop.ended, Loop.task?, List.getElem?_eq_none (Nat.le_of_not_lt hv)]

theorem Engages.going (h : Engages asks shuts about w w') (hle : w.loop.tasks.length ≤ v)
    (hlt : v < w'.loop.tasks.length) : w'.loop.ended v = false := by
  obtain ⟨a, ha⟩ := Loop.exists_task? hlt
  have hs : w'.loop.standing v = some (a.point, a.ending) := Loop.standing_of_task? ha
  rw [ended_of_standing hs, (h.made v _ _ hle hs).1]
  rfl

theorem Calls.trans (h : Calls about w w') (h' : Calls about w' x) : Calls about w x := by
  obtain ⟨cs, hcs, habout⟩ := h
  obtain ⟨cs', hcs', habout'⟩ := h'
  refine ⟨cs ++ cs', by rw [hcs', hcs, List.append_assoc], fun c hc => ?_⟩
  exact (List.mem_append.1 hc).elim (habout c) (habout' c)

theorem Calls.of_eq (h : w'.journal.calls = w.journal.calls) : Calls about w w' :=
  ⟨[], by rw [h, List.append_nil], by simp⟩

theorem Vacancy.widen (h : Vacancy w w' i) (hinformers : w'.informers.length ≤ x.informers.length) :
    Vacancy w x i :=
  ⟨Nat.lt_of_lt_of_le h.lt hinformers, h.served⟩

/-- Who has come to be listed on the way is new. -/
theorem Files.vacancy (h : Files asks shuts w w') (hi : Vacancy w' x i) : Vacancy w x i := by
  refine ⟨hi.lt, ?_⟩
  rcases hi.served with hnew | ⟨f, key, hkey⟩
  · exact .inl (Nat.le_trans h.informers hnew)
  · rcases h.new f key i hkey with hold | hnew
    · exact .inr ⟨f, key, hold⟩
    · exact .inl hnew.fresh.1

/-- First what is done on the way, and then more; who was made is left where it is. -/
theorem Engages.enrols (h : Engages asks shuts about w w') (h' : Enrols asks shuts w' x)
    (hothers : ∀ u, w.loop.tasks.length ≤ u → u < w'.loop.tasks.length →
      x.loop.standing u = w'.loop.standing u) : Enrols asks shuts w x where
  toFiles := h.toFiles.trans h'.toFiles
  tasks := Nat.le_trans h.tasks h'.tasks
  starts i v hv := by
    rcases h'.starts i v hv with hold | ⟨hle, hroutine⟩
    · refine (h.starts i v hold).imp_right fun ⟨hle, p, hp, hr⟩ => ?_
      exact ⟨hle, p, (hothers v hle (Loop.lt_of_standing hp)).trans hp, hr⟩
    · exact .inr ⟨Nat.le_trans h.tasks hle, hroutine⟩

theorem Engages.trans (h : Engages asks shuts about w w') (h' : Engages asks shuts about w' x) :
    Engages asks shuts about w x where
  toEnrols := h.enrols h'.toEnrols fun u _ hlt => h'.old u hlt
  calls := h.calls.trans h'.calls
  old u hu := (h'.old u (Nat.lt_of_lt_of_le hu h.tasks)).trans (h.old u hu)
  made u p e hle hp := by
    by_cases hu : u < w'.loop.tasks.length
    · obtain ⟨he, hcontrol, hbegins, hworker⟩ := h.made u p e hle ((h'.old u hu).symm.trans hp)
      refine ⟨he, hcontrol, hbegins, fun i hi => ?_⟩
      obtain ⟨hvacancy, hemployed⟩ := hworker i hi
      refine ⟨hvacancy.widen h'.informers, (h'.worker i u hemployed).resolve_right ?_⟩
      rw [h.going hle hu]
      simp
    · obtain ⟨he, hcontrol, hbegins, hworker⟩ := h'.made u p e (Nat.le_of_not_lt hu) hp
      exact ⟨he, hcontrol, hbegins, fun i hi => (hworker i hi).imp_left h.toFiles.vacancy⟩
  worker i u hu := (h.worker i u hu).elim
    (fun hold => (h'.worker i u hold).imp_right h.ended_back) .inr
  items habout i := (h'.items habout i).trans (h.items habout i)

/-- What is done on the way comes first, and then the rest of a step. -/
theorem Engages.employs (h : Engages asks (r = .control) about w w') (ht : w.Runs asks t r)
    (h' : Employs t r asks about w' x) : Employs t r asks about w x := by
  have hothers : ∀ u, w.loop.tasks.length ≤ u → u < w'.loop.tasks.length →
      x.loop.standing u = w'.loop.standing u := fun u hle hlt =>
    h'.others u (fun heq => Nat.not_lt.2 hle (heq ▸ ht.lt)) hlt
  exact {
    toEnrols := h.enrols h'.toEnrols hothers
    calls := h.calls.trans h'.calls
    own := h'.own
    others := fun u hu hlt =>
      (h'.others u hu (Nat.lt_of_lt_of_le hlt h.tasks)).trans (h.old u hlt)
    made := fun u p e hle hp => by
      by_cases hu : u < w'.loop.tasks.length
      · obtain ⟨he, hcontrol, hbegins, hworker⟩ :=
          h.made u p e hle ((hothers u hle hu).symm.trans hp)
        refine ⟨he, hcontrol, hbegins, fun i hi => ?_⟩
        obtain ⟨hvacancy, hemployed⟩ := hworker i hi
        refine ⟨hvacancy.widen h'.informers,
          (h'.worker i u hemployed).imp_right fun hgone => hgone.resolve_left ?_⟩
        rw [h.going hle hu]
        simp
      · obtain ⟨he, hcontrol, hbegins, hworker⟩ := h'.made u p e (Nat.le_of_not_lt hu) hp
        exact ⟨he, hcontrol, hbegins, fun i hi => (hworker i hi).imp_left h.toFiles.vacancy⟩
    worker := fun i u hu => (h.worker i u hu).elim
      (fun hold => (h'.worker i u hold).imp_right fun hgone => hgone.imp_left h.ended_back)
      fun hended => .inr (.inl hended)
    items := fun habout i => (h'.items habout i).trans (h.items habout i) }

theorem Hires.trans (h : Hires asks shuts about w w') (h' : Hires asks shuts about w' x) :
    Hires asks shuts about w x where
  toEngages := h.toEngages.trans h'.toEngages
  defers := h.defers.trans h'.defers

/-- What is done on the way comes first, and then the rest of a step. -/
theorem Hires.staffs (h : Hires asks (r = .control) about w w') (ht : w.Runs asks t r)
    (hrest : w'.Runs asks t r → Staffs t r asks about w' x) : Staffs t r asks about w x where
  toEmploys := h.toEngages.employs ht (hrest (h.runs ht)).toEmploys
  settles := h.defers.settles (hrest (h.runs ht)).settles

/-! ## On the way -/

/-- Nothing is changed of who watches what, and nobody is moved. -/
theorem Engages.of_idle (h : Idle w w') (hlength : w'.loop.tasks.length = w.loop.tasks.length)
    (hstanding : ∀ v, w'.loop.standing v = w.loop.standing v) :
    Engages asks shuts about w w' where
  toFiles := h.files
  tasks := Nat.le_of_eq hlength.symm
  starts i v hv := .inl (h.worker i ▸ hv)
  calls := .of_eq h.calls
  old v _ := hstanding v
  made v p e hle hp := by
    rw [hstanding] at hp
    exact absurd (Loop.lt_of_standing hp) (Nat.not_lt.2 hle)
  worker i v hv := .inl ((h.worker i).trans hv)
  items _ := h.items

/-- Tasks are woken or called off at most. -/
theorem Hires.of_urges (h : Idle w w') (hloop : Soft w.loop w'.loop)
    (hurges : Urges w.loop w'.loop) : Hires asks shuts about w w' :=
  ⟨.of_idle h hloop.length hloop.standing, hurges.defers⟩

/-- Nothing is done to tasks. -/
theorem Hires.of_loop (h : Idle w w') (hloop : w'.loop = w.loop) : Hires asks shuts about w w' :=
  .of_urges h (hloop ▸ .refl _) (hloop ▸ .refl _)

/-- Nobody is moved or made, and every informer has the worker it had. -/
theorem Hires.of_still (hfiles : Files asks shuts w w') (hloop : w'.loop = w.loop)
    (hcalls : Calls about w w') (hworker : ∀ i, (w'.informer i).worker = (w.informer i).worker)
    (hitems : about = none → ∀ i, (w'.informer i).cache.items = (w.informer i).cache.items) :
    Hires asks shuts about w w' where
  toFiles := hfiles
  tasks := Nat.le_of_eq (by rw [hloop])
  starts i v hv := .inl (hworker i ▸ hv)
  calls := hcalls
  old _ _ := by rw [hloop]
  made v p e hle hp := by
    rw [hloop] at hp
    exact absurd (Loop.lt_of_standing hp) (Nat.not_lt.2 hle)
  worker i v hv := .inl ((hworker i).trans hv)
  items := hitems
  defers := by
    rw [hloop]
    exact .refl _

theorem Hires.refl (w : World) : Hires asks shuts about w w :=
  .of_loop (.refl w) rfl

theorem hires_withLoop (w : World) {g : Loop Point Report → Loop Point Report}
    (h : Soft w.loop (g w.loop)) (hurges : Urges w.loop (g w.loop)) :
    Hires asks shuts about w (w.withLoop g) :=
  .of_urges (.of_eq rfl rfl rfl rfl) h hurges

theorem hires_tell (w : World) (note : Note) : Hires asks shuts about w (w.tell note) :=
  .of_loop (w.idle_tell note) (w.loop_tell note).1

theorem hires_foldl {α : Type} {g : World → α → World}
    (hg : ∀ w a, Hires asks shuts about w (g w a)) (w : World) (as : List α) :
    Hires asks shuts about w (as.foldl g w) := by
  induction as generalizing w with
  | nil => exact .refl w
  | cons a rest ih => exact (hg w a).trans (ih (g w a))

theorem hires_tellAll (w : World) (notes : List Note) :
    Hires asks shuts about w (w.tellAll notes) :=
  hires_foldl hires_tell w notes

theorem hires_record (w : World) (call : ClusterCall)
    (h : call.scope? = none ∨ call.scope? = about) :
    Hires asks shuts about w (w.record call) :=
  .of_still (.of_same rfl (fun _ => .refl _) rfl (Nat.le_refl _) fun _ => ⟨rfl, rfl⟩) rfl
    ⟨[call], rfl, fun _ hc => List.mem_singleton.1 hc ▸ h⟩ (fun _ => rfl) fun _ _ => rfl

/-- A task is made that works for no informer. -/
theorem hires_spawn (w : World) {p : Point} (hp : ∀ i, p.routine ≠ .worker i)
    (hcontrol : p.routine = .control → shuts) (hbegins : p.Begins asks) :
    Hires asks shuts about w (w.spawn p).1 where
  toFiles := .of_same rfl (fun _ => .refl _) rfl (Nat.le_refl _) fun _ => ⟨rfl, rfl⟩
  tasks := tasks_spawn w p
  starts _ _ hv := .inl hv
  calls := .of_eq rfl
  old _ hv := standing_spawn_of_lt hv
  made v q e hle hq := by
    rw [show (w.spawn p).1.loop = (w.loop.spawn p).1 from rfl, Loop.standing_spawn] at hq
    split at hq
    · cases hq
      exact ⟨rfl, hcontrol, hbegins, fun i hi => absurd hi (hp i)⟩
    · exact absurd (Loop.lt_of_standing hq) (Nat.not_lt.2 hle)
  worker _ _ hv := .inl hv
  items _ _ := rfl
  defers := w.loop.defers_spawn p

/-! ## At the end of a step -/

theorem Runs.own {p : Point} (ht : w.Runs asks t r) {l : Loop Point Report}
    (h : Loop.Moves t p w.loop l) : l.standing t = some (p, none) := by
  obtain ⟨q, hq, -⟩ := ht
  rw [h.own, hq]
  rfl

/-- A task moves or ends, and that is all. -/
theorem Staffs.of_touches {l : Loop Point Report}
    {g : Point × Option (Ending Report) → Point × Option (Ending Report)}
    (h : Touches t g w.loop l) (hsettles : Settles t w.loop l)
    (hown : ∃ p e, l.standing t = some (p, e) ∧ p.routine = r ∧ p.Asks asks) :
    Staffs t r asks about w { w with loop := l } where
  toFiles := .of_same rfl (fun _ => .refl _) rfl (Nat.le_refl _) fun _ => ⟨rfl, rfl⟩
  tasks := Nat.le_of_eq h.length.symm
  starts _ _ hv := .inl hv
  calls := .of_eq rfl
  own := hown
  others v hv _ := h.others v hv
  made v p e hle hp := by
    have hlt := Loop.lt_of_standing (l := l) hp
    rw [show l.tasks.length = w.loop.tasks.length from h.length] at hlt
    exact absurd hlt (Nat.not_lt.2 hle)
  worker _ _ hv := .inl hv
  items _ _ := rfl
  settles := hsettles

theorem Staffs.of_moves {l : Loop Point Report} {p : Point} (ht : w.Runs asks t r)
    (h : Loop.Moves t p w.loop l) (hsettles : Settles t w.loop l) (hp : p.routine = r)
    (hasks : p.Asks asks) : Staffs t r asks about w { w with loop := l } :=
  .of_touches h hsettles ⟨p, none, ht.own h, hp, hasks⟩

theorem Staffs.goOn {p : Point} (ht : w.Runs asks t r) (hp : p.routine = r)
    (hasks : p.Asks asks) : Staffs t r asks about w (w.goOn t p) :=
  .of_moves ht (w.loop.moves_goOn t p) (w.loop.settles_goOn t p) hp hasks

theorem Staffs.await {p : Point} (ht : w.Runs asks t r) (hp : p.routine = r)
    (hasks : p.Asks asks) : Staffs t r asks about w (w.await t p) :=
  .of_moves ht (w.loop.moves_suspend t p .signal) (w.loop.settles_suspend t p .signal) hp hasks

theorem Staffs.finish (ht : w.Runs asks t r) (e : Ending Report) :
    Staffs t r asks about w (w.finish t e) := by
  have hends := w.loop.ends_finish t e
  obtain ⟨p, hp, hr⟩ := ht
  exact .of_touches hends (w.loop.settles_finish t e) ⟨p, some e, by rw [hends.own, hp]; rfl, hr⟩

theorem Staffs.report (ht : w.Runs asks t r) (report : Report) :
    Staffs t r asks about w (w.report t report) :=
  .finish ht _

end World

end Simulation

end LiveCluster
