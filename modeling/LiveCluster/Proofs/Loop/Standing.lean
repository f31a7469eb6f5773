import LiveCluster.Loop.Channel

/-!
# What the loop does to a task

Most of what the loop does changes how a task waits, or who is told of its end, and not
where it stands. `Soft` is said of that. The rest is done by a task to itself: it moves
to another point or ends, and `Touches` is said of that. Neither starts a timer that
will establish a watch; the one place that does is the worker's.

Nothing here looks at the order of the queue.
-/

namespace LiveCluster.Loop

variable {π ρ : Type}

/-- Where a task stands, and how it ended if it has. -/
def standing (l : Loop π ρ) (t : TaskId) : Option (π × Option (Ending ρ)) :=
  (l.task? t).map fun task => (task.point, task.ending)

/-- Whether a timer will establish the watch of an informer. -/
def arms (l : Loop π ρ) (id : TimerId) (informer : Nat) : Prop :=
  ∃ timer, (id, timer) ∈ l.timers ∧ timer.alarm = .establish informer

theorem lt_of_task? {l : Loop π ρ} {t : TaskId} {a : Task π ρ} (ha : l.task? t = some a) :
    t < l.tasks.length :=
  (List.getElem?_eq_some_iff.1 ha).1

/-- A task that is there is not the next one to be made. -/
theorem ne_next_of_task? {l : Loop π ρ} {t : TaskId} {a : Task π ρ} (ha : l.task? t = some a) :
    t ≠ l.tasks.length :=
  Nat.ne_of_lt (lt_of_task? ha)

theorem exists_task? {l : Loop π ρ} {t : TaskId} (ht : t < l.tasks.length) :
    ∃ a, l.task? t = some a :=
  ⟨_, List.getElem?_eq_getElem ht⟩

theorem task?_congr {l l' : Loop π ρ} (h : l'.tasks = l.tasks) (t : TaskId) :
    l'.task? t = l.task? t := by
  rw [task?, h, ← task?]

theorem standing_of_task? {l : Loop π ρ} {t : TaskId} {a : Task π ρ} (ha : l.task? t = some a) :
    l.standing t = some (a.point, a.ending) := by
  rw [standing, ha]
  rfl

theorem lt_of_standing {l : Loop π ρ} {t : TaskId} {s : π × Option (Ending ρ)}
    (h : l.standing t = some s) : t < l.tasks.length := by
  obtain ⟨a, ha, -⟩ := Option.map_eq_some_iff.1 h
  exact lt_of_task? ha

/-- A task that stands nowhere was not made. -/
theorem le_of_standing_eq_none {l : Loop π ρ} {t : TaskId} (h : l.standing t = none) :
    l.tasks.length ≤ t := by
  refine Nat.le_of_not_lt fun hlt => ?_
  obtain ⟨a, ha⟩ := exists_task? hlt
  rw [standing_of_task? ha] at h
  cases h

theorem ended_eq_false_iff {l : Loop π ρ} {t : TaskId} :
    l.ended t = false ↔ ∃ p, l.standing t = some (p, none) := by
  unfold ended standing
  cases l.task? t with
  | none => simp
  | some task => simp

/-- Every task stands where it stood. -/
structure Soft (l l' : Loop π ρ) : Prop where
  length : l'.tasks.length = l.tasks.length
  standing : ∀ t, l'.standing t = l.standing t
  arms : ∀ id i, l'.arms id i → l.arms id i

/-- Every task but one stands where it stood. -/
structure Touches (t : TaskId) (f : π × Option (Ending ρ) → π × Option (Ending ρ))
    (l l' : Loop π ρ) : Prop where
  length : l'.tasks.length = l.tasks.length
  own : l'.standing t = (l.standing t).map f
  others : ∀ u, u ≠ t → l'.standing u = l.standing u
  arms : ∀ id i, l'.arms id i → l.arms id i

/-- A task goes to a point. -/
abbrev Moves (t : TaskId) (p : π) (l l' : Loop π ρ) : Prop :=
  Touches t (fun s => (p, s.2)) l l'

/-- A task ends. -/
abbrev Ends (t : TaskId) (e : Ending ρ) (l l' : Loop π ρ) : Prop :=
  Touches t (fun s => (s.1, some e)) l l'

theorem Soft.refl (l : Loop π ρ) : Soft l l :=
  ⟨rfl, fun _ => rfl, fun _ _ h => h⟩

theorem Soft.trans {l m n : Loop π ρ} (h : Soft l m) (h' : Soft m n) : Soft l n where
  length := h'.length.trans h.length
  standing t := (h'.standing t).trans (h.standing t)
  arms id i ha := h.arms id i (h'.arms id i ha)

theorem Touches.soft {t : TaskId} {f : π × Option (Ending ρ) → π × Option (Ending ρ)}
    {l m n : Loop π ρ} (h : Touches t f l m) (h' : Soft m n) : Touches t f l n where
  length := h'.length.trans h.length
  own := (h'.standing t).trans h.own
  others u hu := (h'.standing u).trans (h.others u hu)
  arms id i ha := h.arms id i (h'.arms id i ha)

theorem Soft.touches {t : TaskId} {f : π × Option (Ending ρ) → π × Option (Ending ρ)}
    {l m n : Loop π ρ} (h : Soft l m) (h' : Touches t f m n) : Touches t f l n where
  length := h'.length.trans h.length
  own := by rw [h'.own, h.standing]
  others u hu := (h'.others u hu).trans (h.standing u)
  arms id i ha := h.arms id i (h'.arms id i ha)

theorem Soft.touches_id {l l' : Loop π ρ} (h : Soft l l') (t : TaskId) : Touches t id l l' where
  length := h.length
  own := by rw [h.standing, Option.map_id]; rfl
  others u _ := h.standing u
  arms := h.arms

/-- Tasks and timers are all that counts. -/
theorem soft_of_eq {l l' : Loop π ρ} (htasks : l'.tasks = l.tasks)
    (htimers : l'.timers = l.timers) : Soft l l' where
  length := by rw [htasks]
  standing t := by rw [Loop.standing, Loop.standing, task?, task?, htasks]
  arms id i h := by
    obtain ⟨timer, hmem, halarm⟩ := h
    exact ⟨timer, htimers ▸ hmem, halarm⟩

theorem standing_modify (l : Loop π ρ) (t u : TaskId) (f : Task π ρ → Task π ρ) :
    (l.modify t f).standing u =
      if t = u then (l.task? u).map fun task => ((f task).point, (f task).ending)
      else l.standing u := by
  unfold standing task? modify
  rw [List.getElem?_modify]
  split
  · cases l.tasks[u]? <;> rfl
  · cases l.tasks[u]? <;> rfl

theorem length_modify (l : Loop π ρ) (t : TaskId) (f : Task π ρ → Task π ρ) :
    (l.modify t f).tasks.length = l.tasks.length :=
  List.length_modify ..

/-- Changing how a task waits leaves it where it stands. -/
theorem soft_modify (l : Loop π ρ) (t : TaskId) {f : Task π ρ → Task π ρ}
    (hf : ∀ task, (f task).point = task.point ∧ (f task).ending = task.ending) :
    Soft l (l.modify t f) where
  length := l.length_modify t f
  standing u := by
    rw [standing_modify]
    split
    · unfold Loop.standing
      cases l.task? u with
      | none => rfl
      | some task =>
          obtain ⟨hpoint, hending⟩ := hf task
          show some ((f task).point, (f task).ending) = some (task.point, task.ending)
          rw [hpoint, hending]
    · rfl
  arms _ _ h := h

theorem touches_modify (l : Loop π ρ) (t : TaskId) {f : Task π ρ → Task π ρ}
    {g : π × Option (Ending ρ) → π × Option (Ending ρ)}
    (hf : ∀ task, ((f task).point, (f task).ending) = g (task.point, task.ending)) :
    Touches t g l (l.modify t f) where
  length := l.length_modify t f
  own := by
    rw [standing_modify, if_pos rfl]
    unfold Loop.standing
    cases l.task? t with
    | none => rfl
    | some task => exact congrArg some (hf task)
  others u hu := by rw [standing_modify, if_neg hu.symm]
  arms _ _ h := h

/-! ## Signals and cancellation -/

theorem soft_schedule (l : Loop π ρ) (job : Job) : Soft l (l.schedule job) :=
  soft_of_eq rfl rfl

theorem soft_modify_schedule (l : Loop π ρ) (t : TaskId) (job : Job) {f : Task π ρ → Task π ρ}
    (hf : ∀ task, (f task).point = task.point ∧ (f task).ending = task.ending) :
    Soft l ((l.modify t f).schedule job) :=
  (l.soft_modify t hf).trans (soft_schedule _ job)

theorem soft_scheduleAll (l : Loop π ρ) (jobs : List Job) : Soft l (l.scheduleAll jobs) :=
  soft_of_eq rfl rfl

theorem soft_wake (l : Loop π ρ) (t : TaskId) : Soft l (l.wake t) := by
  unfold wake
  split
  · exact l.soft_modify_schedule t _ fun _ => ⟨rfl, rfl⟩
  · exact .refl l

theorem soft_foldl {α : Type} {f : Loop π ρ → α → Loop π ρ} (hf : ∀ l a, Soft l (f l a))
    (l : Loop π ρ) (as : List α) : Soft l (as.foldl f l) := by
  induction as generalizing l with
  | nil => exact .refl l
  | cons a rest ih => exact (hf l a).trans (ih (f l a))

theorem soft_wakeAll (l : Loop π ρ) (ts : List TaskId) : Soft l (l.wakeAll ts) :=
  soft_foldl soft_wake l ts

theorem soft_wakeFirst (l : Loop π ρ) (ts : List TaskId) : Soft l (l.wakeFirst ts).1 := by
  induction ts with
  | nil => exact .refl l
  | cons t rest ih =>
      unfold wakeFirst
      split
      · exact l.soft_wake t
      · exact ih

theorem soft_leaveWord (l : Loop π ρ) (t : TaskId) : Soft l (l.leaveWord t) :=
  l.soft_modify t fun _ => ⟨rfl, rfl⟩

theorem soft_drop (l : Loop π ρ) (t : TaskId) : Soft l (l.drop t) := by
  unfold drop
  split
  · exact .refl l
  · split
    · exact l.soft_modify_schedule t _ fun _ => ⟨rfl, rfl⟩
    · exact l.soft_leaveWord t

theorem soft_cancel (l : Loop π ρ) (t : TaskId) : Soft l (l.cancel t) := by
  unfold cancel
  split
  · exact .refl l
  · split
    · split
      · exact l.soft_leaveWord t
      · exact (l.soft_drop _).trans (soft_modify _ t fun _ => ⟨rfl, rfl⟩)
    · split
      · exact l.soft_leaveWord t
      · exact (soft_foldl soft_drop l _).trans (soft_modify _ t fun _ => ⟨rfl, rfl⟩)
    · exact l.soft_drop t

/-! ## Watchers -/

theorem soft_addWatcher (l : Loop π ρ) (t : TaskId) (w : Watcher) : Soft l (l.addWatcher t w) :=
  l.soft_modify t fun _ => ⟨rfl, rfl⟩

theorem soft_watchOne (t : TaskId) (turn : Nat) (l : Loop π ρ) (other : TaskId) :
    Soft l (watchOne t turn l other) := by
  unfold watchOne
  split
  · exact l.soft_schedule _
  · exact l.soft_addWatcher _ _

theorem soft_unwatch (l : Loop π ρ) (t : TaskId) (others : List TaskId) :
    Soft l (l.unwatch t others) := by
  unfold unwatch
  apply soft_foldl
  intro l other
  exact l.soft_modify other fun _ => ⟨rfl, rfl⟩

theorem soft_notify (l : Loop π ρ) (t : TaskId) (turn : Nat) : Soft l (l.notify t turn) := by
  unfold notify
  split
  · exact l.soft_wake t
  · exact .refl l

theorem soft_tick (l : Loop π ρ) (t : TaskId) : Soft l (l.tick t) := by
  unfold tick
  split
  · exact .refl l
  · split
    · dsimp only
      split
      · exact l.soft_modify_schedule t _ fun _ => ⟨rfl, rfl⟩
      · exact l.soft_modify t fun _ => ⟨rfl, rfl⟩
    · exact .refl l

/-! ## Going on and ending -/

theorem moves_suspend (l : Loop π ρ) (t : TaskId) (p : π) (wait : Wait) :
    Moves t p l (l.suspend t p wait) :=
  l.touches_modify t fun _ => rfl

theorem moves_goOn (l : Loop π ρ) (t : TaskId) (p : π) : Moves t p l (l.goOn t p) :=
  (l.touches_modify t fun _ => rfl).soft (soft_of_eq rfl rfl)

theorem moves_giveWay (l : Loop π ρ) (t : TaskId) (p : π) : Moves t p l (l.giveWay t p) :=
  (l.moves_suspend t p .none).soft (soft_schedule _ _)

theorem moves_awaitTask (l : Loop π ρ) (t : TaskId) (p : π) (other : TaskId) :
    Moves t p l (l.awaitTask t p other) :=
  (l.moves_suspend t p _).soft (soft_addWatcher _ _ _)

theorem moves_awaitAny (l : Loop π ρ) (t : TaskId) (p : π) (others : List TaskId) :
    Moves t p l (l.awaitAny t p others) :=
  (l.moves_suspend t p _).soft (soft_foldl (soft_watchOne t _) _ others)

theorem moves_awaitGroup (l : Loop π ρ) (t : TaskId) (p : π) (members : List TaskId) :
    Moves t p l (l.awaitGroup t p members) :=
  (l.moves_suspend t p _).soft (soft_foldl (fun l m => l.soft_addWatcher m (.member t)) _ _)

theorem ends_finish (l : Loop π ρ) (t : TaskId) (e : Ending ρ) : Ends t e l (l.finish t e) := by
  unfold finish
  cases h : l.task? t with
  | none =>
      exact {
        length := rfl
        own := by rw [Loop.standing, h]; rfl
        others := fun _ _ => rfl
        arms := fun _ _ h => h }
  | some task => exact (l.touches_modify t fun _ => rfl).soft (soft_scheduleAll _ _)

theorem arrive_standing {l l' : Loop π ρ} {t : TaskId} {p : π} {a : Arrival}
    (h : l.arrive t = some (l', p, a)) : l.standing t = some (p, none) ∧ Soft l l' := by
  unfold arrive at h
  cases ht : l.task? t with
  | none => rw [ht] at h; cases h
  | some task =>
      rw [ht] at h
      dsimp only at h
      split at h
      · cases h
      · next hending =>
          cases h
          refine ⟨?_, l.soft_modify t fun _ => ⟨rfl, rfl⟩⟩
          rw [Loop.standing, ht]
          cases he : task.ending with
          | none => rw [Option.map_some, he]
          | some e => exact absurd (by rw [he]; rfl) hending

theorem task?_spawn (l : Loop π ρ) (p : π) (t : TaskId) :
    (l.spawn p).1.task? t = if t = l.tasks.length then some { point := p } else l.task? t := by
  unfold task? spawn
  dsimp only
  split
  · next h => rw [h, List.getElem?_append_right (Nat.le_refl _), Nat.sub_self]; rfl
  · next h =>
      by_cases hlt : t < l.tasks.length
      · rw [List.getElem?_append_left hlt]
      · have hover : l.tasks.length + 1 ≤ t :=
          Nat.lt_of_le_of_ne (Nat.le_of_not_lt hlt) (Ne.symm h)
        rw [List.getElem?_eq_none (Nat.le_of_not_lt hlt),
          List.getElem?_eq_none (by simpa using hover)]

theorem standing_spawn (l : Loop π ρ) (p : π) (t : TaskId) :
    (l.spawn p).1.standing t = if t = l.tasks.length then some (p, none) else l.standing t := by
  rw [standing, task?_spawn]
  split
  · rfl
  · rfl

/-! ## Timers -/

/-- The timers of a round are those that were running, of which some have come due. -/
theorem mem_timers_beginRound {l : Loop π ρ} {id : TimerId} {timer : Timer}
    (h : (id, timer) ∈ l.beginRound.timers) :
    ∃ timer', (id, timer') ∈ l.timers ∧ timer'.alarm = timer.alarm := by
  rw [beginRound, List.mem_map] at h
  obtain ⟨⟨id', timer'⟩, hmem, heq⟩ := h
  dsimp only at heq
  split at heq <;> cases heq <;> exact ⟨_, hmem, rfl⟩

theorem mem_of_lookup {id : TimerId} {timer : Timer} {timers : List (TimerId × Timer)}
    (h : timers.lookup id = some timer) : (id, timer) ∈ timers := by
  induction timers with
  | nil => cases h
  | cons entry rest ih =>
      rw [List.lookup_cons] at h
      split at h
      · next heq =>
          cases h
          rw [beq_iff_eq] at heq
          exact heq ▸ List.mem_cons_self
      · exact List.mem_cons_of_mem _ (ih h)

theorem arms_cancelTimer {l : Loop π ρ} {id id' : TimerId} {i : Nat}
    (h : (l.cancelTimer id).arms id' i) : l.arms id' i ∧ id' ≠ id := by
  obtain ⟨timer, hmem, halarm⟩ := h
  rw [cancelTimer, List.mem_filter] at hmem
  exact ⟨⟨timer, hmem.1, halarm⟩, by simpa using hmem.2⟩

theorem soft_cancelTimer (l : Loop π ρ) (id : TimerId) : Soft l (l.cancelTimer id) where
  length := rfl
  standing _ := rfl
  arms _ _ h := (arms_cancelTimer h).1

theorem arms_startTimer {l : Loop π ρ} {delay : Float} {alarm : Alarm} {id : TimerId} {i : Nat}
    (h : (l.startTimer delay alarm).1.arms id i) :
    l.arms id i ∨ id = l.nextTimer ∧ alarm = .establish i := by
  obtain ⟨timer, hmem, halarm⟩ := h
  rw [startTimer, List.mem_append, List.mem_singleton] at hmem
  rcases hmem with hmem | heq
  · exact .inl ⟨timer, hmem, halarm⟩
  · cases heq
    exact .inr ⟨rfl, halarm⟩

theorem soft_startTimer (l : Loop π ρ) (delay : Float) (alarm : Alarm)
    (h : ∀ i, alarm ≠ .establish i) : Soft l (l.startTimer delay alarm).1 where
  length := rfl
  standing _ := rfl
  arms _ i ha := (arms_startTimer ha).resolve_right fun hnew => h i hnew.2

theorem soft_alarmNow (l : Loop π ρ) (alarm : Alarm) (h : ∀ i, alarm ≠ .establish i) :
    Soft l (l.alarmNow alarm).1 where
  length := rfl
  standing _ := rfl
  arms _ i ha := by
    obtain ⟨timer, hmem, halarm⟩ := ha
    rw [alarmNow, List.mem_append, List.mem_singleton] at hmem
    rcases hmem with hmem | heq
    · exact ⟨timer, hmem, halarm⟩
    · cases heq
      exact absurd halarm (h i)

theorem soft_beginLimit (l : Loop π ρ) (t : TaskId) (delay : Float) :
    Soft l (l.beginLimit t delay) := by
  unfold beginLimit
  split
  next l' _ h =>
    have hl : Soft l l' := by
      split at h
      · have hnow := l.soft_alarmNow (.expire t) (by simp)
        rwa [h] at hnow
      · have hstart := l.soft_startTimer delay (.expire t) (by simp)
        rwa [h] at hstart
    exact hl.trans (l'.soft_modify t fun _ => ⟨rfl, rfl⟩)

theorem soft_expire (l : Loop π ρ) (t : TaskId) : Soft l (l.expire t) :=
  (l.soft_cancel t).trans (soft_modify _ t fun _ => ⟨rfl, rfl⟩)

theorem soft_endLimit (l : Loop π ρ) (t : TaskId) (cancelled : Bool) :
    Soft l (l.endLimit t cancelled).1 := by
  unfold endLimit
  split
  · exact .refl l
  · split
    · exact .refl l
    · next limit _ =>
        have hended : Soft l ((l.cancelTimer limit.timer).modify t fun task =>
            { task with limit := none }) :=
          (l.soft_cancelTimer _).trans (soft_modify _ t fun _ => ⟨rfl, rfl⟩)
        dsimp only
        split
        · exact hended.trans (soft_modify _ t fun _ => ⟨rfl, rfl⟩)
        · exact hended

theorem soft_beginRound (l : Loop π ρ) : Soft l l.beginRound where
  length := rfl
  standing _ := rfl
  arms id i h := by
    obtain ⟨timer, hmem, halarm⟩ := h
    obtain ⟨timer', hmem', hsame⟩ := mem_timers_beginRound hmem
    exact ⟨timer', hmem', hsame.trans halarm⟩

/-- An alarm is taken from a timer that was running, and that timer is gone. -/
theorem takeAlarm?_spec {l l' : Loop π ρ} {id : TimerId} {alarm : Alarm}
    (h : l.takeAlarm? id = some (alarm, l')) :
    l' = l.cancelTimer id ∧ ∀ i, alarm = .establish i → l.arms id i := by
  unfold takeAlarm? at h
  cases hlookup : l.timers.lookup id with
  | none => rw [hlookup] at h; cases h
  | some timer =>
      rw [hlookup] at h
      cases h
      exact ⟨rfl, fun i hi => ⟨timer, mem_of_lookup hlookup, hi⟩⟩

end LiveCluster.Loop

/-! ## Channels -/

namespace LiveCluster.Channel

open Loop (Soft)

variable {α π ρ : Type}

theorem soft_serveTaker (c : Channel α) (l : Loop π ρ) : Soft l (c.serveTaker l).2 :=
  l.soft_wakeFirst c.takers

theorem soft_serveGiver (c : Channel α) (l : Loop π ρ) : Soft l (c.serveGiver l).2 :=
  l.soft_wakeFirst c.givers

theorem soft_give (c : Channel α) (l : Loop π ρ) (item : α) : Soft l (c.give l item).2 :=
  soft_serveTaker _ l

theorem soft_take? {c c' : Channel α} {l l' : Loop π ρ} {item : α}
    (h : c.take? l = some (item, c', l')) : Soft l l' := by
  unfold take? at h
  split at h
  · cases h
  · cases h
    exact soft_serveGiver _ l

theorem soft_leaveTakers (c : Channel α) (l : Loop π ρ) (t : TaskId) (woken : Bool) :
    Soft l (c.leaveTakers l t woken).2 := by
  unfold leaveTakers
  dsimp only
  split
  · exact soft_serveTaker _ l
  · exact .refl l

theorem soft_leaveGivers (c : Channel α) (l : Loop π ρ) (t : TaskId) (woken : Bool) :
    Soft l (c.leaveGivers l t woken).2 := by
  unfold leaveGivers
  dsimp only
  split
  · exact soft_serveGiver _ l
  · exact .refl l

end LiveCluster.Channel
