import LiveCluster.Proofs.Simulation.Lives
import Mathlib.Data.List.Basic

/-!
# Which streams are opened

Whatever a task does, the streams that were there stay streams, and the tasks that it makes
come after all others. So what it has opened can be told from the worlds before and after:
`Opens` says which streams that are, in order.
-/

namespace LiveCluster.Simulation

open Loop (Gentle Spares TaskBides)

/-- The stream of which a task at a point takes care. -/
def Point.stream? : Point → Option Stream
  | .stream st _ => some st
  | _ => none

theorem stream?_of_sink? {p : Point} (h : p.sink? = none) : p.stream? = none := by
  cases p with
  | stream st q => cases h
  | _ => rfl

theorem stream?_of_helper {p : Point} (h : p.isHelper = false) : p.stream? = none := by
  cases p with
  | stream st q => cases h
  | _ => rfl

namespace World

variable {w w' x : World} {t v : TaskId} {s : SinkId} {f : Option SinkId} {p : Point}

/-- The stream of which a task takes care. -/
def streamOf (w : World) (v : TaskId) : Option Stream :=
  (w.loop.task? v).bind (·.point.stream?)

/-- The streams among the tasks from one on. -/
def streamsFrom (w : World) (n : Nat) : List (TaskId × Stream) :=
  (List.range' n (w.loop.tasks.length - n)).filterMap fun v => (w.streamOf v).map (v, ·)

/-- The streams that are there stay, and no others are opened but those that are listed. -/
structure Opens (streams : List (TaskId × Stream)) (w w' : World) : Prop where
  tasks : w.loop.tasks.length ≤ w'.loop.tasks.length
  stays : ∀ v, v < w.loop.tasks.length → w'.streamOf v = w.streamOf v
  opened : w'.streamsFrom w.loop.tasks.length = streams

variable {streams more : List (TaskId × Stream)}

theorem Opens.refl (w : World) : Opens [] w w where
  tasks := Nat.le_refl _
  stays _ _ := rfl
  opened := by rw [streamsFrom, Nat.sub_self]; rfl

theorem Opens.trans (h : Opens streams w x) (h' : Opens more x w') :
    Opens (streams ++ more) w w' where
  tasks := Nat.le_trans h.tasks h'.tasks
  stays v hv := (h'.stays v (Nat.lt_of_lt_of_le hv h.tasks)).trans (h.stays v hv)
  opened := by
    have hlength : w'.loop.tasks.length - w.loop.tasks.length =
        (x.loop.tasks.length - w.loop.tasks.length) +
          (w'.loop.tasks.length - x.loop.tasks.length) := by
      have := h.tasks
      have := h'.tasks
      omega
    have hfirst : w.loop.tasks.length + (x.loop.tasks.length - w.loop.tasks.length) =
        x.loop.tasks.length := by
      have := h.tasks
      omega
    rw [streamsFrom, hlength, ← List.range'_append_1, List.filterMap_append, hfirst]
    refine congrArg₂ _ ?_ h'.opened
    rw [← h.opened, streamsFrom]
    refine List.filterMap_congr fun v hv => ?_
    rw [h'.stays v (by have := List.mem_range'_1.1 hv; omega)]

theorem Opens.none_then (h : Opens [] w x) (h' : Opens more x w') : Opens more w w' :=
  h.trans h'

theorem Opens.then_none (h : Opens streams w x) (h' : Opens [] x w') : Opens streams w w' :=
  List.append_nil streams ▸ h.trans h'

/-- No task is made, and those that take care of streams go on doing so. -/
theorem Opens.of_still (hlength : w'.loop.tasks.length = w.loop.tasks.length)
    (hstays : ∀ v, v < w.loop.tasks.length → w'.streamOf v = w.streamOf v) : Opens [] w w' where
  tasks := Nat.le_of_eq hlength.symm
  stays := hstays
  opened := by rw [streamsFrom, hlength, Nat.sub_self]; rfl

theorem streamOf_eq {a b : Task Point Report} (ha : w.loop.task? v = some a)
    (hb : w'.loop.task? v = some b) (h : b.point.stream? = a.point.stream?) :
    w'.streamOf v = w.streamOf v := by
  rw [streamOf, streamOf, ha, hb]
  exact h

/-- No task is touched but one, which takes care of no stream. -/
theorem Opens.of_spares (h : Spares (· = t) w.loop w'.loop)
    (ht : ∀ a b, w.loop.task? t = some a → w'.loop.task? t = some b →
      b.point.stream? = a.point.stream?) : Opens [] w w' := by
  refine .of_still h.length fun v hv => ?_
  by_cases hvt : v = t
  · subst hvt
    obtain ⟨a, ha⟩ := Loop.exists_task? hv
    obtain ⟨b, hb⟩ := Loop.exists_task? (h.length ▸ hv)
    exact streamOf_eq ha hb (ht a b ha hb)
  · obtain ⟨a, ha⟩ := Loop.exists_task? hv
    obtain ⟨b, hb, heases⟩ := h.eases v a hvt ha
    exact streamOf_eq ha hb (by rw [heases.point])

/-- The tasks at most bide. -/
theorem Opens.of_bides (hlength : w'.loop.tasks.length = w.loop.tasks.length)
    (h : ∀ v a, w.loop.task? v = some a → ∃ b, w'.loop.task? v = some b ∧ TaskBides a b) :
    Opens [] w w' := by
  refine .of_still hlength fun v hv => ?_
  obtain ⟨a, ha⟩ := Loop.exists_task? hv
  obtain ⟨b, hb, hab⟩ := h v a ha
  exact streamOf_eq ha hb (by rw [hab.point])

theorem Opens.of_gentle (h : Gentle w.loop w'.loop) : Opens [] w w' :=
  .of_bides h.length fun v a ha => by
    obtain ⟨b, hb, hab⟩ := h.eases v a (fun h => h) ha
    exact ⟨b, hb, hab.bides⟩

/-- The tasks that are made work at no sink. -/
theorem Opens.of_mild (h : Mild none w w') : Opens [] w w' where
  tasks := h.tasks
  stays v hv := by
    obtain ⟨a, ha⟩ := Loop.exists_task? hv
    obtain ⟨b, hb, heases⟩ := h.eases v a ha
    exact streamOf_eq ha hb (by rw [heases.point])
  opened := by
    refine List.filterMap_eq_nil_iff.2 fun v hv => ?_
    have hlt : v < w'.loop.tasks.length :=
      Nat.lt_of_lt_of_eq (List.mem_range'_1.1 hv).2 (Nat.add_sub_cancel' h.tasks)
    obtain ⟨b, hb⟩ := Loop.exists_task? hlt
    have hsink := (h.made v b (List.mem_range'_1.1 hv).1 hb).1
    rw [streamOf, hb]
    show Option.map _ (Point.stream? _) = none
    rw [stream?_of_sink? (hsink.elim id id)]
    rfl

theorem Opens.spawn (w : World) (p : Point) :
    Opens (p.stream?.map (w.loop.tasks.length, ·)).toList w (w.spawn p).1 where
  tasks := by
    show w.loop.tasks.length ≤ (w.loop.tasks ++ [_]).length
    simp
  stays v hv := by
    obtain ⟨a, ha⟩ := Loop.exists_task? hv
    exact streamOf_eq ha (((w.loop.task?_spawn p v).trans (if_neg (Nat.ne_of_lt hv))).trans ha) rfl
  opened := by
    have hlength : (w.spawn p).1.loop.tasks.length - w.loop.tasks.length = 1 := by
      show (w.loop.tasks ++ [_]).length - _ = 1
      simp
    have hstream : (w.spawn p).1.streamOf w.loop.tasks.length = p.stream? := by
      rw [streamOf]
      show ((w.loop.spawn p).1.task? w.loop.tasks.length).bind _ = _
      rw [Loop.task?_spawn, if_pos rfl]
      rfl
    rw [streamsFrom, hlength, List.range'_one, List.filterMap_cons, hstream]
    cases p.stream? <;> rfl

/-- The streams of a tail are opened in the order of their targets. -/
theorem opens_spawnStreams (w : World) (call : TailCall) (targets : List TailTarget) :
    ∃ streams, Opens streams w (w.spawnStreams call targets).1 ∧
      (w.spawnStreams call targets).2 = streams.map (·.1) ∧
      streams.map (·.2) = targets.map fun target => ⟨call.sink, target, call.options⟩ := by
  induction targets generalizing w with
  | nil => exact ⟨[], .refl w, rfl, rfl⟩
  | cons target rest ih =>
      let first : Stream := ⟨call.sink, target, call.options⟩
      obtain ⟨streams, hopens, hids, htargets⟩ := ih (w.spawn (.stream first .opening)).1
      exact ⟨(w.loop.tasks.length, first) :: streams,
        (Opens.spawn w (.stream first .opening)).trans hopens, congrArg _ hids,
        congrArg _ htargets⟩

end World

end LiveCluster.Simulation
