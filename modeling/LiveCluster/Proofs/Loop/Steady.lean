import LiveCluster.Proofs.Loop.Waiting

/-!
# Tasks that go on as planned

A task that nobody has cancelled, and that has no time limit, goes on as planned when it
next goes on, whatever it was that let it go on. `StandsAt` is said of such a task and its
point. Being cancelled makes a task `Doomed`: when it goes on next it hears of that.
-/

namespace LiveCluster

/-- Whether a wait was not called off, and is not for another task that may be cancelled. -/
def Wait.isSteady : Wait → Bool
  | .dropped | .task _ => false
  | .group _ _ calledOff => !calledOff
  | _ => true

theorem Wait.Eases.isSteady {a b : Wait} (h : a.Eases b) : b.isSteady = a.isSteady := by
  cases h <;> rfl

namespace Loop

variable {π ρ : Type} {l l' : Loop π ρ} {t v : TaskId} {p q : π} {a b : Task π ρ}

structure Steady (a : Task π ρ) : Prop where
  mustCancel : a.mustCancel = false
  limit : a.limit = none
  wait : a.wait.isSteady = true

theorem Steady.eases (h : Steady a) (heases : TaskEases a b) : Steady b where
  mustCancel := heases.mustCancel.trans h.mustCancel
  limit := heases.limit.trans h.limit
  wait := heases.wait.isSteady.trans h.wait

theorem Steady.arrival (h : Steady a) (l : Loop π ρ) : l.arrival a = .on := by
  have hwait := h.wait
  unfold Loop.arrival
  rw [h.mustCancel]
  cases hw : a.wait with
  | none | signal | woken => rfl
  | dropped | task _ => rw [hw] at hwait; cases hwait
  | group members n calledOff =>
      rw [hw] at hwait
      cases calledOff with
      | false => rfl
      | true => cases hwait

/-- A task stands at a point, to go on as planned. -/
def StandsAt (l : Loop π ρ) (t : TaskId) (p : π) : Prop :=
  ∃ a, l.task? t = some a ∧ a.point = p ∧ a.ending = none ∧ Steady a

/-- A task has ended, from a point. -/
def EndedAt (l : Loop π ρ) (t : TaskId) (p : π) (e : Ending ρ) : Prop :=
  ∃ a, l.task? t = some a ∧ a.point = p ∧ a.ending = some e ∧ a.wait.isPlain = true ∧
    a.limit = none

theorem StandsAt.point_eq (h : l.StandsAt t p) (ha : l.task? t = some a) :
    a.point = p ∧ a.ending = none ∧ Steady a := by
  obtain ⟨a', ha', hpoint⟩ := h
  cases ha.symm.trans ha'
  exact hpoint

theorem EndedAt.point_eq {e : Ending ρ} (h : l.EndedAt t p e) (ha : l.task? t = some a) :
    a.point = p ∧ a.ending = some e ∧ a.wait.isPlain = true ∧ a.limit = none := by
  obtain ⟨a', ha', hpoint⟩ := h
  cases ha.symm.trans ha'
  exact hpoint

theorem StandsAt.unique (h : l.StandsAt t p) (h' : l.StandsAt t q) : p = q := by
  obtain ⟨a, ha, rfl, -⟩ := h
  exact (h'.point_eq ha).1

theorem StandsAt.lt (h : l.StandsAt t p) : t < l.tasks.length := by
  obtain ⟨a, ha, -⟩ := h
  exact lt_of_task? ha

theorem ended_of_task? (ha : l.task? t = some a) : l.ended t = a.ending.isSome := by
  rw [ended, ha]

theorem ending?_of_task? (ha : l.task? t = some a) : l.ending? t = a.ending := by
  rw [Loop.ending?, ha]
  rfl

theorem ended_of_ending? {e : Ending ρ} (h : l.ending? t = some e) : l.ended t = true := by
  obtain ⟨a, ha, hending⟩ := Option.bind_eq_some_iff.1 h
  rw [ended_of_task? ha, hending]
  rfl

/-- Who goes on has not ended. -/
theorem ending?_ne_some {e : Ending ρ} (ha : l.task? t = some a) (hgoing : a.ending = none) :
    l.ending? t ≠ some e := by
  rw [ending?_of_task? ha, hgoing]
  exact Option.some_ne_none e |>.symm

theorem StandsAt.not_ended (h : l.StandsAt t p) : l.ended t = false := by
  obtain ⟨a, ha, -, hending, -⟩ := h
  rw [ended_of_task? ha, hending]
  rfl

theorem EndedAt.ended {e : Ending ρ} (h : l.EndedAt t p e) : l.ended t = true := by
  obtain ⟨a, ha, -, hending, -⟩ := h
  rw [ended_of_task? ha, hending]
  rfl

theorem EndedAt.ending? {e : Ending ρ} (h : l.EndedAt t p e) : l.ending? t = some e := by
  obtain ⟨a, ha, -, hending, -⟩ := h
  rw [Loop.ending?, ha]
  exact hending

theorem StandsAt.ending? (h : l.StandsAt t p) : l.ending? t = none := by
  obtain ⟨a, ha, -, hending, -⟩ := h
  rw [Loop.ending?, ha]
  exact hending

/-- A task stands at a point or has ended from there. -/
def Rests (l : Loop π ρ) (t : TaskId) (p : π) : Prop :=
  l.StandsAt t p ∨ ∃ e, l.EndedAt t p e

theorem Rests.point_eq (h : l.Rests t p) (ha : l.task? t = some a) : a.point = p :=
  h.elim (fun h => (h.point_eq ha).1) fun ⟨_, h⟩ => (h.point_eq ha).1

/-! ## What happens to others -/

theorem StandsAt.of_eases (h : l.StandsAt t p)
    (heases : ∀ a, l.task? t = some a → ∃ b, l'.task? t = some b ∧ TaskEases a b) :
    l'.StandsAt t p := by
  obtain ⟨a, ha, hpoint, hending, hsteady⟩ := h
  obtain ⟨b, hb, hab⟩ := heases a ha
  exact ⟨b, hb, hab.point.trans hpoint, hab.ending.trans hending, hsteady.eases hab⟩

theorem StandsAt.spares {hit : TaskId → Prop} (h : l.StandsAt t p) (hl : Spares hit l l')
    (ht : ¬hit t) : l'.StandsAt t p :=
  h.of_eases fun a => hl.eases t a ht

theorem StandsAt.gentle (h : l.StandsAt t p) (hl : Gentle l l') : l'.StandsAt t p :=
  h.spares hl fun h => h

theorem EndedAt.of_stays {e : Ending ρ} (h : l.EndedAt t p e)
    (hstays : ∀ a, l.task? t = some a → ∃ b, l'.task? t = some b ∧ TaskStays a b) :
    l'.EndedAt t p e := by
  obtain ⟨a, ha, hpoint, hending, hplain, hlimit⟩ := h
  obtain ⟨b, hb, hab⟩ := hstays a ha
  exact ⟨b, hb, hab.point.trans hpoint, hab.ending.trans hending, hab.plain hplain,
    hab.limit hlimit⟩

theorem standsAt_spawn (l : Loop π ρ) (p : π) : (l.spawn p).1.StandsAt l.tasks.length p :=
  ⟨{ point := p }, (l.task?_spawn p _).trans (if_pos rfl), rfl, rfl, rfl, rfl, rfl⟩

theorem StandsAt.spawn (h : l.StandsAt t p) (q : π) : (l.spawn q).1.StandsAt t p := by
  obtain ⟨a, ha, hpoint⟩ := h
  exact ⟨a, (l.task?_spawn q t).trans
    ((if_neg (ne_next_of_task? ha)).trans ha), hpoint⟩

/-! ## What a task does itself -/

theorem StandsAt.goOn (h : l.StandsAt t p) (q : π) : (l.goOn t q).StandsAt t q := by
  obtain ⟨a, ha, -, hending, hsteady⟩ := h
  exact ⟨_, task?_goOn ha, rfl, hending, hsteady.mustCancel, hsteady.limit, hsteady.wait⟩

theorem StandsAt.goes {wait : Wait} (h : l.StandsAt t p) (hl : Goes t q wait l l')
    (hwait : wait.isSteady = true) : l'.StandsAt t q := by
  obtain ⟨a, ha, -, hending, hsteady⟩ := h
  obtain ⟨b, hb, hpoint, hending', hmust, hlimit, heases⟩ := hl.own a ha
  exact ⟨b, hb, hpoint, hending'.trans hending, hmust.trans hsteady.mustCancel,
    hlimit.trans hsteady.limit, heases.isSteady.trans hwait⟩

theorem StandsAt.suspend (h : l.StandsAt t p) (q : π) : (l.suspend t q .signal).StandsAt t q :=
  h.goes (l.goes_suspend t q .signal) rfl

theorem EndedAt.of_finish (ha : l.task? t = some a) (e : Ending ρ) :
    (l.finish t e).EndedAt t a.point e :=
  ⟨_, task?_finish ha, rfl, rfl, rfl, rfl⟩

theorem StandsAt.finish (h : l.StandsAt t p) (e : Ending ρ) : (l.finish t e).EndedAt t p e := by
  obtain ⟨a, ha, rfl, -⟩ := h
  exact .of_finish ha e

/-- Who goes on was steady, and then it goes on as planned; or else it may have been cancelled. -/
theorem StandsAt.arrive {arrival : Arrival} (h : l.StandsAt t p)
    (harrive : l.arrive t = some (l', q, arrival)) :
    q = p ∧ arrival = .on ∧ l'.StandsAt t p := by
  obtain ⟨a, ha, hending, rfl, rfl, hl⟩ := arrive_spec harrive
  obtain ⟨rfl, -, hsteady⟩ := h.point_eq ha
  exact ⟨rfl, hsteady.arrival l, _, hl, rfl, hending, rfl, hsteady.limit, rfl⟩

/-! ## Cancellation -/

/-- A task that goes on next to hear that it was cancelled. -/
structure Doomed (a : Task π ρ) : Prop where
  limit : a.limit = none
  word : a.mustCancel = true ∨ a.wait = .dropped

theorem Doomed.eases (h : Doomed a) (heases : TaskEases a b) : Doomed b where
  limit := heases.limit.trans h.limit
  word := by
    rcases h.word with hmust | hwait
    · exact .inl (heases.mustCancel.trans hmust)
    · have hw := heases.wait
      rw [hwait] at hw
      generalize b.wait = wait at hw ⊢
      cases hw
      exact .inr rfl

theorem Doomed.arrival (h : Doomed a) (l : Loop π ρ) : ∃ woken, l.arrival a = .cancelled woken := by
  unfold Loop.arrival
  rcases h.word with hmust | hwait
  · rw [hmust]
    exact ⟨_, rfl⟩
  · rw [hwait]
    split
    · exact ⟨_, rfl⟩
    · exact ⟨false, rfl⟩

theorem cancel_of_isPlain (ha : l.task? t = some a) (hplain : a.wait.isPlain = true) :
    l.cancel t = l.drop t := by
  unfold cancel
  rw [ha]
  dsimp only
  split
  · next other hw => rw [hw] at hplain; cases hplain
  · next members n calledOff hw => rw [hw] at hplain; cases hplain
  · rfl

/-- Cancelling who has ended changes nothing. -/
theorem EndedAt.cancel {e : Ending ρ} (h : l.EndedAt t p e) : l.cancel t = l := by
  have hended := h.ended
  obtain ⟨a, ha, -, -, hplain, -⟩ := h
  rw [cancel_of_isPlain ha hplain, drop, if_pos hended]

/-- So does the end of a time limit that it no longer has. -/
theorem EndedAt.gentle_expire {e : Ending ρ} (h : l.EndedAt t p e) : Gentle l (l.expire t) := by
  rw [expire, h.cancel]
  refine l.gentle_modify t fun a ha => ⟨rfl, rfl, rfl, ?_, .same _⟩
  rw [(h.point_eq ha).2.2.2]
  rfl

/-- Who is cancelled and waits for nobody's end is doomed. -/
theorem task?_cancel (ha : l.task? t = some a) (hending : a.ending = none)
    (hplain : a.wait.isPlain = true) (hlimit : a.limit = none) :
    ∃ b, (l.cancel t).task? t = some b ∧ b.point = a.point ∧ b.ending = none ∧ Doomed b := by
  rw [cancel_of_isPlain ha hplain, drop, ended_of_task? ha, hending]
  split
  · next h => cases h
  · split
    · refine ⟨{ a with wait := .dropped, cancels := a.cancels + 1 }, ?_, rfl, hending, hlimit,
        .inr rfl⟩
      show (l.modify t _).task? t = _
      rw [task?_modify_self, ha]
      rfl
    · refine ⟨{ a with mustCancel := true, cancels := a.cancels + 1 }, ?_, rfl, hending, hlimit,
        .inl rfl⟩
      rw [leaveWord, task?_modify_self, ha]
      rfl

/-- Cancelling who waits for nobody's end hits nobody else. -/
theorem spares_cancel_of_isPlain (ha : l.task? t = some a) (hplain : a.wait.isPlain = true) :
    Spares (· = t) l (l.cancel t) := by
  rw [cancel_of_isPlain ha hplain]
  exact l.spares_drop t

end Loop

end LiveCluster
