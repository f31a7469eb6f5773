import LiveCluster.Proofs.Loop.Standing

/-!
# What the loop does to those who wait

A task that waits can be given its signal, or hear that one of its group has ended, and
that brings it nearer to going on as planned: `Task.Eases`. Being cancelled is another
matter. `Spares` is said of what the loop does when it cancels nobody but the tasks
that are named, and begins no time limit. Almost everything it does names nobody, or
the task that does it.
-/

namespace LiveCluster

/-- Nothing happens to a wait, or its signal is given, or members of its group end. -/
inductive Wait.Eases : Wait → Wait → Prop
  | same (w : Wait) : Eases w w
  | woken : Eases .signal .woken
  | ticked (members : List TaskId) (n n' : Nat) (calledOff : Bool) :
      Eases (.group members n calledOff) (.group members n' calledOff)

/-- The tasks that a wait is for. -/
def Wait.targets : Wait → List TaskId
  | .task other => [other]
  | .group members _ _ => members
  | _ => []

/-- Whether a wait is not for the end of other tasks. -/
def Wait.isPlain : Wait → Bool
  | .task _ | .group .. => false
  | _ => true

theorem Wait.targets_of_isPlain {w : Wait} (h : w.isPlain = true) : w.targets = [] := by
  cases w with
  | task _ | group _ _ _ => cases h
  | none | signal | woken | dropped => rfl

theorem Wait.Eases.isPlain {a b : Wait} (h : a.Eases b) : b.isPlain = a.isPlain := by
  cases h <;> rfl

/-- A wait may be called off. -/
inductive Wait.Turns : Wait → Wait → Prop
  | same (w : Wait) : Turns w w
  | dropped {w : Wait} : w.isPlain = true → Turns w .dropped
  | calledOff (members : List TaskId) (n : Nat) (calledOff calledOff' : Bool) :
      Turns (.group members n calledOff) (.group members n calledOff')

theorem Wait.Turns.trans {a b c : Wait} (h : a.Turns b) (h' : b.Turns c) : a.Turns c := by
  cases h with
  | same => exact h'
  | dropped hplain => cases h' with
    | same => exact .dropped hplain
    | dropped _ => exact .dropped hplain
  | calledOff members n off off' => cases h' with
    | same => exact .calledOff members n off off'
    | dropped hplain => cases hplain
    | calledOff _ _ _ off'' => exact .calledOff members n off off''

theorem Wait.Turns.isPlain {a b : Wait} (h : a.Turns b) (hplain : a.isPlain = true) :
    b.isPlain = true := by
  cases h with
  | same => exact hplain
  | dropped _ => rfl
  | calledOff => cases hplain

/-- A task that waits for a group goes on waiting for it. -/
theorem Wait.Turns.of_group {members : List TaskId} {n : Nat} {off : Bool} {b : Wait}
    (h : (Wait.group members n off).Turns b) : ∃ off', b = .group members n off' := by
  cases h with
  | same => exact ⟨off, rfl⟩
  | dropped hplain => cases hplain
  | calledOff _ _ _ off' => exact ⟨off', rfl⟩

theorem Wait.Eases.trans {a b c : Wait} (h : a.Eases b) (h' : b.Eases c) : a.Eases c := by
  cases h with
  | same => exact h'
  | woken => cases h' with
    | same => exact .woken
  | ticked members n n' calledOff => cases h' with
    | same => exact .ticked members n n' calledOff
    | ticked _ _ n'' _ => exact .ticked members n n'' calledOff

namespace Loop

variable {π ρ : Type}

/-- Nothing happens to a task but that its wait is eased. -/
structure TaskEases (a b : Task π ρ) : Prop where
  point : b.point = a.point
  ending : b.ending = a.ending
  mustCancel : b.mustCancel = a.mustCancel
  limit : b.limit = a.limit
  wait : a.wait.Eases b.wait

theorem TaskEases.refl (a : Task π ρ) : TaskEases a a :=
  ⟨rfl, rfl, rfl, rfl, .same _⟩

theorem TaskEases.trans {a b c : Task π ρ} (h : TaskEases a b) (h' : TaskEases b c) :
    TaskEases a c where
  point := h'.point.trans h.point
  ending := h'.ending.trans h.ending
  mustCancel := h'.mustCancel.trans h.mustCancel
  limit := h'.limit.trans h.limit
  wait := h.wait.trans h'.wait

/-- A task stays where it is, and what it did not have before it does not have now: a time
limit, or others to wait for. -/
structure TaskStays (a b : Task π ρ) : Prop where
  point : b.point = a.point
  ending : b.ending = a.ending
  limit : a.limit = none → b.limit = none
  plain : a.wait.isPlain = true → b.wait.isPlain = true

theorem TaskStays.refl (a : Task π ρ) : TaskStays a a :=
  ⟨rfl, rfl, fun h => h, fun h => h⟩

theorem TaskStays.trans {a b c : Task π ρ} (h : TaskStays a b) (h' : TaskStays b c) :
    TaskStays a c where
  point := h'.point.trans h.point
  ending := h'.ending.trans h.ending
  limit hnone := h'.limit (h.limit hnone)
  plain hplain := h'.plain (h.plain hplain)

theorem TaskEases.stays {a b : Task π ρ} (h : TaskEases a b) : TaskStays a b where
  point := h.point
  ending := h.ending
  limit hnone := h.limit.trans hnone
  plain hplain := h.wait.isPlain.trans hplain

/-- Whether a timer will end the time limit of a task. -/
def expires (l : Loop π ρ) (id : TimerId) (t : TaskId) : Prop :=
  ∃ timer, (id, timer) ∈ l.timers ∧ timer.alarm = .expire t

/-- No task is touched but those that are hit, except that waits are eased. -/
structure Spares (hit : TaskId → Prop) (l l' : Loop π ρ) : Prop where
  length : l'.tasks.length = l.tasks.length
  eases : ∀ v a, ¬hit v → l.task? v = some a → ∃ b, l'.task? v = some b ∧ TaskEases a b
  expires : ∀ id v, l'.expires id v → l.expires id v

/-- Nobody is hit. -/
abbrev Gentle (l l' : Loop π ρ) : Prop :=
  Spares (fun _ => False) l l'

variable {hit hit' : TaskId → Prop} {l m n : Loop π ρ}

theorem Spares.refl (hit : TaskId → Prop) (l : Loop π ρ) : Spares hit l l :=
  ⟨rfl, fun _ a _ h => ⟨a, h, .refl a⟩, fun _ _ h => h⟩

theorem Spares.trans (h : Spares hit l m) (h' : Spares hit m n) : Spares hit l n where
  length := h'.length.trans h.length
  eases v a hv ha := by
    obtain ⟨b, hb, hab⟩ := h.eases v a hv ha
    obtain ⟨c, hc, hbc⟩ := h'.eases v b hv hb
    exact ⟨c, hc, hab.trans hbc⟩
  expires id v he := h.expires id v (h'.expires id v he)

/-- No task is made. -/
theorem Spares.lt (h : Spares hit l m) {v : TaskId} {b : Task π ρ} (hb : m.task? v = some b) :
    v < l.tasks.length :=
  h.length ▸ lt_of_task? hb

/-- Who is not hit was there before. -/
theorem Spares.back (h : Spares hit l m) {v : TaskId} {b : Task π ρ} (hv : ¬hit v)
    (hb : m.task? v = some b) : ∃ a, l.task? v = some a ∧ TaskEases a b := by
  obtain ⟨a, ha⟩ := exists_task? (h.lt hb)
  obtain ⟨b', hb', heases⟩ := h.eases v a hv ha
  cases hb.symm.trans hb'
  exact ⟨a, ha, heases⟩

theorem Spares.mono (h : Spares hit l m) (hle : ∀ v, hit v → hit' v) : Spares hit' l m where
  length := h.length
  eases v a hv := h.eases v a fun hhit => hv (hle v hhit)
  expires := h.expires

/-- Who spares everybody spares those who are not hit. -/
theorem Spares.of_gentle (h : Gentle l m) : Spares hit l m :=
  h.mono fun _ => False.elim

theorem spares_of_eq {l l' : Loop π ρ} (htasks : l'.tasks = l.tasks)
    (htimers : l'.timers = l.timers) : Spares hit l l' where
  length := by rw [htasks]
  eases v a _ ha := ⟨a, by rw [task?, htasks]; exact ha, .refl a⟩
  expires id v h := by
    obtain ⟨timer, hmem, halarm⟩ := h
    exact ⟨timer, htimers ▸ hmem, halarm⟩

theorem task?_modify (l : Loop π ρ) (t u : TaskId) (f : Task π ρ → Task π ρ) :
    (l.modify t f).task? u = if t = u then (l.task? u).map f else l.task? u := by
  unfold task? modify
  rw [List.getElem?_modify]
  split <;> cases l.tasks[u]? <;> rfl

theorem task?_modify_self (l : Loop π ρ) (t : TaskId) (f : Task π ρ → Task π ρ) :
    (l.modify t f).task? t = (l.task? t).map f := by
  rw [task?_modify, if_pos rfl]

theorem gentle_modify (l : Loop π ρ) (t : TaskId) {f : Task π ρ → Task π ρ}
    (hf : ∀ a, l.task? t = some a → TaskEases a (f a)) : Gentle l (l.modify t f) where
  length := l.length_modify t f
  eases v a _ ha := by
    rw [task?_modify]
    split
    · next htv =>
        subst htv
        rw [ha]
        exact ⟨f a, rfl, hf a ha⟩
    · exact ⟨a, ha, .refl a⟩
  expires _ _ h := h

theorem spares_modify (l : Loop π ρ) (t : TaskId) (f : Task π ρ → Task π ρ) :
    Spares (· = t) l (l.modify t f) where
  length := l.length_modify t f
  eases v a hv ha := ⟨a, by rw [task?_modify, if_neg (Ne.symm hv)]; exact ha, .refl a⟩
  expires _ _ h := h

theorem spares_foldl {α : Type} {f : Loop π ρ → α → Loop π ρ} (l : Loop π ρ) (as : List α)
    (hf : ∀ l, ∀ a ∈ as, Spares hit l (f l a)) : Spares hit l (as.foldl f l) := by
  induction as generalizing l with
  | nil => exact .refl hit l
  | cons a rest ih =>
      exact (hf l a List.mem_cons_self).trans
        (ih (f l a) fun l b hb => hf l b (List.mem_cons_of_mem a hb))

/-! ## Signals and notices -/

theorem gentle_schedule (l : Loop π ρ) (job : Job) : Gentle l (l.schedule job) :=
  spares_of_eq rfl rfl

theorem gentle_scheduleAll (l : Loop π ρ) (jobs : List Job) : Gentle l (l.scheduleAll jobs) :=
  spares_of_eq rfl rfl

theorem awaitsSignal_iff {l : Loop π ρ} {t : TaskId} :
    l.awaitsSignal t = true ↔ ∃ a, l.task? t = some a ∧ a.wait = .signal := by
  unfold awaitsSignal
  cases l.task? t with
  | none => simp
  | some a => simp

theorem gentle_wake (l : Loop π ρ) (t : TaskId) : Gentle l (l.wake t) := by
  unfold wake
  split
  · next h =>
      refine (gentle_modify l t fun a ha => ?_).trans (gentle_schedule _ _)
      obtain ⟨b, hb, hsignal⟩ := awaitsSignal_iff.1 h
      cases ha.symm.trans hb
      exact ⟨rfl, rfl, rfl, rfl, hsignal ▸ .woken⟩
  · exact .refl _ l

theorem gentle_wakeAll (l : Loop π ρ) (ts : List TaskId) : Gentle l (l.wakeAll ts) :=
  spares_foldl l ts fun l t _ => l.gentle_wake t

theorem gentle_wakeFirst (l : Loop π ρ) (ts : List TaskId) : Gentle l (l.wakeFirst ts).1 := by
  induction ts with
  | nil => exact .refl _ l
  | cons t rest ih =>
      unfold wakeFirst
      split
      · exact l.gentle_wake t
      · exact ih

theorem gentle_addWatcher (l : Loop π ρ) (t : TaskId) (w : Watcher) :
    Gentle l (l.addWatcher t w) :=
  gentle_modify l t fun _ _ => ⟨rfl, rfl, rfl, rfl, .same _⟩

theorem gentle_watchOne (t : TaskId) (turn : Nat) (l : Loop π ρ) (other : TaskId) :
    Gentle l (watchOne t turn l other) := by
  unfold watchOne
  split
  · exact l.gentle_schedule _
  · exact l.gentle_addWatcher _ _

theorem gentle_unwatch (l : Loop π ρ) (t : TaskId) (others : List TaskId) :
    Gentle l (l.unwatch t others) := by
  unfold unwatch
  exact spares_foldl l others fun l other _ =>
    gentle_modify l other fun _ _ => ⟨rfl, rfl, rfl, rfl, .same _⟩

theorem gentle_notify (l : Loop π ρ) (t : TaskId) (turn : Nat) : Gentle l (l.notify t turn) := by
  unfold notify
  split
  · exact l.gentle_wake t
  · exact .refl _ l

theorem gentle_tick (l : Loop π ρ) (t : TaskId) : Gentle l (l.tick t) := by
  unfold tick
  split
  · exact .refl _ l
  · next a ha =>
      split
      · next members remaining calledOff hwait =>
          have hticked : Gentle l (l.modify t fun task =>
              { task with wait := .group members (remaining - 1) calledOff }) := by
            refine gentle_modify l t fun b hb => ?_
            cases ha.symm.trans hb
            exact ⟨rfl, rfl, rfl, rfl, hwait ▸ .ticked members remaining _ calledOff⟩
          dsimp only
          split
          · exact hticked.trans (gentle_schedule _ _)
          · exact hticked
      · exact .refl _ l

/-! ## Cancellation -/

/-- Whether a task waits for another, so that a cancellation is passed on. -/
def passesTo (l : Loop π ρ) (t v : TaskId) : Prop :=
  ∃ a, l.task? t = some a ∧ v ∈ a.wait.targets

theorem spares_leaveWord (l : Loop π ρ) (t : TaskId) : Spares (· = t) l (l.leaveWord t) :=
  l.spares_modify t _

theorem spares_drop (l : Loop π ρ) (t : TaskId) : Spares (· = t) l (l.drop t) := by
  unfold drop
  split
  · exact .refl _ l
  · split
    · exact (l.spares_modify t _).trans (.of_gentle (gentle_schedule _ _))
    · exact l.spares_leaveWord t

/-- A task is cancelled, or those for which it waits. -/
theorem spares_cancel (l : Loop π ρ) (t : TaskId) :
    Spares (fun v => v = t ∨ l.passesTo t v) l (l.cancel t) := by
  have hself : ∀ v, v = t → v = t ∨ l.passesTo t v := fun _ => .inl
  unfold cancel
  split
  · exact .refl _ l
  · next a ha =>
      split
      · next other hwait =>
          have hother : ∀ v, v = other → v = t ∨ l.passesTo t v := by
            rintro v rfl
            exact .inr ⟨a, ha, by rw [hwait]; exact List.mem_singleton.2 rfl⟩
          split
          · exact (l.spares_leaveWord t).mono hself
          · exact ((l.spares_drop other).mono hother).trans ((spares_modify _ t _).mono hself)
      · next members remaining calledOff hwait =>
          split
          · exact (l.spares_leaveWord t).mono hself
          · refine .trans (spares_foldl l members fun l v hv => (l.spares_drop v).mono ?_)
              ((spares_modify _ t _).mono hself)
            rintro x rfl
            exact .inr ⟨a, ha, by rw [hwait]; exact hv⟩
      · exact (l.spares_drop t).mono hself

theorem spares_expire (l : Loop π ρ) (t : TaskId) :
    Spares (fun v => v = t ∨ l.passesTo t v) l (l.expire t) :=
  (l.spares_cancel t).trans ((spares_modify _ t _).mono fun _ => .inl)

/-- A task stays where it is, though its wait may be called off. -/
structure TaskTurns (a b : Task π ρ) : Prop where
  point : b.point = a.point
  ending : b.ending = a.ending
  limit : b.limit.map (·.timer) = a.limit.map (·.timer)
  wait : a.wait.Turns b.wait

theorem TaskTurns.stays {a b : Task π ρ} (h : TaskTurns a b) : TaskStays a b where
  point := h.point
  ending := h.ending
  limit hnone := by
    have hlimit := h.limit
    rw [hnone] at hlimit
    exact Option.map_eq_none_iff.1 hlimit
  plain hplain := h.wait.isPlain hplain

/-- Every task stays where it is, though its wait may be called off. -/
def Turns (l l' : Loop π ρ) : Prop :=
  ∀ v a, l.task? v = some a → ∃ b, l'.task? v = some b ∧ TaskTurns a b

theorem Turns.refl (l : Loop π ρ) : Turns l l :=
  fun _ a ha => ⟨a, ha, rfl, rfl, rfl, .same _⟩

theorem Turns.trans (h : Turns l m) (h' : Turns m n) : Turns l n := by
  intro v a ha
  obtain ⟨b, hb, hab⟩ := h v a ha
  obtain ⟨c, hc, hbc⟩ := h' v b hb
  exact ⟨c, hc, hbc.point.trans hab.point, hbc.ending.trans hab.ending,
    hbc.limit.trans hab.limit, hab.wait.trans hbc.wait⟩

theorem turns_modify (l : Loop π ρ) (t : TaskId) {f : Task π ρ → Task π ρ}
    (hf : ∀ a, l.task? t = some a → TaskTurns a (f a)) : Turns l (l.modify t f) := by
  intro v a ha
  rw [task?_modify]
  split
  · next htv =>
      subst htv
      rw [ha]
      exact ⟨f a, rfl, hf a ha⟩
  · exact ⟨a, ha, rfl, rfl, rfl, .same _⟩

theorem turns_leaveWord (l : Loop π ρ) (t : TaskId) : Turns l (l.leaveWord t) :=
  l.turns_modify t fun _ _ => ⟨rfl, rfl, rfl, .same _⟩

theorem turns_drop (l : Loop π ρ) (t : TaskId) : Turns l (l.drop t) := by
  unfold drop
  split
  · exact .refl l
  · split
    · next hsignal =>
        obtain ⟨b, hb, hwait⟩ := awaitsSignal_iff.1 hsignal
        show Turns l (l.modify t _)
        refine l.turns_modify t fun a ha => ⟨rfl, rfl, rfl, .dropped ?_⟩
        cases ha.symm.trans hb
        rw [hwait]
        rfl
    · exact l.turns_leaveWord t

theorem turns_foldl_drop (l : Loop π ρ) (ts : List TaskId) : Turns l (ts.foldl drop l) := by
  induction ts generalizing l with
  | nil => exact .refl l
  | cons t rest ih => exact (l.turns_drop t).trans (ih (l.drop t))

theorem turns_cancel (l : Loop π ρ) (t : TaskId) : Turns l (l.cancel t) := by
  unfold cancel
  split
  · exact .refl l
  · next a ha =>
      split
      · next other hwait =>
          split
          · exact l.turns_leaveWord t
          · exact (l.turns_drop other).trans
              (turns_modify _ t fun _ _ => ⟨rfl, rfl, rfl, .same _⟩)
      · next members remaining calledOff hwait =>
          split
          · exact l.turns_leaveWord t
          · refine (l.turns_foldl_drop members).trans (turns_modify _ t fun b hb => ?_)
            obtain ⟨b', hb', hturns⟩ := l.turns_foldl_drop members t a ha
            cases hb.symm.trans hb'
            obtain ⟨off, hoff⟩ := (hwait ▸ hturns.wait).of_group
            exact ⟨rfl, rfl, rfl, hoff ▸ .calledOff members remaining off true⟩
      · exact l.turns_drop t

theorem turns_expire (l : Loop π ρ) (t : TaskId) : Turns l (l.expire t) := by
  refine (l.turns_cancel t).trans (turns_modify _ t fun a _ => ⟨rfl, rfl, ?_, .same _⟩)
  cases a.limit <;> rfl

/-! ## Going on and ending -/

theorem spares_suspend (l : Loop π ρ) (t : TaskId) (p : π) (wait : Wait) :
    Spares (· = t) l (l.suspend t p wait) :=
  l.spares_modify t _

theorem spares_goOn (l : Loop π ρ) (t : TaskId) (p : π) : Spares (· = t) l (l.goOn t p) :=
  (l.spares_modify t _).trans (spares_of_eq rfl rfl)

theorem spares_finish (l : Loop π ρ) (t : TaskId) (e : Ending ρ) :
    Spares (· = t) l (l.finish t e) := by
  unfold finish
  split
  · exact .refl _ l
  · exact (l.spares_modify t _).trans (.of_gentle (gentle_scheduleAll _ _))

theorem spares_arrive {l l' : Loop π ρ} {t : TaskId} {p : π} {a : Arrival}
    (h : l.arrive t = some (l', p, a)) : Spares (· = t) l l' := by
  unfold arrive at h
  split at h
  · cases h
  · split at h
    · cases h
    · cases h
      exact l.spares_modify t _

/-- Where a task has gone by itself, and how it waits there. -/
structure Goes (t : TaskId) (p : π) (wait : Wait) (l l' : Loop π ρ) : Prop
    extends Spares (· = t) l l' where
  own : ∀ a, l.task? t = some a →
    ∃ b, l'.task? t = some b ∧ b.point = p ∧ b.ending = a.ending ∧
      b.mustCancel = a.mustCancel ∧ b.limit = a.limit ∧ wait.Eases b.wait

theorem Goes.gentle {t : TaskId} {p : π} {wait : Wait} (h : Goes t p wait l m)
    (h' : Gentle m n) : Goes t p wait l n where
  toSpares := h.toSpares.trans (.of_gentle h')
  own a ha := by
    obtain ⟨b, hb, hpoint, hending, hmust, hlimit, hwait⟩ := h.own a ha
    obtain ⟨c, hc, heases⟩ := h'.eases t b (fun h => h) hb
    exact ⟨c, hc, heases.point.trans hpoint, heases.ending.trans hending,
      heases.mustCancel.trans hmust, heases.limit.trans hlimit, hwait.trans heases.wait⟩

theorem task?_suspend {l : Loop π ρ} {t : TaskId} {a : Task π ρ} (h : l.task? t = some a) (p : π)
    (wait : Wait) : (l.suspend t p wait).task? t =
      some { a with point := p, wait := wait, turn := a.turn + 1 } := by
  rw [suspend, task?_modify_self, h]
  rfl

theorem goes_suspend (l : Loop π ρ) (t : TaskId) (p : π) (wait : Wait) :
    Goes t p wait l (l.suspend t p wait) where
  toSpares := l.spares_suspend t p wait
  own _ ha := ⟨_, task?_suspend ha p wait, rfl, rfl, rfl, rfl, .same _⟩

theorem goes_awaitTask (l : Loop π ρ) (t : TaskId) (p : π) (other : TaskId) :
    Goes t p (.task other) l (l.awaitTask t p other) :=
  (l.goes_suspend t p _).gentle (gentle_addWatcher _ _ _)

theorem goes_awaitAny (l : Loop π ρ) (t : TaskId) (p : π) (others : List TaskId) :
    Goes t p .signal l (l.awaitAny t p others) :=
  (l.goes_suspend t p _).gentle (spares_foldl _ others fun l v _ => gentle_watchOne t _ l v)

theorem goes_awaitGroup (l : Loop π ρ) (t : TaskId) (p : π) (members : List TaskId) :
    Goes t p (.group members (members.filter (!l.ended ·)).length false) l
      (l.awaitGroup t p members) :=
  (l.goes_suspend t p _).gentle (spares_foldl _ _ fun l v _ => l.gentle_addWatcher v _)

theorem goes_giveWay (l : Loop π ρ) (t : TaskId) (p : π) :
    Goes t p .none l (l.giveWay t p) :=
  (l.goes_suspend t p .none).gentle (gentle_schedule _ _)

theorem task?_goOn {l : Loop π ρ} {t : TaskId} {p : π} {a : Task π ρ} (h : l.task? t = some a) :
    (l.goOn t p).task? t = some { a with point := p } := by
  show (l.modify t _).task? t = _
  rw [task?_modify_self, h]
  rfl

theorem task?_finish {l : Loop π ρ} {t : TaskId} {e : Ending ρ} {a : Task π ρ}
    (h : l.task? t = some a) : (l.finish t e).task? t =
      some { a with ending := some e, wait := .none, limit := none, watchers := [] } := by
  rw [finish, h]
  show (l.modify t _).task? t = _
  rw [task?_modify_self, h]
  rfl

/-- A task that goes on no longer waits, and was told what it had to be told. -/
theorem arrive_spec {l l' : Loop π ρ} {t : TaskId} {p : π} {arrival : Arrival}
    (h : l.arrive t = some (l', p, arrival)) :
    ∃ a, l.task? t = some a ∧ a.ending = none ∧ a.point = p ∧ arrival = l.arrival a ∧
      l'.task? t = some { a with wait := .none, mustCancel := false } := by
  unfold arrive at h
  split at h
  · cases h
  · next a ha =>
      split at h
      · cases h
      · next hending =>
          cases h
          refine ⟨a, ha, ?_, rfl, rfl, ?_⟩
          · cases he : a.ending with
            | none => rfl
            | some e => rw [he] at hending; exact absurd rfl hending
          · rw [task?_modify_self, ha]
            rfl

theorem task?_of_spawn {p : π} {b : Task π ρ} (h : (l.spawn p).1.task? t = some b) :
    t = l.tasks.length ∧ b = { point := p } ∨ l.task? t = some b := by
  rw [task?_spawn] at h
  split at h
  · next ht => exact .inl ⟨ht, (Option.some.inj h).symm⟩
  · exact .inr h

/-- Who was not there before is the task that was made. -/
theorem eq_of_spawn_new {p : π} {b : Task π ρ} (h : (l.spawn p).1.task? t = some b)
    (hnew : t = l.tasks.length ∨ l.tasks.length ≤ t) : t = l.tasks.length ∧ b = { point := p } := by
  refine (task?_of_spawn h).resolve_right fun ha => ?_
  rcases hnew with heq | hle
  · exact ne_next_of_task? ha heq
  · exact Nat.not_lt.2 hle (lt_of_task? ha)

/-! ## Time -/

theorem gentle_cancelTimer (l : Loop π ρ) (id : TimerId) : Gentle l (l.cancelTimer id) where
  length := rfl
  eases _ a _ ha := ⟨a, ha, .refl a⟩
  expires _ _ h := by
    obtain ⟨timer, hmem, halarm⟩ := h
    exact ⟨timer, (List.mem_filter.1 hmem).1, halarm⟩

theorem expires_cancelTimer {l : Loop π ρ} {id id' : TimerId} {t : TaskId}
    (h : (l.cancelTimer id).expires id' t) : id' ≠ id := by
  obtain ⟨timer, hmem, -⟩ := h
  rw [cancelTimer, List.mem_filter] at hmem
  simpa using hmem.2

theorem gentle_startTimer (l : Loop π ρ) (delay : Float) (alarm : Alarm)
    (h : ∀ t, alarm ≠ .expire t) : Gentle l (l.startTimer delay alarm).1 where
  length := rfl
  eases _ a _ ha := ⟨a, ha, .refl a⟩
  expires _ t he := by
    obtain ⟨timer, hmem, halarm⟩ := he
    rw [startTimer, List.mem_append, List.mem_singleton] at hmem
    rcases hmem with hmem | heq
    · exact ⟨timer, hmem, halarm⟩
    · cases heq
      exact absurd halarm (h t)

theorem gentle_beginRound (l : Loop π ρ) : Gentle l l.beginRound where
  length := rfl
  eases _ a _ ha := ⟨a, ha, .refl a⟩
  expires id t h := by
    obtain ⟨timer, hmem, halarm⟩ := h
    obtain ⟨timer', hmem', hsame⟩ := mem_timers_beginRound hmem
    exact ⟨timer', hmem', hsame.trans halarm⟩

/-- A time limit begins: there is a timer for it, which the task knows. -/
theorem beginLimit_spec (l : Loop π ρ) (t : TaskId) (delay : Float) :
    (l.beginLimit t delay).tasks.length = l.tasks.length ∧
      (∀ v, v ≠ t → (l.beginLimit t delay).task? v = l.task? v) ∧
      (∀ id v, (l.beginLimit t delay).expires id v →
        l.expires id v ∨ v = t ∧ id = l.nextTimer) ∧
      ∀ a, l.task? t = some a → (l.beginLimit t delay).task? t =
        some { a with limit := some { timer := l.nextTimer, cancels := a.cancels } } := by
  have hstart : ∀ l' : Loop π ρ, l'.tasks = l.tasks →
      (∃ timer : Timer, timer.alarm = .expire t ∧
        l'.timers = l.timers ++ [(l.nextTimer, timer)]) →
      let l'' := l'.modify t fun task =>
        { task with limit := some { timer := l.nextTimer, cancels := task.cancels } }
      l''.tasks.length = l.tasks.length ∧ (∀ v, v ≠ t → l''.task? v = l.task? v) ∧
        (∀ id v, l''.expires id v → l.expires id v ∨ v = t ∧ id = l.nextTimer) ∧
        ∀ a, l.task? t = some a → l''.task? t =
          some { a with limit := some { timer := l.nextTimer, cancels := a.cancels } } := by
    rintro l' htasks ⟨timer, htimer, htimers⟩
    have htask : ∀ v, l'.task? v = l.task? v := task?_congr htasks
    refine ⟨?_, fun v hv => ?_, fun id v he => ?_, fun a ha => ?_⟩
    · rw [length_modify, htasks]
    · rw [task?_modify, if_neg (Ne.symm hv), htask]
    · obtain ⟨timer', hmem, halarm⟩ := he
      replace hmem : (id, timer') ∈ l.timers ++ [(l.nextTimer, timer)] := htimers ▸ hmem
      rcases List.mem_append.1 hmem with hold | hnew
      · exact .inl ⟨timer', hold, halarm⟩
      · cases List.mem_singleton.1 hnew
        rw [htimer] at halarm
        cases halarm
        exact .inr ⟨rfl, rfl⟩
    · rw [task?_modify_self, htask, ha]
      rfl
  unfold beginLimit
  by_cases hnow : l.now + delay ≤ l.now
  · rw [if_pos hnow]
    exact hstart (l.alarmNow (.expire t)).1 rfl ⟨_, rfl, rfl⟩
  · rw [if_neg hnow]
    exact hstart (l.startTimer delay (.expire t)).1 rfl ⟨_, rfl, rfl⟩

theorem spares_endLimit (l : Loop π ρ) (t : TaskId) (cancelled : Bool) :
    Spares (· = t) l (l.endLimit t cancelled).1 := by
  unfold endLimit
  split
  · exact .refl _ l
  · split
    · exact .refl _ l
    · next limit _ =>
        have hended : Spares (· = t) l ((l.cancelTimer limit.timer).modify t fun task =>
            { task with limit := none }) :=
          .trans (.of_gentle (l.gentle_cancelTimer _)) (spares_modify _ t _)
        dsimp only
        split
        · exact hended.trans (spares_modify _ t _)
        · exact hended

/-- A time limit is over: the task has none, and the timer that it knew is gone. -/
theorem endLimit_spec {l : Loop π ρ} {t : TaskId} {a : Task π ρ} (ha : l.task? t = some a)
    (cancelled : Bool) :
    (∃ b, (l.endLimit t cancelled).1.task? t = some b ∧ b.point = a.point ∧
        b.ending = a.ending ∧ b.mustCancel = a.mustCancel ∧ b.wait = a.wait ∧ b.limit = none) ∧
      ∀ limit, a.limit = some limit → ∀ id v, (l.endLimit t cancelled).1.expires id v →
        id ≠ limit.timer := by
  unfold endLimit
  rw [ha]
  dsimp only
  cases hlimit : a.limit with
  | none => exact ⟨⟨a, ha, rfl, rfl, rfl, rfl, hlimit⟩, by simp⟩
  | some limit =>
      have htask : ∀ l' : Loop π ρ, l'.task? t = l.task? t →
          (l'.modify t fun task => { task with limit := none }).task? t =
            some { a with limit := none } := by
        intro l' h
        rw [task?_modify_self, h, ha]
        rfl
      dsimp only
      split
      · refine ⟨⟨{ a with limit := none, cancels := a.cancels - 1 }, ?_, rfl, rfl, rfl, rfl, rfl⟩,
          ?_⟩
        · rw [task?_modify_self, htask (l.cancelTimer limit.timer) rfl]
          rfl
        · rintro limit' ⟨⟩ id v he
          exact expires_cancelTimer he
      · refine ⟨⟨_, htask _ rfl, rfl, rfl, rfl, rfl, rfl⟩, ?_⟩
        rintro limit' ⟨⟩ id v he
        exact expires_cancelTimer he

end Loop

/-! ## Channels -/

namespace Channel

open Loop (Gentle)

variable {α π ρ : Type}

theorem gentle_serveTaker (c : Channel α) (l : Loop π ρ) : Gentle l (c.serveTaker l).2 :=
  l.gentle_wakeFirst c.takers

theorem gentle_serveGiver (c : Channel α) (l : Loop π ρ) : Gentle l (c.serveGiver l).2 :=
  l.gentle_wakeFirst c.givers

theorem gentle_give (c : Channel α) (l : Loop π ρ) (item : α) : Gentle l (c.give l item).2 :=
  gentle_serveTaker _ l

theorem gentle_take? {c c' : Channel α} {l l' : Loop π ρ} {item : α}
    (h : c.take? l = some (item, c', l')) : Gentle l l' := by
  unfold take? at h
  split at h
  · cases h
  · cases h
    exact gentle_serveGiver _ l

theorem gentle_leaveTakers (c : Channel α) (l : Loop π ρ) (t : TaskId) (woken : Bool) :
    Gentle l (c.leaveTakers l t woken).2 := by
  unfold leaveTakers
  dsimp only
  split
  · exact gentle_serveTaker _ l
  · exact .refl _ l

theorem gentle_leaveGivers (c : Channel α) (l : Loop π ρ) (t : TaskId) (woken : Bool) :
    Gentle l (c.leaveGivers l t woken).2 := by
  unfold leaveGivers
  dsimp only
  split
  · exact gentle_serveGiver _ l
  · exact .refl _ l

end Channel

end LiveCluster
