import LiveCluster.Proofs.Loop.Steady

/-!
# What one task does while the others wait

While a task is on its way the others wait. They may be given their signals or have their
waits called off, and then they are in the queue; whoever they watch goes on watching for
them. `Keeps` is said of that. One task may be moved besides, and one may stop listening.
-/

namespace LiveCluster

/-- What may happen to a wait while the task itself does nothing. -/
inductive Wait.Stirs : Wait → Wait → Prop
  | same (w : Wait) : Stirs w w
  | woken : Stirs .signal .woken
  | dropped : Stirs .signal .dropped
  | calledOff (members : List TaskId) (n : Nat) (off off' : Bool) :
      Stirs (.group members n off) (.group members n off')

theorem Wait.Stirs.trans {a b c : Wait} (h : a.Stirs b) (h' : b.Stirs c) : a.Stirs c := by
  cases h with
  | same => exact h'
  | woken =>
      cases h' with
      | same => exact .woken
  | dropped =>
      cases h' with
      | same => exact .dropped
  | calledOff members n off off' =>
      cases h' with
      | same => exact .calledOff members n off off'
      | calledOff _ _ _ off'' => exact .calledOff members n off off''

/-- Nothing happens to a wait but that it is stirred, or that members of its group end. -/
inductive Wait.Bides : Wait → Wait → Prop
  | same (w : Wait) : Bides w w
  | woken : Bides .signal .woken
  | dropped : Bides .signal .dropped
  | group (members : List TaskId) (n n' : Nat) (off off' : Bool) :
      Bides (.group members n off) (.group members n' off')

theorem Wait.Stirs.bides {a b : Wait} (h : a.Stirs b) : a.Bides b := by
  cases h with
  | same => exact .same _
  | woken => exact .woken
  | dropped => exact .dropped
  | calledOff members n off off' => exact .group members n n off off'

theorem Wait.Eases.bides {a b : Wait} (h : a.Eases b) : a.Bides b := by
  cases h with
  | same => exact .same _
  | woken => exact .woken
  | ticked members n n' off => exact .group members n n' off off

theorem Wait.Bides.trans {a b c : Wait} (h : a.Bides b) (h' : b.Bides c) : a.Bides c := by
  cases h with
  | same => exact h'
  | woken =>
      cases h' with
      | same => exact .woken
  | dropped =>
      cases h' with
      | same => exact .dropped
  | group members n n' off off' =>
      cases h' with
      | same => exact .group members n n' off off'
      | group _ _ m _ off'' => exact .group members n m off off''

theorem Wait.Bides.signal {a : Wait} (h : a.Bides .signal) : a = .signal := by
  cases h
  rfl

/-- Whether a task that waits like this is about to go on. -/
def Wait.isRoused : Wait → Bool
  | .none | .woken | .dropped => true
  | _ => false

/-- Who is about to go on waits for nothing that could still happen. -/
theorem Wait.Bides.roused {a b : Wait} (h : a.Bides b) (hroused : a.isRoused = true) : b = a := by
  cases h with
  | same => rfl
  | woken | dropped | group => cases hroused

/-- Whether a watcher is a task that waits for the first of several. -/
def Watcher.isAnyOf (t : Option TaskId) : Watcher → Bool
  | .any u _ => t = some u
  | _ => false

namespace Loop

variable {π ρ : Type} {l m n : Loop π ρ} {t v : TaskId} {a b : Task π ρ}
  {moved deaf busy : Option TaskId}

/-! ## What one task does while the others wait -/

/-- Nothing happens to a task but that its wait is stirred. -/
structure TaskStirs (a b : Task π ρ) : Prop where
  point : b.point = a.point
  turn : b.turn = a.turn
  wait : a.wait.Stirs b.wait
  word : a.mustCancel = true → b.mustCancel = true

theorem TaskStirs.trans {c : Task π ρ} (h : TaskStirs a b) (h' : TaskStirs b c) :
    TaskStirs a c where
  point := h'.point.trans h.point
  turn := h'.turn.trans h.turn
  wait := h.wait.trans h'.wait
  word hword := h'.word (h.word hword)

/-- Who watches a task goes on watching it, except for one who has stopped listening. -/
structure TaskTells (deaf : Option TaskId) (a b : Task π ρ) : Prop where
  ending : b.ending = a.ending
  watchers : ∀ x, x.isAnyOf deaf = false → a.watchers.count x ≤ b.watchers.count x

theorem TaskTells.trans {c : Task π ρ} (h : TaskTells deaf a b) (h' : TaskTells deaf b c) :
    TaskTells deaf a c where
  ending := h'.ending.trans h.ending
  watchers x hx := Nat.le_trans (h.watchers x hx) (h'.watchers x hx)

/-- No task ends, and none is moved but one. -/
structure Keeps (moved deaf : Option TaskId) (l l' : Loop π ρ) : Prop where
  ready : l.ready.Sublist l'.ready
  tells : ∀ v a, l.task? v = some a → ∃ b, l'.task? v = some b ∧ TaskTells deaf a b
  stirs : ∀ v a b, moved ≠ some v → l.task? v = some a → l'.task? v = some b →
    TaskStirs a b ∧ (a.wait = .signal → b.wait ≠ .signal → .resume v ∈ l'.ready)
  made : ∀ v b, l.task? v = none → l'.task? v = some b →
    b.wait = .none ∧ b.ending = none ∧ .resume v ∈ l'.ready

theorem Keeps.refl (moved deaf : Option TaskId) (l : Loop π ρ) : Keeps moved deaf l l where
  ready := .refl _
  tells _ a ha := ⟨a, ha, rfl, fun _ _ => Nat.le_refl _⟩
  stirs v a b _ ha hb := by
    cases ha.symm.trans hb
    exact ⟨⟨rfl, rfl, .same _, id⟩, fun hsignal hne => absurd hsignal hne⟩
  made v b hnone hb := by
    rw [hnone] at hb
    cases hb

/-- One after another; the second moves nobody. -/
theorem Keeps.trans (h : Keeps moved deaf l m) (h' : Keeps none deaf m n) :
    Keeps moved deaf l n where
  ready := h.ready.trans h'.ready
  tells v a ha := by
    obtain ⟨b, hb, hab⟩ := h.tells v a ha
    obtain ⟨c, hc, hbc⟩ := h'.tells v b hb
    exact ⟨c, hc, hab.trans hbc⟩
  stirs v a c hv ha hc := by
    obtain ⟨b, hb, -⟩ := h.tells v a ha
    obtain ⟨hab, hwoken⟩ := h.stirs v a b hv ha hb
    obtain ⟨hbc, hwoken'⟩ := h'.stirs v b c (by simp) hb hc
    refine ⟨hab.trans hbc, fun hsignal hne => ?_⟩
    by_cases hb' : b.wait = .signal
    · exact hwoken' hb' hne
    · exact h'.ready.subset (hwoken hsignal hb')
  made v c hnone hc := by
    cases hm : m.task? v with
    | none => exact h'.made v c hm hc
    | some b =>
        obtain ⟨hwait, hending, hready⟩ := h.made v b hnone hm
        obtain ⟨c', hc', htells⟩ := h'.tells v b hm
        cases hc.symm.trans hc'
        have hstirs := (h'.stirs v b c (by simp) hm hc).1.wait
        rw [hwait] at hstirs
        generalize c.wait = wait at hstirs ⊢
        cases hstirs
        exact ⟨rfl, htells.ending.trans hending, h'.ready.subset hready⟩

/-- What moves nobody and leaves nobody deaf may come before or after what does. -/
theorem Keeps.weaken (h : Keeps none none l m) : Keeps moved deaf l m where
  ready := h.ready
  tells v a ha := by
    obtain ⟨b, hb, htells⟩ := h.tells v a ha
    refine ⟨b, hb, htells.ending, fun x _ => htells.watchers x ?_⟩
    cases x <;> rfl
  stirs v a b _ := h.stirs v a b (by simp)
  made := h.made

/-- One task is changed, and jobs are put into the queue. -/
theorem keeps_modify (l : Loop π ρ) (t : TaskId) {f : Task π ρ → Task π ρ} {ready : List Job}
    (hready : l.ready.Sublist ready)
    (htells : ∀ a, l.task? t = some a → TaskTells deaf a (f a))
    (hstirs : ∀ a, l.task? t = some a → moved ≠ some t →
      TaskStirs a (f a) ∧ (a.wait = .signal → (f a).wait ≠ .signal → .resume t ∈ ready)) :
    Keeps moved deaf l { l.modify t f with ready := ready } where
  ready := hready
  tells v a ha := by
    show ∃ b, (l.modify t f).task? v = some b ∧ _
    rw [task?_modify]
    split
    · next htv =>
        subst htv
        exact ⟨f a, by rw [ha]; rfl, htells a ha⟩
    · exact ⟨a, ha, rfl, fun _ _ => Nat.le_refl _⟩
  stirs v a b hv ha hb := by
    replace hb : (l.modify t f).task? v = some b := hb
    rw [task?_modify] at hb
    split at hb
    · next htv =>
        subst htv
        rw [ha] at hb
        cases hb
        exact hstirs a ha hv
    · cases ha.symm.trans hb
      exact ⟨⟨rfl, rfl, .same _, id⟩, fun hsignal hne => absurd hsignal hne⟩
  made v b hnone hb := by
    replace hb : (l.modify t f).task? v = some b := hb
    rw [task?_modify, hnone] at hb
    split at hb <;> cases hb

/-- A task is changed in what does not bear on how it goes on. -/
theorem keeps_still (l : Loop π ρ) (t : TaskId) {f : Task π ρ → Task π ρ}
    (htells : ∀ a, TaskTells deaf a (f a))
    (hstill : ∀ a, (f a).point = a.point ∧ (f a).turn = a.turn ∧ (f a).wait = a.wait ∧
      (a.mustCancel = true → (f a).mustCancel = true)) : Keeps moved deaf l (l.modify t f) := by
  refine keeps_modify l t (.refl _) (fun a _ => htells a) fun a _ _ => ?_
  obtain ⟨hpoint, hturn, hwait, hword⟩ := hstill a
  exact ⟨⟨hpoint, hturn, hwait ▸ .same _, hword⟩,
    fun hsignal hne => absurd (hwait.trans hsignal) hne⟩

/-- Whatever is not told by jobs and tasks may change. -/
theorem Keeps.of_eq {l' : Loop π ρ} (htasks : l'.tasks = l.tasks)
    (hready : l.ready.Sublist l'.ready) : Keeps moved deaf l l' := by
  have htask : ∀ v, l'.task? v = l.task? v := task?_congr htasks
  exact {
    ready := hready
    tells := fun v a ha => ⟨a, (htask v).trans ha, rfl, fun _ _ => Nat.le_refl _⟩
    stirs := fun v a b _ ha hb => by
      rw [htask, ha] at hb
      cases hb
      exact ⟨⟨rfl, rfl, .same _, id⟩, fun hsignal hne => absurd hsignal hne⟩
    made := fun v b hnone hb => by
      rw [htask, hnone] at hb
      cases hb }

theorem keeps_schedule (l : Loop π ρ) (job : Job) : Keeps moved deaf l (l.schedule job) :=
  .of_eq rfl (List.sublist_append_left ..)

theorem keeps_foldl {α : Type} {f : Loop π ρ → α → Loop π ρ} (l : Loop π ρ) (as : List α)
    (hf : ∀ l, ∀ a ∈ as, Keeps none deaf l (f l a)) : Keeps none deaf l (as.foldl f l) := by
  induction as generalizing l with
  | nil => exact .refl _ _ l
  | cons a rest ih =>
      exact (hf l a List.mem_cons_self).trans
        (ih (f l a) fun l b hb => hf l b (List.mem_cons_of_mem a hb))

theorem keeps_spawn (l : Loop π ρ) (p : π) : Keeps moved deaf l (l.spawn p).1 := by
  have hold : ∀ v a, l.task? v = some a → (l.spawn p).1.task? v = some a := by
    intro v a ha
    rw [task?_spawn, if_neg (ne_next_of_task? ha), ha]
  refine ⟨List.sublist_append_left ..,
    fun v a ha => ⟨a, hold v a ha, rfl, fun _ _ => Nat.le_refl _⟩,
    fun v a b _ ha hb => ?_, fun v b hnone hb => ?_⟩
  · cases (hold v a ha).symm.trans hb
    exact ⟨⟨rfl, rfl, .same _, id⟩, fun hsignal hne => absurd hsignal hne⟩
  · rcases task?_of_spawn hb with ⟨rfl, rfl⟩ | hsome
    · exact ⟨rfl, rfl, List.mem_append_right _ List.mem_cons_self⟩
    · rw [hnone] at hsome
      cases hsome

/-! ### Signals -/

theorem keeps_wake (l : Loop π ρ) (t : TaskId) : Keeps none none l (l.wake t) := by
  unfold wake
  split
  · next h =>
      refine keeps_modify l t (List.sublist_append_left ..)
        (fun a _ => ⟨rfl, fun _ _ => Nat.le_refl _⟩)
        fun a ha _ => ⟨⟨rfl, rfl, ?_, id⟩, fun _ _ => List.mem_append_right _ List.mem_cons_self⟩
      obtain ⟨b, hb, hsignal⟩ := awaitsSignal_iff.1 h
      cases ha.symm.trans hb
      exact hsignal ▸ .woken
  · exact .refl _ _ l

theorem keeps_wakeAll (l : Loop π ρ) (ts : List TaskId) : Keeps none none l (l.wakeAll ts) :=
  keeps_foldl l ts fun l t _ => l.keeps_wake t

/-- Who waits for no signal does not come to wait for one. -/
theorem Keeps.awaitsSignal (h : Keeps none deaf l m) (hv : l.awaitsSignal v = false) :
    m.awaitsSignal v = false := by
  rw [Bool.eq_false_iff] at hv ⊢
  intro hsignal
  obtain ⟨b, hb, hwait⟩ := awaitsSignal_iff.1 hsignal
  cases ha : l.task? v with
  | none =>
      rw [(h.made v b ha hb).1] at hwait
      cases hwait
  | some a =>
      refine hv (awaitsSignal_iff.2 ⟨a, ha, ?_⟩)
      have hstirs := (h.stirs v a b (by simp) ha hb).1.wait
      rw [hwait] at hstirs
      generalize a.wait = wait at hstirs ⊢
      cases hstirs
      rfl

theorem awaitsSignal_wake (l : Loop π ρ) (t : TaskId) : (l.wake t).awaitsSignal t = false := by
  unfold wake
  split
  · rw [Bool.eq_false_iff]
    intro h
    obtain ⟨b, hb, hwait⟩ := awaitsSignal_iff.1 h
    replace hb : (l.modify t fun task => { task with wait := .woken }).task? t = some b := hb
    rw [task?_modify_self] at hb
    obtain ⟨a, -, rfl⟩ := Option.map_eq_some_iff.1 hb
    cases hwait
  · next h => simpa using h

/-- Nobody who was told waits any longer. -/
theorem awaitsSignal_wakeAll (l : Loop π ρ) {ts : List TaskId} (ht : t ∈ ts) :
    (l.wakeAll ts).awaitsSignal t = false := by
  induction ts generalizing l with
  | nil => cases ht
  | cons u rest ih =>
      rcases List.mem_cons.1 ht with rfl | ht
      · exact ((l.wake t).keeps_wakeAll rest).awaitsSignal (l.awaitsSignal_wake t)
      · exact ih (l.wake u) ht

theorem keeps_wakeFirst (l : Loop π ρ) (ts : List TaskId) :
    Keeps none none l (l.wakeFirst ts).1 := by
  induction ts with
  | nil => exact .refl _ _ l
  | cons t rest ih =>
      unfold wakeFirst
      split
      · exact l.keeps_wake t
      · exact ih

theorem keeps_notify (l : Loop π ρ) (t : TaskId) (turn : Nat) :
    Keeps none none l (l.notify t turn) := by
  unfold notify
  split
  · exact l.keeps_wake t
  · exact .refl _ _ l

/-! ### Cancellation -/

theorem keeps_leaveWord (l : Loop π ρ) (t : TaskId) : Keeps none none l (l.leaveWord t) :=
  keeps_still l t (fun _ => ⟨rfl, fun _ _ => Nat.le_refl _⟩) fun _ => ⟨rfl, rfl, rfl, fun _ => rfl⟩

theorem keeps_drop (l : Loop π ρ) (t : TaskId) : Keeps none none l (l.drop t) := by
  unfold drop
  split
  · exact .refl _ _ l
  · split
    · next h =>
        refine keeps_modify l t (List.sublist_append_left ..)
          (fun _ _ => ⟨rfl, fun _ _ => Nat.le_refl _⟩) fun a ha _ =>
          ⟨⟨rfl, rfl, ?_, id⟩, fun _ _ => List.mem_append_right _ List.mem_cons_self⟩
        obtain ⟨b, hb, hsignal⟩ := awaitsSignal_iff.1 h
        cases ha.symm.trans hb
        exact hsignal ▸ .dropped
    · exact l.keeps_leaveWord t

theorem keeps_cancel (l : Loop π ρ) (t : TaskId) : Keeps none none l (l.cancel t) := by
  unfold cancel
  split
  · exact .refl _ _ l
  · next a ha =>
      split
      · next other hwait =>
          split
          · exact l.keeps_leaveWord t
          · refine (l.keeps_drop other).trans ?_
            exact keeps_still _ t (fun _ => ⟨rfl, fun _ _ => Nat.le_refl _⟩)
              fun _ => ⟨rfl, rfl, rfl, id⟩
      · next members remaining calledOff hwait =>
          split
          · exact l.keeps_leaveWord t
          · have hdrop : Keeps none none l (members.foldl drop l) :=
              keeps_foldl l members fun l v _ => l.keeps_drop v
            refine hdrop.trans ?_
            refine keeps_modify _ t (.refl _) (fun a _ => ⟨rfl, fun _ _ => Nat.le_refl _⟩)
              fun b hb _ => ?_
            -- the members are dropped, and the task itself waits for them as before
            have hgroup := ((hdrop.stirs t a b (by simp) ha hb).1).wait
            rw [hwait] at hgroup
            obtain ⟨off, hoff⟩ : ∃ off, b.wait = .group members remaining off := by
              generalize b.wait = wait at hgroup ⊢
              cases hgroup with
              | same => exact ⟨_, rfl⟩
              | calledOff _ _ _ off => exact ⟨off, rfl⟩
            refine ⟨⟨rfl, rfl, hoff ▸ .calledOff members remaining off true, id⟩, ?_⟩
            intro hsignal
            rw [hoff] at hsignal
            cases hsignal
      · exact l.keeps_drop t

theorem keeps_cancelAll (l : Loop π ρ) (ts : List TaskId) :
    Keeps none none l (ts.foldl cancel l) :=
  keeps_foldl l ts fun l t _ => l.keeps_cancel t

/-! ### Watchers -/

theorem keeps_addWatcher (l : Loop π ρ) (t : TaskId) (w : Watcher) :
    Keeps none none l (l.addWatcher t w) :=
  keeps_still l t (fun _ => ⟨rfl, fun _ _ => by simp⟩) fun _ => ⟨rfl, rfl, rfl, id⟩

theorem keeps_watchOne (t : TaskId) (turn : Nat) (l : Loop π ρ) (other : TaskId) :
    Keeps none none l (watchOne t turn l other) := by
  unfold watchOne
  split
  · exact l.keeps_schedule _
  · exact l.keeps_addWatcher _ _

/-- Who stops listening to others no longer hears of them by these watchers. -/
theorem keeps_unwatch (l : Loop π ρ) (t : TaskId) (others : List TaskId) :
    Keeps none (some t) l (l.unwatch t others) := by
  unfold unwatch
  refine keeps_foldl l others fun l other _ => ?_
  refine keeps_still l other (fun a => ⟨rfl, fun x hx => ?_⟩) fun _ => ⟨rfl, rfl, rfl, id⟩
  refine Nat.le_of_eq (List.count_filter ?_).symm
  cases x with
  | any u turn =>
      have hne : t ≠ u := by simpa [Watcher.isAnyOf] using hx
      simp [Ne.symm hne]
  | waiter _ | member _ => rfl

/-! ### The task itself -/

theorem keeps_suspend (l : Loop π ρ) (t : TaskId) (p : π) (wait : Wait) :
    Keeps (some t) none l (l.suspend t p wait) :=
  keeps_modify l t (.refl _) (fun _ _ => ⟨rfl, fun _ _ => Nat.le_refl _⟩)
    fun _ _ hne => absurd rfl hne

theorem keeps_goOn (l : Loop π ρ) (t : TaskId) (p : π) : Keeps (some t) none l (l.goOn t p) := by
  have hpoint : Keeps (some t) none l { l.modify t fun task => { task with point := p } with
      ready := .resume t :: l.ready } :=
    keeps_modify l t (List.sublist_cons_self ..) (fun _ _ => ⟨rfl, fun _ _ => Nat.le_refl _⟩)
      fun _ _ hne => absurd rfl hne
  exact ⟨hpoint.ready, hpoint.tells, hpoint.stirs, hpoint.made⟩

theorem keeps_awaitAny (l : Loop π ρ) (t : TaskId) (p : π) (others : List TaskId) :
    Keeps none none (l.suspend t p .signal) (l.awaitAny t p others) :=
  keeps_foldl _ others fun l x _ => keeps_watchOne t _ l x

theorem keeps_tick (l : Loop π ρ) (t : TaskId) : Keeps (some t) none l (l.tick t) := by
  unfold Loop.tick
  split
  · exact .refl _ _ l
  · split
    · dsimp only
      split
      · exact keeps_modify l t (List.sublist_append_left ..)
          (fun _ _ => ⟨rfl, fun _ _ => Nat.le_refl _⟩) fun _ _ hne => absurd rfl hne
      · exact keeps_modify l t (.refl _)
          (fun _ _ => ⟨rfl, fun _ _ => Nat.le_refl _⟩) fun _ _ hne => absurd rfl hne
    · exact .refl _ _ l

/-! ### Those who wait -/

/-- A task stays where it is while others go on. -/
structure TaskBides (a b : Task π ρ) : Prop where
  point : b.point = a.point
  ending : b.ending = a.ending
  wait : a.wait.Bides b.wait
  word : a.mustCancel = true → b.mustCancel = true

theorem TaskBides.refl (a : Task π ρ) : TaskBides a a :=
  ⟨rfl, rfl, .same _, id⟩

theorem TaskBides.trans {c : Task π ρ} (h : TaskBides a b) (h' : TaskBides b c) :
    TaskBides a c :=
  ⟨h'.point.trans h.point, h'.ending.trans h.ending, h.wait.trans h'.wait, h'.word ∘ h.word⟩

theorem TaskEases.bides (h : TaskEases a b) : TaskBides a b :=
  ⟨h.point, h.ending, h.wait.bides, h.mustCancel.trans⟩

theorem TaskBides.of_stirs (hending : b.ending = a.ending) (h : TaskStirs a b) :
    TaskBides a b :=
  ⟨h.point, hending, h.wait.bides, h.word⟩

theorem Keeps.bides {deaf : Option TaskId} {l' : Loop π ρ} {a : Task π ρ}
    (h : Keeps none deaf l l') (ha : l.task? v = some a) :
    ∃ b, l'.task? v = some b ∧ TaskBides a b := by
  obtain ⟨b, hb, htells⟩ := h.tells v a ha
  exact ⟨b, hb, .of_stirs htells.ending (h.stirs v a b (by simp) ha hb).1⟩

theorem Keeps.bides_back {deaf : Option TaskId} {l' : Loop π ρ} {b : Task π ρ}
    (h : Keeps none deaf l l') (hb : l'.task? v = some b) :
    b.wait = .none ∨ ∃ a, l.task? v = some a ∧ TaskBides a b := by
  cases ha : l.task? v with
  | none => exact .inl (h.made v b ha hb).1
  | some a =>
      obtain ⟨b', hb', hab⟩ := h.bides ha
      cases hb.symm.trans hb'
      exact .inr ⟨a, rfl, hab⟩

/-- Of the tasks only one is touched by a notice, and only if it waits for a group. -/
theorem bides_tick {b : Task π ρ} (hb : (l.tick t).task? v = some b) :
    ∃ a, l.task? v = some a ∧ TaskBides a b := by
  unfold tick at hb
  split at hb
  · exact ⟨b, hb, .refl b⟩
  · next a ha =>
      split at hb
      · next members n off hwait =>
          have hmodify : (l.modify t fun task =>
              { task with wait := .group members (n - 1) off }).task? v = some b := by
            dsimp only at hb
            split at hb <;> exact hb
          rw [task?_modify] at hmodify
          split at hmodify
          · next htv =>
              subst htv
              rw [ha] at hmodify
              cases hmodify
              exact ⟨a, ha, rfl, rfl, by rw [hwait]; exact .group .., id⟩
          · exact ⟨b, hmodify, .refl b⟩
      · exact ⟨b, hb, .refl b⟩

theorem bides_tick_on {a : Task π ρ} (ha : l.task? v = some a) :
    ∃ b, (l.tick t).task? v = some b ∧ TaskBides a b := by
  have hlt : v < (l.tick t).tasks.length := (l.gentle_tick t).length ▸ lt_of_task? ha
  obtain ⟨b, hb⟩ := exists_task? hlt
  obtain ⟨a', ha', hab⟩ := bides_tick hb
  cases ha.symm.trans ha'
  exact ⟨b, hb, hab⟩

/-! ### Time -/

theorem keeps_expire (l : Loop π ρ) (t : TaskId) : Keeps none none l (l.expire t) :=
  (l.keeps_cancel t).trans (keeps_still _ t (fun _ => ⟨rfl, fun _ _ => Nat.le_refl _⟩)
    fun _ => ⟨rfl, rfl, rfl, id⟩)

/-- A task is changed in what does not bear on how it goes on or whom it tells of its end. -/
theorem keeps_aside (l : Loop π ρ) (t : TaskId) {f : Task π ρ → Task π ρ}
    (hf : ∀ a, (f a).point = a.point ∧ (f a).turn = a.turn ∧ (f a).wait = a.wait ∧
      (f a).mustCancel = a.mustCancel ∧ (f a).ending = a.ending ∧ (f a).watchers = a.watchers) :
    Keeps none none l (l.modify t f) := by
  refine keeps_still l t (fun a => ?_) fun a => ?_
  · obtain ⟨-, -, -, -, hending, hwatchers⟩ := hf a
    exact ⟨hending, fun _ _ => Nat.le_of_eq (by rw [hwatchers])⟩
  · obtain ⟨hpoint, hturn, hwait, hmust, -, -⟩ := hf a
    exact ⟨hpoint, hturn, hwait, hmust.trans⟩

theorem keeps_beginLimit (l : Loop π ρ) (t : TaskId) (delay : Float) :
    Keeps none none l (l.beginLimit t delay) := by
  unfold beginLimit
  split
  next l' id h =>
    have hstart : Keeps none none l l' := by
      split at h
      · cases h
        exact .of_eq rfl (List.sublist_append_left ..)
      · cases h
        exact .of_eq rfl (.refl _)
    exact hstart.trans (keeps_aside l' t fun _ => ⟨rfl, rfl, rfl, rfl, rfl, rfl⟩)

theorem keeps_endLimit (l : Loop π ρ) (t : TaskId) (cancelled : Bool) :
    Keeps none none l (l.endLimit t cancelled).1 := by
  unfold endLimit
  split
  · exact .refl _ _ l
  · split
    · exact .refl _ _ l
    · next limit _ =>
        have hstop : Keeps none none l (l.cancelTimer limit.timer) := .of_eq rfl (.refl _)
        have hended : Keeps none none l ((l.cancelTimer limit.timer).modify t fun task =>
            { task with limit := none }) :=
          hstop.trans (keeps_aside _ t fun _ => ⟨rfl, rfl, rfl, rfl, rfl, rfl⟩)
        dsimp only
        split
        · exact hended.trans (keeps_aside _ t fun _ => ⟨rfl, rfl, rfl, rfl, rfl, rfl⟩)
        · exact hended

end Loop

/-! ## Channels -/

namespace Channel

open Loop (Keeps)

variable {α π ρ : Type}

theorem keeps_serveTaker (c : Channel α) (l : Loop π ρ) : Keeps none none l (c.serveTaker l).2 :=
  l.keeps_wakeFirst c.takers

theorem keeps_serveGiver (c : Channel α) (l : Loop π ρ) : Keeps none none l (c.serveGiver l).2 :=
  l.keeps_wakeFirst c.givers

theorem keeps_give (c : Channel α) (l : Loop π ρ) (item : α) :
    Keeps none none l (c.give l item).2 :=
  keeps_serveTaker _ l

theorem keeps_take? {c c' : Channel α} {l l' : Loop π ρ} {item : α}
    (h : c.take? l = some (item, c', l')) : Keeps none none l l' := by
  unfold take? at h
  split at h
  · cases h
  · cases h
    exact keeps_serveGiver _ l

theorem keeps_leaveTakers (c : Channel α) (l : Loop π ρ) (t : TaskId) (woken : Bool) :
    Keeps none none l (c.leaveTakers l t woken).2 := by
  unfold leaveTakers
  dsimp only
  split
  · exact keeps_serveTaker _ l
  · exact .refl _ _ l

theorem keeps_leaveGivers (c : Channel α) (l : Loop π ρ) (t : TaskId) (woken : Bool) :
    Keeps none none l (c.leaveGivers l t woken).2 := by
  unfold leaveGivers
  dsimp only
  split
  · exact keeps_serveGiver _ l
  · exact .refl _ _ l

end Channel

end LiveCluster
