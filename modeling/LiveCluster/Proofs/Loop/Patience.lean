import LiveCluster.Proofs.Loop.Alert

/-!
# Nobody goes on unasked

A job that lets a task go on is put into the queue for a reason: the task was made, gave way,
was given its signal, was cancelled, or what it waits for has ended. So a task that waits
for another goes on only when that one has ended. `Patient` says that this is so of all
tasks but the one that is on its way, and that none of them has two such jobs; it says nothing
of those who wait for groups.
-/

namespace LiveCluster

/-- What may become of a wait, and of the number of jobs that let its task go on, while the task
itself does nothing. -/
inductive Wait.Urged : Wait → Nat → Wait → Nat → Prop
  | same (w : Wait) (n : Nat) : Urged w n w n
  | roused {b : Wait} (n : Nat) : b.isRoused = true → Urged .signal n b (n + 1)
  | group (members members' : List TaskId) (k k' : Nat) (off off' : Bool) (n n' : Nat) :
      Urged (.group members k off) n (.group members' k' off') n'

theorem Wait.Urged.trans {a b c : Wait} {k m n : Nat} (h : a.Urged k b m) (h' : b.Urged m c n) :
    a.Urged k c n := by
  cases h with
  | same => exact h'
  | roused _ hroused =>
      cases h' with
      | same => exact .roused _ hroused
      | roused | group => cases hroused
  | group =>
      cases h' with
      | same => exact .group ..
      | group => exact .group ..

/-- Whether a wait is for the ends of a group. -/
def Wait.isGroup : Wait → Bool
  | .group .. => true
  | _ => false

namespace Loop

variable {π ρ : Type} {l l' m n : Loop π ρ} {t u v : TaskId} {a : Task π ρ} {busy : Option TaskId}

/-- How many jobs in the queue let a task go on. -/
def resumes (l : Loop π ρ) (t : TaskId) : Nat :=
  l.ready.count (.resume t)

theorem resumes_schedule (l : Loop π ρ) (t u : TaskId) :
    (l.schedule (.resume t)).resumes u = l.resumes u + if t = u then 1 else 0 := by
  simp [resumes, schedule, List.count_append, List.count_singleton]

/-! ## What one task does while the others wait -/

/-- No task is let go on but one that waited for a signal, or waits for a group. -/
structure Urges (l l' : Loop π ρ) : Prop where
  gone : ∀ t, l.task? t = none → l'.task? t = none ∧ l'.resumes t = l.resumes t
  there : ∀ t a, l.task? t = some a → ∃ b, l'.task? t = some b ∧ b.ending = a.ending ∧
    (∀ u, b.watchers.count (.waiter u) = a.watchers.count (.waiter u)) ∧
      a.wait.Urged (l.resumes t) b.wait (l'.resumes t)

theorem Urges.refl (l : Loop π ρ) : Urges l l :=
  ⟨fun _ h => ⟨h, rfl⟩, fun _ a ha => ⟨a, ha, rfl, fun _ => rfl, .same _ _⟩⟩

theorem Urges.trans (h : Urges l m) (h' : Urges m n) : Urges l n where
  gone t hnone := by
    obtain ⟨hm, hresumes⟩ := h.gone t hnone
    obtain ⟨hn, hresumes'⟩ := h'.gone t hm
    exact ⟨hn, hresumes'.trans hresumes⟩
  there t a ha := by
    obtain ⟨b, hb, hending, hwatchers, hurged⟩ := h.there t a ha
    obtain ⟨c, hc, hending', hwatchers', hurged'⟩ := h'.there t b hb
    exact ⟨c, hc, hending'.trans hending, fun u => (hwatchers' u).trans (hwatchers u),
      hurged.trans hurged'⟩

/-- Nothing is changed but jobs that let nobody go on. -/
theorem Urges.of_ready (htasks : l'.tasks = l.tasks) (hresumes : ∀ u, l'.resumes u = l.resumes u) :
    Urges l l' := by
  have htask : ∀ v, l'.task? v = l.task? v := task?_congr htasks
  exact ⟨fun t h => ⟨(htask t).trans h, hresumes t⟩, fun t a ha =>
    ⟨a, (htask t).trans ha, rfl, fun _ => rfl, hresumes t ▸ .same _ _⟩⟩

theorem urges_modify (l : Loop π ρ) (t : TaskId) {f : Task π ρ → Task π ρ} {ready : List Job}
    (hothers : ∀ u, u ≠ t → ready.count (.resume u) = l.resumes u)
    (hnone : l.task? t = none → ready.count (.resume t) = l.resumes t)
    (hf : ∀ a, l.task? t = some a → (f a).ending = a.ending ∧
      (∀ u, (f a).watchers.count (.waiter u) = a.watchers.count (.waiter u)) ∧
        a.wait.Urged (l.resumes t) (f a).wait (ready.count (.resume t))) :
    Urges l { l.modify t f with ready := ready } where
  gone u hu := by
    refine ⟨?_, ?_⟩
    · show (l.modify t f).task? u = none
      rw [task?_modify, hu]
      split <;> rfl
    · by_cases hut : u = t
      · subst hut
        exact hnone hu
      · exact hothers u hut
  there u a ha := by
    show ∃ b, (l.modify t f).task? u = some b ∧ _
    rw [task?_modify, ha]
    split
    · next htu =>
        subst htu
        exact ⟨f a, rfl, hf a ha⟩
    · next htu =>
        refine ⟨a, rfl, rfl, fun _ => rfl, ?_⟩
        show a.wait.Urged (l.resumes u) a.wait (ready.count (.resume u))
        rw [hothers u (Ne.symm htu)]
        exact .same _ _

/-- A task is changed in what does not bear on when it goes on. -/
theorem urges_still (l : Loop π ρ) (t : TaskId) {f : Task π ρ → Task π ρ}
    (hf : ∀ a, (f a).ending = a.ending ∧ (f a).wait = a.wait ∧
      ∀ u, (f a).watchers.count (.waiter u) = a.watchers.count (.waiter u)) :
    Urges l (l.modify t f) :=
  urges_modify l t (fun _ _ => rfl) (fun _ => rfl) fun a _ =>
    ⟨(hf a).1, (hf a).2.2, (hf a).2.1 ▸ .same _ _⟩

/-- A task that waits for a signal is let go on. -/
theorem urges_rouse (wait : Wait) {f : Task π ρ → Task π ρ} (h : l.awaitsSignal t = true)
    (hwait : wait.isRoused = true) (hf : ∀ a, (f a).ending = a.ending ∧
      (f a).watchers = a.watchers ∧ (f a).wait = wait) :
    Urges l ((l.modify t f).schedule (.resume t)) := by
  obtain ⟨a, ha, hsignal⟩ := awaitsSignal_iff.1 h
  have hcount : ∀ u, (l.ready ++ [Job.resume t]).count (Job.resume u) =
      l.resumes u + if t = u then 1 else 0 := l.resumes_schedule t
  show Urges l { l.modify t f with ready := l.ready ++ [.resume t] }
  refine urges_modify l t (fun u hu => ?_) (fun hnone => ?_) fun b hb => ?_
  · rw [hcount, if_neg (Ne.symm hu), Nat.add_zero]
  · rw [ha] at hnone
    cases hnone
  · cases ha.symm.trans hb
    obtain ⟨hending, hwatchers, hroused⟩ := hf a
    refine ⟨hending, fun u => by rw [hwatchers], ?_⟩
    rw [hcount, if_pos rfl, hsignal, hroused]
    exact .roused _ hwait

theorem urges_foldl {α : Type} {f : Loop π ρ → α → Loop π ρ} (hf : ∀ l a, Urges l (f l a))
    (l : Loop π ρ) (as : List α) : Urges l (as.foldl f l) := by
  induction as generalizing l with
  | nil => exact .refl l
  | cons a rest ih => exact (hf l a).trans (ih (f l a))

theorem urges_schedule (l : Loop π ρ) {job : Job} (hjob : ∀ u, job ≠ .resume u) :
    Urges l (l.schedule job) :=
  .of_ready rfl fun u => by
    simp [resumes, schedule, List.count_append, hjob u]

/-! ### Signals and cancellation -/

theorem urges_wake (l : Loop π ρ) (t : TaskId) : Urges l (l.wake t) := by
  unfold wake
  split
  · next h => exact urges_rouse .woken h rfl fun _ => ⟨rfl, rfl, rfl⟩
  · exact .refl l

theorem urges_wakeAll (l : Loop π ρ) (ts : List TaskId) : Urges l (l.wakeAll ts) :=
  urges_foldl urges_wake l ts

theorem urges_wakeFirst (l : Loop π ρ) (ts : List TaskId) : Urges l (l.wakeFirst ts).1 := by
  induction ts with
  | nil => exact .refl l
  | cons t rest ih =>
      unfold wakeFirst
      split
      · exact l.urges_wake t
      · exact ih

theorem urges_notify (l : Loop π ρ) (t : TaskId) (turn : Nat) : Urges l (l.notify t turn) := by
  unfold notify
  split
  · exact l.urges_wake t
  · exact .refl l

theorem urges_leaveWord (l : Loop π ρ) (t : TaskId) : Urges l (l.leaveWord t) :=
  l.urges_still t fun _ => ⟨rfl, rfl, fun _ => rfl⟩

theorem urges_drop (l : Loop π ρ) (t : TaskId) : Urges l (l.drop t) := by
  unfold drop
  split
  · exact .refl l
  · split
    · next h => exact urges_rouse .dropped h rfl fun _ => ⟨rfl, rfl, rfl⟩
    · exact l.urges_leaveWord t

theorem urges_cancel (l : Loop π ρ) (t : TaskId) : Urges l (l.cancel t) := by
  unfold cancel
  split
  · exact .refl l
  · next a ha =>
      split
      · split
        · exact l.urges_leaveWord t
        · exact (l.urges_drop _).trans (urges_still _ t fun _ => ⟨rfl, rfl, fun _ => rfl⟩)
      · next members remaining calledOff hwait =>
          split
          · exact l.urges_leaveWord t
          · have hdrop : Urges l (members.foldl drop l) := urges_foldl urges_drop l members
            refine hdrop.trans (urges_modify _ t (fun _ _ => rfl) (fun _ => rfl) fun b hb => ?_)
            obtain ⟨b', hb', -, -, hurged⟩ := hdrop.there t a ha
            cases hb.symm.trans hb'
            refine ⟨rfl, fun _ => rfl, ?_⟩
            rw [hwait] at hurged
            generalize b.wait = wait at hurged ⊢
            generalize (members.foldl drop l).resumes t = k at hurged
            cases hurged <;> exact .group ..
      · exact l.urges_drop t

theorem urges_cancelAll (l : Loop π ρ) (ts : List TaskId) : Urges l (ts.foldl cancel l) :=
  urges_foldl urges_cancel l ts

/-! ### Watchers -/

theorem urges_addWatcher (l : Loop π ρ) (t : TaskId) {w : Watcher} (hw : ∀ u, w ≠ .waiter u) :
    Urges l (l.addWatcher t w) :=
  l.urges_still t fun a => ⟨rfl, rfl, fun u => by
    simp [List.count_append, hw u]⟩

theorem urges_watchOne (t : TaskId) (turn : Nat) (l : Loop π ρ) (other : TaskId) :
    Urges l (watchOne t turn l other) := by
  unfold watchOne
  split
  · exact l.urges_schedule (by simp)
  · exact l.urges_addWatcher other (by simp)

theorem urges_unwatch (l : Loop π ρ) (t : TaskId) (others : List TaskId) :
    Urges l (l.unwatch t others) := by
  unfold unwatch
  refine urges_foldl (fun l other => ?_) l others
  exact l.urges_still other fun _ => ⟨rfl, rfl, fun _ => List.count_filter rfl⟩

theorem urges_tick (l : Loop π ρ) (t : TaskId) : Urges l (l.tick t) := by
  unfold tick
  split
  · exact .refl l
  · next a ha =>
      split
      · next members remaining off hwait =>
          dsimp only
          split
          · refine urges_modify l t (fun u hu => ?_) (fun hnone => ?_) fun b hb => ?_
            · exact (l.resumes_schedule t u).trans (by rw [if_neg (Ne.symm hu), Nat.add_zero])
            · rw [ha] at hnone
              cases hnone
            · cases ha.symm.trans hb
              exact ⟨rfl, fun _ => rfl, hwait ▸ .group ..⟩
          · refine urges_modify l t (fun _ _ => rfl) (fun _ => rfl) fun b hb => ?_
            cases ha.symm.trans hb
            exact ⟨rfl, fun _ => rfl, hwait ▸ .group ..⟩
      · exact .refl l

/-! ### Time -/

theorem urges_cancelTimer (l : Loop π ρ) (id : TimerId) : Urges l (l.cancelTimer id) :=
  .of_ready rfl fun _ => rfl

theorem urges_startTimer (l : Loop π ρ) (delay : Float) (alarm : Alarm) :
    Urges l (l.startTimer delay alarm).1 :=
  .of_ready rfl fun _ => rfl

theorem urges_expire (l : Loop π ρ) (t : TaskId) : Urges l (l.expire t) :=
  (l.urges_cancel t).trans (urges_still _ t fun _ => ⟨rfl, rfl, fun _ => rfl⟩)

theorem urges_beginLimit (l : Loop π ρ) (t : TaskId) (delay : Float) :
    Urges l (l.beginLimit t delay) := by
  unfold beginLimit
  split
  next l' id h =>
    have hstart : Urges l l' := by
      split at h <;> cases h
      · exact .of_ready rfl fun u => by simp [resumes, List.count_append]
      · exact .of_ready rfl fun _ => rfl
    exact hstart.trans (l'.urges_still t fun _ => ⟨rfl, rfl, fun _ => rfl⟩)

theorem urges_endLimit (l : Loop π ρ) (t : TaskId) (cancelled : Bool) :
    Urges l (l.endLimit t cancelled).1 := by
  unfold endLimit
  split
  · exact .refl l
  · split
    · exact .refl l
    · next limit _ =>
        have hended : Urges l ((l.cancelTimer limit.timer).modify t fun task =>
            { task with limit := none }) :=
          (l.urges_cancelTimer limit.timer).trans
            (urges_still _ t fun _ => ⟨rfl, rfl, fun _ => rfl⟩)
        dsimp only
        split
        · exact hended.trans (urges_still _ t fun _ => ⟨rfl, rfl, fun _ => rfl⟩)
        · exact hended

theorem urges_beginRound (l : Loop π ρ) : Urges l l.beginRound :=
  .of_ready rfl fun u => by
    have hnone : (l.dueTimers.map Job.alarm).count (.resume u) = 0 :=
      List.count_eq_zero.2 (by simp)
    rw [resumes, beginRound, List.count_append, hnone, Nat.add_zero, resumes]

/-! ## Patience -/

/-- Nobody goes on unasked but the one that is on its way, if any. -/
structure Patient (busy : Option TaskId) (l : Loop π ρ) : Prop where
  known : ∀ t, l.task? t = none → l.resumes t = 0
  once : ∀ t a, busy ≠ some t → l.task? t = some a → a.ending = none → a.wait.isGroup = false →
    l.resumes t ≤ 1
  asked : ∀ t a, busy ≠ some t → l.task? t = some a → a.ending = none → l.resumes t ≠ 0 →
    a.wait.isRoused = true ∨ a.wait.isGroup = true ∨
      ∃ x b, a.wait = .task x ∧ l.task? x = some b ∧ b.ending.isSome = true
  /-- Who is told of the end of a task waits for it, and is told once. -/
  waiters : ∀ x b u, l.task? x = some b → b.ending = none → .waiter u ∈ b.watchers →
    b.watchers.count (.waiter u) = 1 ∧
      ∃ a, l.task? u = some a ∧ (a.ending = none → a.wait = .task x)
  runs : ∀ t, busy = some t → ∃ a, l.task? t = some a ∧ a.ending = none ∧ a.wait = .none

/-- Nobody tells a task that is on its way of an end. -/
theorem Patient.not_waiter (h : Patient (some t) l) {x : TaskId} {b : Task π ρ}
    (hb : l.task? x = some b) (hgoing : b.ending = none) : .waiter t ∉ b.watchers := by
  intro hmem
  obtain ⟨-, a, ha, hwait⟩ := h.waiters x b t hb hgoing hmem
  obtain ⟨a', ha', hgoing', hrunning⟩ := h.runs t rfl
  cases ha.symm.trans ha'
  rw [hwait hgoing'] at hrunning
  cases hrunning

theorem Urges.back (h : Urges l m) {b : Task π ρ} (hb : m.task? t = some b) :
    ∃ a, l.task? t = some a ∧ b.ending = a.ending ∧
      (∀ u, b.watchers.count (.waiter u) = a.watchers.count (.waiter u)) ∧
        a.wait.Urged (l.resumes t) b.wait (m.resumes t) := by
  cases ha : l.task? t with
  | none =>
      rw [(h.gone t ha).1] at hb
      cases hb
  | some a =>
      obtain ⟨b', hb', hspec⟩ := h.there t a ha
      cases hb.symm.trans hb'
      exact ⟨a, rfl, hspec⟩

theorem Patient.urges (h : Patient busy l) (hl : Urges l m) : Patient busy m where
  known t hm := by
    cases ha : l.task? t with
    | none => rw [(hl.gone t ha).2, h.known t ha]
    | some a =>
        obtain ⟨b, hb, -⟩ := hl.there t a ha
        rw [hm] at hb
        cases hb
  once t b ht hb hgoing hgroup := by
    obtain ⟨a, ha, hending, -, hurged⟩ := hl.back hb
    have honce := h.once t a ht ha (hending.symm.trans hgoing)
    have hasked := h.asked t a ht ha (hending.symm.trans hgoing)
    generalize a.wait = wait at honce hasked hurged
    generalize b.wait = wait' at hurged hgroup
    generalize m.resumes t = k at hurged ⊢
    cases hurged with
    | same => exact honce hgroup
    | group => cases hgroup
    | roused =>
        -- who waits for a signal had no job in the queue
        have hzero : l.resumes t = 0 := by
          by_contra hne
          rcases hasked hne with hroused | hgroup | ⟨_, _, htask, -⟩
          · cases hroused
          · cases hgroup
          · cases htask
        omega
  asked t b ht hb hgoing hresumes := by
    obtain ⟨a, ha, hending, -, hurged⟩ := hl.back hb
    have hasked := h.asked t a ht ha (hending.symm.trans hgoing)
    generalize a.wait = wait at hasked hurged
    generalize b.wait = wait' at hurged ⊢
    generalize m.resumes t = k at hurged hresumes
    cases hurged with
    | same =>
        refine (hasked hresumes).imp_right (Or.imp_right ?_)
        rintro ⟨x, c, hx, hc, hended⟩
        obtain ⟨d, hd, hsame, -⟩ := hl.there x c hc
        exact ⟨x, d, hx, hd, hsame ▸ hended⟩
    | roused _ hroused => exact .inl hroused
    | group => exact .inr (.inl rfl)
  waiters x b u hb hgoing hmem := by
    obtain ⟨c, hc, hending, hwatchers, -⟩ := hl.back hb
    rw [← List.count_pos_iff, hwatchers, List.count_pos_iff] at hmem
    obtain ⟨hone, a, ha, hwait⟩ := h.waiters x c u hc (hending.symm.trans hgoing) hmem
    obtain ⟨a', ha', hending', -, hurged⟩ := hl.there u a ha
    refine ⟨(hwatchers u).trans hone, a', ha', fun hgoing' => ?_⟩
    rw [hwait (hending'.symm.trans hgoing')] at hurged
    generalize a'.wait = wait at hurged ⊢
    generalize m.resumes u = k at hurged
    cases hurged
    rfl
  runs t ht := by
    obtain ⟨a, ha, hgoing, hwait⟩ := h.runs t ht
    obtain ⟨b, hb, hending, -, hurged⟩ := hl.there t a ha
    refine ⟨b, hb, hending.trans hgoing, ?_⟩
    rw [hwait] at hurged
    generalize b.wait = wait at hurged ⊢
    generalize m.resumes t = k at hurged
    cases hurged
    rfl

/-! ## On the way -/

/-- What a task on its way does while the others wait: it lets none of them go on unasked, and
neither itself. -/
def Defers (l l' : Loop π ρ) : Prop :=
  ∀ busy, Patient busy l → Patient busy l' ∧ ∀ t, busy = some t → l'.resumes t = l.resumes t

theorem Defers.refl (l : Loop π ρ) : Defers l l :=
  fun _ h => ⟨h, fun _ _ => rfl⟩

theorem Defers.trans (h : Defers l m) (h' : Defers m n) : Defers l n := by
  intro busy hl
  obtain ⟨hm, hresumes⟩ := h busy hl
  obtain ⟨hn, hresumes'⟩ := h' busy hm
  exact ⟨hn, fun t ht => (hresumes' t ht).trans (hresumes t ht)⟩

theorem Urges.defers (h : Urges l m) : Defers l m := by
  refine fun busy hl => ⟨hl.urges h, fun t ht => ?_⟩
  obtain ⟨a, ha, -, hwait⟩ := hl.runs t ht
  obtain ⟨b, -, -, -, hurged⟩ := h.there t a ha
  rw [hwait] at hurged
  generalize b.wait = wait at hurged
  generalize m.resumes t = k at hurged ⊢
  cases hurged
  rfl

theorem defers_spawn (l : Loop π ρ) (p : π) : Defers l (l.spawn p).1 := by
  intro busy h
  have hresumes : ∀ u, (l.spawn p).1.resumes u =
      l.resumes u + if l.tasks.length = u then 1 else 0 := l.resumes_schedule l.tasks.length
  have hold : ∀ {u a}, l.task? u = some a → (l.spawn p).1.task? u = some a ∧
      (l.spawn p).1.resumes u = l.resumes u := by
    intro u a ha
    have hne : u ≠ l.tasks.length := ne_next_of_task? ha
    rw [task?_spawn, if_neg hne, hresumes, if_neg (Ne.symm hne)]
    exact ⟨ha, rfl⟩
  refine ⟨⟨fun u hu => ?_, fun u b hb hu hgoing hgroup => ?_, fun u b hb hu hgoing hne => ?_,
    fun x b u hb hgoing hmem => ?_, fun t ht => ?_⟩, fun t ht => ?_⟩
  · rw [task?_spawn] at hu
    split at hu
    · cases hu
    · next hne => rw [hresumes, if_neg (Ne.symm hne), h.known u hu]
  · rcases task?_of_spawn hu with ⟨rfl, rfl⟩ | ha
    · exact Nat.le_of_eq
        (by rw [hresumes, h.known _ (List.getElem?_eq_none (Nat.le_refl _)), if_pos rfl])
    · rw [(hold ha).2]
      exact h.once u b hb ha hgoing hgroup
  · rcases task?_of_spawn hu with ⟨rfl, rfl⟩ | ha
    · exact .inl rfl
    · rw [(hold ha).2] at hne
      refine (h.asked u b hb ha hgoing hne).imp_right (Or.imp_right ?_)
      rintro ⟨x, c, hx, hc, hended⟩
      exact ⟨x, c, hx, (hold hc).1, hended⟩
  · rcases task?_of_spawn hb with ⟨rfl, rfl⟩ | hb
    · cases hmem
    · obtain ⟨hone, a, ha, hwait⟩ := h.waiters x b u hb hgoing hmem
      exact ⟨hone, a, (hold ha).1, hwait⟩
  · obtain ⟨a, ha, hspec⟩ := h.runs t ht
    exact ⟨a, (hold ha).1, hspec⟩
  · obtain ⟨a, ha, -⟩ := h.runs t ht
    exact (hold ha).2

/-! ## At the end of a step -/

/-- A task on its way ends, or has come to wait and will go on when it is asked to. Who is on its
way may have been let go on once more only if it ends. -/
def Settles (t : TaskId) (l l' : Loop π ρ) : Prop :=
  Patient (some t) l → l.resumes t = 0 ∨ l'.ended t = true → Patient none l'

theorem Defers.settles (h : Defers l m) (h' : Settles t m n) : Settles t l n := by
  intro hl hfree
  obtain ⟨hm, hresumes⟩ := h _ hl
  exact h' hm (hfree.imp_left (hresumes t rfl).trans)

theorem Settles.urges (h : Settles t l m) (h' : Urges m n) : Settles t l n := by
  intro hl hfree
  refine (h hl (hfree.imp_right fun hended => ?_)).urges h'
  cases hm : m.task? t with
  | none => rw [Loop.ended, hm]
  | some a =>
      obtain ⟨b, hb, hending, -⟩ := h'.there t a hm
      rw [ended_of_task? hb] at hended
      rw [ended_of_task? hm, ← hending, hended]

/-- The task itself goes on or waits, and nothing else is changed. -/
theorem Settles.of_own {f : Task π ρ → Task π ρ} {ready : List Job} {round : Nat}
    (hothers : ∀ u, u ≠ t → ready.count (.resume u) = l.resumes u)
    (hf : ∀ a, (f a).ending = a.ending ∧ (f a).watchers = a.watchers)
    (hown : ∀ a, a.wait = .none → l.resumes t = 0 → (f a).wait.isGroup = true ∨
      ready.count (.resume t) = 0 ∨ ready.count (.resume t) = 1 ∧ (f a).wait.isRoused = true) :
    Settles t l { l.modify t f with ready := ready, round := round } := by
  intro h hfree
  obtain ⟨a, ha, hgoing, hwait⟩ := h.runs t rfl
  have hself : (l.modify t f).task? t = some (f a) := by
    rw [task?_modify_self, ha]
    rfl
  have hother : ∀ u, u ≠ t → (l.modify t f).task? u = l.task? u := fun u hu => by
    rw [task?_modify, if_neg (Ne.symm hu)]
  have hzero : l.resumes t = 0 := by
    refine hfree.resolve_right fun hended => ?_
    rw [show Loop.ended { l.modify t f with ready := ready, round := round } t =
      (l.modify t f).ended t from rfl, ended_of_task? hself, (hf a).1, hgoing] at hended
    cases hended
  have hown := hown a hwait hzero
  have hback : ∀ {x b}, (l.modify t f).task? x = some b → ∃ c, l.task? x = some c ∧
      b.ending = c.ending ∧ b.watchers = c.watchers ∧ (x ≠ t → c = b) := by
    intro x b hb
    by_cases hx : x = t
    · subst hx
      cases hself.symm.trans hb
      exact ⟨a, ha, (hf a).1, (hf a).2, fun hne => absurd rfl hne⟩
    · exact ⟨b, (hother x hx).symm.trans hb, rfl, rfl, fun _ => rfl⟩
  refine ⟨fun u hu => ?_, fun u b _ hb hgoing' hgroup => ?_, fun u b _ hb hgoing' hne => ?_,
    fun x b u hb hgoing' hmem => ?_, fun _ hu => by cases hu⟩
  · have hu' : (l.modify t f).task? u = none := hu
    by_cases hut : u = t
    · subst hut
      rw [hself] at hu'
      cases hu'
    · exact (hothers u hut).trans (h.known u ((hother u hut).symm.trans hu'))
  · by_cases hut : u = t
    · subst hut
      cases hself.symm.trans hb
      rcases hown with hgroup' | hnone | ⟨hone, -⟩
      · rw [hgroup'] at hgroup
        cases hgroup
      · exact Nat.le_trans (Nat.le_of_eq hnone) (Nat.zero_le _)
      · exact Nat.le_of_eq hone
    · refine Nat.le_trans (Nat.le_of_eq (hothers u hut)) ?_
      exact h.once u b (fun heq => hut (Option.some.inj heq).symm)
        ((hother u hut).symm.trans hb) hgoing' hgroup
  · by_cases hut : u = t
    · subst hut
      cases hself.symm.trans hb
      rcases hown with hgroup' | hnone | ⟨-, hroused⟩
      · exact .inr (.inl hgroup')
      · exact absurd hnone hne
      · exact .inl hroused
    · have hne' : l.resumes u ≠ 0 := fun hzero => hne ((hothers u hut).trans hzero)
      refine (h.asked u b (fun heq => hut (Option.some.inj heq).symm)
        ((hother u hut).symm.trans hb) hgoing' hne').imp_right (Or.imp_right ?_)
      rintro ⟨x, c, hx, hc, hended⟩
      by_cases hxt : x = t
      · subst hxt
        cases ha.symm.trans hc
        rw [hgoing] at hended
        cases hended
      · exact ⟨x, c, hx, (hother x hxt).trans hc, hended⟩
  · obtain ⟨c, hc, hending, hwatchers, -⟩ := hback hb
    rw [hwatchers] at hmem ⊢
    obtain ⟨hone, d, hd, hwait'⟩ := h.waiters x c u hc (hending.symm.trans hgoing') hmem
    have hut : u ≠ t := by
      rintro rfl
      exact h.not_waiter hc (hending.symm.trans hgoing') hmem
    exact ⟨hone, d, (hother u hut).trans hd, hwait'⟩

theorem settles_goOn (l : Loop π ρ) (t : TaskId) (p : π) : Settles t l (l.goOn t p) := by
  refine .of_own (fun u hu => ?_) (fun _ => ⟨rfl, rfl⟩) fun a hwait hzero => .inr (.inr ⟨?_, ?_⟩)
  · exact List.count_cons_of_ne fun heq => hu (Job.resume.inj heq).symm
  · exact List.count_cons_self.trans (congrArg (· + 1) hzero)
  · show a.wait.isRoused = true
    rw [hwait]
    rfl

theorem settles_suspend (l : Loop π ρ) (t : TaskId) (p : π) (wait : Wait) :
    Settles t l (l.suspend t p wait) :=
  .of_own (fun _ _ => rfl) (fun _ => ⟨rfl, rfl⟩) fun _ _ hzero => .inr (.inl hzero)

theorem settles_giveWay (l : Loop π ρ) (t : TaskId) (p : π) : Settles t l (l.giveWay t p) := by
  have hcount := l.resumes_schedule t
  let f : Task π ρ → Task π ρ :=
    fun task => { task with point := p, wait := .none, turn := task.turn + 1 }
  show Settles t l { l.modify t f with ready := l.ready ++ [.resume t], round := l.round }
  refine .of_own (fun u hu => ?_) (fun _ => ⟨rfl, rfl⟩) fun _ _ hzero => .inr (.inr ⟨?_, rfl⟩)
  · exact (hcount u).trans (by rw [if_neg (Ne.symm hu), Nat.add_zero])
  · exact (hcount t).trans (by rw [if_pos rfl, hzero])

theorem settles_awaitAny (l : Loop π ρ) (t : TaskId) (p : π) (others : List TaskId) :
    Settles t l (l.awaitAny t p others) :=
  (l.settles_suspend t p .signal).urges (urges_foldl (urges_watchOne t _) _ others)

theorem settles_awaitGroup (l : Loop π ρ) (t : TaskId) (p : π) (members : List TaskId) :
    Settles t l (l.awaitGroup t p members) :=
  (l.settles_suspend t p _).urges (urges_foldl (fun l m => l.urges_addWatcher m (by simp)) _ _)

/-! ### Waiting for another -/

theorem task?_of_addWatcher {other x : TaskId} {watcher : Watcher} {b : Task π ρ}
    (hb : (l.addWatcher other watcher).task? x = some b) :
    ∃ c, l.task? x = some c ∧ b.ending = c.ending ∧ b.wait = c.wait ∧
      (b.watchers = c.watchers ∨ x = other ∧ b.watchers = c.watchers ++ [watcher]) := by
  rw [addWatcher, task?_modify] at hb
  split at hb
  · next hx =>
      obtain ⟨c, hc, rfl⟩ := Option.map_eq_some_iff.1 hb
      exact ⟨c, hc, rfl, rfl, .inr ⟨hx.symm, rfl⟩⟩
  · exact ⟨b, hb, rfl, rfl, .inl rfl⟩

theorem task?_addWatcher {other x : TaskId} {c : Task π ρ} (hc : l.task? x = some c)
    (watcher : Watcher) : ∃ b, (l.addWatcher other watcher).task? x = some b ∧
      b.ending = c.ending ∧ b.wait = c.wait := by
  obtain ⟨b, hb, -⟩ := (l.gentle_addWatcher other watcher).eases x c (fun h => h) hc
  obtain ⟨c', hc', hending, hwait, -⟩ := task?_of_addWatcher hb
  cases hc.symm.trans hc'
  exact ⟨b, hb, hending, hwait⟩

theorem ended_addWatcher (l : Loop π ρ) (other : TaskId) (watcher : Watcher) (t : TaskId) :
    (l.addWatcher other watcher).ended t = l.ended t := by
  cases hc : l.task? t with
  | some c =>
      obtain ⟨b, hb, hending, -⟩ := task?_addWatcher hc watcher
      rw [ended_of_task? hb, ended_of_task? hc, hending]
  | none =>
      rw [Loop.ended, Loop.ended, hc]
      cases hb : (l.addWatcher other watcher).task? t with
      | none => rfl
      | some b =>
          obtain ⟨c, hc', -⟩ := task?_of_addWatcher hb
          rw [hc] at hc'
          cases hc'

/-- A task that waits for another will be told of its end, if it is not told twice. -/
theorem Patient.addWaiter {other : TaskId} {a : Task π ρ} (h : Patient none l)
    (ha : l.task? t = some a) (hwait : a.wait = .task other)
    (hnone : ∀ c, l.task? other = some c → c.ending = none → .waiter t ∉ c.watchers) :
    Patient none (l.addWatcher other (.waiter t)) where
  known u hu := by
    refine h.known u ?_
    cases hc : l.task? u with
    | none => rfl
    | some c =>
        obtain ⟨b, hb, -⟩ := task?_addWatcher hc (.waiter t)
        rw [hu] at hb
        cases hb
  once u b hbusy hb hgoing hgroup := by
    obtain ⟨c, hc, hending, hwait, -⟩ := task?_of_addWatcher hb
    exact h.once u c hbusy hc (hending.symm.trans hgoing) (hwait ▸ hgroup)
  asked u b hbusy hb hgoing hne := by
    obtain ⟨c, hc, hending, hwait, -⟩ := task?_of_addWatcher hb
    rw [hwait]
    refine (h.asked u c hbusy hc (hending.symm.trans hgoing) hne).imp_right (Or.imp_right ?_)
    rintro ⟨x, d, hx, hd, hended⟩
    obtain ⟨e, he, hsame, -⟩ := task?_addWatcher hd (.waiter t)
    exact ⟨x, e, hx, he, hsame ▸ hended⟩
  waiters x b u hb hgoing hmem := by
    obtain ⟨c, hc, hending, -, hwatchers⟩ := task?_of_addWatcher hb
    have hold : .waiter u ∈ c.watchers → c.watchers.count (.waiter u) = 1 ∧
        ∃ a, (l.addWatcher other (.waiter t)).task? u = some a ∧
          (a.ending = none → a.wait = .task x) := by
      intro hmem
      obtain ⟨hone, d, hd, hwait⟩ := h.waiters x c u hc (hending.symm.trans hgoing) hmem
      obtain ⟨e, he, hsame, hwait'⟩ := task?_addWatcher hd (.waiter t)
      exact ⟨hone, e, he, fun hgoing => hwait'.trans (hwait (hsame ▸ hgoing))⟩
    rcases hwatchers with hsame | ⟨rfl, hsame⟩
    · rw [hsame] at hmem ⊢
      exact hold hmem
    · rw [hsame] at hmem ⊢
      by_cases hut : u = t
      · subst hut
        obtain ⟨e, he, -, hwait'⟩ : ∃ e, (l.addWatcher x (.waiter u)).task? u = some e ∧
            e.ending = a.ending ∧ e.wait = a.wait := task?_addWatcher ha _
        refine ⟨?_, e, he, fun _ => hwait'.trans hwait⟩
        have hzero := List.count_eq_zero.2 (hnone c hc (hending.symm.trans hgoing))
        rw [List.count_append, hzero, List.count_singleton_self]
      · have hmem : .waiter u ∈ c.watchers := by simpa [hut] using hmem
        rw [List.count_append, List.count_singleton]
        simpa [Ne.symm hut] using hold hmem
  runs _ hu := by cases hu

theorem task?_of_suspend {p : π} {wait : Wait} {x : TaskId} {c : Task π ρ}
    (hc : (l.suspend t p wait).task? x = some c) :
    ∃ d, l.task? x = some d ∧ d.ending = c.ending ∧ d.watchers = c.watchers := by
  rw [suspend, task?_modify] at hc
  split at hc
  · obtain ⟨d, hd, rfl⟩ := Option.map_eq_some_iff.1 hc
    exact ⟨d, hd, rfl, rfl⟩
  · exact ⟨c, hc, rfl, rfl⟩

theorem settles_awaitTask (l : Loop π ρ) (t : TaskId) (p : π) (other : TaskId) :
    Settles t l (l.awaitTask t p other) := by
  intro h hfree
  obtain ⟨a, ha, -⟩ := h.runs t rfl
  rw [awaitTask, ended_addWatcher] at hfree
  refine (l.settles_suspend t p (.task other) h hfree).addWaiter (task?_suspend ha p _) rfl
    fun c hc hgoing => ?_
  obtain ⟨d, hd, hending, hwatchers⟩ := task?_of_suspend hc
  exact hwatchers ▸ h.not_waiter hd (hending.trans hgoing)

/-! ### Ends -/

theorem task?_finish_other {v : TaskId} (l : Loop π ρ) (hv : v ≠ t) (e : Ending ρ) :
    (l.finish t e).task? v = l.task? v := by
  unfold finish
  split
  · rfl
  · exact (task?_modify l t v _).trans (if_neg (Ne.symm hv))

/-- Of an end everybody is told who waits for it. -/
theorem resumes_finish {a : Task π ρ} (ha : l.task? t = some a) (e : Ending ρ) (u : TaskId) :
    (l.finish t e).resumes u = l.resumes u + a.watchers.count (.waiter u) := by
  have hjobs : (a.watchers.map Watcher.job).count (Job.resume u) = a.watchers.count (.waiter u) :=
    List.count_map_of_injective _ _ job_injective (.waiter u)
  rw [finish, ha]
  show (l.ready ++ a.watchers.map Watcher.job).count (.resume u) = _
  rw [List.count_append, hjobs]
  rfl

/-- Who will be told of an end waits for it, and has no job in the queue yet. -/
theorem Patient.unasked {a b : Task π ρ} {u x : TaskId} (h : Patient (some t) l) (hut : u ≠ t)
    (ha : l.task? x = some a) (hgoing : a.ending = none) (hmem : .waiter u ∈ a.watchers)
    (hb : l.task? u = some b) (hgoing' : b.ending = none) :
    b.wait = .task x ∧ l.resumes u = 0 ∧ a.watchers.count (.waiter u) = 1 := by
  obtain ⟨hone, b', hb', hwait⟩ := h.waiters x a u ha hgoing hmem
  cases hb.symm.trans hb'
  refine ⟨hwait hgoing', ?_, hone⟩
  by_contra hne
  rcases h.asked u b (fun heq => hut (Option.some.inj heq).symm) hb hgoing' hne with
    hroused | hgroup | ⟨y, c, hy, hc, hended⟩
  · rw [hwait hgoing'] at hroused
    cases hroused
  · rw [hwait hgoing'] at hgroup
    cases hgroup
  · rw [hwait hgoing'] at hy
    cases hy
    cases ha.symm.trans hc
    rw [hgoing] at hended
    cases hended

theorem settles_finish (l : Loop π ρ) (t : TaskId) (e : Ending ρ) : Settles t l (l.finish t e) := by
  intro h _
  obtain ⟨a, ha, hgoing, -⟩ := h.runs t rfl
  have hcount := resumes_finish ha e
  have hgone : ∀ {u b}, (l.finish t e).task? u = some b → b.ending = none →
      u ≠ t ∧ l.task? u = some b := by
    intro u b hb hgoing
    by_cases hut : u = t
    · subst hut
      cases (task?_finish ha).symm.trans hb
      cases hgoing
    · exact ⟨hut, (l.task?_finish_other hut e).symm.trans hb⟩
  refine ⟨fun u hu => ?_, fun u b _ hb hgoing' hgroup => ?_, fun u b _ hb hgoing' hne => ?_,
    fun x b u hb hgoing' hmem => ?_, fun _ hu => by cases hu⟩
  · have hut : u ≠ t := by
      rintro rfl
      rw [task?_finish ha] at hu
      cases hu
    rw [l.task?_finish_other hut] at hu
    have hnone : a.watchers.count (.waiter u) = 0 := List.count_eq_zero.2 fun hmem => by
      obtain ⟨-, b, hb, -⟩ := h.waiters t a u ha hgoing hmem
      rw [hu] at hb
      cases hb
    rw [hcount, h.known u hu, hnone]
  · obtain ⟨hut, hb⟩ := hgone hb hgoing'
    rw [hcount]
    by_cases hmem : .waiter u ∈ a.watchers
    · obtain ⟨-, hzero, hone⟩ := h.unasked hut ha hgoing hmem hb hgoing'
      exact Nat.le_of_eq (by rw [hzero, hone])
    · rw [List.count_eq_zero.2 hmem]
      exact h.once u b (fun heq => hut (Option.some.inj heq).symm) hb hgoing' hgroup
  · obtain ⟨hut, hb⟩ := hgone hb hgoing'
    rw [hcount] at hne
    by_cases hmem : .waiter u ∈ a.watchers
    · obtain ⟨hwait, -⟩ := h.unasked hut ha hgoing hmem hb hgoing'
      exact .inr (.inr ⟨t, _, hwait, task?_finish ha, rfl⟩)
    · rw [List.count_eq_zero.2 hmem] at hne
      refine (h.asked u b (fun heq => hut (Option.some.inj heq).symm) hb hgoing'
        hne).imp_right (Or.imp_right ?_)
      rintro ⟨x, c, hx, hc, hended⟩
      have hxt : x ≠ t := by
        rintro rfl
        cases ha.symm.trans hc
        rw [hgoing] at hended
        cases hended
      exact ⟨x, c, hx, (l.task?_finish_other hxt e).trans hc, hended⟩
  · obtain ⟨hxt, hold⟩ := hgone hb hgoing'
    obtain ⟨hone, d, hd, hwait⟩ := h.waiters x b u hold hgoing' hmem
    have hut : u ≠ t := fun heq => h.not_waiter hold hgoing' (heq ▸ hmem)
    exact ⟨hone, d, (l.task?_finish_other hut e).trans hd, hwait⟩

/-- Who is ended has ended, if it is there at all. -/
theorem ended_finish (l : Loop π ρ) (t : TaskId) (e : Ending ρ) :
    (l.finish t e).ended t = true := by
  cases h : l.task? t with
  | none =>
      rw [finish, h]
      show l.ended t = true
      rw [ended, h]
  | some a => rw [ended_of_task? (task?_finish h)]; rfl

theorem ended_of_arrive (h : l.arrive t = none) : l.ended t = true := by
  unfold arrive at h
  split at h
  · next hnone => rw [ended, hnone]
  · next a ha =>
      split at h
      · next hended => rw [ended_of_task? ha, hended]
      · cases h

/-! ## Turns -/

variable {before after : List Job} {round : Nat}

/-- A job is taken from the queue that lets nobody go on. -/
theorem Patient.taken {job : Job} (h : Patient busy l) (hready : l.ready = before ++ job :: after)
    (hjob : ∀ u, job ≠ .resume u) :
    Patient busy { l with ready := before ++ after, round := round } := by
  refine h.urges (.of_ready rfl fun u => ?_)
  rw [resumes, resumes, hready, List.count_append, List.count_append,
    List.count_cons_of_ne (hjob u)]

theorem resumes_taken (hready : l.ready = before ++ .resume t :: after) (u : TaskId) :
    l.resumes u = (before ++ after).count (.resume u) + if t = u then 1 else 0 := by
  rw [resumes, hready, List.count_append, List.count_append, List.count_cons]
  simp only [beq_iff_eq, Job.resume.injEq]
  omega

/-- Nobody goes on, since it had ended. -/
theorem Patient.gone (h : Patient none l) (hready : l.ready = before ++ .resume t :: after)
    (hended : l.ended t = true) :
    Patient none { l with ready := before ++ after, round := round } := by
  have hcount := resumes_taken hready
  have hother : ∀ {u b}, l.task? u = some b → b.ending = none →
      (before ++ after).count (.resume u) = l.resumes u := by
    intro u b hb hgoing
    have hne : t ≠ u := by
      rintro rfl
      rw [ended_of_task? hb, hgoing] at hended
      cases hended
    rw [hcount, if_neg hne, Nat.add_zero]
  refine ⟨fun u hu => ?_, fun u b hb hu hgoing hgroup => ?_, fun u b hb hu hgoing hne => ?_,
    h.waiters, h.runs⟩
  · have hzero := h.known u hu
    rw [hcount] at hzero
    exact Nat.eq_zero_of_add_eq_zero_right hzero
  · exact Nat.le_trans (Nat.le_of_eq (hother hu hgoing)) (h.once u b hb hu hgoing hgroup)
  · exact h.asked u b hb hu hgoing ((hother hu hgoing) ▸ hne)

/-- A task goes on. Unless it waited for a group it was let go on but once, and what it waited for,
if it waited for another task, has ended. -/
theorem Patient.arrive {p : π} {arrival : Arrival} (h : Patient none l)
    (hready : l.ready = before ++ .resume t :: after)
    (harrive : Loop.arrive { l with ready := before ++ after, round := round } t =
      some (m, p, arrival)) (ha : l.task? t = some a) :
    Patient (some t) m ∧ (a.wait.isGroup = false → m.resumes t = 0 ∧
      ∀ x, a.wait = .task x → l.ended x = true) := by
  have hcount := resumes_taken hready
  obtain ⟨a', ha', hgoing, -, -, hself⟩ := arrive_spec harrive
  obtain rfl : a' = a := Option.some.inj (ha'.symm.trans ha)
  obtain ⟨hready', hother⟩ : m.ready = before ++ after ∧ ∀ u, u ≠ t → m.task? u = l.task? u := by
    unfold Loop.arrive at harrive
    split at harrive
    · cases harrive
    · split at harrive
      · cases harrive
      · cases harrive
        exact ⟨rfl, fun u hu => (task?_modify _ t u _).trans (if_neg (Ne.symm hu))⟩
  have hresumes : ∀ u, u ≠ t → m.resumes u = l.resumes u := fun u hu => by
    rw [hcount, if_neg (Ne.symm hu), resumes, hready', Nat.add_zero]
  have hasked := h.asked t a' (by simp) ha hgoing (by rw [hcount, if_pos rfl]; simp)
  have hback : ∀ {x b}, m.task? x = some b → ∃ c, l.task? x = some c ∧ b.ending = c.ending ∧
      b.watchers = c.watchers := by
    intro x b hb
    by_cases hx : x = t
    · subst hx
      cases hself.symm.trans hb
      exact ⟨a', ha, rfl, rfl⟩
    · exact ⟨b, (hother x hx).symm.trans hb, rfl, rfl⟩
  refine ⟨⟨fun u hu => ?_, fun u b hb hu hgoing hgroup => ?_, fun u b hb hu hgoing hne => ?_,
    fun x b u hb hgoing' hmem => ?_, fun u hu => ?_⟩, fun hgroup => ⟨?_, fun x hx => ?_⟩⟩
  · have hut : u ≠ t := by
      rintro rfl
      rw [hself] at hu
      cases hu
    rw [hresumes u hut]
    exact h.known u ((hother u hut).symm.trans hu)
  · have hut : u ≠ t := fun heq => hb (congrArg some heq.symm)
    rw [hresumes u hut]
    exact h.once u b (by simp) ((hother u hut).symm.trans hu) hgoing hgroup
  · have hut : u ≠ t := fun heq => hb (congrArg some heq.symm)
    rw [hresumes u hut] at hne
    refine (h.asked u b (by simp) ((hother u hut).symm.trans hu) hgoing
      hne).imp_right (Or.imp_right ?_)
    rintro ⟨x, c, hx, hc, hended⟩
    have hxt : x ≠ t := by
      rintro rfl
      cases ha.symm.trans hc
      rw [‹a'.ending = none›] at hended
      cases hended
    exact ⟨x, c, hx, (hother x hxt).trans hc, hended⟩
  · obtain ⟨c, hc, hending, hwatchers⟩ := hback hb
    rw [hwatchers] at hmem ⊢
    obtain ⟨hone, d, hd, hwait⟩ := h.waiters x c u hc (hending.symm.trans hgoing') hmem
    have hut : u ≠ t := by
      -- who is told of the end of a task that goes on is not let go on
      rintro rfl
      cases ha.symm.trans hd
      rw [hwait hgoing] at hasked
      rcases hasked with hroused | hgroup | ⟨y, e, hy, he, hended⟩
      · cases hroused
      · cases hgroup
      · cases hy
        cases hc.symm.trans he
        rw [← hending, hgoing'] at hended
        cases hended
    exact ⟨hone, d, (hother u hut).trans hd, hwait⟩
  · cases hu
    exact ⟨_, hself, hgoing, rfl⟩
  · have hone := h.once t a' (by simp) ha hgoing hgroup
    rw [hcount, if_pos rfl] at hone
    rw [resumes, hready']
    omega
  · rw [hx] at hasked
    rcases hasked with hroused | hgroup | ⟨y, e, hy, he, hended⟩
    · cases hroused
    · cases hgroup
    · cases hy
      rw [ended_of_task? he, hended]

end Loop

/-! ## Channels -/

namespace Channel

open Loop (Urges)

variable {α π ρ : Type}

theorem urges_serveTaker (c : Channel α) (l : Loop π ρ) : Urges l (c.serveTaker l).2 :=
  l.urges_wakeFirst c.takers

theorem urges_serveGiver (c : Channel α) (l : Loop π ρ) : Urges l (c.serveGiver l).2 :=
  l.urges_wakeFirst c.givers

theorem urges_give (c : Channel α) (l : Loop π ρ) (item : α) : Urges l (c.give l item).2 :=
  urges_serveTaker _ l

theorem urges_take? {c c' : Channel α} {l l' : Loop π ρ} {item : α}
    (h : c.take? l = some (item, c', l')) : Urges l l' := by
  unfold take? at h
  split at h
  · cases h
  · cases h
    exact urges_serveGiver _ l

theorem urges_leaveTakers (c : Channel α) (l : Loop π ρ) (t : TaskId) (woken : Bool) :
    Urges l (c.leaveTakers l t woken).2 := by
  unfold leaveTakers
  dsimp only
  split
  · exact urges_serveTaker _ l
  · exact .refl l

theorem urges_leaveGivers (c : Channel α) (l : Loop π ρ) (t : TaskId) (woken : Bool) :
    Urges l (c.leaveGivers l t woken).2 := by
  unfold leaveGivers
  dsimp only
  split
  · exact urges_serveGiver _ l
  · exact .refl l

end Channel

end LiveCluster
