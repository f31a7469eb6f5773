import LiveCluster.Proofs.Loop.Keeping
import Mathlib.Data.List.Count

/-!
# No task is forgotten

A task that is about to go on has a job in the queue. One that waits for the first of
several others, or for the last of a group, will hear of them: for each of them there is
a notice in the queue, or else it goes on and knows whom to tell when it ends. `Alert`
says so of all tasks but the one that is on its way, and from it follows what a task can
still wait for once the queue is empty.
-/

namespace LiveCluster

namespace Loop

variable {π ρ : Type} {l m n : Loop π ρ} {t v : TaskId} {a b : Task π ρ}
  {moved deaf busy : Option TaskId}

/-! ## Being alert -/

/-- Whether a task goes on and will tell a task that waits for a group that it has ended, as often
as it is a member. -/
def tellsGroup (l : Loop π ρ) (t : TaskId) (members : List TaskId) (m : TaskId) : Bool :=
  match l.task? m with
  | some b => b.ending.isNone && decide (members.count m ≤ b.watchers.count (.member t))
  | none => false

variable {awaited : π → List TaskId}

/-- Whether a task will hear of what it waits for. `awaited` says for whom a task at a point waits
if it waits for the first of several. -/
structure Attended (awaited : π → List TaskId) (l : Loop π ρ) (v : TaskId) (a : Task π ρ) :
    Prop where
  roused : a.wait.isRoused = true → .resume v ∈ l.ready
  any : a.wait = .signal → ∀ x ∈ awaited a.point, .notify v a.turn ∈ l.ready ∨
    ∃ b, l.task? x = some b ∧ b.ending = none ∧ .any v a.turn ∈ b.watchers
  group : ∀ members n off, a.wait = .group members n off → (n = 0 → .resume v ∈ l.ready) ∧
    n ≤ l.ready.count (.tick v) + members.countP (l.tellsGroup v members)

/-- Every task that goes on will hear of what it waits for, but for the one on its way. -/
def Alert (awaited : π → List TaskId) (busy : Option TaskId) (l : Loop π ρ) : Prop :=
  ∀ v a, busy ≠ some v → l.task? v = some a → a.ending = none → Attended awaited l v a

theorem tellsGroup_mono (h : Keeps moved deaf l m) {members : List TaskId} {x : TaskId}
    (hx : l.tellsGroup v members x = true) : m.tellsGroup v members x = true := by
  unfold tellsGroup at hx ⊢
  cases hl : l.task? x with
  | none =>
      rw [hl] at hx
      cases hx
  | some a =>
      obtain ⟨b, hb, htells⟩ := h.tells x a hl
      have hcount := htells.watchers (.member v) rfl
      rw [hl] at hx
      rw [hb]
      simp only [Bool.and_eq_true, decide_eq_true_eq] at hx ⊢
      rw [htells.ending]
      exact ⟨hx.1, Nat.le_trans hx.2 hcount⟩

theorem Attended.keeps (h : Attended awaited l v a) (hl : Keeps moved deaf l m)
    (hmoved : moved ≠ some v) (hdeaf : deaf ≠ some v) (ha : l.task? v = some a)
    (hb : m.task? v = some b) : Attended awaited m v b := by
  obtain ⟨hstirs, hroused⟩ := hl.stirs v a b hmoved ha hb
  have hwait := hstirs.wait
  refine ⟨fun hr => ?_, fun hsignal x hx => ?_, fun members n off hgroup => ?_⟩
  · by_cases hsignal : a.wait = .signal
    · refine hroused hsignal fun hb => ?_
      rw [hb] at hr
      cases hr
    · have hsame : a.wait.isRoused = true := by
        generalize a.wait = x at hwait hsignal ⊢
        generalize b.wait = y at hwait hr
        cases hwait with
        | same => exact hr
        | woken | dropped => exact absurd rfl hsignal
        | calledOff => cases hr
      exact hl.ready.subset (h.roused hsame)
  · have hsame : a.wait = .signal := by
      generalize a.wait = x at hwait ⊢
      rw [hsignal] at hwait
      cases hwait
      rfl
    rw [hstirs.point] at hx
    rw [hstirs.turn]
    refine (h.any hsame x hx).imp (fun hready => hl.ready.subset hready)
      fun ⟨c, hc, hgoing, hmem⟩ => ?_
    obtain ⟨c', hc', htells⟩ := hl.tells x c hc
    refine ⟨c', hc', htells.ending.trans hgoing, ?_⟩
    have hcount := htells.watchers (.any v a.turn) (by simpa [Watcher.isAnyOf] using hdeaf)
    exact List.count_pos_iff.1 (Nat.lt_of_lt_of_le (List.count_pos_iff.2 hmem) hcount)
  · obtain ⟨off', hsame⟩ : ∃ off', a.wait = .group members n off' := by
      generalize a.wait = x at hwait ⊢
      rw [hgroup] at hwait
      cases hwait with
      | same => exact ⟨_, rfl⟩
      | calledOff _ _ off' _ => exact ⟨off', rfl⟩
    obtain ⟨hzero, hle⟩ := h.group members n off' hsame
    refine ⟨fun hn => hl.ready.subset (hzero hn), Nat.le_trans hle ?_⟩
    exact Nat.add_le_add (hl.ready.count_le _) (List.countP_mono_left fun x _ => tellsGroup_mono hl)

/-- Everybody hears what he would have heard. -/
theorem Alert.keeps (h : Alert awaited busy l) (hl : Keeps moved deaf l m)
    (hmoved : moved = none ∨ moved = busy) (hdeaf : deaf = none ∨ deaf = busy) :
    Alert awaited busy m := by
  intro v b hv hb hending
  have hfree : ∀ {o : Option TaskId}, o = none ∨ o = busy → o ≠ some v := by
    rintro o (rfl | rfl)
    · simp
    · exact hv
  cases ha : l.task? v with
  | none =>
      obtain ⟨hwait, -, hready⟩ := hl.made v b ha hb
      refine ⟨fun _ => hready, fun hsignal => ?_, fun members n off hgroup => ?_⟩
      · rw [hwait] at hsignal
        cases hsignal
      · rw [hwait] at hgroup
        cases hgroup
  | some a =>
      obtain ⟨b', hb', htells⟩ := hl.tells v a ha
      cases hb.symm.trans hb'
      exact (h v a hv ha (htells.ending.symm.trans hending)).keeps hl (hfree hmoved) (hfree hdeaf)
        ha hb

/-- The task on its way has come to wait, and will hear of what it waits for. -/
theorem Alert.rests (h : Alert awaited (some t) l)
    (ht : ∀ b, l.task? t = some b → b.ending = none → Attended awaited l t b) :
    Alert awaited none l := by
  intro v b _ hb hending
  by_cases hv : v = t
  · exact hv ▸ ht b (hv ▸ hb) (hending)
  · exact h v b (fun h => hv (Option.some.inj h).symm) hb hending

/-! ### Coming to wait -/

theorem Attended.of_roused (hwait : a.wait.isRoused = true) (hready : .resume v ∈ l.ready) :
    Attended awaited l v a where
  roused _ := hready
  any hsignal := by
    rw [hsignal] at hwait
    cases hwait
  group members n off hgroup := by
    rw [hgroup] at hwait
    cases hwait

/-- Who waits for a signal and for nobody's end has nothing to hear of. -/
theorem Attended.of_signal (hwait : a.wait = .signal) (hnone : awaited a.point = []) :
    Attended awaited l v a where
  roused hr := by
    rw [hwait] at hr
    cases hr
  any _ x hx := by
    rw [hnone] at hx
    cases hx
  group members n off hgroup := by
    rw [hwait] at hgroup
    cases hgroup

theorem Attended.of_task {other : TaskId} (hwait : a.wait = .task other) :
    Attended awaited l v a where
  roused hr := by
    rw [hwait] at hr
    cases hr
  any hsignal := by
    rw [hwait] at hsignal
    cases hsignal
  group members n off hgroup := by
    rw [hwait] at hgroup
    cases hgroup

/-- Each of several tasks has ended, and there is a notice, or will tell of its end. -/
theorem watchAll_spec (t : TaskId) (turn : Nat) (l : Loop π ρ) (others : List TaskId) :
    ∀ x ∈ others, .notify t turn ∈ (others.foldl (watchOne t turn) l).ready ∨
      ∃ b, (others.foldl (watchOne t turn) l).task? x = some b ∧ b.ending = none ∧
        .any t turn ∈ b.watchers := by
  induction others generalizing l with
  | nil => exact fun x hx => absurd hx List.not_mem_nil
  | cons y rest ih =>
      intro x hx
      rcases List.mem_cons.1 hx with rfl | hx
      · have hrest : Keeps none none (watchOne t turn l x) _ :=
          keeps_foldl _ rest fun l z _ => keeps_watchOne t turn l z
        have hfirst : .notify t turn ∈ (watchOne t turn l x).ready ∨
            ∃ b, (watchOne t turn l x).task? x = some b ∧ b.ending = none ∧
              .any t turn ∈ b.watchers := by
          unfold watchOne
          split
          · exact .inl (List.mem_append_right _ List.mem_cons_self)
          · next hgoing =>
              cases ha : l.task? x with
              | none =>
                  rw [ended, ha] at hgoing
                  exact absurd rfl hgoing
              | some a =>
                  refine .inr ⟨_, by rw [addWatcher, task?_modify_self, ha]; rfl, ?_,
                    List.mem_append_right _ List.mem_cons_self⟩
                  rw [ended_of_task? ha] at hgoing
                  simpa using hgoing
        rcases hfirst with hready | ⟨b, hb, hending, hmem⟩
        · exact .inl (hrest.ready.subset hready)
        obtain ⟨c, hc, htells⟩ := hrest.tells x b hb
        refine .inr ⟨c, hc, htells.ending.trans hending, ?_⟩
        have hcount := htells.watchers (.any t turn) rfl
        exact List.count_pos_iff.1 (Nat.lt_of_lt_of_le (List.count_pos_iff.2 hmem) hcount)
      · exact ih _ x hx

theorem turn_suspend (ha : l.task? t = some a) (p : π) (wait : Wait) :
    (l.suspend t p wait).turn t = a.turn + 1 := by
  rw [turn, task?_suspend ha]

/-- A task comes to wait for the first of those for whom it waits at a point. -/
theorem Alert.awaitAny {p : π} (h : Alert awaited (some t) l) (ha : l.task? t = some a) :
    Alert awaited none (l.awaitAny t p (awaited p)) := by
  have hkeeps := l.keeps_awaitAny t p (awaited p)
  refine Alert.rests ((h.keeps (l.keeps_suspend t p .signal) (.inr rfl) (.inl rfl)).keeps hkeeps
    (.inl rfl) (.inl rfl)) fun b hb _ => ?_
  obtain ⟨hstirs, hroused⟩ := hkeeps.stirs t _ b (by simp) (task?_suspend ha p .signal) hb
  have hwait : b.wait = .signal ∨ b.wait.isRoused = true := by
    have hw := hstirs.wait
    generalize b.wait = wait at hw
    cases hw with
    | same => exact .inl rfl
    | woken | dropped => exact .inr rfl
  rcases hwait with hsignal | hr
  · refine ⟨fun hr => ?_, fun _ x hx => ?_, fun members n off hgroup => ?_⟩
    · rw [hsignal] at hr
      cases hr
    · rw [hstirs.point] at hx
      rw [hstirs.turn]
      show Job.notify t (a.turn + 1) ∈ (l.awaitAny t p (awaited p)).ready ∨
        ∃ b, (l.awaitAny t p (awaited p)).task? x = some b ∧ b.ending = none ∧
          Watcher.any t (a.turn + 1) ∈ b.watchers
      rw [← turn_suspend ha p .signal]
      exact watchAll_spec t _ (l.suspend t p .signal) (awaited p) x hx
    · rw [hsignal] at hgroup
      cases hgroup
  · exact .of_roused hr (hroused rfl fun hsignal => by rw [hsignal] at hr; cases hr)

/-- A task comes to wait for a signal, and for nobody's end. -/
theorem Alert.suspend {p : π} (h : Alert awaited (some t) l) (hp : awaited p = []) :
    Alert awaited none (l.suspend t p .signal) := by
  refine (h.keeps (l.keeps_suspend t p .signal) (.inr rfl) (.inl rfl)).rests fun b hb _ => ?_
  rw [Loop.suspend, task?_modify_self] at hb
  obtain ⟨a, -, rfl⟩ := Option.map_eq_some_iff.1 hb
  exact .of_signal rfl hp

theorem Alert.giveWay (h : Alert awaited (some t) l) (p : π) :
    Alert awaited none (l.giveWay t p) := by
  have hsuspended := h.keeps (l.keeps_suspend t p .none) (.inr rfl) (.inl rfl)
  refine (hsuspended.keeps (keeps_schedule _ (.resume t)) (.inl rfl) (.inl rfl)).rests
    fun b hb _ => ?_
  replace hb : (l.suspend t p .none).task? t = some b := hb
  rw [Loop.suspend, task?_modify_self] at hb
  obtain ⟨a, -, rfl⟩ := Option.map_eq_some_iff.1 hb
  exact .of_roused rfl (List.mem_append_right _ List.mem_cons_self)

/-- A task goes on at once, if it waits for nothing. -/
theorem Alert.goOn (h : Alert awaited (some t) l) (ha : l.task? t = some a)
    (hwait : a.wait = .none) (p : π) : Alert awaited none (l.goOn t p) := by
  refine (h.keeps (l.keeps_goOn t p) (.inr rfl) (.inl rfl)).rests fun b hb _ => ?_
  cases hb.symm.trans (task?_goOn ha)
  exact .of_roused (by rw [hwait]; rfl) List.mem_cons_self

/-- Who waits for the end of a task is told of it by a job of its own. -/
theorem Alert.awaitTask (h : Alert awaited (some t) l) (p : π) (other : TaskId) :
    Alert awaited none (l.awaitTask t p other) := by
  have hsuspended := h.keeps (l.keeps_suspend t p (.task other)) (.inr rfl) (.inl rfl)
  have hwatch := keeps_addWatcher (l.suspend t p (.task other)) other (.waiter t)
  refine (hsuspended.keeps hwatch (.inl rfl) (.inl rfl)).rests fun b hb _ => ?_
  cases ha : l.task? t with
  | none =>
      have hnone : (l.suspend t p (.task other)).task? t = none := by
        rw [Loop.suspend, task?_modify_self, ha]
        rfl
      obtain ⟨hwait, -, hmem⟩ := hwatch.made t b hnone hb
      exact .of_roused (by rw [hwait]; rfl) hmem
  | some a =>
      have hwait := (hwatch.stirs t _ b (by simp) (task?_suspend ha p (.task other)) hb).1.wait
      have hother : b.wait = .task other := by
        generalize b.wait = wait at hwait ⊢
        cases hwait
        rfl
      exact .of_task hother

theorem watchers_addAll (w : Watcher) (ms : List TaskId) {x : TaskId} (ha : l.task? x = some a) :
    ∃ b, (ms.foldl (fun l m => l.addWatcher m w) l).task? x = some b ∧ b.ending = a.ending ∧
      ms.count x ≤ b.watchers.count w := by
  suffices h : ∃ b, (ms.foldl (fun l m => l.addWatcher m w) l).task? x = some b ∧
      b.ending = a.ending ∧ b.watchers.count w = a.watchers.count w + ms.count x by
    obtain ⟨b, hb, hending, hcount⟩ := h
    exact ⟨b, hb, hending, by omega⟩
  induction ms generalizing l a with
  | nil => exact ⟨a, ha, rfl, rfl⟩
  | cons m rest ih =>
      by_cases hm : m = x
      · have hadd : (l.addWatcher m w).task? x = some { a with watchers := a.watchers ++ [w] } := by
          rw [addWatcher, task?_modify, if_pos hm, ha]
          rfl
        obtain ⟨b, hb, hending, hcount⟩ := ih hadd
        refine ⟨b, hb, hending, ?_⟩
        simp only [List.count_append, List.count_singleton_self] at hcount
        rw [hcount, List.count_cons, if_pos (by simpa using hm)]
        omega
      · have hadd : (l.addWatcher m w).task? x = some a := by
          rw [addWatcher, task?_modify, if_neg hm, ha]
        obtain ⟨b, hb, hending, hcount⟩ := ih hadd
        exact ⟨b, hb, hending, by rw [hcount, List.count_cons_of_ne hm]⟩

/-- Each of the members of a group that go on will tell of its end. -/
theorem countP_tellsGroup (t : TaskId) (members : List TaskId) (l : Loop π ρ) :
    (members.filter (!l.ended ·)).length ≤ members.countP
      (((members.filter (!l.ended ·)).foldl (fun l m => l.addWatcher m (.member t)) l).tellsGroup t
        members) := by
  rw [← List.countP_eq_length_filter]
  refine List.countP_mono_left fun m hm hgoing => ?_
  cases ha : l.task? m with
  | none => simp [ended, ha] at hgoing
  | some a =>
      obtain ⟨b, hb, hending, hcount⟩ :=
        watchers_addAll (.member t) (members.filter (!l.ended ·)) ha
      rw [List.count_filter (p := (!l.ended ·)) hgoing] at hcount
      rw [ended_of_task? ha] at hgoing
      rw [tellsGroup, hb]
      simpa [hending, hcount] using hgoing

/-- A task comes to wait for a group of which some member goes on. -/
theorem Alert.awaitGroup {p : π} {members : List TaskId} (h : Alert awaited (some t) l)
    (ha : l.task? t = some a) (hsome : ∃ m ∈ members, l.ended m = false) :
    Alert awaited none (l.awaitGroup t p members) := by
  have hkeeps : Keeps none none
      (l.suspend t p (.group members (members.filter (!l.ended ·)).length false))
      (l.awaitGroup t p members) :=
    keeps_foldl _ _ fun l m _ => l.keeps_addWatcher m _
  refine Alert.rests ((h.keeps (l.keeps_suspend t p _) (.inr rfl) (.inl rfl)).keeps hkeeps
    (.inl rfl) (.inl rfl)) fun b hb _ => ?_
  have hended : ∀ v, (l.suspend t p (.group members (members.filter (!l.ended ·)).length
      false)).ended v = l.ended v := by
    intro v
    rw [ended, ended, Loop.suspend, task?_modify]
    by_cases htv : t = v
    · subst htv
      rw [if_pos rfl, ha]
      rfl
    · rw [if_neg htv]
  have hgroup := (hkeeps.stirs t _ b (by simp) (task?_suspend ha p _) hb).1.wait
  have hcount := countP_tellsGroup t members
    (l.suspend t p (.group members (members.filter (!l.ended ·)).length false))
  simp only [hended] at hcount
  have hwait : ∃ off, b.wait = .group members (members.filter (!l.ended ·)).length off := by
    generalize b.wait = wait at hgroup ⊢
    cases hgroup with
    | same => exact ⟨_, rfl⟩
    | calledOff _ _ _ off => exact ⟨off, rfl⟩
  obtain ⟨off, hwait⟩ := hwait
  refine ⟨fun hr => ?_, fun hsignal => ?_, fun members' n off' hgroup => ?_⟩
  · rw [hwait] at hr
    cases hr
  · rw [hwait] at hsignal
    cases hsignal
  · rw [hwait] at hgroup
    cases hgroup
    refine ⟨fun hzero => ?_, Nat.le_trans hcount (Nat.le_add_left _ _)⟩
    obtain ⟨m, hm, hgoing⟩ := hsome
    have hmem : m ∈ members.filter (!l.ended ·) := List.mem_filter.2 ⟨hm, by simp [hgoing]⟩
    rw [List.eq_nil_of_length_eq_zero hzero] at hmem
    cases hmem

/-! ### Ending -/

theorem job_injective : Function.Injective Watcher.job := by
  intro x y h
  cases x <;> cases y <;> cases h <;> rfl

theorem countP_le_add_count {ms : List TaskId} {p q : TaskId → Bool} {x : TaskId}
    (h : ∀ m ∈ ms, p m = true → q m = true ∨ m = x) : ms.countP p ≤ ms.countP q + ms.count x := by
  induction ms with
  | nil => simp
  | cons m rest ih =>
      have hrest := ih fun m' hm' => h m' (List.mem_cons_of_mem m hm')
      have hm := h m List.mem_cons_self
      simp only [List.countP_cons, List.count_cons, beq_iff_eq]
      split
      · next hp => rcases hm hp with hq | rfl <;> simp_all <;> omega
      · omega

/-- A task ends, and all who watch it will hear of that. -/
theorem Alert.finish (h : Alert awaited (some t) l) (ha : l.task? t = some a) (e : Ending ρ) :
    Alert awaited none (l.finish t e) := by
  have hfinish : l.finish t e = { l.modify t (fun task =>
      { task with ending := some e, wait := .none, limit := none, watchers := [] }) with
        ready := l.ready ++ a.watchers.map Watcher.job } := by
    rw [Loop.finish, ha]
    rfl
  have hother : ∀ v, v ≠ t → (l.finish t e).task? v = l.task? v := by
    intro v hv
    rw [hfinish]
    show (l.modify t _).task? v = _
    rw [task?_modify, if_neg (Ne.symm hv)]
  have hready : (l.finish t e).ready = l.ready ++ a.watchers.map Watcher.job := by rw [hfinish]
  intro v b _ hb hending
  by_cases hv : v = t
  · subst hv
    rw [task?_finish ha] at hb
    cases hb
    cases hending
  rw [hother v hv] at hb
  have hattended := h v b (fun h => hv (Option.some.inj h).symm) hb hending
  refine ⟨fun hr => ?_, fun hsignal x hx => ?_, fun members n off hgroup => ?_⟩
  · rw [hready]
    exact List.mem_append_left _ (hattended.roused hr)
  · rw [hready]
    rcases hattended.any hsignal x hx with hnotice | ⟨c, hc, hgoing, hmem⟩
    · exact .inl (List.mem_append_left _ hnotice)
    · by_cases hxt : x = t
      · subst hxt
        cases ha.symm.trans hc
        exact .inl (List.mem_append_right _ (List.mem_map_of_mem (f := Watcher.job) hmem))
      · exact .inr ⟨c, (hother x hxt).trans hc, hgoing, hmem⟩
  · obtain ⟨hzero, hle⟩ := hattended.group members n off hgroup
    refine ⟨fun hn => hready ▸ List.mem_append_left _ (hzero hn), Nat.le_trans hle ?_⟩
    -- of the members only the one that has ended is lost, and it has told of its end
    have hticks : (a.watchers.map Watcher.job).count (.tick v) = a.watchers.count (.member v) :=
      List.count_map_of_injective _ _ job_injective (.member v)
    have hlost : members.countP (l.tellsGroup v members) ≤
        members.countP ((l.finish t e).tellsGroup v members) + a.watchers.count (.member v) := by
      have hsame : ∀ m, m ≠ t → (l.finish t e).tellsGroup v members m = l.tellsGroup v members m :=
        fun m hm => by rw [tellsGroup, tellsGroup, hother m hm]
      by_cases ht : l.tellsGroup v members t = true
      · have htold : members.count t ≤ a.watchers.count (.member v) := by
          rw [tellsGroup, ha] at ht
          simpa using (Bool.and_eq_true_iff.1 ht).2
        refine Nat.le_trans (countP_le_add_count (x := t) fun m _ hm => ?_)
          (Nat.add_le_add_left htold _)
        by_cases hmt : m = t
        · exact .inr hmt
        · exact .inl ((hsame m hmt).trans hm)
      · refine Nat.le_trans (List.countP_mono_left fun m _ hm => ?_) (Nat.le_add_right _ _)
        exact (hsame m fun hmt => ht (hmt ▸ hm)).trans hm
    rw [hready, List.count_append, hticks]
    omega

/-! ## Running a job -/

variable {before after : List Job} {job : Job} {round : Nat}

/-- A job that does not concern a task is taken from the queue. -/
theorem Attended.taken (h : Attended awaited l v a) (hready : l.ready = before ++ job :: after)
    (hresume : job ≠ .resume v) (hnotify : a.wait = .signal → job ≠ .notify v a.turn)
    (htick : ∀ members n off, a.wait = .group members n off → job ≠ .tick v) :
    Attended awaited { l with ready := before ++ after, round := round } v a := by
  have hmem : ∀ j, job ≠ j → j ∈ l.ready → j ∈ before ++ after := by
    intro j hj hmem
    rw [hready] at hmem
    simp only [List.mem_append, List.mem_cons] at hmem ⊢
    rcases hmem with hmem | rfl | hmem
    · exact .inl hmem
    · exact absurd rfl hj
    · exact .inr hmem
  refine ⟨fun hr => hmem _ hresume (h.roused hr), fun hsignal x hx => ?_,
    fun members n off hgroup => ?_⟩
  · exact (h.any hsignal x hx).imp_left (hmem _ (hnotify hsignal))
  · obtain ⟨hzero, hle⟩ := h.group members n off hgroup
    refine ⟨fun hn => hmem _ hresume (hzero hn), ?_⟩
    rw [hready, List.count_append, List.count_cons_of_ne (htick members n off hgroup),
      ← List.count_append] at hle
    exact hle

/-- A job that concerns nobody but one task is taken from the queue. -/
theorem Alert.taken (h : Alert awaited none l) (hready : l.ready = before ++ job :: after)
    (hjob : ∀ v, busy ≠ some v → job ≠ .resume v ∧ (∀ turn, job ≠ .notify v turn) ∧
      job ≠ .tick v) :
    Alert awaited busy { l with ready := before ++ after, round := round } :=
  fun v a hv ha hending =>
    (h v a (by simp) ha hending).taken hready (hjob v hv).1 (fun _ => (hjob v hv).2.1 _)
      fun _ _ _ _ => (hjob v hv).2.2

/-- A task goes on. -/
theorem Alert.arrive {p : π} {arrival : Arrival} {l' : Loop π ρ} (h : Alert awaited none l)
    (hready : l.ready = before ++ .resume t :: after)
    (harrive : Loop.arrive { l with ready := before ++ after, round := round } t =
      some (l', p, arrival)) : Alert awaited (some t) l' := by
  have htaken : Alert awaited (some t) { l with ready := before ++ after, round := round } :=
    h.taken hready fun v hv =>
      ⟨fun heq => hv (by cases heq; rfl), (fun _ heq => by cases heq), fun heq => by cases heq⟩
  unfold Loop.arrive at harrive
  split at harrive
  · cases harrive
  · split at harrive
    · cases harrive
    · cases harrive
      exact htaken.keeps (keeps_modify _ t (.refl _) (fun _ _ => ⟨rfl, fun _ _ => Nat.le_refl _⟩)
        fun _ _ hne => absurd rfl hne) (.inr rfl) (.inl rfl)

/-- A job for a task that has ended changes nothing. -/
theorem Alert.gone (h : Alert awaited none l) (hready : l.ready = before ++ .resume t :: after)
    (harrive : Loop.arrive { l with ready := before ++ after, round := round } t = none) :
    Alert awaited none { l with ready := before ++ after, round := round } := by
  have htaken : Alert awaited (some t) { l with ready := before ++ after, round := round } :=
    h.taken hready fun v hv =>
      ⟨fun heq => hv (by cases heq; rfl), (fun _ heq => by cases heq), fun heq => by cases heq⟩
  refine htaken.rests fun b hb hending => ?_
  unfold Loop.arrive at harrive
  rw [hb] at harrive
  dsimp only at harrive
  rw [hending] at harrive
  cases harrive

theorem Alert.alarm {id : TimerId} (h : Alert awaited none l)
    (hready : l.ready = before ++ .alarm id :: after) :
    Alert awaited none { l with ready := before ++ after, round := round } :=
  h.taken hready fun v _ =>
    ⟨(fun heq => by cases heq), (fun _ heq => by cases heq), fun heq => by cases heq⟩

/-- A job is done that bears on one task. What is left is to see to that task. -/
theorem Alert.done {l' : Loop π ρ} (h : Alert awaited none l)
    (hready : l.ready = before ++ job :: after)
    (hjob : ∀ v, some t ≠ some v → job ≠ .resume v ∧ (∀ turn, job ≠ .notify v turn) ∧
      job ≠ .tick v)
    (hkeeps : Keeps moved none { l with ready := before ++ after, round := round } l')
    (hmoved : moved = none ∨ moved = some t)
    (hown : ∀ a b, l.task? t = some a → l'.task? t = some b → Attended awaited l t a →
      Attended awaited l' t b) : Alert awaited none l' := by
  have htaken : Alert awaited (some t) { l with ready := before ++ after, round := round } :=
    h.taken hready hjob
  refine (htaken.keeps hkeeps hmoved (.inl rfl)).rests fun b hb hending => ?_
  cases ha : l.task? t with
  | none =>
      obtain ⟨hwait, -, hmem⟩ := hkeeps.made t b ha hb
      exact .of_roused (by rw [hwait]; rfl) hmem
  | some a =>
      obtain ⟨b', hb', htells⟩ := hkeeps.tells t a ha
      cases hb.symm.trans hb'
      exact hown a b ha hb (h t a (by simp) ha (htells.ending.symm.trans hending))

/-- A notice is given. It may be one about an earlier wait. -/
theorem Alert.notify {turn : Nat} (h : Alert awaited none l)
    (hready : l.ready = before ++ .notify t turn :: after) :
    Alert awaited none
      (Loop.notify { l with ready := before ++ after, round := round } t turn) := by
  have hkeeps := keeps_notify { l with ready := before ++ after, round := round } t turn
  refine h.done hready (fun v hv => ⟨(fun heq => by cases heq),
    (fun _ heq => hv (by cases heq; rfl)), fun heq => by cases heq⟩)
    hkeeps (.inl rfl) fun a b ha hb hattended => ?_
  by_cases hnow : a.wait = .signal ∧ a.turn = turn
  · obtain ⟨hsignal, rfl⟩ := hnow
    have hturn : Loop.turn { l with ready := before ++ after, round := round } t = a.turn := by
      show (match l.task? t with | some task => task.turn | none => 0) = a.turn
      rw [ha]
    have hwaits : awaitsSignal { l with ready := before ++ after, round := round } t = true :=
      awaitsSignal_iff.2 ⟨a, ha, hsignal⟩
    rw [Loop.notify, if_pos hturn, wake, if_pos hwaits] at hb ⊢
    have hwoken : (l.modify t fun task => { task with wait := .woken }).task? t = some b := hb
    rw [task?_modify_self, ha] at hwoken
    cases hwoken
    exact .of_roused rfl (List.mem_append_right _ List.mem_cons_self)
  · refine (hattended.taken hready (by simp) (fun hsignal heq => hnow ⟨hsignal, ?_⟩)
      (by simp)).keeps hkeeps (by simp) (by simp) ha hb
    cases heq
    rfl

/-- A task that waits for a group waits for one end fewer, and goes on after the last. -/
theorem tick_spec {members : List TaskId} {k : Nat} {off : Bool} (ha : l.task? t = some a)
    (hwait : a.wait = .group members k off) :
    (l.tick t).task? t = some { a with wait := .group members (k - 1) off } ∧
      (k ≤ 1 → .resume t ∈ (l.tick t).ready) := by
  have hmodify : (l.modify t fun task =>
      { task with wait := .group members (k - 1) off }).task? t =
        some { a with wait := .group members (k - 1) off } := by
    rw [task?_modify_self, ha]
    rfl
  unfold Loop.tick
  rw [ha]
  dsimp only
  rw [hwait]
  dsimp only
  split
  · exact ⟨hmodify, fun _ => List.mem_append_right _ List.mem_cons_self⟩
  · next hk => exact ⟨hmodify, fun hle => absurd hle hk⟩

/-- A task that waits for no group takes no notice. -/
theorem tick_eq_self (ha : l.task? t = some a)
    (hwait : ∀ members k off, a.wait ≠ .group members k off) : l.tick t = l := by
  unfold Loop.tick
  rw [ha]
  dsimp only
  split
  · next h => exact absurd h (hwait _ _ _)
  · rfl

/-- One of a group has ended. -/
theorem Alert.tick (h : Alert awaited none l) (hready : l.ready = before ++ .tick t :: after) :
    Alert awaited none (Loop.tick { l with ready := before ++ after, round := round } t) := by
  have hkeeps := keeps_tick { l with ready := before ++ after, round := round } t
  refine h.done hready (fun v hv => ⟨(fun heq => by cases heq), (fun _ heq => by cases heq),
    fun heq => hv (by cases heq; rfl)⟩) hkeeps (.inr rfl) fun a b ha hb hattended => ?_
  by_cases hgroup : ∃ members k off, a.wait = .group members k off
  · obtain ⟨members, k, off, hwait⟩ := hgroup
    obtain ⟨hnow, hlast⟩ :=
      tick_spec (l := { l with ready := before ++ after, round := round }) ha hwait
    cases hb.symm.trans hnow
    refine ⟨(fun hr => by cases hr), (fun hsignal => by cases hsignal), ?_⟩
    rintro members k' off ⟨⟩
    obtain ⟨-, hle⟩ := hattended.group members k off hwait
    rw [hready, List.count_append, List.count_cons_self, ← Nat.add_assoc,
      ← List.count_append] at hle
    have htold : members.countP (l.tellsGroup t members) ≤ members.countP
        ((Loop.tick { l with ready := before ++ after, round := round } t).tellsGroup t
          members) :=
      List.countP_mono_left fun m _ hm => tellsGroup_mono hkeeps hm
    have hmore : (before ++ after).count (.tick t) ≤ _ := hkeeps.ready.count_le _
    exact ⟨fun hzero => hlast (by omega), by omega⟩
  · have hnone : ∀ members k off, a.wait ≠ .group members k off := fun members k off hwait =>
      hgroup ⟨members, k, off, hwait⟩
    rw [tick_eq_self (l := { l with ready := before ++ after, round := round }) ha hnone]
      at hb ⊢
    cases ha.symm.trans hb
    exact hattended.taken hready (by simp) (by simp) fun members k off hwait =>
      absurd hwait (hnone members k off)

/-! ## When nothing is left to be done -/

/-- Nobody is about to go on. -/
theorem Alert.not_roused (h : Alert awaited none l) (hempty : l.ready = [])
    (ha : l.task? t = some a) (hending : a.ending = none) : a.wait.isRoused = false := by
  rw [Bool.eq_false_iff]
  intro hr
  have hmem := (h t a (by simp) ha hending).roused hr
  rw [hempty] at hmem
  cases hmem

/-- Who waits for the first of several waits for tasks that go on. -/
theorem Alert.awaits_going (h : Alert awaited none l) (hempty : l.ready = [])
    (ha : l.task? t = some a) (hending : a.ending = none) (hsignal : a.wait = .signal) :
    ∀ x ∈ awaited a.point, ∃ b, l.task? x = some b ∧ b.ending = none := by
  intro x hx
  rcases (h t a (by simp) ha hending).any hsignal x hx with hmem | ⟨b, hb, hgoing, -⟩
  · rw [hempty] at hmem
    cases hmem
  · exact ⟨b, hb, hgoing⟩

/-- Who waits for a group waits for a member that goes on. -/
theorem Alert.group_going {members : List TaskId} {k : Nat} {off : Bool}
    (h : Alert awaited none l) (hempty : l.ready = []) (ha : l.task? t = some a)
    (hending : a.ending = none) (hgroup : a.wait = .group members k off) :
    ∃ m ∈ members, ∃ b, l.task? m = some b ∧ b.ending = none := by
  obtain ⟨hzero, hle⟩ := (h t a (by simp) ha hending).group members k off hgroup
  rw [hempty] at hzero hle
  have hpos : 0 < members.countP (l.tellsGroup t members) := by
    have hne : k ≠ 0 := fun hk => absurd (hzero hk) List.not_mem_nil
    simp only [List.count_nil, Nat.zero_add] at hle
    omega
  obtain ⟨m, hm, htells⟩ := List.countP_pos_iff.1 hpos
  refine ⟨m, hm, ?_⟩
  unfold tellsGroup at htells
  split at htells
  · next b hb => exact ⟨b, hb, by simpa using (Bool.and_eq_true_iff.1 htells).1⟩
  · cases htells

end Loop

end LiveCluster
