import LiveCluster.Proofs.Simulation.Lives

/-!
# Who has ended or is about to

A helper that was cancelled hears of that on its next turn, and ends. So when somebody
cancels his helpers it is settled that they end, though it may take a while: from then on
they are `Over`, and once nothing is left to be done they have ended.
-/

namespace LiveCluster.Simulation

open Loop (TaskBides TaskEases)

/-- A helper that is about to hear that it was cancelled. -/
structure Leaves (a : Task Point Report) : Prop where
  helper : a.point.isHelper = true
  roused : a.wait.isRoused = true
  word : a.mustCancel = true ∨ a.wait = .dropped

theorem Leaves.bides {a b : Task Point Report} (h : Leaves a) (hab : TaskBides a b) :
    Leaves b := by
  have hwait := hab.wait.roused h.roused
  exact ⟨hab.point ▸ h.helper, hwait ▸ h.roused, h.word.imp hab.word hwait.trans⟩

namespace World

variable {w w' x : World} {t v : TaskId} {s : SinkId} {who : Option TaskId}

/-! ## What becomes of one task -/

theorem Happens.turn (h : Happens (some t) w w') : ∃ before after round,
    w.loop.ready = before ++ .resume t :: after ∧
      w' = (w.withReady (before ++ after) round).run (.resume t) := by
  generalize hwho : some t = who at h
  cases h with
  | @job _ job before after round hready =>
      cases job <;> cases hwho
      exact ⟨before, after, round, hready, rfl⟩
  | round | time | journal | request => cases hwho

/-- What holds of a task while it bides holds of it throughout if its own turns keep it. -/
theorem Happens.keeps_task {P : Task Point Report → Prop} (h : Happens who w w') (hw : w.Bound)
    (hbides : ∀ a b, P a → TaskBides a b → P b)
    (hturn : ∀ (x : World) a l arrival, P a → x.loop.task? v = some a →
      x.loop.arrive v = some (l, a.point, arrival) →
      ∃ b, (runPoint { x with loop := l } v a.point arrival).loop.task? v = some b ∧ P b)
    {a : Task Point Report} (ha : w.loop.task? v = some a) (hP : P a) :
    ∃ b, w'.loop.task? v = some b ∧ P b := by
  by_cases hv : who = some v
  · subst hv
    obtain ⟨before, after, round, -, rfl⟩ := h.turn
    cases harrive : (w.withReady (before ++ after) round).loop.arrive v with
    | none =>
        rw [run, harrive]
        exact ⟨a, ha, hP⟩
    | some arrived =>
        obtain ⟨l, p, arrival⟩ := arrived
        obtain ⟨a', ha', -, rfl, -, -⟩ := Loop.arrive_spec harrive
        cases ha.symm.trans ha'
        rw [run, harrive]
        exact hturn _ a l arrival hP ha harrive
  · obtain ⟨b, hb, hab⟩ := (h.passes hw).others v a hv ha
    exact ⟨b, hb, hbides a b hP hab⟩

/-- Who has ended stays as it ended. -/
theorem Happens.keeps_ending (h : Happens who w w') (hw : w.Bound) {e : Ending Report}
    (he : w.loop.ending? v = some e) : w'.loop.ending? v = some e := by
  obtain ⟨a, ha, hending⟩ := Option.bind_eq_some_iff.1 he
  obtain ⟨b, hb, hsame⟩ := h.keeps_task (P := fun a => a.ending = some e) hw
    (fun a b hP hab => hab.ending.trans hP)
    (fun x a l arrival hP ha harrive => by
      obtain ⟨a', ha', hgoing, -⟩ := Loop.arrive_spec harrive
      cases ha.symm.trans ha'
      rw [hP] at hgoing
      cases hgoing) ha hending
  exact Option.bind_eq_some_iff.2 ⟨b, hb, hsame⟩

/-! ## Helpers that were cancelled -/

/-- A task has ended, or is about to hear that it was cancelled. -/
def Over (w : World) (v : TaskId) : Prop :=
  ∃ a, w.loop.task? v = some a ∧ (a.ending = none → Leaves a)

theorem Over.bides (h : w.Over v) (hbides : ∀ a, w.loop.task? v = some a →
    ∃ b, w'.loop.task? v = some b ∧ TaskBides a b) : w'.Over v := by
  obtain ⟨a, ha, hleaves⟩ := h
  obtain ⟨b, hb, hab⟩ := hbides a ha
  exact ⟨b, hb, fun hgoing => (hleaves (hab.ending.symm.trans hgoing)).bides hab⟩

theorem Over.mild {f : Option SinkId} (h : w.Over v) (hw : Mild f w w') : w'.Over v :=
  h.bides fun a ha => by
    obtain ⟨b, hb, hab⟩ := hw.eases v a ha
    exact ⟨b, hb, hab.bides⟩

theorem Over.of_eq (h : w.Over v) (hsame : w'.loop.task? v = w.loop.task? v) : w'.Over v :=
  h.bides fun a ha => ⟨a, hsame.trans ha, .refl a⟩

/-- A helper that hears that it was cancelled ends. -/
theorem runPoint_cancelled (w : World) {p : Point} (hp : p.isHelper = true) (woken : Bool) :
    ∃ x, Mild p.sink? w x ∧ w.runPoint v p (.cancelled woken) = x.finish v .cancelled := by
  cases p with
  | stream st q =>
      cases q with
      | opening => exact ⟨w, .refl _ w, rfl⟩
      | reading =>
          have hleave : Mild (some st.sink) w { w.setLogOfStream st
              ((w.logOfStream st).leaveTakers w.loop v woken).1 with
              loop := ((w.logOfStream st).leaveTakers w.loop v woken).2 } :=
            .of_eq (Channel.gentle_leaveTakers _ w.loop v woken) rfl rfl
          exact ⟨_, hleave.trans (mild_closeLog _ v st), rfl⟩
      | delivering d last =>
          have hleave := w.mild_leaveRoom v (s := st.sink) woken
          refine ⟨if last then w.leaveRoom v st.sink woken
            else (w.leaveRoom v st.sink woken).closeLog v st, ?_, rfl⟩
          split
          · exact hleave
          · exact hleave.trans (mild_closeLog _ v st)
  | giving s d => exact ⟨_, w.mild_leaveRoom v woken, rfl⟩
  | taking s => exact ⟨_, .of_sink w _ (Channel.gentle_leaveTakers _ w.loop v woken), rfl⟩
  | awaitingClose s => exact ⟨_, w.mild_setSink _, rfl⟩
  | _ => cases hp

theorem Over.happens (h : w.Over v) (hnext : Happens who w w') (hw : w.Bound) : w'.Over v := by
  obtain ⟨a, ha, hleaves⟩ := h
  refine hnext.keeps_task (P := fun a => a.ending = none → Leaves a) hw
    (fun a b hP hab hgoing => (hP (hab.ending.symm.trans hgoing)).bides hab)
    (fun x a l arrival hP ha harrive => ?_) ha hleaves
  obtain ⟨a', ha', hgoing, -, rfl, hl⟩ := Loop.arrive_spec harrive
  cases ha.symm.trans ha'
  have hcancelled : ∃ woken, x.loop.arrival a = .cancelled woken := by
    unfold Loop.arrival
    rcases (hP hgoing).word with hword | hdropped
    · rw [hword]
      exact ⟨_, rfl⟩
    · rw [hdropped]
      split
      · exact ⟨_, rfl⟩
      · exact ⟨false, rfl⟩
  obtain ⟨woken, hcancelled⟩ := hcancelled
  obtain ⟨y, hmild, hrun⟩ :=
    runPoint_cancelled (v := v) { x with loop := l } (hP hgoing).helper woken
  obtain ⟨b, hb, -⟩ := hmild.eases v _ hl
  rw [hcancelled, hrun]
  exact ⟨_, Loop.task?_finish hb, fun h => by cases h⟩

/-- Once nothing is left to be done, who was over has ended. -/
theorem Over.ended (h : w.Over v) (hw : Awake none w) (hquiet : w.Quiescent) :
    w.loop.ended v = true := by
  obtain ⟨a, ha, hleaves⟩ := h
  rw [Loop.ended_of_task? ha]
  cases hending : a.ending with
  | some e => rfl
  | none =>
      have hroused := (hleaves hending).roused
      rw [hw.alert.not_roused hquiet ha hending] at hroused
      cases hroused

/-- A helper at a sink is over as soon as it is cancelled. -/
theorem over_cancel (hw : w.Tidy) (hv : w.Seat v (some s) true) :
    Over (w.withLoop (·.cancel v)) v := by
  obtain ⟨a, ha, hsink, hhelper⟩ := hv
  have hplain := (hw.waits v a ha).isPlain hhelper (by rw [hsink]; simp)
  show ∃ b, (w.loop.cancel v).task? v = some b ∧ _
  rw [Loop.cancel_of_isPlain ha hplain, Loop.drop, Loop.ended_of_task? ha]
  split
  · next hended =>
      refine ⟨a, ha, fun hgoing => ?_⟩
      rw [hgoing] at hended
      cases hended
  · split
    · refine ⟨{ a with wait := .dropped, cancels := a.cancels + 1 }, ?_, fun _ =>
        ⟨hhelper, rfl, .inr rfl⟩⟩
      show (w.loop.modify v _).task? v = _
      rw [Loop.task?_modify_self, ha]
      rfl
    · next hno =>
        refine ⟨{ a with mustCancel := true, cancels := a.cancels + 1 }, ?_, fun _ =>
          ⟨hhelper, ?_, .inl rfl⟩⟩
        · rw [Loop.leaveWord, Loop.task?_modify_self, ha]
          rfl
        · show a.wait.isRoused = true
          cases hwait : a.wait with
          | none | woken | dropped => rfl
          | signal => exact absurd (Loop.awaitsSignal_iff.2 ⟨a, ha, hwait⟩) hno
          | task | group => rw [hwait] at hplain; cases hplain

theorem over_cancelAll (hw : w.Tidy) {vs : List TaskId} (hvs : ∀ v ∈ vs, w.Seat v (some s) true)
    (hv : v ∈ vs) : Over (w.withLoop fun l => vs.foldl Loop.cancel l) v := by
  induction vs generalizing w with
  | nil => cases hv
  | cons u rest ih =>
      have hu := hvs u List.mem_cons_self
      have hfirst : Works u none (fun x => x = u) w (w.withLoop (·.cancel u)) :=
        .cancel (.inr ⟨s, hu, rfl⟩)
      rcases List.mem_cons.1 hv with rfl | hv
      · exact (over_cancel hw hu).bides fun a ha =>
          (Loop.keeps_cancelAll (w.loop.cancel v) rest).bides ha
      · refine ih (hfirst.tidy hw) (fun x hx => ?_) hv
        exact hfirst.seats _ _ _ (hvs x (List.mem_cons_of_mem u hx))

/-! ## Who waits for a sink to be closed -/

/-- A task waits for a sink to be closed, or has done so. -/
def AwaitsClose (w : World) (v : TaskId) (s : SinkId) : Prop :=
  ∃ a, w.loop.task? v = some a ∧ (a.ending = none → a.point = .awaitingClose s)

theorem AwaitsClose.bides (h : w.AwaitsClose v s) (hbides : ∀ a, w.loop.task? v = some a →
    ∃ b, w'.loop.task? v = some b ∧ TaskBides a b) : w'.AwaitsClose v s := by
  obtain ⟨a, ha, hpoint⟩ := h
  obtain ⟨b, hb, hab⟩ := hbides a ha
  exact ⟨b, hb, fun hgoing => hab.point.trans (hpoint (hab.ending.symm.trans hgoing))⟩

theorem AwaitsClose.mild {f : Option SinkId} (h : w.AwaitsClose v s) (hw : Mild f w w') :
    w'.AwaitsClose v s :=
  h.bides fun a ha => by
    obtain ⟨b, hb, hab⟩ := hw.eases v a ha
    exact ⟨b, hb, hab.bides⟩

theorem AwaitsClose.happens (h : w.AwaitsClose v s) (hnext : Happens who w w') (hw : w.Bound) :
    w'.AwaitsClose v s := by
  obtain ⟨a, ha, hpoint⟩ := h
  refine hnext.keeps_task (P := fun a => a.ending = none → a.point = .awaitingClose s) hw
    (fun a b hP hab hgoing => hab.point.trans (hP (hab.ending.symm.trans hgoing)))
    (fun x a l arrival hP ha harrive => ?_) ha hpoint
  obtain ⟨a', ha', hgoing, -, -, hl⟩ := Loop.arrive_spec harrive
  cases ha.symm.trans ha'
  rw [hP hgoing]
  show ∃ b, (runAwaitingClose { x with loop := l } v s arrival).loop.task? v = some b ∧ _
  unfold runAwaitingClose
  cases arrival with
  | cancelled woken => exact ⟨_, Loop.task?_finish hl, fun h => by cases h⟩
  | on =>
      dsimp only
      split
      · exact ⟨_, Loop.task?_finish hl, fun h => by cases h⟩
      · obtain ⟨b, hb, hb', -⟩ := (l.goes_suspend v (.awaitingClose s) .signal).own _ hl
        exact ⟨b, hb, fun _ => hb'⟩

/-- Once nothing is left to be done, who works at a sink and does not wait for helpers that he has
called off waits for a signal. -/
theorem Awake.awaits_signal {a : Task Point Report} (hw : Awake none w) (hquiet : w.Quiescent)
    (ha : w.loop.task? v = some a) (hgoing : a.ending = none) (hsink : a.point.sink? = some s)
    (hclear : ∀ call cancelled, a.point ≠ .clearing call cancelled) :
    a.wait = .signal ∧ a.point.takesSignal = true := by
  have hroused := hw.alert.not_roused hquiet ha hgoing
  have hadmits := hw.admits v a (by simp) ha hgoing
  cases hwait : a.wait with
  | none | woken | dropped => rw [hwait] at hroused; cases hroused
  | signal =>
      rw [hwait] at hadmits
      exact ⟨rfl, hadmits⟩
  | task other =>
      rw [hwait] at hadmits
      obtain ⟨_, _, _, hpoint⟩ := hadmits
      rw [hpoint] at hsink
      cases hsink
  | group members n off =>
      rw [hwait] at hadmits
      obtain ⟨call, cancelled, hpoint⟩ := hadmits
      exact absurd hpoint (hclear call cancelled)

/-- In a closed sink nobody waits for it to be closed once nothing is left to be done. -/
theorem AwaitsClose.ended (h : w.AwaitsClose v s) (hw : Awake none w) (hquiet : w.Quiescent)
    (hclosed : (w.sink s).closed = true) : w.loop.ended v = true := by
  obtain ⟨a, ha, hawaits⟩ := h
  rw [Loop.ended_of_task? ha]
  cases hgoing : a.ending with
  | some e => rfl
  | none =>
      have hpoint := hawaits hgoing
      obtain ⟨hsignal, -⟩ := hw.awaits_signal (s := s) hquiet ha hgoing (by rw [hpoint]; rfl)
        (by rw [hpoint]; simp)
      obtain ⟨-, hopen⟩ := hw.heard v a s (by simp) ha hgoing hpoint hsignal
      rw [hclosed] at hopen
      cases hopen

end World

end LiveCluster.Simulation
