import LiveCluster.Proofs.Loop.Alert
import LiveCluster.Simulation.Consumer

/-!
# Who will hear of what

In a world that is `Awake` no task is forgotten: each that goes on will hear of the tasks
for which it waits, waits in a way that its point allows, and if it waits for a sink to be
closed the sink is open and knows of it. A step of a task begins when the task is the only
one of whom this is not said, and ends when it is said of all.

On its way the task `Minds` the others, and at the end of its step it `Cedes`.
-/

namespace LiveCluster.Simulation

open Loop (TaskStirs Alert)

/-- For whose ends a task at a point waits, if it waits for the first of several. -/
def Point.awaited : Point → List TaskId
  | .supervising _ tasks pending => pending ++ [tasks.closer]
  | .getting _ _ (some race) => [race.taker, race.closer]
  | _ => []

/-- Whether a task at a point may wait for a signal. Who puts an event into a sink and waits has
come to wait for room. -/
def Point.takesSignal : Point → Bool
  | .worker _ .held | .worker _ .watching | .worker _ (.asleep (some _)) => true
  | .syncing .. | .reporting .. | .supervising .. => true
  | .stream _ .reading | .stream _ (.delivering ..) => true
  | .giving _ d => d.waited
  | .taking _ | .awaitingClose _ | .getting _ _ (some _) | .closing => true
  | _ => false

/-- Whether a task at a point may wait like this. -/
def Point.admits (p : Point) : Wait → Prop
  | .none => True
  | .signal | .woken | .dropped => p.takesSignal = true
  | .task other => ∃ reason i rest, p = .stopping reason (some (i, other)) rest
  | .group .. => ∃ call cancelled, p = .clearing call cancelled

theorem Point.admits.stirs {p : Point} {a b : Wait} (h : p.admits a) (hab : a.Stirs b) :
    p.admits b := by
  cases hab with
  | same | woken | dropped | calledOff => exact h

namespace World

variable {w w' x : World} {t v : TaskId} {busy : Option TaskId} {s : SinkId} {p : Point}

/-- Who waits for a sink to be closed will hear of that. -/
def Heard (busy : Option TaskId) (w : World) : Prop :=
  ∀ v a s, busy ≠ some v → w.loop.task? v = some a → a.ending = none →
    a.point = .awaitingClose s → a.wait = .signal →
    v ∈ (w.sink s).watchers ∧ (w.sink s).closed = false

/-- No task is forgotten but the one that is on its way, if any. -/
structure Awake (busy : Option TaskId) (w : World) : Prop where
  alert : Alert Point.awaited busy w.loop
  admits : ∀ v a, busy ≠ some v → w.loop.task? v = some a → a.ending = none →
    a.point.admits a.wait
  heard : Heard busy w
  runs : ∀ t, busy = some t → ∃ a, w.loop.task? t = some a ∧ a.ending = none ∧ a.wait = .none

/-! ## On the way -/

/-- The others wait, and will hear of what they would have heard; no log is opened, and no log of
theirs is closed. -/
structure Minds (t : Option TaskId) (w w' : World) : Prop where
  keeps : Loop.Keeps none t w.loop w'.loop
  closed : ∀ s, (w.sink s).closed = true → (w'.sink s).closed = true
  heard : Heard t w → Heard t w'
  opens : w'.openLogs ⊆ w.openLogs
  logs : ∀ v ∈ w.openLogs, t ≠ some v → v ∈ w'.openLogs

variable {u : Option TaskId}

theorem Minds.refl (u : Option TaskId) (w : World) : Minds u w w :=
  ⟨.refl _ _ _, fun _ h => h, fun h => h, fun _ h => h, fun _ h _ => h⟩

theorem Minds.trans (h : Minds u w w') (h' : Minds u w' x) : Minds u w x where
  keeps := h.keeps.trans h'.keeps
  closed s hs := h'.closed s (h.closed s hs)
  heard hheard := h'.heard (h.heard hheard)
  opens := List.Subset.trans h'.opens h.opens
  logs v hv hne := h'.logs v (h.logs v hv hne) hne

/-- A sink forgets none of those who wait for it to be closed, or it is closed and all of them are
told. -/
theorem Minds.of_sinks (hkeeps : Loop.Keeps none u w.loop w'.loop)
    (hlogs : w'.openLogs = w.openLogs)
    (hsinks : ∀ s, ((w'.sink s).closed = (w.sink s).closed ∧
        ∀ v, u ≠ some v → v ∈ (w.sink s).watchers → v ∈ (w'.sink s).watchers) ∨
      (w'.sink s).closed = true ∧
        ∀ v, v ∈ (w.sink s).watchers → w'.loop.awaitsSignal v = false) :
    Minds u w w' where
  keeps := hkeeps
  opens v hv := hlogs ▸ hv
  logs v hv _ := hlogs ▸ hv
  closed s hs := by
    rcases hsinks s with ⟨hclosed, -⟩ | ⟨hclosed, -⟩
    · rw [hclosed, hs]
    · exact hclosed
  heard h := by
    intro v b s hv hb hending hpoint hsignal
    cases ha : w.loop.task? v with
    | none =>
        have hwait := (hkeeps.made v b ha hb).1
        rw [hsignal] at hwait
        cases hwait
    | some a =>
        obtain ⟨b', hb', htells⟩ := hkeeps.tells v a ha
        cases hb.symm.trans hb'
        have hstirs := (hkeeps.stirs v a b (by simp) ha hb).1
        have hwait : a.wait = .signal := by
          have hstirs := hstirs.wait
          rw [hsignal] at hstirs
          generalize a.wait = wait at hstirs ⊢
          cases hstirs
          rfl
        obtain ⟨hmem, hopen⟩ := h v a s hv ha (htells.ending.symm.trans hending)
          (hstirs.point.symm.trans hpoint) hwait
        rcases hsinks s with ⟨hclosed, hmore⟩ | ⟨-, hnone⟩
        · exact ⟨hmore v hv hmem, hclosed.trans hopen⟩
        · have hmiss := hnone v hmem
          rw [Loop.awaitsSignal_iff.2 ⟨b, hb, hsignal⟩] at hmiss
          cases hmiss

theorem Minds.of_eq (hkeeps : Loop.Keeps none none w.loop w'.loop) (hsinks : w'.sinks = w.sinks)
    (hlogs : w'.openLogs = w.openLogs) : Minds u w w' :=
  .of_sinks hkeeps.weaken hlogs fun s => .inl
    (by rw [sink, sink, hsinks]; exact ⟨rfl, fun _ _ h => h⟩)

theorem sink_setSink_cases (w : World) (s r : SinkId) (y : Sink) :
    (w.setSink s y).sink r = w.sink r ∨ s = r ∧ (w.setSink s y).sink r = y := by
  by_cases hsr : s = r
  · subst hsr
    by_cases hs : s < w.sinks.length
    · exact .inr ⟨rfl, by rw [sink, setSink, List.getElem?_set_self hs]; rfl⟩
    · refine .inl ?_
      rw [sink, sink, setSink, List.set_eq_of_length_le (Nat.le_of_not_lt hs)]
  · exact .inl (by rw [sink, sink, setSink, List.getElem?_set_ne hsr])

/-- What is in a sink is changed, and who waits for it to be closed is left alone. -/
theorem Minds.of_channel {l : Loop Point Report} {y : Sink} (hkeeps : Loop.Keeps none none w.loop l)
    (hclosed : y.closed = (w.sink s).closed) (hwatchers : y.watchers = (w.sink s).watchers) :
    Minds u w { w.setSink s y with loop := l } := by
  refine .of_sinks hkeeps.weaken rfl fun r => .inl ?_
  show ((w.setSink s y).sink r).closed = _ ∧
    ∀ v, u ≠ some v → _ → v ∈ ((w.setSink s y).sink r).watchers
  rcases w.sink_setSink_cases s r y with h | ⟨rfl, h⟩ <;> rw [h]
  · exact ⟨rfl, fun _ _ h => h⟩
  · exact ⟨hclosed, fun _ _ h => hwatchers ▸ h⟩

theorem Awake.minds (h : Awake busy w) (hw : Minds busy w w') : Awake busy w' where
  alert := h.alert.keeps hw.keeps (.inl rfl) (.inr rfl)
  admits v b hv hb hending := by
    cases ha : w.loop.task? v with
    | none =>
        rw [(hw.keeps.made v b ha hb).1]
        trivial
    | some a =>
        obtain ⟨b', hb', htells⟩ := hw.keeps.tells v a ha
        cases hb.symm.trans hb'
        have hstirs := (hw.keeps.stirs v a b (by simp) ha hb).1
        rw [hstirs.point]
        exact (h.admits v a hv ha (htells.ending.symm.trans hending)).stirs hstirs.wait
  heard := hw.heard h.heard
  runs t ht := by
    obtain ⟨a, ha, hending, hwait⟩ := h.runs t ht
    obtain ⟨b, hb, htells⟩ := hw.keeps.tells t a ha
    have hstirs := (hw.keeps.stirs t a b (by simp) ha hb).1.wait
    refine ⟨b, hb, htells.ending.trans hending, ?_⟩
    rw [hwait] at hstirs
    generalize b.wait = wait at hstirs ⊢
    cases hstirs
    rfl

/-! ## At the end of a step -/

/-- A task has ended, or has come to wait and will hear of what it waits for. It has opened no
log, and has closed none but its own. -/
structure Cedes (t : TaskId) (w w' : World) : Prop where
  others : ∀ v a, v ≠ t → w.loop.task? v = some a →
    ∃ b, w'.loop.task? v = some b ∧ b.ending = a.ending ∧ TaskStirs a b
  closed : ∀ s, (w.sink s).closed = true → (w'.sink s).closed = true
  awake : Awake (some t) w → Awake none w'
  opens : w'.openLogs ⊆ w.openLogs
  logs : ∀ v ∈ w.openLogs, v ≠ t → v ∈ w'.openLogs

theorem Minds.cedes (h : Minds (some t) w x) (h' : Cedes t x w') : Cedes t w w' where
  others v a hv ha := by
    obtain ⟨b, hb, htells⟩ := h.keeps.tells v a ha
    obtain ⟨c, hc, hending, hstirs⟩ := h'.others v b hv hb
    exact ⟨c, hc, hending.trans htells.ending,
      ((h.keeps.stirs v a b (by simp) ha hb).1).trans hstirs⟩
  closed s hs := h'.closed s (h.closed s hs)
  awake hw := h'.awake (hw.minds h)
  opens := List.Subset.trans h'.opens h.opens
  logs v hv hne := h'.logs v (h.logs v hv (by simpa using Ne.symm hne)) hne

/-- Where it comes to stand is told of the task itself; the others at most had their waits
stirred. -/
theorem Cedes.of_others {l : Loop Point Report}
    (hothers : ∀ v a, v ≠ t → w.loop.task? v = some a →
      ∃ b, l.task? v = some b ∧ b.ending = a.ending ∧ TaskStirs a b)
    (hmade : ∀ v b, v ≠ t → w.loop.task? v = none → l.task? v = some b → b.wait = .none)
    (hown : ∀ a, w.loop.task? t = some a → a.wait = .none →
      Alert Point.awaited (some t) w.loop → Alert Point.awaited none l ∧
        ∀ b, l.task? t = some b → b.ending = none → b.point.admits b.wait ∧
          ∀ s, b.point = .awaitingClose s → b.wait = .signal →
            t ∈ (w.sink s).watchers ∧ (w.sink s).closed = false) :
    Cedes t w { w with loop := l } where
  others := hothers
  closed _ hs := hs
  opens _ hv := hv
  logs _ hv _ := hv
  awake h := by
    obtain ⟨a, ha, -, hrunning⟩ := h.runs t rfl
    obtain ⟨halert, hstands⟩ := hown a ha hrunning h.alert
    -- where another task stands, and how it waits, is known from before
    have hother : ∀ v b, v ≠ t → l.task? v = some b → b.ending = none →
        b.wait = .none ∨ ∃ c, w.loop.task? v = some c ∧ c.ending = none ∧ TaskStirs c b := by
      intro v b hv hb hending
      cases hc : w.loop.task? v with
      | none => exact .inl (hmade v b hv hc hb)
      | some c =>
          obtain ⟨b', hb', hsame, hstirs⟩ := hothers v c hv hc
          cases hb.symm.trans hb'
          exact .inr ⟨c, rfl, hsame.symm.trans hending, hstirs⟩
    refine ⟨halert, fun v b _ hb hending => ?_,
      fun v b s _ hb hending hpoint hsignal => ?_, fun _ ht => by cases ht⟩
    · by_cases hv : v = t
      · subst hv
        exact (hstands b hb hending).1
      · rcases hother v b hv hb hending with hnone | ⟨c, hc, hgoing, hstirs⟩
        · rw [hnone]
          trivial
        · rw [hstirs.point]
          exact (h.admits v c (by simpa using Ne.symm hv) hc hgoing).stirs hstirs.wait
    · by_cases hv : v = t
      · subst hv
        exact (hstands b hb hending).2 s hpoint hsignal
      · rcases hother v b hv hb hending with hnone | ⟨c, hc, hgoing, hstirs⟩
        · rw [hsignal] at hnone
          cases hnone
        · refine h.heard v c s (by simpa using Ne.symm hv) hc hgoing
            (hstirs.point.symm.trans hpoint) ?_
          have hwait := hstirs.wait
          rw [hsignal] at hwait
          generalize c.wait = wait at hwait ⊢
          cases hwait
          rfl

/-- A task moves and goes on. -/
theorem Cedes.of_keeps {l : Loop Point Report} (hkeeps : Loop.Keeps (some t) none w.loop l)
    (hown : ∀ a, w.loop.task? t = some a → a.wait = .none →
      Alert Point.awaited (some t) w.loop → Alert Point.awaited none l ∧
        ∀ b, l.task? t = some b → b.ending = none → b.point.admits b.wait ∧
          ∀ s, b.point = .awaitingClose s → b.wait = .signal →
            t ∈ (w.sink s).watchers ∧ (w.sink s).closed = false) :
    Cedes t w { w with loop := l } := by
  refine .of_others (fun v a hv ha => ?_) (fun v b _ hnone hb => (hkeeps.made v b hnone hb).1) hown
  obtain ⟨b, hb, htells⟩ := hkeeps.tells v a ha
  exact ⟨b, hb, htells.ending, (hkeeps.stirs v a b (by simpa using Ne.symm hv) ha hb).1⟩

theorem Cedes.goOn (hp : ∀ s, p ≠ .awaitingClose s) : Cedes t w (w.goOn t p) := by
  refine .of_keeps (w.loop.keeps_goOn t p) fun a ha hrunning halert =>
    ⟨halert.goOn ha hrunning p, fun b hb _ => ?_⟩
  cases hb.symm.trans (Loop.task?_goOn ha)
  exact ⟨by rw [hrunning]; trivial, fun s h => absurd h (hp s)⟩

/-- A task comes to wait at a point. -/
theorem Cedes.of_suspend {wait : Wait} {l : Loop Point Report}
    (hl : Loop.Keeps none none (w.loop.suspend t p wait) l) (hp : p.admits wait)
    (halert : ∀ a, w.loop.task? t = some a → Alert Point.awaited (some t) w.loop →
      Alert Point.awaited none l)
    (hopen : ∀ s, p = .awaitingClose s → wait = .signal →
      t ∈ (w.sink s).watchers ∧ (w.sink s).closed = false) :
    Cedes t w { w with loop := l } := by
  refine .of_keeps ((w.loop.keeps_suspend t p wait).trans hl) fun a ha _ hall =>
    ⟨halert a ha hall, fun b hb _ => ?_⟩
  have hstirs := (hl.stirs t _ b (by simp) (Loop.task?_suspend ha p wait) hb).1
  rw [hstirs.point]
  refine ⟨hp.stirs hstirs.wait, fun s hpoint hsignal => hopen s hpoint ?_⟩
  have hwait := hstirs.wait
  rw [hsignal] at hwait
  cases hwait
  rfl

/-- A task comes to wait for a signal, and for nobody's end. -/
theorem Cedes.await (hp : p.takesSignal = true ∧ p.awaited = []) (hopen : ∀ s,
    p = .awaitingClose s → t ∈ (w.sink s).watchers ∧ (w.sink s).closed = false) :
    Cedes t w (w.await t p) :=
  .of_suspend (.refl _ _ _) hp.1 (fun _ _ h => h.suspend hp.2) fun s h _ => hopen s h

theorem Cedes.giveWay : Cedes t w (w.withLoop (·.giveWay t p)) :=
  .of_suspend (Loop.keeps_schedule (w.loop.suspend t p .none) _) trivial (fun _ _ h => h.giveWay p)
    fun _ _ h => by cases h

theorem Cedes.awaitTask (reason : StopReason) (i : InformerId) (rest : List InformerId)
    (other : TaskId) :
    Cedes t w (w.withLoop (·.awaitTask t (.stopping reason (some (i, other)) rest) other)) :=
  .of_suspend (Loop.keeps_addWatcher (w.loop.suspend t _ (.task other)) other _) ⟨_, _, _, rfl⟩
    (fun _ _ h => h.awaitTask _ other) fun _ _ h => by cases h

theorem Cedes.awaitAny (hp : p.takesSignal = true) (hclose : ∀ s, p ≠ .awaitingClose s) :
    Cedes t w (w.withLoop (·.awaitAny t p p.awaited)) :=
  .of_suspend (w.loop.keeps_awaitAny t p _) hp (fun _ ha h => h.awaitAny ha)
    fun s h _ => absurd h (hclose s)

/-- A task comes to wait for a group of which some member goes on. -/
theorem Cedes.awaitGroup (call : TailCall) (cancelled : Bool) {members : List TaskId}
    (hsome : members.all w.loop.ended = false) :
    Cedes t w (w.withLoop (·.awaitGroup t (.clearing call cancelled) members)) := by
  obtain ⟨m, hm, hgoing⟩ := List.all_eq_false.1 hsome
  refine .of_suspend (Loop.keeps_foldl (w.loop.suspend t (.clearing call cancelled)
      (.group members (members.filter (!w.loop.ended ·)).length false)) _
    fun l m _ => l.keeps_addWatcher m _) ⟨_, _, rfl⟩
    (fun _ ha h => h.awaitGroup ha ⟨m, hm, by simpa using hgoing⟩) fun _ _ h => by cases h

/-- A task has ended. -/
theorem Cedes.finish (e : Ending Report) : Cedes t w (w.finish t e) := by
  have hother : ∀ v, v ≠ t → (w.loop.finish t e).task? v = w.loop.task? v := by
    intro v hv
    unfold Loop.finish
    split
    · rfl
    · exact (Loop.task?_modify _ t v _).trans (if_neg (Ne.symm hv))
  refine .of_others (fun v a hv ha => ?_) (fun v b hv hnone hb => ?_) fun a ha _ halert =>
    ⟨halert.finish ha e, fun b hb hending => ?_⟩
  · exact ⟨a, (hother v hv).trans ha, rfl, rfl, rfl, .same _, id⟩
  · rw [hother v hv, hnone] at hb
    cases hb
  · cases hb.symm.trans (Loop.task?_finish ha)
    cases hending

theorem Cedes.report (r : Report) : Cedes t w (w.report t r) :=
  .finish (.returned r)

end World

end LiveCluster.Simulation
