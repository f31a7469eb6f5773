import LiveCluster.Proofs.Simulation.Manned

/-!
# Which logs are open

A log is opened where its stream asks for it and closed in several places: where it is at its
end or has failed, where the sink refuses a line of it, and where the stream is cancelled
between two lines or with one that it could not deliver. Whether none of them was missed can be
told from where the stream stands: while it reads, or has a line to deliver, its log is open,
and at no other time.

Only the stream's own turns concern its log, so they are walked through here; that everybody
else leaves the log alone is known from the steps of worlds.
-/

namespace LiveCluster.Simulation

/-- Whether a stream at a point has a log open: it reads it, or has a line of it to deliver. -/
def StreamPoint.reads : StreamPoint → Bool
  | .opening => false
  | .reading => true
  | .delivering _ last => !last

def Point.reads : Point → Bool
  | .stream _ p => p.reads
  | _ => false

theorem Point.not_reads_of_isFirst {p : Point} (h : p.isFirst = true) : p.reads = false := by
  cases p with
  | stream st q =>
      cases q with
      | opening => rfl
      | reading | delivering => cases h
  | _ => rfl

theorem Point.routine_of_reads {p : Point} (h : p.reads = true) : p.routine = .stream := by
  cases p with
  | stream st q => rfl
  | _ => cases h

namespace World

variable {w w' : World} {t v : TaskId} {u who : Option TaskId} {isOpen : Bool} {p : Point}

/-- A task goes on, and stands where a stream has its log open. -/
def Reads (w : World) (v : TaskId) : Prop :=
  ∃ p, w.loop.standing v = some (p, none) ∧ p.reads = true

/-- A task has a log open exactly if it reads it. -/
def LogAsRead (v : TaskId) (w : World) : Prop :=
  v ∈ w.openLogs ↔ w.Reads v

/-- A task that goes on has a log open, or has none. -/
structure Holds (t : TaskId) (isOpen : Bool) (w : World) : Prop where
  going : ∃ p, w.loop.standing t = some (p, none)
  log : t ∈ w.openLogs ↔ isOpen = true

theorem Minds.standing {s : Point × Option (Ending Report)} (h : Minds u w w')
    (hs : w.loop.standing v = some s) : w'.loop.standing v = some s := by
  obtain ⟨a, ha, rfl⟩ := Option.map_eq_some_iff.1 hs
  obtain ⟨b, hb, htells⟩ := h.keeps.tells v a ha
  have hpoint := (h.keeps.stirs v a b (by simp) ha hb).1.point
  rw [Loop.standing_of_task? hb, hpoint, htells.ending]

/-! ## The turns of a stream -/

theorem Holds.minds (h : Holds t isOpen w) (hw : Minds none w w') : Holds t isOpen w' where
  going := by
    obtain ⟨p, hp⟩ := h.going
    exact ⟨p, hw.standing hp⟩
  log := by
    rw [← h.log]
    exact ⟨fun ht => hw.opens ht, fun ht => hw.logs t ht (by simp)⟩

theorem Holds.openLog (h : Holds t isOpen w) (st : Stream) : Holds t true (w.openLog t st) where
  going := h.going
  log := iff_of_true (List.mem_append_right _ List.mem_cons_self) rfl

theorem Holds.closeLog (h : Holds t isOpen w) (st : Stream) : Holds t false (w.closeLog t st) where
  going := h.going
  log := iff_of_false (fun ht => by simp [World.closeLog] at ht) Bool.false_ne_true

theorem Holds.moves {l : Loop Point Report} (h : Holds t isOpen w)
    (hl : Loop.Moves t p w.loop l) (hp : p.reads = isOpen) :
    LogAsRead t { w with loop := l } := by
  obtain ⟨q, hq⟩ := h.going
  have hstands : l.standing t = some (p, none) := by
    rw [hl.own, hq]
    rfl
  refine h.log.trans ⟨fun hopen => ⟨p, hstands, hp.trans hopen⟩, fun ⟨p', hp', hreads⟩ => ?_⟩
  cases hstands.symm.trans hp'
  exact hp.symm.trans hreads

theorem Holds.goOn (h : Holds t isOpen w) (hp : p.reads = isOpen) : LogAsRead t (w.goOn t p) :=
  h.moves (w.loop.moves_goOn t p) hp

theorem Holds.await (h : Holds t isOpen w) (hp : p.reads = isOpen) : LogAsRead t (w.await t p) :=
  h.moves (w.loop.moves_suspend t p .signal) hp

theorem Holds.finish (h : Holds t false w) (e : Ending Report) : LogAsRead t (w.finish t e) := by
  refine h.log.trans (iff_of_false Bool.false_ne_true fun ⟨p, hp, _⟩ => ?_)
  obtain ⟨q, hq⟩ := h.going
  have hstands := (w.loop.ends_finish t e).own
  rw [hq] at hstands
  cases hstands.symm.trans hp

theorem Holds.awaitRoom (h : Holds t isOpen w) (hp : p.reads = isOpen) (s : SinkId) :
    LogAsRead t (w.awaitRoom t s p) :=
  (h.minds (w.minds_setChannel (.refl _ _ w.loop))).await hp

theorem Holds.deliver (last : Bool) (h : Holds t (!last) w) (st : Stream) (d : Delivery) :
    LogAsRead t (w.deliver t st d last) := by
  have hoffer := h.minds (w.minds_offer (s := st.sink) d)
  unfold World.deliver
  split
  · next heq =>
      rw [heq] at hoffer
      cases last with
      | true => exact hoffer.finish _
      | false => exact hoffer.goOn rfl
  · next v heq =>
      rw [heq] at hoffer
      cases last with
      | true => exact (hoffer.minds (v.minds_tell _)).finish _
      | false => exact (hoffer.closeLog st).finish _
  · next heq =>
      rw [heq] at hoffer
      exact hoffer.awaitRoom rfl _

theorem Holds.readLog (h : Holds t true w) (st : Stream) : LogAsRead t (w.readLog t st) := by
  unfold World.readLog
  split
  · have hset : ∀ log, Minds none w (w.setLogOfStream st log) :=
      fun _ => .of_eq (.refl _ _ _) rfl rfl
    exact (h.minds (hset _)).await rfl
  · next item log loop htaken =>
      have htake : Minds none w { w.setLogOfStream st log with loop := loop } :=
        .of_eq (Channel.keeps_take? htaken) rfl rfl
      have hread := h.minds htake
      cases item with
      | line text => exact Holds.deliver false hread st _
      | ended => exact (hread.closeLog st).finish _
      | failed fault =>
          have htold := (hread.closeLog st).minds
            (minds_tellAll _ (Tailer.streamError st.target.pod st.target.container fault))
          exact Holds.deliver true htold st _

theorem Holds.quitStream {q : StreamPoint} (h : Holds t q.reads w) (st : Stream) (woken : Bool) :
    LogAsRead t (w.quitStream t st woken q) := by
  cases q with
  | opening => exact h.finish _
  | reading =>
      have hleave : Minds none w { w.setLogOfStream st
          ((w.logOfStream st).leaveTakers w.loop t woken).1 with
          loop := ((w.logOfStream st).leaveTakers w.loop t woken).2 } :=
        .of_eq (Channel.keeps_leaveTakers _ w.loop t woken) rfl rfl
      exact ((h.minds hleave).closeLog st).finish _
  | delivering d last =>
      have hleave := h.minds (w.minds_leaveRoom t (s := st.sink) woken)
      cases last with
      | true => exact hleave.finish _
      | false => exact (hleave.closeLog st).finish _

theorem Holds.runStream {q : StreamPoint} (h : Holds t q.reads w) (st : Stream) (a : Arrival) :
    LogAsRead t (w.runStream t st q a) := by
  cases a with
  | cancelled woken => exact h.quitStream st woken
  | on =>
      cases q with
      | opening => exact (h.openLog st).readLog st
      | reading => exact h.readLog st
      | delivering d last => exact Holds.deliver last h st d

/-! ## In every world -/

/-- A task that is no stream becomes none in its turn, so it opens no log. -/
theorem Happens.logAsRead_of_routine (hnext : Happens (some v) w w') (hw : Lived w)
    (hlog : v ∉ w.openLogs) (hp : w.loop.standing v = some (p, none))
    (hroutine : p.routine ≠ .stream) : LogAsRead v w' := by
  refine iff_of_false (fun hv => ?_) fun ⟨p', hp', hreads⟩ => ?_
  · rcases (hnext.passes hw.orderly.bound).opens v hv with hopen | ⟨-, a, st, ha, hpoint⟩
    · exact hlog hopen
    · rw [Loop.standing_of_task? ha, hpoint] at hp
      obtain rfl : .stream st .opening = p := congrArg Prod.fst (Option.some.inj hp)
      exact hroutine rfl
  · rcases hnext.stood hw hp' with hold | ⟨hnone, -⟩ | ⟨-, q, hq, -, hsame⟩
    · cases hp.symm.trans hold
      exact hroutine (Point.routine_of_reads hreads)
    · rw [hp] at hnone
      cases hnone
    · cases hp.symm.trans hq
      exact hroutine (hsame.trans (Point.routine_of_reads hreads))

theorem Happens.logAsRead_own (hnext : Happens (some v) w w') (hw : Lived w)
    (h : LogAsRead v w) : LogAsRead v w' := by
  rcases hnext.goes with ⟨hstanding, -, -, hlogs⟩ |
    ⟨ready, round, l, p, arrival, -, hp, hsoft, hrun⟩
  · rw [LogAsRead, hlogs, Reads, hstanding]
    exact h
  · have hlog : v ∈ w.openLogs ↔ p.reads = true := by
      refine h.trans ⟨?_, fun hreads => ⟨p, hp, hreads⟩⟩
      rintro ⟨p', hp', hreads⟩
      cases hp.symm.trans hp'
      exact hreads
    by_cases hroutine : p.routine = .stream
    · cases p with
      | stream st q =>
          have hholds : Holds v q.reads { w.withReady ready round with loop := l } :=
            ⟨⟨_, (hsoft.standing v).trans hp⟩, hlog⟩
          rw [hrun]
          exact hholds.runStream st arrival
      | _ => cases hroutine
    · refine hnext.logAsRead_of_routine hw (fun hopen => ?_) hp hroutine
      exact hroutine (Point.routine_of_reads (hlog.1 hopen))

theorem Happens.logAsRead (hnext : Happens who w w') (hw : Lived w) (h : LogAsRead v w) :
    LogAsRead v w' := by
  by_cases hwho : who = some v
  · subst hwho
    exact hnext.logAsRead_own hw h
  have hpasses := hnext.passes hw.orderly.bound
  refine ⟨fun hv => ?_, fun ⟨p, hp, hreads⟩ => ?_⟩
  · rcases hpasses.opens v hv with hopen | ⟨hown, -⟩
    · obtain ⟨p, hp, hreads⟩ := h.1 hopen
      obtain ⟨a, ha, hsame⟩ := Option.map_eq_some_iff.1 hp
      obtain ⟨b, hb, hab⟩ := hpasses.others v a hwho ha
      refine ⟨p, ?_, hreads⟩
      rw [Loop.standing_of_task? hb, hab.point, hab.ending, hsame]
    · exact absurd hown hwho
  · rcases hnext.stood hw hp with hold | ⟨-, -, hfirst⟩ | ⟨hown, -⟩
    · exact hpasses.logs v (h.2 ⟨p, hold, hreads⟩) hwho
    · rw [Point.not_reads_of_isFirst hfirst] at hreads
      cases hreads
    · exact absurd hown hwho

/-- In every world, a log is open exactly as long as its stream reads it or delivers a line of
it. -/
theorem Lived.logAsRead (h : Lived w) (v : TaskId) : LogAsRead v w := by
  induction h with
  | new watch tail clock clusterScoped =>
      exact iff_of_false List.not_mem_nil fun ⟨p, hp, _⟩ => by cases hp
  | next hw hnext ih => exact hnext.logAsRead hw ih

/-- Whoever has ended has left no log open. -/
theorem Lived.log_closed (h : Lived w) (hended : w.loop.ended v = true) : v ∉ w.openLogs := by
  intro hopen
  obtain ⟨p, hp, -⟩ := (h.logAsRead v).1 hopen
  rw [Loop.ended_eq_false_iff.2 ⟨p, hp⟩] at hended
  cases hended

end World

end LiveCluster.Simulation
