import LiveCluster.Proofs.Tail.Account
import LiveCluster.Proofs.Tail.Sharing

/-!
# What a stream delivers

A stream reads its log item by item and delivers what it reads before it reads on. It may
have to wait for room in the sink with an event, which is then `due`. As long as the sink
is open and nobody cancels it, all that it has read is in the sink or due; after a failure
or the end of the log it ends, and then nothing is due.
-/

namespace LiveCluster.Simulation

open Loop (StandsAt EndedAt Gentle)

variable {target : TailTarget} {options : TailOptions} {items : List LogItem} {d : Delivery}
  {last : Bool}

/-! ## Where a stream stands -/

theorem Told.waits (h : Told target options items (.delivering d last)) :
    Told target options items (.delivering { d with waited := true } last) := by
  cases h with
  | line texts text _ => exact .line texts text true
  | failed texts fault _ => exact .failed texts fault true

theorem Told.delivered (h : Told target options items (.delivering d false)) :
    Told target options items .reading := by
  cases h with
  | line texts text _ =>
      have hread : Told target options ((texts ++ [text]).map .line) .reading :=
        .reading (texts ++ [text])
      rwa [List.map_append] at hread

theorem Told.all (h : Told target options items (.delivering d true)) : ToldAll items := by
  cases h with
  | failed texts fault _ => exact ⟨texts, .inr ⟨fault, rfl⟩⟩

/-- A stream that has nothing due has read lines only. -/
theorem Told.lines {p : StreamPoint} (h : Told target options items p)
    (hp : p = .opening ∨ p = .reading) : ∃ texts : List String, items = texts.map .line := by
  cases h with
  | opening => exact ⟨[], rfl⟩
  | reading texts => exact ⟨texts, rfl⟩
  | line _ _ _ | failed _ _ _ => rcases hp with hp | hp <;> cases hp

namespace World

/-- The item that a stream reads when it goes on. -/
def reading (w : World) (st : Stream) : StreamPoint → Option LogItem
  | .delivering .. => none
  | .opening | .reading => (w.logOfStream st).items.head?

variable {w w' x : World} {u : TaskId} {st : Stream} {due : List LogEvent} {p : StreamPoint}

/-- What is left of a stream that has read these items, of which some events were due: it goes on
or has ended, and what is no longer due is in the sink. -/
structure Delivers (u : TaskId) (st : Stream) (items : List LogItem) (due : List LogEvent)
    (w w' : World) : Prop where
  tasks : w'.loop.tasks.length = w.loop.tasks.length
  closed : (w'.sink st.sink).closed = (w.sink st.sink).closed
  comes : ∃ given,
    (w'.sink st.sink).channel.items = (w.sink st.sink).channel.items ++ given ∧
    ((∃ q, w'.loop.StandsAt u (.stream st q) ∧ Told st.target st.options items q ∧
        given ++ q.due = due) ∨
      ∃ q, w'.loop.EndedAt u (.stream st q) (.returned .nothing) ∧ ToldAll items ∧ given = due)

theorem Puts.delivers {given : List LogEvent} (h : Puts st.sink given w x)
    (h' : Delivers u st items due x w') : Delivers u st items (given ++ due) w w' where
  tasks := h'.tasks.trans h.loop.length
  closed := h'.closed.trans h.closed
  comes := by
    obtain ⟨given', hitems, hcomes⟩ := h'.comes
    refine ⟨given ++ given', by rw [hitems, h.items, List.append_assoc], ?_⟩
    rcases hcomes with ⟨q, hq, htold, hdue⟩ | ⟨q, hq, htold, hdue⟩
    · exact .inl ⟨q, hq, htold, by rw [List.append_assoc, hdue]⟩
    · exact .inr ⟨q, hq, htold, by rw [hdue]⟩

/-- A stream that ends has nothing due. -/
theorem delivers_report (hu : w.loop.StandsAt u (.stream st p)) (htold : ToldAll items) :
    Delivers u st items [] w (w.report u .nothing) where
  tasks := (w.loop.spares_finish u _).length
  closed := rfl
  comes := ⟨[], (List.append_nil _).symm, .inr ⟨p, hu.finish _, htold, rfl⟩⟩

theorem delivers_goOn (hu : w.loop.StandsAt u (.stream st p)) {q : StreamPoint}
    (htold : Told st.target st.options items q) :
    Delivers u st items q.due w (w.goOn u (.stream st q)) where
  tasks := (w.loop.spares_goOn u _).length
  closed := rfl
  comes := ⟨[], (List.append_nil _).symm, .inl ⟨q, hu.goOn _, htold, rfl⟩⟩

/-- An event that a stream delivers is put into the sink, or stays due. -/
theorem delivers_deliver (hs : st.sink < w.sinks.length)
    (hopen : (w.sink st.sink).closed = false) (hu : w.loop.StandsAt u (.stream st p))
    (htold : Told st.target st.options items (.delivering d last)) :
    Delivers u st items [d.event] w (w.deliver u st d last) := by
  obtain ⟨v, ⟨hoffer, hputs⟩ | ⟨hoffer, hputs⟩⟩ := offer_cases hs hopen d
  · unfold deliver
    rw [hoffer]
    dsimp only
    have hu' := hu.gentle hputs.loop
    cases last with
    | true => exact hputs.delivers (delivers_report hu' htold.all)
    | false => exact hputs.delivers (delivers_goOn hu' htold.delivered)
  · unfold deliver
    rw [hoffer]
    have hs' : st.sink < v.sinks.length := hputs.sinks ▸ hs
    obtain ⟨hstands, htasks, hitems, hclosed⟩ := awaitRoom_spec hs' (hu.gentle hputs.loop)
      (.stream st (.delivering { d with waited := true } last))
    exact {
      tasks := htasks.trans hputs.loop.length
      closed := hclosed.trans hputs.closed
      comes := ⟨[], by rw [hitems, hputs.items], .inl ⟨_, hstands, htold.waits, rfl⟩⟩ }

/-- What a stream reads is delivered, or is the end. -/
theorem delivers_readLog (hs : st.sink < w.sinks.length)
    (hopen : (w.sink st.sink).closed = false) (hu : w.loop.StandsAt u (.stream st p))
    (texts : List String) :
    Delivers u st (texts.map .line ++ (w.logOfStream st).items.head?.toList)
      (st.target.events st.options (w.logOfStream st).items.head?.toList) w (w.readLog u st) := by
  unfold readLog
  cases htake : (w.logOfStream st).take? w.loop with
  | none =>
      rw [Channel.take?_eq_none_iff.1 htake]
      simp only [List.head?_nil, Option.toList_none, List.append_nil]
      exact {
        tasks := Loop.length_modify ..
        closed := rfl
        comes := ⟨[], (List.append_nil _).symm,
          .inl ⟨.reading, hu.suspend _, .reading texts, rfl⟩⟩ }
  | some taken =>
      obtain ⟨item, log, loop⟩ := taken
      rw [Channel.items_of_take? htake]
      simp only [List.head?_cons, Option.toList_some]
      let v : World := { w.setLogOfStream st log with loop := loop }
      have hread : Puts st.sink [] w v := .of_same (Channel.gentle_take? htake) rfl
      have hclose : Puts st.sink [] v (v.closeLog u st) := .of_same (.refl _ _) rfl
      have hu' : v.loop.StandsAt u (.stream st p) := hu.gentle hread.loop
      cases item with
      | line text =>
          exact hread.delivers
            (delivers_deliver (w := v) hs hopen hu' (.line texts text false))
      | ended =>
          have hreport := delivers_report (w := v.closeLog u st) hu' ⟨texts, .inl rfl⟩
          exact hread.delivers (hclose.delivers hreport)
      | failed fault =>
          have htold := (hread.trans hclose).trans
            (puts_tellAll _ (Tailer.streamError st.target.pod st.target.container fault))
          exact htold.delivers (delivers_deliver (htold.sinks ▸ hs) (htold.closed.trans hopen)
            (hu.gentle htold.loop) (.failed texts fault false))

/-- A step of a stream. -/
theorem delivers_runStream (hs : st.sink < w.sinks.length)
    (hopen : (w.sink st.sink).closed = false) (hu : w.loop.StandsAt u (.stream st p))
    (htold : Told st.target st.options items p) :
    Delivers u st (items ++ (w.reading st p).toList)
      (p.due ++ st.target.events st.options (w.reading st p).toList) w
      (w.runStream u st p .on) := by
  cases p with
  | opening =>
      obtain ⟨texts, rfl⟩ := htold.lines (.inl rfl)
      have hlog : Puts st.sink [] w (w.openLog u st) := .of_same (.refl _ _) rfl
      exact hlog.delivers (delivers_readLog (w := w.openLog u st) hs hopen hu texts)
  | reading =>
      obtain ⟨texts, rfl⟩ := htold.lines (.inr rfl)
      exact delivers_readLog hs hopen hu texts
  | delivering d last =>
      show Delivers u st (items ++ []) [d.event] w (w.deliver u st d last)
      rw [List.append_nil]
      exact delivers_deliver hs hopen hu htold

end World

end LiveCluster.Simulation
