import LiveCluster.Proofs.Loop.Steady
import LiveCluster.Proofs.Simulation.Elsewhere

/-!
# Sharing a sink

What concerns a sink is the sink and the tasks that work at it. Here is what a step of one
of these tasks leaves alone of the others, and what happens to the events in the sink.
-/

namespace LiveCluster.Simulation

open Loop (StandsAt EndedAt TaskEases TaskStays Gentle)

/-- Whether a task at a point gets events out of a sink. -/
def Point.isConsumer : Point → Bool
  | .taking _ | .getting .. => true
  | _ => false

namespace World

variable {w w' x : World} {s : SinkId} {u v : TaskId} {p : Point}

/-! ## Tasks at a sink -/

/-- Of the tasks at a sink those that are not moved stay where they are, and the waits of those
that are not hit are at most eased. -/
structure Apart (s : SinkId) (moved hit : TaskId → Prop) (w w' : World) : Prop where
  stays : ∀ v a, ¬moved v → w.loop.task? v = some a → a.point.sink? = some s →
    ∃ b, w'.loop.task? v = some b ∧ TaskStays a b ∧ (¬hit v → a.ending = none → TaskEases a b)
  old : ∀ v b, ¬moved v → v < w.loop.tasks.length → w'.loop.task? v = some b →
    b.point.sink? = some s → ∃ a, w.loop.task? v = some a ∧ a.point.sink? = some s

variable {moved hit : TaskId → Prop}

theorem Apart.endedAt {e : Ending Report} (h : Apart s moved hit w w') (hv : ¬moved v)
    (hp : p.sink? = some s) (hended : w.loop.EndedAt v p e) : w'.loop.EndedAt v p e := by
  refine hended.of_stays fun a ha => ?_
  obtain ⟨b, hb, hstays, -⟩ := h.stays v a hv ha ((hended.point_eq ha).1 ▸ hp)
  exact ⟨b, hb, hstays⟩

theorem Apart.standsAt (h : Apart s moved hit w w') (hv : ¬moved v) (hmiss : ¬hit v)
    (hp : p.sink? = some s) (hstands : w.loop.StandsAt v p) : w'.loop.StandsAt v p := by
  refine hstands.of_eases fun a ha => ?_
  obtain ⟨hpoint, hending, -⟩ := hstands.point_eq ha
  obtain ⟨b, hb, -, heases⟩ := h.stays v a hv ha (hpoint ▸ hp)
  exact ⟨b, hb, heases hmiss hending⟩

/-- Where a task at the sink comes from that is not new and was not moved. -/
theorem Apart.back {b : Task Point Report} (h : Apart s moved hit w w') (hv : ¬moved v)
    (hlt : v < w.loop.tasks.length) (hb : w'.loop.task? v = some b)
    (hsink : b.point.sink? = some s) :
    ∃ a, w.loop.task? v = some a ∧ TaskStays a b ∧
      (¬hit v → a.ending = none → TaskEases a b) := by
  obtain ⟨a, ha, hs⟩ := h.old v b hv hlt hb hsink
  obtain ⟨b', hb', hstays, heases⟩ := h.stays v a hv ha hs
  cases hb.symm.trans hb'
  exact ⟨a, ha, hstays, heases⟩

theorem Works.apart {f : Option SinkId} (h : Works u f hit w w') (ht : w.Tidy) :
    Apart s (· = u) hit w w' where
  stays v a hv ha hs := by
    obtain ⟨b, hb, hstays⟩ := h.others v a hv ha
    refine ⟨b, hb, hstays, fun hmiss _ => ?_⟩
    obtain ⟨b', hb', heases⟩ := h.eased ht v a hv hmiss ha (by rw [hs]; simp)
    cases hb.symm.trans hb'
    exact heases
  old v b _ hlt hb hs := by
    obtain ⟨a, ha, hsink⟩ := h.seats.back hlt hb
    exact ⟨a, ha, hsink.symm.trans hs⟩

theorem Away.apart (h : Away s w w') : Apart s (fun _ => False) (fun _ => False) w w' where
  stays v a _ ha hs := by
    obtain ⟨b, hb, heases⟩ := h.eases v a ha hs
    exact ⟨b, hb, heases.stays, fun _ _ => heases⟩
  old v b _ _ hb hs := h.nobody v b hb hs

/-- No task is made, and none is touched but those that are hit. -/
theorem Apart.of_spares (h : Loop.Spares hit w.loop w'.loop) : Apart s hit hit w w' where
  stays v a hv ha _ := by
    obtain ⟨b, hb, heases⟩ := h.eases v a hv ha
    exact ⟨b, hb, heases.stays, fun _ _ => heases⟩
  old v b hv _ hb hs := by
    obtain ⟨a, ha, heases⟩ := h.back hv hb
    exact ⟨a, ha, heases.point ▸ hs⟩

/-! ## Events in a sink -/

/-- Events are put into a sink, and on the way waits are eased. -/
structure Puts (s : SinkId) (given : List LogEvent) (w w' : World) : Prop where
  loop : Gentle w.loop w'.loop
  sinks : w'.sinks.length = w.sinks.length
  items : (w'.sink s).channel.items = (w.sink s).channel.items ++ given
  closed : (w'.sink s).closed = (w.sink s).closed

variable {given given' : List LogEvent}

theorem Puts.of_same (hloop : Gentle w.loop w'.loop) (hsinks : w'.sinks = w.sinks) :
    Puts s [] w w' where
  loop := hloop
  sinks := by rw [hsinks]
  items := by rw [sink, sink, hsinks, List.append_nil]
  closed := by rw [sink, sink, hsinks]

theorem Puts.refl (s : SinkId) (w : World) : Puts s [] w w :=
  .of_same (.refl _ _) rfl

theorem Puts.trans (h : Puts s given w w') (h' : Puts s given' w' x) :
    Puts s (given ++ given') w x where
  loop := h.loop.trans h'.loop
  sinks := h'.sinks.trans h.sinks
  items := by rw [h'.items, h.items, List.append_assoc]
  closed := h'.closed.trans h.closed

theorem sink_setSink (hs : s < w.sinks.length) (y : Sink) : (w.setSink s y).sink s = y := by
  rw [sink, setSink, List.getElem?_set_self hs]
  rfl

theorem Puts.of_sink {l : Loop Point Report} {y : Sink} (hs : s < w.sinks.length)
    (hloop : Gentle w.loop l) (hitems : y.channel.items = (w.sink s).channel.items ++ given)
    (hclosed : y.closed = (w.sink s).closed) :
    Puts s given w { w.setSink s y with loop := l } where
  loop := hloop
  sinks := List.length_set ..
  items := by
    show ((w.setSink s y).sink s).channel.items = _
    rw [sink_setSink hs, hitems]
  closed := by
    show ((w.setSink s y).sink s).closed = _
    rw [sink_setSink hs, hclosed]

theorem puts_tell (w : World) (note : Note) : Puts s [] w (w.tell note) := by
  obtain ⟨hloop, hsinks⟩ := w.loop_tell note
  exact .of_same (by rw [hloop]; exact .refl _ _) hsinks

theorem puts_tellAll (w : World) (notes : List Note) : Puts s [] w (w.tellAll notes) := by
  induction notes generalizing w with
  | nil => exact .refl s w
  | cons note rest ih => exact (w.puts_tell note).trans (ih (w.tell note))

/-- Who is not refused puts an event in, or finds the sink full. -/
theorem offer_admitted (hs : s < w.sinks.length) {d : Delivery}
    (hd : ((w.sink s).closed && !d.waited) = false) :
    ∃ v, w.offer s d = (v, .accepted) ∧ Puts s [d.event] w v ∨
      w.offer s d = (v, .full) ∧ Puts s [] w v := by
  unfold offer Sink.offer
  simp only [hd, Bool.false_eq_true, if_false]
  split
  · exact ⟨_, .inr ⟨rfl, .of_sink hs (.refl _ _) (List.append_nil _).symm rfl⟩⟩
  · exact ⟨_, .inl ⟨rfl, .of_sink hs (Channel.gentle_give _ w.loop d.event) rfl rfl⟩⟩

/-- An open sink takes an event or is full, and refuses none. -/
theorem offer_cases (hs : s < w.sinks.length) (hopen : (w.sink s).closed = false) (d : Delivery) :
    ∃ v, w.offer s d = (v, .accepted) ∧ Puts s [d.event] w v ∨
      w.offer s d = (v, .full) ∧ Puts s [] w v :=
  offer_admitted hs (by rw [hopen]; rfl)

/-- A task that finds a sink full waits, and has put nothing in. -/
theorem awaitRoom_spec (hs : s < w.sinks.length) (hu : w.loop.StandsAt u p) (q : Point) :
    (w.awaitRoom u s q).loop.StandsAt u q ∧
      (w.awaitRoom u s q).loop.tasks.length = w.loop.tasks.length ∧
      ((w.awaitRoom u s q).sink s).channel.items = (w.sink s).channel.items ∧
      ((w.awaitRoom u s q).sink s).closed = (w.sink s).closed := by
  refine ⟨hu.suspend q, Loop.length_modify .., ?_⟩
  show ((w.setSink s _).sink s).channel.items = _ ∧ ((w.setSink s _).sink s).closed = _
  rw [sink_setSink hs]
  exact ⟨rfl, rfl⟩

/-- What is taken out of a sink came first. -/
theorem takeEvent?_cases (hs : s < w.sinks.length) :
    w.takeEvent? s = none ∧ (w.sink s).channel.items = [] ∨
      ∃ v event, w.takeEvent? s = some (v, event) ∧ Gentle w.loop v.loop ∧
        v.sinks.length = w.sinks.length ∧
        (w.sink s).channel.items = event :: (v.sink s).channel.items ∧
        (v.sink s).closed = (w.sink s).closed := by
  unfold takeEvent? Sink.take?
  cases htake : (w.sink s).channel.take? w.loop with
  | none => exact .inl ⟨rfl, Channel.take?_eq_none_iff.1 htake⟩
  | some taken =>
      obtain ⟨event, channel, loop⟩ := taken
      refine .inr ⟨_, event, rfl, Channel.gentle_take? htake, List.length_set .., ?_⟩
      show _ = event :: ((w.setSink s _).sink s).channel.items ∧ ((w.setSink s _).sink s).closed = _
      rw [sink_setSink hs]
      exact ⟨Channel.items_of_take? htake, rfl⟩

theorem closeSink_spec (hs : s < w.sinks.length) :
    Gentle w.loop (w.closeSink s).loop ∧ (w.closeSink s).sinks.length = w.sinks.length ∧
      ((w.closeSink s).sink s).channel.items = (w.sink s).channel.items ∧
      ((w.closeSink s).sink s).closed = true := by
  have hloop : Gentle w.loop ((w.sink s).close w.loop).2 := by
    unfold Sink.close
    split
    · exact .refl _ _
    · exact w.loop.gentle_wakeAll _
  refine ⟨hloop, List.length_set .., ?_⟩
  show ((w.setSink s _).sink s).channel.items = _ ∧ ((w.setSink s _).sink s).closed = true
  rw [sink_setSink hs]
  exact ⟨Sink.close_items _ w.loop, Sink.close_closed _ w.loop⟩

end World

end LiveCluster.Simulation
