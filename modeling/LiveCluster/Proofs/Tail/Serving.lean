import LiveCluster.Proofs.Loop.Lines
import LiveCluster.Proofs.Simulation.Ceding
import LiveCluster.Proofs.Tail.Consuming

/-!
# The lines of a sink

The lines of a sink out of which one consumer gets events stay served, whoever of those at the sink
has its turn: a put that is made, or that waited for room, the tasks that race for a call for
events, and the call itself.
-/

namespace LiveCluster.Simulation

open Loop (StandsAt EndedAt Lulls Waits)

/-- A point at which a put waits for room. -/
def Point.givesAt (s : SinkId) (p : Point) : Prop :=
  ∃ d, p = .giving s d ∧ d.waited = true

/-- A point at which an event is taken. -/
def Point.takesAt (s : SinkId) (p : Point) : Prop :=
  p = .taking s

theorem Point.sink?_of_givesAt {s : SinkId} {p : Point} (h : p.givesAt s) : p.sink? = some s := by
  obtain ⟨d, rfl, -⟩ := h
  rfl

theorem Point.sink?_of_takesAt {s : SinkId} {p : Point} (h : p.takesAt s) : p.sink? = some s := by
  rw [show p = .taking s from h]
  rfl

theorem Point.not_at_getting (s r : SinkId) (collected : Option (List LogEvent))
    (race : Option Race) :
    ¬(getting r collected race).givesAt s ∧ ¬(getting r collected race).takesAt s := by
  constructor
  · rintro ⟨d, hd, -⟩
    cases hd
  · intro h
    cases h

theorem Point.not_at_awaitingClose (s r : SinkId) :
    ¬(awaitingClose r).givesAt s ∧ ¬(awaitingClose r).takesAt s := by
  constructor
  · rintro ⟨d, hd, -⟩
    cases hd
  · intro h
    cases h

theorem Point.not_givesAt_taking (s r : SinkId) : ¬(taking r).givesAt s := by
  rintro ⟨d, hd, -⟩
  cases hd

namespace World

variable {w w' v' : World} {s : SinkId} {u v g : TaskId} {race race' : Option Race} {size : Int}
  {debt : Nat} {d : Delivery} {a : Task Point Report} {l : Loop Point Report} {p : Point}
  {arrival : Arrival} {collected : Option (List LogEvent)}

/-- The lines of a sink are served, and of those who take events only the one in the race waits. -/
def Served (s : SinkId) (size : Int) (race : Option Race) (debt : Nat) (w : World) : Prop :=
  Channel.Served (Point.givesAt s) (Point.takesAt s) size (race.map (·.taker)) debt w.loop
    (w.sink s).channel

/-! ## What leaves the lines alone -/

theorem Served.of_lulls (h : w.Served s size race debt)
    (hchannel : (w'.sink s).channel = (w.sink s).channel)
    (hG : Lulls (Point.givesAt s) none w.loop w'.loop)
    (hT : Lulls (Point.takesAt s) none w.loop w'.loop) : w'.Served s size race debt := by
  rw [Served, hchannel]
  exact Channel.Served.lulls h hG hT

theorem Served.of_keeps {deaf : Option TaskId} (h : w.Served s size race debt)
    (hchannel : (w'.sink s).channel = (w.sink s).channel)
    (hkeeps : Loop.Keeps none deaf w.loop w'.loop) : w'.Served s size race debt :=
  h.of_lulls hchannel hkeeps.lulls hkeeps.lulls

theorem Served.finish (h : w.Served s size race debt) (ha : w.loop.task? u = some a)
    (hwait : a.wait = .none) (e : Ending Report) : (w.finish u e).Served s size race debt :=
  Channel.Served.finish h ha hwait e

/-- A task that is at neither line before and after goes on. -/
theorem Served.moved {deaf : Option TaskId} {y : World} (h : w.Served s size race debt)
    (hchannel : (y.sink s).channel = (w.sink s).channel)
    (hkeeps : Loop.Keeps (some u) deaf w.loop y.loop) (ha : w.loop.task? u = some a)
    (hold : ¬a.point.givesAt s ∧ ¬a.point.takesAt s) {b : Task Point Report}
    (hb : y.loop.task? u = some b) (hnew : ¬b.point.givesAt s ∧ ¬b.point.takesAt s) :
    y.Served s size race debt := by
  have hlulls : ∀ P : Point → Prop, ¬P a.point → ¬P b.point → Lulls P none w.loop y.loop :=
    fun P hP hP' => hkeeps.lulls_of_own ha hb hP hP'
  exact h.of_lulls hchannel (hlulls _ hold.1 hnew.1) (hlulls _ hold.2 hnew.2)

theorem lulls_of_away {P : Point → Prop} (h : Away s w w') (hP : ∀ p, P p → p.sink? = some s) :
    Lulls P none w.loop w'.loop where
  stays v a ha hp := by
    obtain ⟨b, hb, heases⟩ := h.eases v a ha (hP _ hp)
    refine ⟨b, hb, heases.point, fun hsignal => ⟨?_, heases.ending⟩⟩
    have hbides := heases.wait.bides
    rw [hsignal] at hbides
    exact hbides.signal
  back v b hb hp _ := by
    obtain ⟨a, ha, hsink⟩ := h.nobody v b hb (hP _ hp)
    obtain ⟨b', hb', heases⟩ := h.eases v a ha hsink
    cases hb.symm.trans hb'
    exact ⟨a, ha, heases.point ▸ hp⟩
  woken v _ := by
    rintro ⟨a, ha, hp, hgoing, hwoken⟩
    obtain ⟨b, hb, heases⟩ := h.eases v a ha (hP _ hp)
    have hsame := heases.wait.bides.roused (by rw [hwoken]; rfl)
    exact ⟨b, hb, heases.point ▸ hp, heases.ending.trans hgoing, hsame.trans hwoken⟩

theorem Served.away (h : w.Served s size race debt) (ha : Away s w w') :
    w'.Served s size race debt :=
  h.of_lulls (by rw [ha.sink]) (lulls_of_away ha fun _ => Point.sink?_of_givesAt)
    (lulls_of_away ha fun _ => Point.sink?_of_takesAt)

theorem Served.spawn (h : w.Served s size race debt) (p : Point) :
    (w.spawn p).1.Served s size race debt :=
  h.of_keeps rfl (show Loop.Keeps none none w.loop (w.spawn p).1.loop from w.loop.keeps_spawn p)

theorem Served.closeSink (h : w.Served s size race debt) (hs : s < w.sinks.length) :
    (w.closeSink s).Served s size race debt := by
  have hkeeps : Loop.Keeps none none w.loop (w.closeSink s).loop :=
    (w.minds_closeSink (u := none) (s := s)).keeps
  have hchannel : ((w.sink s).close w.loop).1.channel = (w.sink s).channel := by
    unfold Sink.close
    split <;> rfl
  exact h.of_keeps ((congrArg (·.channel) (sink_setSink hs _)).trans hchannel) hkeeps

/-! ## Puts -/

theorem Served.awaitRoom (h : w.Served s size race debt) (hs : s < w.sinks.length)
    (hu : w.loop.StandsAt u (.giving s d)) (hfull : (w.sink s).channel.isFull = true) :
    (w.awaitRoom u s (.giving s { d with waited := true })).Served s size race 0 := by
  obtain ⟨a, ha, hpoint, hgoing, -⟩ := hu
  have hchannel : ((w.awaitRoom u s (.giving s { d with waited := true })).sink s).channel =
      { (w.sink s).channel with givers := (w.sink s).channel.givers ++ [u] } :=
    congrArg (·.channel) (sink_setSink hs _)
  rw [Served, hchannel]
  refine Channel.Served.awaitRoom h hfull ha hgoing ?_ ⟨_, rfl, rfl⟩ fun h => by cases h
  rw [hpoint]
  exact fun h => by cases h

/-- Whether the event of a put comes into the sink when the put has its turn. -/
def accepts (w : World) (s : SinkId) (d : Delivery) : Bool :=
  (w.offer s d).2 = .accepted

/-- What a put comes to in its turn, by whether its event comes in. -/
inductive Gives (s : SinkId) (u : TaskId) (d : Delivery) (w w' : World) : Bool → Prop
  | enters (ended : w'.loop.EndedAt u (.giving s d) (.returned .nothing)) : Gives s u d w w' true
  | refused (ended : w'.loop.EndedAt u (.giving s d) (.failed .sinkClosed))
      (closed : (w.sink s).closed = true) : Gives s u d w w' false
  | waits (stands : w'.loop.StandsAt u (.giving s { d with waited := true })) :
      Gives s u d w w' false

theorem Gives.of_loop {accepted : Bool} (h : Gives s u d { w with loop := l } w' accepted) :
    Gives s u d w w' accepted := by
  cases h with
  | enters ended => exact .enters ended
  | refused ended closed => exact .refused ended closed
  | waits stands => exact .waits stands

theorem offer_of_refused (h : ((w.sink s).closed && !d.waited) = true) :
    w.offer s d = (w.setSink s (w.sink s), .refused) := by
  unfold offer Sink.offer
  rw [if_pos h]
  rfl

theorem offer_of_full (h : ((w.sink s).closed && !d.waited) = false)
    (hfull : (w.sink s).channel.isFull = true) :
    w.offer s d = (w.setSink s (w.sink s), .full) := by
  unfold offer Sink.offer
  rw [h, hfull]
  rfl

theorem offer_of_room (h : ((w.sink s).closed && !d.waited) = false)
    (hroom : (w.sink s).channel.isFull = false) :
    w.offer s d = ({ w.setSink s { w.sink s with
      channel := ((w.sink s).channel.give w.loop d.event).1 } with
      loop := ((w.sink s).channel.give w.loop d.event).2 }, .accepted) := by
  unfold offer Sink.offer
  rw [h, hroom]
  rfl

/-- A put has its turn. Room may be owed to it if it has waited for that. -/
theorem runGiving_spec (hs : s < w.sinks.length) (hu : w.loop.StandsAt u (.giving s d))
    (ha : w.loop.task? u = some a) (hwait : a.wait = .none) (h : w.Served s size race 1)
    (hunwaited : d.waited = false → w.Served s size race 0) :
    let w' := w.runGiving u s d .on
    Gives s u d w w' (w.accepts s d) ∧ w'.Served s size race 0 ∧
      (w'.sink s).channel.items =
        (w.sink s).channel.items ++ (if w.accepts s d then [d.event] else []) ∧
      (w'.sink s).closed = (w.sink s).closed ∧
      w'.loop.tasks.length = w.loop.tasks.length := by
  obtain ⟨hpoint, hgoing, -⟩ := hu.point_eq ha
  have hset := fun y => w.sink_setSink (s := s) hs y
  unfold runGiving accepts
  cases hrefused : (w.sink s).closed && !d.waited with
  | true =>
      rw [offer_of_refused hrefused]
      rw [Bool.and_eq_true, Bool.not_eq_true'] at hrefused
      have hsame : (w.setSink s (w.sink s)).Served s size race 0 :=
        (hunwaited hrefused.2).of_keeps (by rw [hset]) (.refl none none w.loop)
      exact ⟨.refused (hu.finish _) hrefused.1, hsame.finish ha hwait _,
        (congrArg (·.channel.items) (hset _)).trans (List.append_nil _).symm,
        congrArg (·.closed) (hset _), (w.loop.spares_finish u _).length⟩
  | false =>
      cases hfull : (w.sink s).channel.isFull with
      | true =>
          rw [offer_of_full hrefused hfull]
          let v : World := w.setSink s (w.sink s)
          have hsame : v.sink s = w.sink s := hset _
          have hv : v.Served s size race 1 :=
            h.of_keeps (by rw [hsame]) (.refl none none w.loop)
          have hlt : s < v.sinks.length := Nat.lt_of_lt_of_eq hs (List.length_set ..).symm
          obtain ⟨hstands, hlength, hitems, hclosed⟩ :=
            awaitRoom_spec (w := v) hlt hu (.giving s { d with waited := true })
          rw [hsame] at hitems hclosed
          exact ⟨.waits hstands, hv.awaitRoom hlt hu (hsame ▸ hfull),
            hitems.trans (List.append_nil _).symm, hclosed, hlength⟩
      | false =>
          rw [offer_of_room hrefused hfull]
          have hkeeps := Channel.keeps_give (w.sink s).channel w.loop d.event
          have hgentle := Channel.gentle_give (w.sink s).channel w.loop d.event
          let v : World := { w.setSink s { w.sink s with
            channel := ((w.sink s).channel.give w.loop d.event).1 } with
            loop := ((w.sink s).channel.give w.loop d.event).2 }
          have hv : v.Served s size race 0 := by
            rw [Served, show (v.sink s).channel = _ from congrArg (·.channel) (hset _)]
            exact Channel.Served.give h hfull d.event
          obtain ⟨b, hb, hbides⟩ := hkeeps.bides ha
          have hwait' : b.wait = .none :=
            (hbides.wait.roused (by rw [hwait]; rfl)).trans hwait
          exact ⟨.enters ((hu.gentle hgentle).finish _), hv.finish hb hwait' _,
            congrArg (·.channel.items) (hset _), congrArg (·.closed) (hset _),
            (v.loop.spares_finish u _).length.trans hgentle.length⟩

/-! ## The tasks that race -/

theorem Served.takeEvent? {e : LogEvent} (h : w.Served s size race debt) (hs : s < w.sinks.length)
    (htake : w.takeEvent? s = some (v', e)) : v'.Served s size race debt := by
  obtain ⟨channel, loop, hchannel, rfl⟩ := takeEvent?_eq_some htake
  have hset := sink_setSink hs { w.sink s with channel := channel }
  rw [Served]
  show Channel.Served _ _ _ _ _ loop ((w.setSink s _).sink s).channel
  rw [hset]
  exact Channel.Served.take h hchannel

/-- Who is on its way does not come to wait by what it does to others. -/
theorem wait_of_minds (h : Minds (some u) w w') (ha : w.loop.task? u = some a)
    (hwait : a.wait = .none) : ∃ b, w'.loop.task? u = some b ∧ b.wait = .none ∧
      b.point = a.point ∧ b.ending = a.ending := by
  obtain ⟨b, hb, hbides⟩ := h.keeps.bides ha
  exact ⟨b, hb, (hbides.wait.roused (by rw [hwait]; rfl)).trans hwait, hbides.point,
    hbides.ending⟩

/-- A task that takes an event has its turn; if it goes on as planned it is the one in the race. -/
theorem served_runTaking (hs : s < w.sinks.length) (h : w.Served s size race 0)
    (ha : w.loop.task? u = some a) (hpoint : a.point = .taking s) (hgoing : a.ending = none)
    (hwait : a.wait = .none) (hracer : arrival = .on → ∃ r, race = some r ∧ u = r.taker) :
    (w.runTaking u s arrival).Served s size race 0 := by
  have hset := fun y => w.sink_setSink (s := s) hs y
  unfold runTaking
  cases arrival with
  | cancelled woken =>
      have hnot : ¬w.loop.Waits (Point.takesAt s) u := by
        rintro ⟨b, hb, -, -, hsignal⟩
        cases ha.symm.trans hb
        rw [hwait] at hsignal
        cases hsignal
      have hleft := Channel.Served.leaveTakers h hnot woken
      let v : World := { w.setSink s { w.sink s with
        channel := ((w.sink s).channel.leaveTakers w.loop u woken).1 } with
        loop := ((w.sink s).channel.leaveTakers w.loop u woken).2 }
      have hv : v.Served s size race 0 := by
        rw [Served, show (v.sink s).channel = _ from congrArg (·.channel) (hset _)]
        exact hleft
      obtain ⟨b, hb, hbides⟩ :=
        (Channel.keeps_leaveTakers (w.sink s).channel w.loop u woken).bides ha
      exact hv.finish (w := v) hb ((hbides.wait.roused (by rw [hwait]; rfl)).trans hwait) _
  | on =>
      dsimp only
      split
      · next v event htake =>
          obtain ⟨b, hb, hnone, -⟩ := wait_of_minds (w.minds_takeEvent? htake) ha hwait
          exact (h.takeEvent? hs htake).finish hb hnone _
      · next htake =>
          obtain ⟨r, rfl, rfl⟩ := hracer rfl
          have hempty : (w.sink s).channel.items = [] := by
            rcases takeEvent?_cases hs with ⟨-, hempty⟩ | ⟨v, event, hsome, -⟩
            · exact hempty
            · rw [htake] at hsome
              cases hsome
          let v : World := w.setSink s { w.sink s with
            channel := { (w.sink s).channel with
              takers := (w.sink s).channel.takers ++ [r.taker] } }
          have hchannel : ((v.await r.taker (.taking s)).sink s).channel = _ :=
            congrArg (·.channel) (hset _)
          rw [Served, hchannel]
          exact Channel.Served.awaitItem h hempty ha hgoing
            (hpoint ▸ Point.not_givesAt_taking s s) rfl (Point.not_givesAt_taking s s)

/-- A task that waits for the sink to be closed has its turn. -/
theorem served_runAwaitingClose (hs : s < w.sinks.length) (h : w.Served s size race 0)
    (ha : w.loop.task? u = some a) (hpoint : a.point = .awaitingClose s)
    (hwait : a.wait = .none) : (w.runAwaitingClose u s arrival).Served s size race 0 := by
  have hset : ∀ watchers,
      (w.setSink s { w.sink s with watchers := watchers }).Served s size race 0 :=
    fun watchers => h.of_keeps
      (congrArg (·.channel) (sink_setSink hs { w.sink s with watchers := watchers }))
      (.refl none none w.loop)
  unfold runAwaitingClose
  cases arrival with
  | cancelled _ => exact (hset _).finish ha hwait _
  | on =>
      dsimp only
      split
      · exact h.finish ha hwait _
      · obtain ⟨b, hb, hpoint', -⟩ := (w.loop.goes_suspend u (.awaitingClose s) .signal).own a ha
        exact (hset ((w.sink s).watchers ++ [u])).moved rfl
          (w.loop.keeps_suspend u _ .signal) ha (hpoint ▸ Point.not_at_awaitingClose s s) hb
          (hpoint' ▸ Point.not_at_awaitingClose s s)

/-! ## Calls for events -/

/-- If nobody races nobody waits to take an event, whoever will. -/
theorem Served.any (h : w.Served s size none debt) : w.Served s size race debt :=
  Channel.Served.of_idle h fun v hv => by cases (h.idle v hv).1

theorem Served.got {e : LogEvent} (h : w.Served s size race 0) (ha : w.loop.task? g = some a)
    (hpoint : a.point = .getting s collected race') (hwait : a.wait = .none) :
    (w.got g s e collected).Served s size race 0 := by
  cases collected with
  | none => exact h.finish ha hwait _
  | some events =>
      exact h.moved (y := w.goOn g _) rfl (w.loop.keeps_goOn g _) ha
        (hpoint ▸ Point.not_at_getting ..) (Loop.task?_goOn ha) (Point.not_at_getting ..)

theorem served_getNext (hs : s < w.sinks.length) (h : w.Served s size none 0)
    (ha : w.loop.task? g = some a) (hpoint : a.point = .getting s collected race')
    (hwait : a.wait = .none) : (w.getNext g s collected).Served s size none 0 := by
  unfold getNext
  split
  · next v e htake =>
      obtain ⟨b, hb, hnone, hsame, -⟩ := wait_of_minds (w.minds_takeEvent? htake) ha hwait
      exact (h.takeEvent? hs htake).got hb (hsame.trans hpoint) hnone
  · split
    · cases collected <;> exact h.finish ha hwait _
    · let y : World := (w.spawn (.taking s)).1
      let x : World := (y.spawn (.awaitingClose s)).1
      let r : Race := ⟨w.loop.tasks.length, y.loop.tasks.length⟩
      have hx : x.Served s size none 0 := (h.spawn _).spawn _
      obtain ⟨b, hb, -, hsame, -⟩ :=
        wait_of_minds ((w.minds_spawn (.taking s)).trans (y.minds_spawn (.awaitingClose s)))
          ha hwait
      have hgoes := x.loop.goes_awaitAny g (.getting s collected (some r)) [r.taker, r.closer]
      obtain ⟨b', hb', hpoint', -⟩ := hgoes.own b hb
      exact hx.moved (y := x.withLoop (·.awaitAny g _ _)) rfl
        ((x.loop.keeps_suspend g _ .signal).trans (x.loop.keeps_awaitAny g _ _)) hb
        ((hsame.trans hpoint) ▸ Point.not_at_getting ..) hb' (hpoint' ▸ Point.not_at_getting ..)

/-- After a race nobody waits to take an event. -/
theorem Served.endRace {r : Race} (h : w.Served s size (some r) 0) :
    (w.endRace g r).Served s size none 0 := by
  have hended : (w.endRace g r).Served s size (some r) 0 :=
    h.of_keeps rfl (w.minds_endRace g r).keeps
  refine Channel.Served.of_idle hended fun v hv => ?_
  obtain rfl : r.taker = v := Option.some.inj (hended.idle v hv).1
  exact Loop.not_waits_cancel _ r.taker hv

/-- A call for events has its turn. -/
theorem served_runGetting (hs : s < w.sinks.length) (h : w.Served s size race 0)
    (ha : w.loop.task? g = some a) (hpoint : a.point = .getting s collected race)
    (hwait : a.wait = .none) : (w.runGetting g s collected race arrival).Served s size none 0 := by
  cases race with
  | none =>
      cases arrival with
      | cancelled _ => exact h.finish ha hwait _
      | on => exact served_getNext hs h ha hpoint hwait
  | some r =>
      have hended : (w.endRace g r).Served s size none 0 := h.endRace
      obtain ⟨b, hb, hnone, hsame, -⟩ := wait_of_minds (w.minds_endRace g r) ha hwait
      cases arrival with
      | cancelled _ => exact hended.finish hb hnone _
      | on =>
          unfold runGetting
          dsimp only
          split
          · exact hended.got hb (hsame.trans hpoint) hnone
          · exact hended.finish hb hnone _
          · exact hended.finish hb hnone _
          · exact hended.moved (y := (w.endRace g r).goOn g _) rfl
              ((w.endRace g r).loop.keeps_goOn g _) hb
              ((hsame.trans hpoint) ▸ Point.not_at_getting ..) (Loop.task?_goOn hb)
              (Point.not_at_getting ..)

end World

end LiveCluster.Simulation
