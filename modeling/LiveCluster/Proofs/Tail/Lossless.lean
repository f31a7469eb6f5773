import LiveCluster.Proofs.Tail.Calls
import LiveCluster.Proofs.Tail.Queue
import Mathlib.Data.List.Sort

/-!
# Nothing is lost in a sink

What a consumer is handed of the events that producers put into a sink, in whatever order they go on
and whenever the sink is closed. Nothing is lost, nothing comes twice, what comes in first comes out
first, and the end is seen only when the sink is closed and empty. Once nothing is left to be done
nobody waits in vain: who waits to put an event in finds the sink full, and who waits to get one
finds it open and empty.
-/

namespace LiveCluster.Simulation

namespace World

variable {w x : World} {s : SinkId} {g : TaskId} {who : Option TaskId} {race : Option Race}
  {size : Int} {puts entered : List Put} {gets : List TaskId} {q : Put}

/-- Whether a put has been completed. -/
def completed (w : World) (q : Put) : Bool :=
  match w.loop.ending? q.task with
  | some (.returned .nothing) => true
  | _ => false

/-! ## What the puts bring in -/

theorem PutAt.completed_iff (h : PutAt s entered w q) : w.completed q = true ↔ q ∈ entered := by
  cases h with
  | going stands _ out => simp [completed, stands.ending?, out]
  | done ended into => simp [completed, ended.ending?, into]
  | refused ended out => simp [completed, ended.ending?, out]

/-- Of each producer the completed puts have brought their events in, in the order of its calls. -/
theorem Putting.comes (h : Putting s puts entered w) (i : Nat) :
    entered.filter (·.producer == i) = puts.filter fun q => q.producer == i && w.completed q := by
  let earlier (q r : Put) : Prop := q.task < r.task
  have : Std.Irrefl earlier := ⟨fun q => Nat.lt_irrefl q.task⟩
  have : Std.Antisymm earlier := ⟨fun _ _ hlt hgt => absurd hlt (Nat.lt_asymm hgt)⟩
  refine List.Pairwise.eq_of_mem_iff (r := earlier) ?_ (h.called.filter _) fun q => ?_
  · refine (h.order.filter (·.producer == i)).imp_of_mem fun {q r} hq hr hlt => hlt ?_
    have hqi := beq_iff_eq.1 (List.mem_filter.1 hq).2
    have hri := beq_iff_eq.1 (List.mem_filter.1 hr).2
    exact hqi.trans hri.symm
  · rw [List.mem_filter, List.mem_filter, Bool.and_eq_true]
    constructor
    · rintro ⟨hq, hi⟩
      exact ⟨h.known hq, hi, (h.stands q (h.known hq)).completed_iff.2 hq⟩
    · rintro ⟨hq, hi, hdone⟩
      exact ⟨(h.stands q hq).completed_iff.1 hdone, hi⟩

/-! ## The end of a sink -/

/-- A call for events comes to the end of the sink only when that is closed and empty. -/
theorem Use.end_of_drained (h : Use s size puts gets entered w) (hnext : Happens who w x)
    (hg : g ∈ gets) (hbefore : ¬w.SawEnd g) (hend : x.SawEnd g) :
    (x.sink s).closed = true ∧ (x.sink s).channel.items = [] := by
  obtain ⟨hlived, hqueues⟩ := h.lived_queues
  obtain ⟨p, e, hp⟩ : ∃ p e, x.loop.standing g = some (p, some e) := by
    obtain ⟨e, he⟩ : ∃ e, x.loop.ending? g = some e := by
      rcases hend with he | ⟨events, he⟩
      · exact ⟨_, he⟩
      · exact ⟨_, he⟩
    obtain ⟨a, ha, hae⟩ := Option.bind_eq_some_iff.1 he
    exact ⟨a.point, e, by rw [Loop.standing, ha, ← hae]; rfl⟩
  have hno : w.loop.standing g ≠ some (p, some e) := fun hsame => hbefore (by
    rw [SawEnd, ending?_of_standing hsame, ← ending?_of_standing hp]
    exact hend)
  rcases hnext.stood hlived hp with hsame | ⟨-, he, -⟩ | ⟨rfl, -⟩
  · exact absurd hsame hno
  · cases he
  · -- it was the call's own turn
    rcases hnext.goes with ⟨hsame, -⟩ | ⟨ready, round, l, p', arrival, harrive, -, -, rfl⟩
    · exact absurd (hsame.symm.trans hp) hno
    · have hturn := hqueues.withReady ready round
      obtain ⟨race, hconsumer, -⟩ := hturn.flow
      obtain ⟨c, hc⟩ := (hconsumer.getters g hg).resolve_right (by
        rintro ⟨c, r, e, he⟩
        exact not_arrive_of_endedAt he harrive)
      obtain ⟨rfl, -⟩ := hc.arrive harrive
      obtain ⟨got, race', hstep⟩ := hconsumer.getting hturn.tidy hturn.bound harrive
      exact (hstep.drained hend).2

/-! ## When nothing is left to be done -/

/-- Who waits to put an event in finds the sink full. -/
theorem Queues.full_of_quiescent (h : Queues s size puts gets entered w) (hw : Awake none w)
    (hquiet : w.Quiescent) (hq : q ∈ puts) (hgoing : w.loop.ended q.task = false) :
    (w.sink s).channel.isFull = true := by
  obtain ⟨race, -, hserved, -⟩ := h.flow
  cases h.putting.stands q hq with
  | done ended | refused ended =>
      rw [ended.ended] at hgoing
      cases hgoing
  | going stands =>
      obtain ⟨a, ha, hpoint, hending, -⟩ := stands
      obtain ⟨hsignal, htakes⟩ := hw.awaits_signal (s := s) hquiet ha hending (by rw [hpoint]; rfl)
        (by rw [hpoint]; simp)
      have hwaits : w.loop.Waits (Point.givesAt s) q.task :=
        ⟨a, ha, ⟨_, hpoint, by rwa [hpoint] at htakes⟩, hending, hsignal⟩
      refine Channel.Served.full hserved (fun v hwoken => ?_) hwaits
      obtain ⟨b, hb, -, hbgoing, hbwoken⟩ := hwoken
      have hroused := hw.alert.not_roused hquiet hb hbgoing
      rw [hbwoken] at hroused
      cases hroused

/-- Who waits to get an event has a race, and finds the sink open and empty. -/
theorem Queues.empty_of_quiescent (h : Queues s size puts gets entered w) (hw : Awake none w)
    (hquiet : w.Quiescent) (hg : g ∈ gets) (hgoing : w.loop.ended g = false) :
    (w.sink s).channel.items = [] ∧ (w.sink s).closed = false ∧ w.heldBy g = [] := by
  obtain ⟨race, hconsumer, hserved, -⟩ := h.flow
  rcases hconsumer.getters g hg with ⟨c, hc⟩ | ⟨c, r, e, he⟩
  · obtain ⟨a, ha, hpoint, hending, -⟩ := id hc
    obtain ⟨hsignal, htakes⟩ := hw.awaits_signal (s := s) hquiet ha hending (by rw [hpoint]; rfl)
      (by rw [hpoint]; simp)
    cases race with
    | none =>
        rw [hpoint] at htakes
        cases htakes
    | some r =>
        -- both tasks of its race go on, and wait themselves
        have hrace : ∀ v ∈ [r.taker, r.closer], ∃ b, w.loop.task? v = some b ∧ b.ending = none :=
          fun v hv => hw.alert.awaits_going hquiet ha hending hsignal v (by rw [hpoint]; exact hv)
        obtain ⟨hraces, -⟩ := hconsumer.racing r rfl
        have hstands : w.loop.StandsAt r.taker (.taking s) := by
          obtain ⟨b, hb, hbgoing⟩ := hrace r.taker (by simp)
          refine hraces.taker.resolve_right ?_
          rintro ⟨event, he⟩
          rw [(he.point_eq hb).2.1] at hbgoing
          cases hbgoing
        refine ⟨?_, ?_, ?_⟩
        · obtain ⟨b, hb, hbpoint, hbgoing, -⟩ := id hstands
          obtain ⟨hbsignal, -⟩ := hw.awaits_signal (s := s) hquiet hb hbgoing
            (by rw [hbpoint]; rfl) (by rw [hbpoint]; simp)
          exact (hserved.idle r.taker ⟨b, hb, hbpoint, hbgoing, hbsignal⟩).2
        · obtain ⟨b, hb, hbgoing⟩ := hrace r.closer (by simp)
          obtain ⟨b', hb', hbpoint⟩ := hraces.closer
          cases hb.symm.trans hb'
          obtain ⟨hbsignal, -⟩ := hw.awaits_signal (s := s) hquiet hb hbgoing
            (by rw [hbpoint]; rfl) (by rw [hbpoint]; simp)
          exact (hw.heard r.closer b s (by simp) hb hbgoing hbpoint hbsignal).2
        · rw [heldBy_stands hc]
          exact held_of_stands hstands
  · rw [he.ended] at hgoing
    cases hgoing

/-- Once nothing is left to be done, all that has left the sink has been handed to the consumer. -/
theorem Queues.handed_of_quiescent (h : Queues s size puts gets entered w) (hw : Awake none w)
    (hquiet : w.Quiescent) :
    w.handed gets ++ (w.sink s).channel.items = entered.map (·.event) := by
  obtain ⟨race, hconsumer, -, hflow⟩ := h.flow
  rw [← hflow]
  refine congrArg (· ++ (w.sink s).channel.items) (List.flatMap_congr fun g hg => ?_)
  have hnone : w.heldBy g = [] := by
    rcases hconsumer.getters g hg with ⟨c, hc⟩ | ⟨c, r, e, he⟩
    · exact (h.empty_of_quiescent hw hquiet hg hc.not_ended).2.2
    · exact heldBy_ended he
  rw [hnone, List.append_nil]

/-! ## In every use -/

/-- A sink is a queue that loses nothing, and never holds more than it has room for. `puts` are the
puts in the order in which they were called, `entered` those that have brought their events into the
sink, in the order in which they did, and `gets` the calls of the consumer. -/
structure Lossless (s : SinkId) (size : Int) (puts : List Put) (gets : List TaskId)
    (entered : List Put) (w : World) : Prop where
  bounded : 0 < size → ((w.sink s).size : Int) ≤ size
  /-- Of each producer the completed puts have brought their events in, in the order of its
  calls. -/
  comes : ∀ i, entered.filter (·.producer == i) =
    puts.filter fun q => q.producer == i && w.completed q
  /-- A put that has ended in another way was refused by the closed sink. -/
  refuses : ∀ q ∈ puts, w.loop.ended q.task = true → w.completed q = false →
    w.loop.ending? q.task = some (.failed .sinkClosed) ∧ (w.sink s).closed = true
  /-- What has come in has been handed to the consumer, in that order, or comes next, or is still in
  the sink. -/
  goes : ∃ held, held.length ≤ 1 ∧
    w.handed gets ++ held ++ (w.sink s).channel.items = entered.map (·.event)
  /-- Whatever happens next, a call comes to the end only of a sink that is closed and empty. -/
  ends : ∀ who x, Happens who w x → ∀ g ∈ gets, ¬w.SawEnd g → x.SawEnd g →
    (x.sink s).closed = true ∧ (x.sink s).channel.items = []
  /-- Once nothing is left to be done, nobody holds an event, a put that goes on waits at a full
  sink, and a call for events at an open and empty one. -/
  settled : w.Quiescent → w.handed gets ++ (w.sink s).channel.items = entered.map (·.event)
  putsWait : w.Quiescent → ∀ q ∈ puts, w.loop.ended q.task = false →
    (w.sink s).channel.isFull = true
  getsWait : w.Quiescent → ∀ g ∈ gets, w.loop.ended g = false →
    (w.sink s).channel.items = [] ∧ (w.sink s).closed = false

/-- A sink that is used by producers and one consumer, of whom nobody is cancelled, loses
nothing. -/
theorem use_lossless (h : Use s size puts gets entered w) :
    Lossless s size puts gets entered w := by
  obtain ⟨hlived, hqueues⟩ := h.lived_queues
  have hw := hlived.orderly.awake
  obtain ⟨race, hconsumer, hserved, hflow⟩ := id hqueues.flow
  obtain ⟨held, hheld, htaken, -⟩ := hconsumer.taken_split
  exact {
    bounded := hserved.fits
    comes := hqueues.putting.comes
    refuses := fun q hq hended hnot => by
      cases hqueues.putting.stands q hq with
      | going stands =>
          rw [stands.not_ended] at hended
          cases hended
      | done ended => simp [completed, ended.ending?] at hnot
      | refused ended _ closed => exact ⟨ended.ending?, closed⟩
    goes := ⟨held, hheld, by rw [← htaken, hflow]⟩
    ends := fun who x hnext g hg => h.end_of_drained hnext hg
    settled := hqueues.handed_of_quiescent hw
    putsWait := fun hquiet q hq => hqueues.full_of_quiescent hw hquiet hq
    getsWait := fun hquiet g hg hgoing => by
      obtain ⟨hempty, hopen, -⟩ := hqueues.empty_of_quiescent hw hquiet hg hgoing
      exact ⟨hempty, hopen⟩ }

theorem Use.runReady (h : Use s size puts gets entered w) (n : Nat) :
    ∃ more, Use s size puts gets (entered ++ more) (w.runReady n) := by
  induction n generalizing entered w with
  | zero => exact ⟨[], (List.append_nil entered).symm ▸ h⟩
  | succ n ih =>
      unfold World.runReady
      split
      · exact ⟨[], (List.append_nil entered).symm ▸ h⟩
      · next job rest hready =>
          obtain ⟨more, hmore⟩ := ih (h.job [] rest _ hready)
          exact ⟨_, List.append_assoc entered _ more ▸ hmore⟩

/-- A sink that has room for one event. -/
def smallSink : World :=
  ((Session.new {} {} default none).begin (.sink "s" (some 1)) true).1.world

/-- Two producers put an event into it, and the second waits for room. -/
def smallFull : World :=
  let once := (smallSink.spawn (.giving 0 { event := .line "p" "c" "a" false })).1.runReady 40
  (once.spawn (.giving 0 { event := .line "p" "c" "b" false })).1.runReady 40

/-- The consumer gets both events, and comes again before the sink is closed. -/
def smallDrained : World :=
  let once := (smallFull.spawn (.getting 0 none none)).1.runReady 40
  let twice := (once.spawn (.getting 0 none none)).1.runReady 40
  (((twice.spawn (.getting 0 none none)).1.runReady 40).closeSink 0).runReady 40

/-- The puts of the two producers. -/
def smallPuts : List Put :=
  [⟨0, 0, .line "p" "c" "a" false⟩, ⟨1, 1, .line "p" "c" "b" false⟩]

theorem use_smallFull : ∃ entered, Use 0 1 smallPuts [] entered smallFull := by
  have hfresh : Use 0 1 [] [] [] smallSink := by
    refine .fresh ?_ Nat.zero_lt_one rfl fun v a ha => by cases ha
    exact (Lived.new {} {} default none).next
      (.request _ (.sink "s" (some 1)) true (by simp) (by rintro k ⟨⟩))
  obtain ⟨_, hput⟩ := (hfresh.put 0 (.line "p" "c" "a" false) (by simp)).runReady 40
  obtain ⟨_, hwaits⟩ := (hput.put 1 (.line "p" "c" "b" false) (by simp)).runReady 40
  exact ⟨_, hwaits⟩

theorem use_smallDrained : ∃ entered, Use 0 1 smallPuts [2, 3, 4] entered smallDrained := by
  obtain ⟨_, hfull⟩ := use_smallFull
  obtain ⟨_, hget⟩ := (hfull.get false (by simp)).runReady 40
  obtain ⟨_, hagain⟩ := (hget.get false (by
    intro g hg
    cases List.mem_singleton.1 hg
    rfl)).runReady 40
  obtain ⟨_, hmore⟩ := (hagain.get false (by
    intro g hg
    rcases List.mem_append.1 hg with hg | hg <;>
    · cases List.mem_singleton.1 hg
      rfl)).runReady 40
  obtain ⟨_, hclosed⟩ := hmore.close.runReady 40
  exact ⟨_, hclosed⟩

theorem use_lossless_small :
    (∃ entered, Use 0 1 smallPuts [] entered smallFull ∧
      Lossless 0 1 smallPuts [] entered smallFull) ∧
    (∃ entered, Use 0 1 smallPuts [2, 3, 4] entered smallDrained ∧
      Lossless 0 1 smallPuts [2, 3, 4] entered smallDrained) ∧
      smallFull.Quiescent ∧ smallFull.loop.ended 1 = false ∧
      smallDrained.handed [2, 3, 4] = [.line "p" "c" "a" false, .line "p" "c" "b" false] ∧
      smallDrained.loop.ending? 4 = some (.returned (.event none)) := by
  obtain ⟨_, hfull⟩ := use_smallFull
  obtain ⟨_, hdrained⟩ := use_smallDrained
  exact ⟨⟨_, hfull, use_lossless hfull⟩, ⟨_, hdrained, use_lossless hdrained⟩, rfl, rfl, rfl, rfl⟩

end World

end LiveCluster.Simulation
