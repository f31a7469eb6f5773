import LiveCluster.Proofs.Simulation.Manned
import LiveCluster.Proofs.Tail.FanIn
import LiveCluster.Proofs.Tail.Putting

/-!
# A sink is a queue

Producers put events into a sink, each one call after another, and one consumer gets them out, one
call after another. `Queues` is what holds of such a sink: what has left it and what is still in it
is what has come in, its lines are served, and each put goes on, has put its event in or was
refused. Whatever job is run next, it holds again.
-/

namespace LiveCluster.Simulation

open Loop (StandsAt EndedAt TaskStays)

namespace World

variable {w w' : World} {s : SinkId} {u v g : TaskId} {race : Option Race} {size : Int}
  {puts entered : List Put} {gets : List TaskId} {l : Loop Point Report} {p : Point}
  {arrival : Arrival} {d : Delivery} {moved hit : TaskId → Prop}
  {collected : Option (List LogEvent)}

/-- The put that brings its event into a sink when a job is run. -/
def entersAt (w : World) (s : SinkId) (puts : List Put) : Job → List Put
  | .resume u => match w.loop.arrive u with
    | some (l, .giving r d, .on) =>
      if r = s then
        if World.accepts { w with loop := l } s d then (puts.find? (·.task == u)).toList else []
      else []
    | _ => []
  | _ => []

/-- The use of a sink by producers, each of whom awaits a put before it makes the next, and by one
consumer that awaits its calls for events likewise. Nobody cancels any of these calls. The jobs that
are ready are run in any order, the sink may be closed at any moment, and in between there may be
anything that does not concern it. The puts are listed in the order in which they were made, and
those that have brought their events in, in the order in which they did. -/
inductive Use (s : SinkId) (size : Int) : List Put → List TaskId → List Put → World → Prop
  | fresh {w : World} (lived : Lived w) (bound : s < w.sinks.length) (new : w.sink s = .new size)
      (free : ∀ v a, w.loop.task? v = some a → a.point.sink? ≠ some s) : Use s size [] [] [] w
  | put {puts entered : List Put} {gets : List TaskId} {w : World} (i : Nat) (e : LogEvent)
      (use : Use s size puts gets entered w)
      (answered : ∀ q ∈ puts, q.producer = i → w.loop.ended q.task = true) :
      Use s size (puts ++ [⟨i, w.loop.tasks.length, e⟩]) gets entered
        (w.spawn (.giving s { event := e })).1
  | get {puts entered : List Put} {gets : List TaskId} {w : World} (all : Bool)
      (use : Use s size puts gets entered w) (answered : ∀ g ∈ gets, w.loop.ended g = true) :
      Use s size puts (gets ++ [w.loop.tasks.length]) entered
        (w.spawn (.getting s (if all then some [] else none) none)).1
  | close {puts entered : List Put} {gets : List TaskId} {w : World}
      (use : Use s size puts gets entered w) : Use s size puts gets entered (w.closeSink s)
  | job {puts entered : List Put} {gets : List TaskId} {w : World} {job : Job}
      (before after : List Job) (round : Nat) (use : Use s size puts gets entered w)
      (ready : w.loop.ready = before ++ job :: after) :
      Use s size puts gets (entered ++ (w.withReady (before ++ after) round).entersAt s puts job)
        ((w.withReady (before ++ after) round).run job)
  | elsewhere {puts entered : List Put} {gets : List TaskId} {w w' : World}
      (use : Use s size puts gets entered w) (happens : Happens none w w') (away : Away s w w') :
      Use s size puts gets entered w'

/-- What holds of a sink that is used by producers and one consumer. -/
structure Queues (s : SinkId) (size : Int) (puts : List Put) (gets : List TaskId)
    (entered : List Put) (w : World) : Prop where
  tidy : w.Tidy
  bound : s < w.sinks.length
  putting : Putting s puts entered w
  flow : ∃ race, Consumer s gets race w ∧ w.Served s size race 0 ∧
    w.taken gets ++ (w.sink s).channel.items = entered.map (·.event)

/-- A step of somebody who gets no events. -/
theorem Consumer.other (h : Consumer s gets race w) (ha : Apart s moved hit w w')
    (hkept : ∀ v a, w.loop.task? v = some a → a.point.sink? = some s →
      a.point.isConsumer = true → ¬moved v ∧ ¬hit v)
    (hnew : ∀ v b, moved v ∨ w.loop.tasks.length ≤ v → w'.loop.task? v = some b →
      b.point.sink? = some s → b.point.isConsumer = false)
    (hclosers : ∀ v, moved v → (∃ a, w.loop.task? v = some a ∧ a.point = .awaitingClose s) →
      ∃ b, w'.loop.task? v = some b ∧ b.point = .awaitingClose s) :
    Consumer s gets race w' ∧ w'.taken gets = w.taken gets := by
  refine h.frame ha hkept (fun v b hb hsink hconsumer => ?_) hclosers
  by_cases hv : moved v ∨ w.loop.tasks.length ≤ v
  · rw [hnew v b hv hb hsink] at hconsumer
    cases hconsumer
  · rw [not_or, Nat.not_le] at hv
    exact ⟨hv.2, hv.1⟩

/-- What does not concern the sink changes nothing. -/
theorem Queues.away (h : Queues s size puts gets entered w) (ha : Away s w w') :
    Queues s size puts gets entered w' := by
  obtain ⟨race, hconsumer, hserved, hflow⟩ := h.flow
  have hnobody : ∀ {v b}, False ∨ w.loop.tasks.length ≤ v → w'.loop.task? v = some b →
      b.point.sink? ≠ some s := by
    rintro v b (hno | hle) hb hsink
    · exact hno
    · obtain ⟨a, hva, -⟩ := ha.nobody v b hb hsink
      exact Nat.not_lt.2 hle (Loop.lt_of_task? hva)
  obtain ⟨hconsumer', htaken⟩ := hconsumer.other ha.apart (fun _ _ _ _ _ => ⟨id, id⟩)
    (fun v b hv hb hsink => absurd hsink (hnobody hv hb)) fun _ hm => hm.elim
  exact {
    tidy := ha.tidy h.tidy
    bound := Nat.lt_of_lt_of_le h.bound ha.sinks
    putting := h.putting.apart ha.apart (fun _ _ _ _ _ => ⟨id, id⟩)
      (fun hclosed => by rw [ha.sink, hclosed]) fun v b hv hb hsink => absurd hsink (hnobody hv hb)
    flow := ⟨race, hconsumer', hserved.away ha, by rw [htaken, ha.sink, hflow]⟩ }

/-- The sink is closed. -/
theorem Queues.close (h : Queues s size puts gets entered w) (ht : (w.closeSink s).Tidy) :
    Queues s size puts gets entered (w.closeSink s) := by
  obtain ⟨race, hconsumer, hserved, hflow⟩ := h.flow
  obtain ⟨hgentle, hsinks, hitems, hclosed⟩ := closeSink_spec h.bound
  have ha : Apart s (fun _ => False) (fun _ => False) w (w.closeSink s) := .of_spares hgentle
  have hnobody : ∀ {v b}, False ∨ w.loop.tasks.length ≤ v →
      (w.closeSink s).loop.task? v ≠ some b := by
    rintro v b (hno | hle) hb
    · exact hno
    · exact not_new_of_length hgentle.length hle hb
  obtain ⟨hconsumer', htaken⟩ := hconsumer.other ha (fun _ _ _ _ _ => ⟨id, id⟩)
    (fun v b hv hb => absurd hb (hnobody hv)) fun _ hm => hm.elim
  exact {
    tidy := ht
    bound := Nat.lt_of_lt_of_eq h.bound hsinks.symm
    putting := h.putting.apart ha (fun _ _ _ _ _ => ⟨id, id⟩) (fun _ => hclosed)
      fun v b hv hb => absurd hb (hnobody hv)
    flow := ⟨race, hconsumer', hserved.closeSink h.bound, by rw [htaken, hitems, hflow]⟩ }

/-- A producer puts an event in. -/
theorem Queues.put (h : Queues s size puts gets entered w) (i : Nat) (e : LogEvent)
    (hanswered : ∀ q ∈ puts, q.producer = i → w.loop.ended q.task = true) :
    Queues s size (puts ++ [⟨i, w.loop.tasks.length, e⟩]) gets entered
      (w.spawn (.giving s { event := e })).1 := by
  obtain ⟨race, hconsumer, hserved, hflow⟩ := h.flow
  have hmild : Mild (some s) w (w.spawn (.giving s { event := e })).1 := .spawn w (.inr rfl) rfl
  obtain ⟨hconsumer', htaken⟩ := hconsumer.other ((hmild.works _).apart h.tidy)
    (fun v a ha _ _ => ⟨Loop.ne_next_of_task? ha, id⟩)
    (fun v b hv hb _ => by
      obtain ⟨-, rfl⟩ := Loop.eq_of_spawn_new (l := w.loop) hb hv
      rfl)
    (by
      rintro v hv ⟨a, ha, -⟩
      exact absurd hv (Loop.ne_next_of_task? ha))
  exact {
    tidy := hmild.tidy h.tidy
    bound := h.bound
    putting := h.putting.put h.tidy i e hanswered
    flow := ⟨race, hconsumer', hserved.spawn _, htaken ▸ hflow⟩ }

/-- The consumer calls for an event, or for all. -/
theorem Queues.get (h : Queues s size puts gets entered w) (collected : Option (List LogEvent))
    (hcollected : collected.getD [] = []) (hanswered : ∀ g ∈ gets, w.loop.ended g = true) :
    Queues s size puts (gets ++ [w.loop.tasks.length]) entered
      (w.spawn (.getting s collected none)).1 := by
  obtain ⟨race, hconsumer, hserved, hflow⟩ := h.flow
  obtain rfl := hconsumer.no_race hanswered
  have hmild : Mild (some s) w (w.spawn (.getting s collected none)).1 := .spawn w (.inr rfl) rfl
  have ha : Apart s (· = w.loop.tasks.length) (fun _ => False) w
      (w.spawn (.getting s collected none)).1 := (hmild.works _).apart h.tidy
  have hnow : (w.spawn (.getting s collected none)).1.loop.StandsAt w.loop.tasks.length
      (.getting s collected none) := w.loop.standsAt_spawn _
  exact {
    tidy := hmild.tidy h.tidy
    bound := h.bound
    putting := h.putting.apart ha (fun v a d hv _ => ⟨Loop.ne_next_of_task? hv, id⟩) id
      fun v b hv hb _ => by
        obtain ⟨rfl, rfl⟩ := Loop.eq_of_spawn_new (l := w.loop) hb hv
        exact ⟨unbound_of_rests (.inl hnow), rfl, fun _ hd => by cases hd⟩
    flow := ⟨none, hconsumer.asks_again collected hanswered ha, hserved.spawn _, by
      rw [hconsumer.taken_again hcollected ha]
      exact hflow⟩ }

theorem Served.arrive (h : w.Served s size race 0)
    (harrive : w.loop.arrive u = some (l, p, arrival)) :
    World.Served s size race 1 { w with loop := l } :=
  Channel.Served.arrive h harrive

theorem Served.arrive_elsewhere (h : w.Served s size race 0)
    (harrive : w.loop.arrive u = some (l, p, arrival)) (hp : ¬p.givesAt s) :
    World.Served s size race 0 { w with loop := l } :=
  Channel.Served.arrive_elsewhere h harrive hp

/-- A put goes on. -/
theorem Queues.giving (h : Queues s size puts gets entered w)
    (harrive : w.loop.arrive u = some (l, .giving s d, arrival)) :
    arrival = .on ∧ Queues s size puts gets
      (entered ++ if World.accepts { w with loop := l } s d then
        (puts.find? (·.task == u)).toList else [])
      ({ w with loop := l }.runPoint u (.giving s d) arrival) := by
  obtain ⟨race, hconsumer, hserved, hflow⟩ := h.flow
  obtain ⟨a, ha, hgoing, hpoint, -, hl⟩ := Loop.arrive_spec harrive
  -- the put is one of those that are known
  obtain ⟨q, hfind, hq, rfl⟩ : ∃ q, puts.find? (·.task == u) = some q ∧ q ∈ puts ∧ q.task = u := by
    obtain ⟨-, -, hknown⟩ := h.putting.users u a ha (by rw [hpoint]; rfl)
    obtain ⟨r, hr, hru⟩ := hknown d hpoint
    cases hfind : puts.find? (·.task == u) with
    | none => exact absurd hru (by simpa using List.find?_eq_none.1 hfind r hr)
    | some q =>
      exact ⟨q, rfl, List.mem_of_find?_eq_some hfind, by simpa using List.find?_some hfind⟩
  rw [hfind]
  have hstands : w.loop.StandsAt q.task (.giving s d) := by
    cases h.putting.stands q hq with
    | going stands => exact (stands.point_eq ha).1.symm.trans hpoint ▸ stands
    | done ended | refused ended =>
        rw [(ended.point_eq ha).2.1] at hgoing
        cases hgoing
  obtain ⟨-, rfl, hstands'⟩ := hstands.arrive harrive
  have hworks := w.works_resume q.task h.tidy harrive
  have hapart : Apart s (· = q.task) (· ∈ ([] : List TaskId)) w
      ({ w with loop := l }.runGiving q.task s d .on) := hworks.apart h.tidy
  obtain ⟨hgives, hserved', hitems, hclosed, hlength⟩ :=
    runGiving_spec (w := { w with loop := l }) h.bound hstands' hl rfl
      (hserved.arrive harrive) fun hunwaited =>
        hserved.arrive_elsewhere harrive (by
          rintro ⟨d', hd, hd'⟩
          cases hd
          rw [hunwaited] at hd'
          cases hd')
  have hlength' := hlength.trans (Loop.spares_arrive harrive).length
  obtain ⟨d', hrests⟩ := hgives.rests
  obtain ⟨hconsumer', htaken⟩ := hconsumer.other hapart
    (fun v b hb _ hb' => by
      refine ⟨?_, List.not_mem_nil⟩
      rintro rfl
      cases ha.symm.trans hb
      rw [hpoint] at hb'
      cases hb')
    (fun v b hv hb _ => by
      rcases hv with rfl | hle
      · rw [hrests.point_eq hb]
        rfl
      · exact (not_new_of_length hlength' hle hb).elim)
    (by
      rintro v rfl ⟨b, hb, hb'⟩
      cases ha.symm.trans hb
      cases hpoint.symm.trans hb')
  have hcame : (entered ++ if World.accepts { w with loop := l } s d then [q] else []).map
      (·.event) = entered.map (·.event) ++
        if World.accepts { w with loop := l } s d then [d.event] else [] := by
    rw [List.map_append, ((h.putting.stands q hq).of_stands hstands).1]
    split <;> rfl
  exact ⟨rfl, {
    tidy := hworks.tidy h.tidy
    bound := hworks.sinks ▸ h.bound
    putting := h.putting.gives hapart (fun _ => List.not_mem_nil) hstands hq hlength' hclosed
      hgives.of_loop
    flow := ⟨race, hconsumer', hserved', by
      refine Eq.trans ?_ hcame.symm
      rw [← hflow, ← htaken, List.append_assoc]
      exact congrArg _ hitems⟩ }⟩

/-- A task goes on that takes an event. -/
theorem Queues.taking (h : Queues s size puts gets entered w)
    (harrive : w.loop.arrive u = some (l, .taking s, arrival)) :
    Queues s size puts gets entered ({ w with loop := l }.runPoint u (.taking s) arrival) := by
  obtain ⟨race, hconsumer, hserved, hflow⟩ := h.flow
  obtain ⟨a, ha, hgoing, hpoint, harrival, hl⟩ := Loop.arrive_spec harrive
  have hworks := w.works_resume u h.tidy harrive
  obtain ⟨⟨got, hyields, hconsumer', htaken⟩, hlength, hrests⟩ :=
    hconsumer.taking h.tidy h.bound harrive
  have hracer : arrival = .on → ∃ r, race = some r ∧ u = r.taker := by
    intro hon
    by_contra hno
    have hdoomed := hconsumer.takers u a ha hpoint hgoing fun r hr hur => hno ⟨r, hr, hur⟩
    obtain ⟨woken, hcancelled⟩ := hdoomed.arrival w.loop
    rw [← harrival, hon] at hcancelled
    cases hcancelled
  have harrived := hserved.arrive_elsewhere harrive (Point.not_givesAt_taking s s)
  exact {
    tidy := hworks.tidy h.tidy
    bound := hworks.sinks ▸ h.bound
    putting := h.putting.other (hworks.apart h.tidy) ha (by simp [hpoint])
      (fun _ _ _ _ _ => List.not_mem_nil) hyields.closed hrests rfl (by simp)
      fun v b hle hb _ => (not_new_of_length hlength hle hb).elim
    flow := ⟨race, hconsumer', served_runTaking (w := { w with loop := l }) h.bound harrived hl
      hpoint hgoing rfl hracer, by
      rw [← hflow, hyields.items, ← List.append_assoc, ← htaken]
      rfl⟩ }

/-- A task goes on that waits for the sink to be closed. -/
theorem Queues.awaitClose (h : Queues s size puts gets entered w)
    (harrive : w.loop.arrive u = some (l, .awaitingClose s, arrival)) :
    Queues s size puts gets entered
      ({ w with loop := l }.runPoint u (.awaitingClose s) arrival) := by
  obtain ⟨race, hconsumer, hserved, hflow⟩ := h.flow
  obtain ⟨a, ha, hgoing, hpoint, -, hl⟩ := Loop.arrive_spec harrive
  have hworks := w.works_resume u h.tidy harrive
  obtain ⟨hunbound, -, -⟩ := h.putting.users u a ha (by rw [hpoint]; rfl)
  obtain ⟨hlength, hitems, hclosed, hrests, -⟩ :=
    awaitClose_spec h.bound harrive (hunbound.attends ha (by rw [hpoint]; rfl))
  have hapart : Apart s (· = u) (· ∈ (Point.awaitingClose s).wards) w _ :=
    hworks.apart h.tidy
  obtain ⟨hconsumer', htaken⟩ := hconsumer.other hapart
    (fun v b hb _ hb' => by
      refine ⟨?_, List.not_mem_nil⟩
      rintro rfl
      cases ha.symm.trans hb
      rw [hpoint] at hb'
      cases hb')
    (fun v b hv hb _ => by
      rcases hv with rfl | hle
      · rw [hrests.point_eq hb]
        rfl
      · exact (not_new_of_length hlength hle hb).elim)
    (by
      rintro v rfl -
      rcases hrests with ⟨b, hb, hb', -⟩ | ⟨_, b, hb, hb', -⟩ <;> exact ⟨b, hb, hb'⟩)
  have harrived := hserved.arrive_elsewhere harrive (Point.not_at_awaitingClose s s).1
  exact {
    tidy := hworks.tidy h.tidy
    bound := hworks.sinks ▸ h.bound
    putting := h.putting.other hapart ha (by simp [hpoint])
      (fun _ _ _ _ _ => List.not_mem_nil) hclosed hrests rfl (by simp)
      fun v b hle hb _ => (not_new_of_length hlength hle hb).elim
    flow := ⟨race, hconsumer', served_runAwaitingClose (w := { w with loop := l }) h.bound
      harrived hl hpoint rfl, by
      rw [← hflow, ← htaken]
      exact congrArg _ hitems⟩ }

/-- A call for events goes on. -/
theorem Queues.getting (h : Queues s size puts gets entered w) {r : Option Race}
    (harrive : w.loop.arrive u = some (l, .getting s collected r, arrival)) :
    Queues s size puts gets entered
      ({ w with loop := l }.runPoint u (.getting s collected r) arrival) := by
  obtain ⟨race, hconsumer, hserved, hflow⟩ := h.flow
  obtain ⟨a, ha, hgoing, hpoint, -, hl⟩ := Loop.arrive_spec harrive
  obtain ⟨hmem, -, rfl, -⟩ := hconsumer.arrives harrive
  have hworks := w.works_resume u h.tidy harrive
  obtain ⟨got, race', hstep⟩ := hconsumer.getting h.tidy h.bound harrive
  obtain ⟨c, r', hrests⟩ := hstep.own
  have harrived := hserved.arrive_elsewhere harrive (Point.not_at_getting ..).1
  -- who races for the call puts nothing in
  have hmiss : ∀ v b d, w.loop.task? v = some b → b.point = .giving s d →
      v ∉ (Point.getting s collected r).wards := by
    intro v b d hb hd hv
    cases r with
    | none => exact List.not_mem_nil hv
    | some r =>
        obtain ⟨hraces, -⟩ := hconsumer.racing r rfl
        have hcases : v = r.taker ∨ v = r.closer := by simpa [Point.wards] using hv
        rcases hcases with rfl | rfl
        · rcases hraces.taker with hstands | ⟨_, hended⟩
          · cases (hstands.point_eq hb).1.symm.trans hd
          · cases (hended.point_eq hb).1.symm.trans hd
        · obtain ⟨b', hb', hcloser⟩ := hraces.closer
          cases hb.symm.trans hb'
          cases hcloser.symm.trans hd
  have hserved' : World.Served s size none 0
      ({ w with loop := l }.runGetting u s collected r arrival) :=
    served_runGetting h.bound harrived hl hpoint rfl
  exact {
    tidy := hworks.tidy h.tidy
    bound := hworks.sinks ▸ h.bound
    putting := h.putting.other (hworks.apart h.tidy) ha (by simp [hpoint]) hmiss
      hstep.yields.closed hrests rfl (by simp) fun v b hle hb _ => by
        rcases hstep.made v hle (Loop.lt_of_task? hb) with hv | hv
        · rw [(hv.point_eq hb).1]
          exact ⟨unbound_of_rests (.inl hv), rfl, by simp⟩
        · rw [(hv.point_eq hb).1]
          exact ⟨unbound_of_rests (.inl hv), rfl, by simp⟩
    flow := ⟨race', hstep.consumer, hserved'.any, by
      rw [← hflow, hstep.yields.items, ← List.append_assoc, ← hstep.taken]
      rfl⟩ }

/-! ## Jobs -/

/-- No time limit of anybody at the sink ends before the task itself does. -/
theorem Queues.expire (h : Queues s size puts gets entered w)
    (hknown : ∀ a, w.loop.task? v = some a → a.point.sink? = some s →
      a.ending.isSome = true ∨ a.limit ≠ none) :
    Queues s size puts gets entered (w.withLoop (·.expire v)) := by
  by_cases hsink : ∀ a, w.loop.task? v = some a → a.point.sink? ≠ some s
  · exact h.away (w.away_expire h.tidy hsink)
  · obtain ⟨a, ha, hsink⟩ : ∃ a, w.loop.task? v = some a ∧ a.point.sink? = some s := by
      simpa using hsink
    obtain ⟨⟨b, hb, hlimit, hplain⟩, -⟩ := h.putting.users v a ha hsink
    cases ha.symm.trans hb
    have hended := (hknown a ha hsink).resolve_right fun h => h hlimit
    obtain ⟨e, hending⟩ := Option.isSome_iff_exists.1 hended
    have hover : w.loop.EndedAt v a.point e := ⟨a, ha, rfl, hending, hplain hended, hlimit⟩
    have hmild : Mild none w (w.withLoop (·.expire v)) := .of_eq hover.gentle_expire rfl rfl
    exact h.away (hmild.away h.tidy (by simp))

/-- A task goes on. -/
theorem Queues.resume (h : Queues s size puts gets entered w)
    (harrive : w.loop.arrive u = some (l, p, arrival)) :
    Queues s size puts gets (entered ++ w.entersAt s puts (.resume u))
      ({ w with loop := l }.runPoint u p arrival) := by
  have hother : (∀ d, p ≠ .giving s d) → w.entersAt s puts (.resume u) = [] := by
    intro hnot
    rw [entersAt, harrive]
    split
    · next r d heq =>
        cases heq
        exact if_neg fun hr : r = s => hnot d (hr ▸ rfl)
    · rfl
  by_cases hp : p.sink? = some s
  · obtain ⟨a, ha, -, hpoint, -, -⟩ := Loop.arrive_spec harrive
    obtain ⟨-, huse, -⟩ := h.putting.users u a ha (hpoint ▸ hp)
    rw [hpoint] at huse
    cases p with
    | giving r d =>
        cases hp
        obtain ⟨rfl, hqueues⟩ := h.giving harrive
        rw [entersAt, harrive]
        dsimp only
        rw [if_pos rfl]
        exact hqueues
    | taking r =>
        cases hp
        rw [hother (by simp), List.append_nil]
        exact h.taking harrive
    | awaitingClose r =>
        cases hp
        rw [hother (by simp), List.append_nil]
        exact h.awaitClose harrive
    | getting r collected race =>
        cases hp
        rw [hother (by simp), List.append_nil]
        exact h.getting harrive
    | _ => cases huse
  · rw [hother fun d hd => hp (hd ▸ rfl), List.append_nil]
    exact h.away (w.away_resume u h.tidy harrive hp)

theorem Queues.withReady (h : Queues s size puts gets entered w) (ready : List Job) (round : Nat) :
    Queues s size puts gets entered (w.withReady ready round) := by
  have hmild : Mild none w (w.withReady ready round) := w.mild_withReady ready round
  exact h.away (hmild.away h.tidy (by simp))

/-- A job is run. -/
theorem Queues.run (h : Queues s size puts gets entered w) (job : Job) :
    Queues s size puts gets (entered ++ w.entersAt s puts job) (w.run job) := by
  rcases w.run_cases job with ⟨u, l, p, arrival, rfl, harrive, hrun⟩ | ⟨hnone, hcases⟩
  · rw [hrun]
    exact h.resume harrive
  · have henters : w.entersAt s puts job = [] := by
      cases job with
      | resume u => rw [entersAt, hnone u rfl]
      | notify | tick | alarm => rfl
    rw [henters, List.append_nil]
    rcases hcases with ⟨timer, v, he, hrun⟩ | hmild
    · have hcancel : Mild none w (w.withLoop (·.cancelTimer timer)) := w.mild_cancelTimer timer
      rw [hrun]
      exact (h.away (hcancel.away h.tidy (by simp))).expire fun a ha =>
        h.tidy.limit_of_expires he ha
    · exact h.away (hmild.away h.tidy (by simp))

/-- At the beginning nothing is queued. -/
theorem queues_fresh (ht : w.Tidy) (hs : s < w.sinks.length) (hnew : w.sink s = .new size)
    (hfree : ∀ v a, w.loop.task? v = some a → a.point.sink? ≠ some s) :
    Queues s size [] [] [] w where
  tidy := ht
  bound := hs
  putting := {
    users := fun v a ha hsink => absurd hsink (hfree v a ha)
    stands := fun _ hq => absurd hq List.not_mem_nil
    called := .nil
    turns := fun _ hq => absurd hq List.not_mem_nil
    known := List.nil_subset _
    order := .nil }
  flow := ⟨none, {
      getters := fun _ hg => absurd hg List.not_mem_nil
      known := fun g a c r ha hp => absurd (by rw [hp]; rfl) (hfree g a ha)
      past := fun _ hg => absurd hg List.not_mem_nil
      racing := fun _ hr => by cases hr
      takers := fun v a ha hp => absurd (by rw [hp]; rfl) (hfree v a ha) },
    by
      have hno : ∀ P : Point → Prop, (∀ p, P p → p.sink? = some s) → ∀ v, ¬w.loop.Waits P v := by
        rintro P hP v ⟨a, ha, hp, -⟩
        exact hfree v a ha (hP _ hp)
      have hgives := hno (Point.givesAt s) fun _ => Point.sink?_of_givesAt
      have htakes := hno (Point.takesAt s) fun _ => Point.sink?_of_takesAt
      rw [Served, hnew]
      exact {
        limit := rfl
        fits := fun hpos => Int.le_of_lt hpos
        givers := ⟨fun v hv => absurd hv (hgives v), fun _ hv => absurd hv List.not_mem_nil⟩
        takers := ⟨fun v hv => absurd hv (htakes v), fun _ hv => absurd hv List.not_mem_nil⟩
        idle := fun v hv => absurd hv (htakes v)
        filled := fun v hv => absurd hv (hgives v) },
    by rw [hnew]; rfl⟩

/-! ## Whatever happens -/

/-- A session in which a sink has a name. -/
def naming (w : World) (s : SinkId) : Session :=
  { world := w, sinks := [("sink", s)] }

/-- Whoever has a sink may put into it, get out of it and close it. -/
theorem Lived.request (h : Lived w) (hs : s < w.sinks.length) {r : Request}
    (hinstant : ∀ seconds, r ≠ .advance seconds) (hr : (naming w s).concerns r = some s) :
    Lived ((naming w s).begin r true).1.world := by
  refine h.next (.request (naming w s) r true hinstant fun k hk => ?_)
  cases hr.symm.trans hk
  exact hs

/-- A sink is used in worlds that live, and what holds of it holds throughout. -/
theorem Use.lived_queues (h : Use s size puts gets entered w) :
    Lived w ∧ Queues s size puts gets entered w := by
  induction h with
  | fresh lived bound new free => exact ⟨lived, queues_fresh lived.orderly.tidy bound new free⟩
  | put i e _ answered ih =>
      exact ⟨ih.1.request (r := .put "sink" e) ih.2.bound (by simp) rfl, ih.2.put i e answered⟩
  | get all _ answered ih =>
      refine ⟨?_, ih.2.get _ (by cases all <;> rfl) answered⟩
      cases all with
      | false => exact ih.1.request (r := .next "sink") ih.2.bound (by simp) rfl
      | true => exact ih.1.request (r := .all "sink") ih.2.bound (by simp) rfl
  | close _ ih =>
      have hlived := ih.1.request (r := .close "sink") ih.2.bound (by simp) rfl
      exact ⟨hlived, ih.2.close hlived.orderly.tidy⟩
  | job before after round _ ready ih =>
      exact ⟨ih.1.next (.job before after round ready), (ih.2.withReady _ round).run _⟩
  | elsewhere _ happens away ih => exact ⟨ih.1.next happens, ih.2.away away⟩

end World

end LiveCluster.Simulation
