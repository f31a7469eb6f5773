import LiveCluster.Proofs.Tail.Advance
import LiveCluster.Proofs.Tail.Consuming

/-!
# Others go on

What those who work at the sink of a tail, and all who work elsewhere, do to the phase of
the tail: a stream delivers what it reads, and nobody else changes the phase. A task that waits
for the sink to be closed waits as long as it is open.
-/

namespace LiveCluster.Simulation

open Loop (StandsAt EndedAt TaskEases TaskStays Gentle)

namespace World

variable {w w' x : World} {s : SinkId} {t u v : TaskId} {race race' : Option Race}
  {out given : List LogEvent} {reads : List (TaskId × LogItem)} {call : TailCall} {p : Point}
  {l : Loop Point Report} {arrival : Arrival} {moved hit : TaskId → Prop}
  {pairs : List (TaskId × TailTarget)}

/-! ## What is no step of the tail -/

/-- What has to be left alone so that the phase of a tail stays the same. -/
structure Spared (s : SinkId) (t : TaskId) (race : Option Race) (moved hit : TaskId → Prop)
    (w w' : World) : Prop where
  apart : Apart s moved hit w w'
  closed : (w'.sink s).closed = (w.sink s).closed
  tail : ¬moved t
  /-- Who is not looking for pods any more goes on as planned. -/
  miss : ∀ p, w.loop.StandsAt t p → ¬p.finds s → ¬hit t
  streams : ∀ v a st q, w.loop.task? v = some a → a.point = .stream st q → st.sink = s →
    ¬moved v ∧ (a.ending = none → ¬hit v)
  made : ∀ v b st q, w'.loop.task? v = some b → b.point = .stream st q → st.sink = s →
    v < w.loop.tasks.length ∧ ¬moved v
  closers : ∀ v, w.loop.StandsAt v (.awaitingClose s) → (w.sink s).closed = false →
    (∀ r, race = some r → r.closer ≠ v) → w'.loop.StandsAt v (.awaitingClose s)

theorem NoStreams.spared (h : NoStreams s w) (hs : Spared s t race moved hit w w') :
    NoStreams s w' := by
  intro v b st q hb hpoint hst
  obtain ⟨hlt, hm⟩ := hs.made v b st q hb hpoint hst
  obtain ⟨a, ha, hstays, -⟩ := hs.apart.back hm hlt hb (by rw [hpoint]; exact congrArg some hst)
  exact h v a st q ha (hstays.point.symm.trans hpoint) hst

theorem Ledger.spared (h : Ledger s call pairs out reads w)
    (hs : Spared s t race moved hit w w') : Ledger s call pairs out reads w' ∧
      ∀ v ∈ pairs.map (·.1), w.loop.ended v = true → w'.loop.ended v = true := by
  refine ⟨h.frame hs.apart (fun v hv => ?_) hs.made, fun v hv hended => ?_⟩
  · obtain ⟨a, st, q, ha, hpoint, hst⟩ := h.isStream hv
    refine (hs.streams v a st q ha hpoint hst).imp_right fun hmiss hgoing => hmiss ?_
    rw [Loop.ended_of_task? ha] at hgoing
    simpa using hgoing
  · obtain ⟨a, st, q, ha, hpoint, hst⟩ := h.isStream hv
    obtain ⟨q', e, he, hsink⟩ := h.endedAt hv hended
    exact (hs.apart.endedAt (hs.streams v a st q ha hpoint hst).1 hsink he).ended

theorem Phase.spared (h : Phase s t race out reads w) (hs : Spared s t race moved hit w w')
    (hrace : ∀ r, race' = some r → race = some r ∨ w.loop.tasks.length ≤ r.closer) :
    Phase s t race' out reads w' := by
  have hmiss : ∀ p, p.sink? = some s → ¬p.finds s → w.loop.StandsAt t p → w'.loop.StandsAt t p :=
    fun p hp hfinds ht => hs.apart.standsAt hs.tail (hs.miss p ht hfinds) hp ht
  cases h with
  | @finding a ha hending hplain hp hopen hnothing hunread hnone =>
      obtain ⟨b, hb, hstays, -⟩ := hs.apart.stays t a hs.tail ha (seat_of_finds hp).1
      exact .finding hb (hstays.ending.trans hending) (hstays.plain hplain)
        (hstays.point ▸ hp) (hs.closed.trans hopen) hnothing hunread (hnone.spared hs)
  | lost hended hp hnothing hunread hnone =>
      exact .lost (hs.apart.endedAt hs.tail (seat_of_finds hp).1 hended) hp hnothing hunread
        (hnone.spared hs)
  | @reporting call targets pods d ht hsink hopen hreports hunread hnone =>
      exact .reporting (hmiss _ (congrArg some hsink) (fun h => h) ht) hsink
        (hs.closed.trans hopen) hreports hunread (hnone.spared hs)
  | @supervising call tasks pending pairs ht hsink hopen hstreams hpending hcloser hapart hledger =>
      obtain ⟨hledger', hended⟩ := hledger.spared hs
      refine .supervising (hmiss _ (congrArg some hsink) (fun h => h) ht) hsink
        (hs.closed.trans hopen) hstreams
        (fun v hv hnot => hended v (hstreams ▸ hv) (hpending v hv hnot))
        (hs.closers _ hcloser hopen hapart) (fun r hr => ?_) hledger'
      rcases hrace r hr with hold | hnew
      · exact hapart r hold
      · exact Nat.ne_of_gt (Nat.lt_of_lt_of_le hcloser.lt hnew)
  | @clearing call pairs ht hsink hopen hledger hended =>
      obtain ⟨hledger', hended'⟩ := hledger.spared hs
      exact .clearing (hmiss _ (congrArg some hsink) (fun h => h) ht) hsink
        (hs.closed.trans hopen) hledger' fun v hv => hended' v hv (hended v hv)
  | @done call pairs ht hsink hclosed hledger hended =>
      obtain ⟨hledger', hended'⟩ := hledger.spared hs
      exact .done (hs.apart.endedAt hs.tail (congrArg some hsink) ht) hsink
        (hs.closed.trans hclosed) hledger' fun v hv => hended' v hv (hended v hv)

/-- Nothing at the sink is touched. -/
theorem Away.spared (h : Away s w w') :
    Spared s t race (fun _ => False) (fun _ => False) w w' where
  apart := h.apart
  closed := by rw [h.sink]
  tail h := h
  miss _ _ _ h := h
  streams _ _ _ _ _ _ _ := ⟨fun h => h, fun _ h => h⟩
  made v b st q hb hpoint hst := by
    obtain ⟨a, ha, -⟩ := h.nobody v b hb (by rw [hpoint]; exact congrArg some hst)
    exact ⟨Loop.lt_of_task? ha, fun h => h⟩
  closers v hv _ _ := hv.of_eases fun a ha => h.eases v a ha (by rw [(hv.point_eq ha).1]; rfl)

/-! ## A step of a stream -/

theorem not_ended_of_arrive (harrive : w.loop.arrive u = some (l, p, arrival)) :
    w.loop.ended u = false := by
  obtain ⟨a, ha, hending, -⟩ := Loop.arrive_spec harrive
  rw [Loop.ended_of_task? ha, hending]
  rfl

/-- What a stream does that goes on while the tail supervises it. -/
theorem Ledger.delivers (h : Ledger s call pairs out reads w) (htidy : w.Tidy)
    (hs : s < w.sinks.length) (hopen : (w.sink s).closed = false) {st : Stream} {q : StreamPoint}
    (hst : st.sink = s) (harrive : w.loop.arrive u = some (l, .stream st q, arrival)) :
    let w' := { w with loop := l }.runStream u st q arrival
    let items := (World.reading { w with loop := l } st q).toList
    arrival = .on ∧ w'.loop.tasks.length = w.loop.tasks.length ∧
      (w'.sink s).closed = (w.sink s).closed ∧ (∃ q', w'.loop.Rests u (.stream st q')) ∧
      ∃ given, (w'.sink s).channel.items = (w.sink s).channel.items ++ given ∧
        Ledger s call pairs (out ++ given) (reads ++ items.map (u, ·)) w' := by
  intro w' items
  obtain ⟨a, ha, hending, hpoint, -, -⟩ := Loop.arrive_spec harrive
  obtain ⟨hu, htold⟩ := h.account hst ha hpoint hending
  obtain ⟨-, rfl, hu'⟩ := hu.arrive harrive
  have hapart : Apart s (· = u) (· ∈ (Point.stream st q).wards) w w' :=
    (w.works_resume u htidy harrive).apart htidy
  have hlength : l.tasks.length = w.loop.tasks.length := (Loop.spares_arrive harrive).length
  subst hst
  have hdelivers := delivers_runStream (w := { w with loop := l }) hs hopen hu' htold
  obtain ⟨given, hitems, hcomes⟩ := hdelivers.comes
  refine ⟨rfl, hdelivers.tasks.trans hlength, hdelivers.closed, ?_, given, hitems, ?_⟩
  · rcases hcomes with ⟨q', hq', -⟩ | ⟨q', hq', -⟩
    · exact ⟨q', .inl hq'⟩
    · exact ⟨q', .inr ⟨_, hq'⟩⟩
  · exact h.stream_step rfl hu hapart (fun _ => List.not_mem_nil) (hdelivers.tasks.trans hlength)
      hcomes

/-- A stream goes on. It does so only when it is supervised and the sink is open. -/
theorem Phase.stream (h : Phase s t race out reads w) (htidy : w.Tidy) (hs : s < w.sinks.length)
    {st : Stream} {q : StreamPoint} (hst : st.sink = s)
    (harrive : w.loop.arrive u = some (l, .stream st q, arrival)) :
    let w' := { w with loop := l }.runStream u st q arrival
    let items := (World.reading { w with loop := l } st q).toList
    arrival = .on ∧ (w.sink s).closed = false ∧ w'.loop.tasks.length = w.loop.tasks.length ∧
      (∃ q', w'.loop.Rests u (.stream st q')) ∧
      ∃ given, (w'.sink s).channel.items = (w.sink s).channel.items ++ given ∧
        Phase s t race (out ++ given) (reads ++ items.map (u, ·)) w' := by
  intro w' items
  obtain ⟨a, ha, hending, hpoint, -, -⟩ := Loop.arrive_spec harrive
  have hgoing := not_ended_of_arrive harrive
  cases h with
  | finding _ _ _ _ _ _ _ hnone => exact absurd hst (hnone u a st q ha hpoint)
  | lost _ _ _ _ hnone => exact absurd hst (hnone u a st q ha hpoint)
  | reporting _ _ _ _ _ hnone => exact absurd hst (hnone u a st q ha hpoint)
  | @supervising call tasks pending pairs ht hsink hopen hstreams hpending hcloser hapart hledger =>
      obtain ⟨harrival, hlength, hclosed, hrests, given, hitems, hledger'⟩ :=
        hledger.delivers htidy hs hopen hst harrive
      have hworks : Apart s (· = u) (· ∈ (Point.stream st q).wards) w w' :=
        (w.works_resume u htidy harrive).apart htidy
      have hother : ∀ v p, w.loop.StandsAt v p → p ≠ .stream st q → v ≠ u := by
        rintro v p hv hp rfl
        exact hp ((hv.point_eq ha).1.symm.trans hpoint)
      have hp : (Point.supervising call tasks pending).sink? = some s := congrArg some hsink
      have ht' := hworks.standsAt (hother t _ ht (by simp)) List.not_mem_nil hp ht
      have hcloser' := hworks.standsAt (hother _ _ hcloser (by simp)) List.not_mem_nil rfl hcloser
      refine ⟨harrival, hopen, hlength, hrests, given, hitems, .supervising ht' hsink
        (hclosed.trans hopen) hstreams (fun v hv hnot => ?_) hcloser' hapart hledger'⟩
      have hended := hpending v hv hnot
      obtain ⟨q', e, he, hsink'⟩ := hledger.endedAt (hstreams ▸ hv) hended
      refine (hworks.endedAt ?_ hsink' he).ended
      rintro rfl
      rw [hgoing] at hended
      cases hended
  | clearing _ _ _ hledger hended =>
      rw [hended u (hledger.only u a st q ha hpoint hst)] at hgoing
      cases hgoing
  | done _ _ _ hledger hended =>
      rw [hended u (hledger.only u a st q ha hpoint hst)] at hgoing
      cases hgoing

/-! ## A step of another helper, or of the consumer -/

/-- Who has no time limit, and goes on, stands where it was. -/
theorem standsAt_of_arrive (harrive : w.loop.arrive u = some (l, p, arrival))
    (hattends : w.Attends u) : l.StandsAt u p := by
  obtain ⟨a, ha, hending, rfl, -, hl⟩ := Loop.arrive_spec harrive
  obtain ⟨a', ha', -, hlimit, -⟩ := hattends
  cases ha.symm.trans ha'
  exact ⟨_, hl, rfl, hending, rfl, hlimit, rfl⟩

/-- Who waits for the sink to be closed waits on as long as it is open, unless it was cancelled. -/
theorem awaitClose_spec (hs : s < w.sinks.length)
    (harrive : w.loop.arrive u = some (l, .awaitingClose s, arrival)) (hattends : w.Attends u) :
    let w' := { w with loop := l }.runAwaitingClose u s arrival
    w'.loop.tasks.length = w.loop.tasks.length ∧
      (w'.sink s).channel.items = (w.sink s).channel.items ∧
      (w'.sink s).closed = (w.sink s).closed ∧
      w'.loop.Rests u (.awaitingClose s) ∧
      (w.loop.StandsAt u (.awaitingClose s) → (w.sink s).closed = false →
        w'.loop.StandsAt u (.awaitingClose s)) := by
  intro w'
  have hu := standsAt_of_arrive harrive hattends
  have hlength : l.tasks.length = w.loop.tasks.length := (Loop.spares_arrive harrive).length
  have hset := fun watchers => sink_setSink hs { w.sink s with watchers := watchers }
  cases arrival with
  | cancelled woken =>
      refine ⟨(l.spares_finish u _).length.trans hlength, congrArg (·.channel.items) (hset _),
        congrArg (·.closed) (hset _), .inr ⟨_, hu.finish _⟩, fun hstands _ => ?_⟩
      cases (hstands.arrive harrive).2.1
  | on =>
      cases hclosed : (w.sink s).closed with
      | true =>
          have hw' : w' = World.report { w with loop := l } u .nothing := if_pos hclosed
          rw [hw']
          refine ⟨(l.spares_finish u _).length.trans hlength, rfl, hclosed,
            .inr ⟨_, hu.finish _⟩, fun _ h => by cases h⟩
      | false =>
          have hw' : w' = (World.setSink { w with loop := l } s { w.sink s with
              watchers := (w.sink s).watchers ++ [u] }).await u (.awaitingClose s) :=
            if_neg (by
              rw [show (World.sink { w with loop := l } s) = w.sink s from rfl, hclosed]
              simp)
          have hstands : w'.loop.StandsAt u (.awaitingClose s) := hw' ▸ hu.suspend _
          have hsink := hset ((w.sink s).watchers ++ [u])
          rw [hw'] at hstands ⊢
          exact ⟨(Loop.length_modify ..).trans hlength, congrArg (·.channel.items) hsink,
            (congrArg (·.closed) hsink).trans hclosed, .inl hstands, fun _ _ => hstands⟩

end World

end LiveCluster.Simulation
