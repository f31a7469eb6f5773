import LiveCluster.Proofs.Tail.Finding

/-!
# A tail goes on

Whatever phase a tail is in, when its task goes on it comes to some phase again. What it
puts into its sink on the way are the failures of pods that cannot be decoded.
-/

namespace LiveCluster.Simulation

open Loop (StandsAt EndedAt Gentle)

namespace World

variable {w w' x : World} {s : SinkId} {t v : TaskId} {race : Option Race}
  {out : List LogEvent} {reads : List (TaskId × LogItem)} {call : TailCall} {p : Point}
  {l : Loop Point Report} {arrival : Arrival}

/-- Who goes on stays where it was, and so does everybody else. -/
theorem point_of_arrive (h : w.loop.arrive t = some (l, p, arrival)) {b : Task Point Report}
    (hb : l.task? v = some b) : ∃ a, w.loop.task? v = some a ∧ b.point = a.point := by
  have hloop := Loop.spares_arrive h
  by_cases hv : v = t
  · subst hv
    obtain ⟨a, ha, -, -, -, hl⟩ := Loop.arrive_spec h
    cases hb.symm.trans hl
    exact ⟨a, ha, rfl⟩
  · obtain ⟨a, ha, heases⟩ := hloop.back hv hb
    exact ⟨a, ha, heases.point⟩

/-- First the task of the tail alone is touched. -/
theorem TailStep.own {helper : Bool} (h : TailStep s t race out reads x w')
    (hloop : Loop.Spares (· = t) w.loop x.loop) (hseat : w.Seat t (some s) helper)
    (hsinks : x.sinks = w.sinks) : TailStep s t race out reads w w' := by
  have h' : TailStep s t race (out ++ []) reads x w' := by rwa [List.append_nil]
  refine h'.after (by rw [sink, sink, hsinks, List.append_nil]) fun v b hb hsink => ?_
  by_cases hv : v = t
  · obtain ⟨a, ha, hsink', -⟩ := hseat
    exact ⟨a, hv ▸ ha, hsink'⟩
  · exact (Apart.of_spares hloop).old v b hv (hloop.lt hb) hb hsink

theorem NoStreams.arrive (h : NoStreams s w) (harrive : w.loop.arrive t = some (l, p, arrival)) :
    NoStreams s { w with loop := l } := by
  intro v b st q hb hpoint
  obtain ⟨a, ha, hsame⟩ := point_of_arrive harrive hb
  exact h v a st q ha (hsame.symm.trans hpoint)

/-- A tail that goes on as planned before it has opened its streams. -/
theorem begins_arrive (htidy : w.Tidy) (hs : s < w.sinks.length)
    (hopen : (w.sink s).closed = false) (hnone : NoStreams s w)
    (hrace : ∀ r, race = some r → r.closer < w.loop.tasks.length)
    (harrive : w.loop.arrive t = some (l, p, arrival)) (ht : l.StandsAt t p) :
    Begins s t race p { w with loop := l } where
  tidy := htidy.arrive harrive
  sink := hs
  task := ht
  open_ := hopen
  none := hnone.arrive harrive
  race r hr := by
    show r.closer < l.tasks.length
    rw [(Loop.spares_arrive harrive).length]
    exact hrace r hr

/-- After a time limit is over a tail goes on without one. -/
theorem begins_endLimit (htidy : w.Tidy) (hs : s < w.sinks.length)
    (hopen : (w.sink s).closed = false) (hnone : NoStreams s w)
    (hrace : ∀ r, race = some r → r.closer < w.loop.tasks.length)
    {a : Task Point Report} (ha : w.loop.task? t = some a) (hending : a.ending = none)
    (hmust : a.mustCancel = false) (hwait : a.wait = .none) (hp : a.point.finds s)
    (cancelled : Bool) :
    Begins s t race a.point { w with loop := (w.loop.endLimit t cancelled).1 } := by
  have hspares := w.loop.spares_endLimit t cancelled
  obtain ⟨⟨b, hb, hpoint, hending', hmust', hwait', hlimit⟩, -⟩ := Loop.endLimit_spec ha cancelled
  refine {
    tidy := htidy.endLimit t cancelled
    sink := hs
    task := ⟨b, hb, hpoint, hending'.trans hending, hmust'.trans hmust, hlimit, ?_⟩
    open_ := hopen
    none := hnone.spares hspares fun v c st q hv hc hstream => ?_
    race := fun r hr => ?_ }
  · rw [hwait', hwait]
    rfl
  · subst hv
    cases hb.symm.trans hc
    rw [hpoint] at hstream
    rw [hstream] at hp
    cases hp
  · rw [show World.loop { w with loop := (w.loop.endLimit t cancelled).1 } =
      (w.loop.endLimit t cancelled).1 from rfl, hspares.length]
    exact hrace r hr

/-- A tail goes on that is looking for its pods. -/
theorem tailStep_find (htidy : w.Tidy) (hs : s < w.sinks.length)
    (hopen : (w.sink s).closed = false) (hnone : NoStreams s w)
    (hrace : ∀ r, race = some r → r.closer < w.loop.tasks.length)
    (harrive : w.loop.arrive t = some (l, p, arrival)) (hp : p.finds s) :
    TailStep s t race [] [] w ({ w with loop := l }.runPoint t p arrival) := by
  obtain ⟨a, ha, hending, rfl, -, hl⟩ := Loop.arrive_spec harrive
  have hseat : w.Seat t (some s) false := ⟨a, ha, seat_of_finds hp⟩
  have hspares := Loop.spares_arrive harrive
  have htidy' : World.Tidy { w with loop := l } :=
    htidy.arrive harrive
  have hrace' : ∀ r, race = some r → r.closer < l.tasks.length := fun r hr =>
    hspares.length ▸ hrace r hr
  have hnone' := hnone.arrive harrive
  have hended : ∀ e, (l.finish t e).EndedAt t a.point e := fun e => .of_finish hl e
  cases hpoint : a.point <;> rw [hpoint] at hp harrive <;> try exact hp.elim
  case planning op plan =>
    cases arrival with
    | cancelled woken =>
        exact tailStep_lost (hspares.trans (l.spares_finish t .cancelled))
          (hpoint ▸ hended .cancelled) hp hseat hnone rfl
    | on =>
        have hlimit : a.limit = none := by
          refine htidy.fresh t a ha ?_
          rw [hpoint, Point.isPlanning, show op.sink = some s from hp]
          rfl
        have hw := begins_arrive htidy hs hopen hnone hrace harrive
          ⟨_, hl, hpoint, hending, rfl, hlimit, rfl⟩
        exact (tailStep_carryOut hp plan hw hp).own hspares hseat rfl
  case syncing op i next =>
    cases arrival with
    | on =>
        have hw := begins_endLimit htidy' hs hopen hnone' hrace' hl hending rfl rfl
          (hpoint ▸ hp) false
        refine ((tailStep_carryOut hp _ hw (hpoint ▸ hp)).own ?_ hseat rfl)
        exact hspares.trans (l.spares_endLimit t false)
    | cancelled woken =>
        let y : World := { w with loop := l }
        let x : Watched :=
          { y.informer i with waiters := (y.informer i).waiters.filter (· ≠ t) }
        have hleft : Mild none y (y.setInformer i x) := y.mild_setInformer fun v hv => .inl hv
        have hw := begins_endLimit (w := y.setInformer i x) (hleft.tidy htidy') hs hopen
          ((Leads.of_mild hleft).noStreams hnone') hrace' hl hending rfl rfl (hpoint ▸ hp) true
        have hfirst := hspares.trans (l.spares_endLimit t true)
        show TailStep s t race [] [] w (y.runSyncing t op i next (.cancelled woken))
        unfold runSyncing
        dsimp only
        split
        · exact (tailStep_carryOut hp _ hw (hpoint ▸ hp)).own hfirst hseat rfl
        · exact (tailStep_release hp hw (hpoint ▸ hp) .cancelled).own hfirst hseat rfl

theorem not_arrive_of_endedAt {q : Point} {e : Ending Report} (hended : w.loop.EndedAt t q e)
    (harrive : w.loop.arrive t = some (l, p, arrival)) : False := by
  obtain ⟨a, ha, hending, -⟩ := Loop.arrive_spec harrive
  rw [(hended.point_eq ha).2.1] at hending
  cases hending

/-- A tail goes on, in whatever phase it is. -/
theorem Phase.step (h : Phase s t race out reads w) (htidy : w.Tidy) (hs : s < w.sinks.length)
    (hrace : ∀ r, race = some r → r.closer < w.loop.tasks.length)
    (harrive : w.loop.arrive t = some (l, p, arrival)) :
    TailStep s t race out reads w ({ w with loop := l }.runPoint t p arrival) := by
  have hspares := Loop.spares_arrive harrive
  have htidy' : World.Tidy { w with loop := l } :=
    htidy.arrive harrive
  cases h with
  | @finding a ha hending hplain hp hopen hnothing hunread hnone =>
      subst hnothing hunread
      obtain ⟨a', ha', -, rfl, -⟩ := Loop.arrive_spec harrive
      cases ha.symm.trans ha'
      exact tailStep_find htidy hs hopen hnone hrace harrive hp
  | lost hended => exact (not_arrive_of_endedAt hended harrive).elim
  | done hended => exact (not_arrive_of_endedAt hended harrive).elim
  | @reporting call targets pods d ht hsink hopen hreports hunread hnone =>
      obtain ⟨rfl, rfl, ht'⟩ := ht.arrive harrive
      subst hunread
      have hseat := seat_of_standsAt ht (congrArg some hsink) rfl
      have hw := begins_arrive htidy hs hopen hnone hrace harrive ht'
      exact (tailStep_runReporting hw hsink hreports).own hspares hseat rfl
  | @supervising call tasks pending pairs ht hsink hopen hstreams hpending hcloser hapart hledger =>
      obtain ⟨rfl, rfl, ht'⟩ := ht.arrive harrive
      have hseat := seat_of_standsAt ht (congrArg some hsink) rfl
      obtain ⟨hledger', hended⟩ := hledger.own hspares ht rfl (.inl ht') rfl
      have hcloser' : l.StandsAt tasks.closer (.awaitingClose s) := hcloser.spares hspares <| by
        rintro rfl
        cases ht.unique hcloser
      exact (tailStep_runSupervising (w := { w with loop := l }) htidy' ht' hsink hopen hstreams
        (fun v hv hnot => hended v (hstreams ▸ hv) (hpending v hv hnot)) hcloser' hapart
        hledger').own hspares hseat rfl
  | @clearing call pairs ht hsink hopen hledger hended =>
      obtain ⟨rfl, rfl, ht'⟩ := ht.arrive harrive
      have hseat := seat_of_standsAt ht (congrArg some hsink) rfl
      obtain ⟨hledger', hended'⟩ := hledger.own hspares ht rfl (.inl ht') rfl
      exact (tailStep_runClearing (w := { w with loop := l }) hs ht' hsink hledger'
        fun v hv => hended' v hv (hended v hv)).own hspares hseat rfl

end World

end LiveCluster.Simulation
