import LiveCluster.Proofs.Tail.Streams

/-!
# The ledger of a tail

The events of the streams of a tail are mixed in its sink, but each was delivered by one
task. The ledger has them by the task that delivered them, after the failures of the pods
that cannot be decoded, and for each stream tells what it has read and what of that is
still due.
-/

namespace LiveCluster.Simulation

open Loop (StandsAt EndedAt Gentle)

namespace World

variable {w w' : World} {s : SinkId} {u v : TaskId} {out given : List LogEvent}
  {reads : List (TaskId × LogItem)} {moved hit : TaskId → Prop}
  {pairs : List (TaskId × TailTarget)} {call : TailCall}

/-- What a stream has delivered of the items that it has read. -/
def Account (s : SinkId) (options : TailOptions) (w : World) (v : TaskId) (target : TailTarget)
    (delivered : List LogEvent) (items : List LogItem) : Prop :=
  (∃ q, w.loop.StandsAt v (.stream ⟨s, target, options⟩ q) ∧ Told target options items q ∧
    delivered ++ q.due = target.events options items) ∨
  ∃ q, w.loop.EndedAt v (.stream ⟨s, target, options⟩ q) (.returned .nothing) ∧ ToldAll items ∧
    delivered = target.events options items

/-- Whether no task at a sink is a stream. -/
def NoStreams (s : SinkId) (w : World) : Prop :=
  ∀ v a st q, w.loop.task? v = some a → a.point = .stream st q → st.sink ≠ s

/-- What has come out of the streams of a tail. -/
structure Ledger (s : SinkId) (call : TailCall) (pairs : List (TaskId × TailTarget))
    (out : List LogEvent) (reads : List (TaskId × LogItem)) (w : World) : Prop where
  targets : pairs.map (·.2) = Tailer.allTargets call.options call.pods
  only : ∀ v a st q, w.loop.task? v = some a → a.point = .stream st q → st.sink = s →
    v ∈ pairs.map (·.1)
  delivered : ∃ tagged : List (TaskId × LogEvent),
    out = Tailer.failures call.options call.pods ++ tagged.map (·.2) ∧
    (∀ v e, (v, e) ∈ tagged → v ∈ pairs.map (·.1)) ∧
    ∀ v target, (v, target) ∈ pairs →
      Account s call.options w v target (ofTask v tagged) (ofTask v reads)

theorem Account.apart {options : TailOptions} {target : TailTarget} {delivered : List LogEvent}
    {items : List LogItem} (h : Account s options w v target delivered items)
    (ha : Apart s moved hit w w') (hm : ¬moved v) (hmiss : w.loop.ended v = false → ¬hit v) :
    Account s options w' v target delivered items := by
  rcases h with ⟨q, hq, htold⟩ | ⟨q, hq, htold⟩
  · exact .inl ⟨q, ha.standsAt hm (hmiss hq.not_ended) rfl hq, htold⟩
  · exact .inr ⟨q, ha.endedAt hm rfl hq, htold⟩

theorem Ledger.frame (h : Ledger s call pairs out reads w) (ha : Apart s moved hit w w')
    (hkept : ∀ v ∈ pairs.map (·.1), ¬moved v ∧ (w.loop.ended v = false → ¬hit v))
    (hnew : ∀ v b st q, w'.loop.task? v = some b → b.point = .stream st q → st.sink = s →
      v < w.loop.tasks.length ∧ ¬moved v) : Ledger s call pairs out reads w' where
  targets := h.targets
  only v b st q hb hpoint hst := by
    obtain ⟨hlt, hm⟩ := hnew v b st q hb hpoint hst
    obtain ⟨a, hva, hstays, -⟩ := ha.back hm hlt hb (by rw [hpoint]; exact congrArg some hst)
    exact h.only v a st q hva (hstays.point.symm.trans hpoint) hst
  delivered := by
    obtain ⟨tagged, hout, htagged, haccounts⟩ := h.delivered
    refine ⟨tagged, hout, htagged, fun v target hmem => ?_⟩
    have hv := hkept v (List.mem_map_of_mem hmem)
    exact (haccounts v target hmem).apart ha hv.1 hv.2

theorem Ledger.gentle (h : Ledger s call pairs out reads w) (hl : Gentle w.loop w'.loop) :
    Ledger s call pairs out reads w' := by
  refine h.frame (.of_spares hl) (fun _ _ => ⟨fun h => h, fun _ h => h⟩) fun v b _ _ hb _ _ => ?_
  exact ⟨hl.lt hb, fun h => h⟩

theorem Account.point {options : TailOptions} {target : TailTarget} {delivered : List LogEvent}
    {items : List LogItem} (h : Account s options w v target delivered items) :
    ∃ a q, w.loop.task? v = some a ∧ a.point = .stream ⟨s, target, options⟩ q := by
  rcases h with ⟨q, ⟨a, ha, hpoint, -⟩, -⟩ | ⟨q, ⟨a, ha, hpoint, -⟩, -⟩ <;> exact ⟨a, q, ha, hpoint⟩

/-- What a stream has read is delivered but for one event at most. -/
theorem Account.due {options : TailOptions} {target : TailTarget} {delivered : List LogEvent}
    {items : List LogItem} (h : Account s options w v target delivered items) :
    ∃ due : List LogEvent, due.length ≤ 1 ∧ delivered ++ due = target.events options items := by
  rcases h with ⟨q, -, -, hdue⟩ | ⟨q, -, -, hall⟩
  · exact ⟨q.due, q.length_due_le, hdue⟩
  · exact ⟨[], Nat.zero_le 1, (List.append_nil _).trans hall⟩

theorem Account.whole {options : TailOptions} {target : TailTarget} {delivered : List LogEvent}
    {items : List LogItem} (h : Account s options w v target delivered items)
    (hv : w.loop.ended v = true) : Whole target options items delivered := by
  rcases h with ⟨q, hq, -⟩ | ⟨q, -, htold, rfl⟩
  · rw [hq.not_ended] at hv
    cases hv
  · exact htold.whole target options

/-- What was delivered after the failures of pods has its origin in a stream, by which it can be
told whose it is. -/
theorem Ledger.origins (h : Ledger s call pairs out reads w)
    (hdistinct : Tailer.Distinct call.options call.pods) :
    ∃ rest, out = Tailer.failures call.options call.pods ++ rest ∧
      (∀ e ∈ rest, e.origin ∈ pairs.map (·.2.origin)) ∧
      ∀ v target, (v, target) ∈ pairs →
        Account s call.options w v target (rest.filter (·.origin == target.origin))
          (ofTask v reads) := by
  obtain ⟨tagged, hout, htagged, haccounts⟩ := h.delivered
  have horigins : (pairs.map (·.2.origin)).Nodup := by
    have hnodup := hdistinct.origins
    rwa [← h.targets, List.map_map] at hnodup
  have htold : ∀ u e, (u, e) ∈ tagged →
      ∃ target, (u, target) ∈ pairs ∧ e.origin = target.origin := by
    intro u e hmem
    obtain ⟨⟨u', target⟩, hpair, rfl⟩ := List.mem_map.1 (htagged u e hmem)
    obtain ⟨due, -, hdue⟩ := (haccounts u' target hpair).due
    have hevent : e ∈ target.events call.options (ofTask u' reads) := by
      rw [← hdue]
      exact List.mem_append_left _ (mem_ofTask.2 hmem)
    exact ⟨target, hpair, TailTarget.origin_of_mem_events hevent⟩
  refine ⟨tagged.map (·.2), hout, ?_, fun v target hpair => ?_⟩
  · intro e he
    obtain ⟨⟨u, e'⟩, hmem, rfl⟩ := List.mem_map.1 he
    obtain ⟨target, hpair, horigin⟩ := htold u e' hmem
    exact List.mem_map.2 ⟨(u, target), hpair, horigin.symm⟩
  · rw [filter_origin horigins htold (fun target' hpair' => ?_) hpair]
    · exact haccounts v target hpair
    · -- the point of a task has one target
      obtain ⟨a, q, ha, hpoint⟩ := (haccounts v target hpair).point
      obtain ⟨b, q', hb, hpoint'⟩ := (haccounts v target' hpair').point
      cases ha.symm.trans hb
      cases hpoint.symm.trans hpoint'
      rfl

/-- A stream that is known to the ledger and goes on. -/
theorem Ledger.account (h : Ledger s call pairs out reads w) {st : Stream} {q : StreamPoint}
    (hst : st.sink = s) {a : Task Point Report} (ha : w.loop.task? u = some a)
    (hpoint : a.point = .stream st q) (hending : a.ending = none) :
    w.loop.StandsAt u (.stream st q) ∧ Told st.target st.options (ofTask u reads) q := by
  obtain ⟨⟨u', target⟩, hmem, rfl⟩ := List.mem_map.1 (h.only u a st q ha hpoint hst)
  obtain ⟨tagged, -, -, haccounts⟩ := h.delivered
  rcases haccounts u' target hmem with ⟨q', hstands, htold, -⟩ | ⟨q', hended, -⟩
  · have heq := hpoint.symm.trans (hstands.point_eq ha).1
    cases heq
    exact ⟨hstands, htold⟩
  · rw [(hended.point_eq ha).2.1] at hending
    cases hending

/-- A step of a stream is booked. -/
theorem Ledger.stream_step (h : Ledger s call pairs out reads w) {st : Stream} {q : StreamPoint}
    (hst : st.sink = s) (hu : w.loop.StandsAt u (.stream st q))
    (ha : Apart s (· = u) hit w w') (hmiss : ∀ v, ¬hit v)
    (hlength : w'.loop.tasks.length = w.loop.tasks.length) {items : List LogItem}
    (hcomes : (∃ q', w'.loop.StandsAt u (.stream st q') ∧
        Told st.target st.options (ofTask u reads ++ items) q' ∧
        given ++ q'.due = q.due ++ st.target.events st.options items) ∨
      ∃ q', w'.loop.EndedAt u (.stream st q') (.returned .nothing) ∧
        ToldAll (ofTask u reads ++ items) ∧
        given = q.due ++ st.target.events st.options items) :
    Ledger s call pairs (out ++ given) (reads ++ items.map (u, ·)) w' where
  targets := h.targets
  only v b st' q' hb hpoint hst' := by
    by_cases hvu : v = u
    · obtain ⟨a, hua, hupoint, -⟩ := hu
      exact hvu ▸ h.only u a st q hua hupoint hst
    · have hlt := hlength ▸ Loop.lt_of_task? hb
      obtain ⟨a, hva, hstays, -⟩ := ha.back hvu hlt hb (by rw [hpoint]; exact congrArg some hst')
      exact h.only v a st' q' hva (hstays.point.symm.trans hpoint) hst'
  delivered := by
    obtain ⟨tagged, hout, htagged, haccounts⟩ := h.delivered
    refine ⟨tagged ++ given.map (u, ·), ?_, fun v e hmem => ?_, fun v target hmem => ?_⟩
    · rw [hout, List.map_append, List.map_map, List.append_assoc]
      congr 2
      exact (List.map_id given).symm
    · rcases List.mem_append.1 hmem with hold | hnew
      · exact htagged v e hold
      · obtain ⟨e', -, heq⟩ := List.mem_map.1 hnew
        cases heq
        obtain ⟨a, hua, hupoint, -⟩ := hu
        exact h.only u a st q hua hupoint hst
    · rw [ofTask_append, ofTask_append]
      by_cases hvu : v = u
      · subst hvu
        rw [ofTask_self, ofTask_self]
        rcases haccounts v target hmem with ⟨q₀, hstands, htold, hdue⟩ | ⟨q₀, hended, -⟩
        · cases hu.unique hstands
          rcases hcomes with ⟨q', hq', htold', hdue'⟩ | ⟨q', hq', htold', hdue'⟩
          · refine .inl ⟨q', hq', htold', ?_⟩
            rw [List.append_assoc, hdue', ← List.append_assoc, hdue, TailTarget.events_append]
          · refine .inr ⟨q', hq', htold', ?_⟩
            rw [hdue', ← List.append_assoc, hdue, TailTarget.events_append]
        · obtain ⟨a, hua, -, hending, -⟩ := hu
          rw [(hended.point_eq hua).2.1] at hending
          cases hending
      · rw [ofTask_other (Ne.symm hvu), ofTask_other (Ne.symm hvu), List.append_nil,
          List.append_nil]
        exact (haccounts v target hmem).apart ha hvu fun _ => hmiss v

end World

end LiveCluster.Simulation
