import LiveCluster.Proofs.Tail.Flow
import LiveCluster.Proofs.Tail.Serving

/-!
# Putting events into a sink

Producers put events into a sink, each one call after another. Where each put is, which puts have
brought their events into the sink, and in which order, is kept by every step: of one who puts, and
of anybody else.
-/

namespace LiveCluster.Simulation

open Loop (StandsAt EndedAt TaskStays)

/-- Whether a task at a point works at a sink as those do who put and get events. -/
def Point.isUse : Point → Bool
  | .giving .. | .taking _ | .awaitingClose _ | .getting .. => true
  | _ => false

/-- A call of a producer that puts an event into a sink, and the task of the call. -/
structure Put where
  producer : Nat
  task : TaskId
  event : LogEvent

namespace World

variable {w w' : World} {s : SinkId} {u v : TaskId} {puts entered more : List Put} {q : Put}
  {p : Point} {d : Delivery} {moved hit : TaskId → Prop} {accepted : Bool}

/-! ## Those at the sink -/

/-- A task has no time limit, and after its end it waits for nobody. -/
def Unbound (w : World) (v : TaskId) : Prop :=
  ∃ a, w.loop.task? v = some a ∧ a.limit = none ∧
    (a.ending.isSome = true → a.wait.isPlain = true)

theorem unbound_of_rests (h : w.loop.Rests v p) : w.Unbound v := by
  rcases h with ⟨a, ha, rfl, hending, hsteady⟩ | ⟨e, a, ha, rfl, -, hplain, hlimit⟩
  · exact ⟨a, ha, hsteady.limit, by simp [hending]⟩
  · exact ⟨a, ha, hlimit, fun _ => hplain⟩

theorem Unbound.stays (h : w.Unbound v) (hstays : ∀ a, w.loop.task? v = some a →
    ∃ b, w'.loop.task? v = some b ∧ TaskStays a b) : w'.Unbound v := by
  obtain ⟨a, ha, hlimit, hplain⟩ := h
  obtain ⟨b, hb, hab⟩ := hstays a ha
  refine ⟨b, hb, hab.limit hlimit, fun hended => hab.plain (hplain ?_)⟩
  rwa [← hab.ending]

theorem Unbound.attends (h : w.Unbound v) {a : Task Point Report} (ha : w.loop.task? v = some a)
    (hp : a.point.serves = true) : w.Attends v := by
  obtain ⟨b, hb, hlimit, hplain⟩ := h
  cases ha.symm.trans hb
  exact ⟨a, ha, hp, hlimit, hplain⟩

/-- Whoever works at the sink puts or gets events, and whoever puts one is known. -/
def Users (s : SinkId) (puts : List Put) (w : World) : Prop :=
  ∀ v a, w.loop.task? v = some a → a.point.sink? = some s →
    w.Unbound v ∧ a.point.isUse = true ∧ ∀ d, a.point = .giving s d → ∃ q ∈ puts, q.task = v

theorem Users.apart (h : Users s puts w) (ha : Apart s moved hit w w')
    (hnew : ∀ v b, moved v ∨ w.loop.tasks.length ≤ v → w'.loop.task? v = some b →
      b.point.sink? = some s →
        w'.Unbound v ∧ b.point.isUse = true ∧ ∀ d, b.point = .giving s d → ∃ q ∈ puts, q.task = v) :
    Users s puts w' := by
  intro v b hb hsink
  by_cases hv : moved v ∨ w.loop.tasks.length ≤ v
  · exact hnew v b hv hb hsink
  · rw [not_or, Nat.not_le] at hv
    obtain ⟨a, hva, hstays, -⟩ := ha.back hv.1 hv.2 hb hsink
    obtain ⟨hunbound, huse, hknown⟩ := h v a hva (hstays.point ▸ hsink)
    refine ⟨hunbound.stays fun a' ha' => ?_, hstays.point ▸ huse, fun d hd =>
      hknown d (hstays.point.symm.trans hd)⟩
    cases hva.symm.trans ha'
    exact ⟨b, hb, hstays⟩

/-! ## Puts -/

/-- How it stands with a put. -/
inductive PutAt (s : SinkId) (entered : List Put) (w : World) (q : Put) : Prop
  | going {d : Delivery} (stands : w.loop.StandsAt q.task (.giving s d))
      (event : d.event = q.event) (out : q ∉ entered)
  | done {d : Delivery} (ended : w.loop.EndedAt q.task (.giving s d) (.returned .nothing))
      (into : q ∈ entered)
  | refused {d : Delivery} (ended : w.loop.EndedAt q.task (.giving s d) (.failed .sinkClosed))
      (out : q ∉ entered) (closed : (w.sink s).closed = true)

theorem PutAt.point (h : PutAt s entered w q) {a : Task Point Report}
    (ha : w.loop.task? q.task = some a) : ∃ d, a.point = .giving s d := by
  cases h with
  | @going d stands => exact ⟨d, (stands.point_eq ha).1⟩
  | @done d ended => exact ⟨d, (ended.point_eq ha).1⟩
  | @refused d ended => exact ⟨d, (ended.point_eq ha).1⟩

theorem PutAt.lt (h : PutAt s entered w q) : q.task < w.loop.tasks.length := by
  cases h with
  | going stands => exact stands.lt
  | done ended | refused ended =>
      obtain ⟨a, ha, -⟩ := ended
      exact Loop.lt_of_task? ha

/-- A put that has its turn has the event with which it was called. -/
theorem PutAt.of_stands (h : PutAt s entered w q) (hq : w.loop.StandsAt q.task (.giving s d)) :
    d.event = q.event ∧ q ∉ entered := by
  cases h with
  | going stands event out =>
      cases stands.unique hq
      exact ⟨event, out⟩
  | done ended | refused ended =>
      have hgoing := hq.not_ended
      rw [ended.ended] at hgoing
      cases hgoing

theorem PutAt.apart (h : PutAt s entered w q) (ha : Apart s moved hit w w') (hq : ¬moved q.task)
    (hmiss : ¬hit q.task) (hclosed : (w.sink s).closed = true → (w'.sink s).closed = true)
    (hmore : q ∉ more) : PutAt s (entered ++ more) w' q := by
  have hout : q ∉ entered → q ∉ entered ++ more := fun hout hq =>
    (List.mem_append.1 hq).elim hout hmore
  cases h with
  | going stands event out => exact .going (ha.standsAt hq hmiss rfl stands) event (hout out)
  | done ended into => exact .done (ha.endedAt hq rfl ended) (List.mem_append_left _ into)
  | refused ended out closed => exact .refused (ha.endedAt hq rfl ended) (hout out) (hclosed closed)

theorem PutAt.ended_apart (h : PutAt s entered w q) (ha : Apart s moved hit w w')
    (hq : ¬moved q.task) (hended : w.loop.ended q.task = true) :
    w'.loop.ended q.task = true := by
  cases h with
  | going stands =>
      rw [stands.not_ended] at hended
      cases hended
  | done ended | refused ended => exact (ha.endedAt hq rfl ended).ended

/-- What is known of the puts into a sink, and of those that have brought their events in. -/
structure Putting (s : SinkId) (puts entered : List Put) (w : World) : Prop where
  users : Users s puts w
  stands : ∀ q ∈ puts, PutAt s entered w q
  /-- The puts are listed in the order of the calls. -/
  called : puts.Pairwise (·.task < ·.task)
  /-- A producer's earlier puts have ended. -/
  turns : ∀ q ∈ puts, ∀ r ∈ puts, q.producer = r.producer → q.task < r.task →
    w.loop.ended q.task = true
  known : entered ⊆ puts
  /-- What a producer puts in comes in the order of its calls. -/
  order : entered.Pairwise fun q r => q.producer = r.producer → q.task < r.task

/-- Each put has its own task. -/
theorem Putting.task_inj {r : Put} (h : Putting s puts entered w) (hq : q ∈ puts) (hr : r ∈ puts)
    (hsame : q.task = r.task) : q = r := by
  have hnodup : (puts.map (·.task)).Nodup := List.pairwise_map.2 (h.called.imp Nat.ne_of_lt)
  exact List.inj_on_of_nodup_map hnodup hq hr hsame

/-- A step that is no put's turn. -/
theorem Putting.apart (h : Putting s puts entered w) (ha : Apart s moved hit w w')
    (hkept : ∀ v a d, w.loop.task? v = some a → a.point = .giving s d → ¬moved v ∧ ¬hit v)
    (hclosed : (w.sink s).closed = true → (w'.sink s).closed = true)
    (hnew : ∀ v b, moved v ∨ w.loop.tasks.length ≤ v → w'.loop.task? v = some b →
      b.point.sink? = some s → w'.Unbound v ∧ b.point.isUse = true ∧ ∀ d, b.point ≠ .giving s d) :
    Putting s puts entered w' := by
  have hputs : ∀ q ∈ puts, ¬moved q.task ∧ ¬hit q.task := by
    intro q hq
    obtain ⟨a, hqa⟩ := Loop.exists_task? (h.stands q hq).lt
    obtain ⟨d, hd⟩ := (h.stands q hq).point hqa
    exact hkept q.task a d hqa hd
  refine { h with
    users := h.users.apart ha fun v b hv hb hsink => ?_
    stands := fun q hq => ?_
    turns := fun q hq r hr hsame hlt => ?_ }
  · obtain ⟨hunbound, huse, hnot⟩ := hnew v b hv hb hsink
    exact ⟨hunbound, huse, fun d hd => absurd hd (hnot d)⟩
  · exact (List.append_nil entered) ▸ (h.stands q hq).apart ha (hputs q hq).1 (hputs q hq).2
      hclosed List.not_mem_nil
  · exact (h.stands q hq).ended_apart ha (hputs q hq).1 (h.turns q hq r hr hsame hlt)

/-- A step of somebody at the sink who puts nothing in. -/
theorem Putting.other (h : Putting s puts entered w) (ha : Apart s (· = u) hit w w')
    {a : Task Point Report} (hu : w.loop.task? u = some a) (hpoint : ∀ d, a.point ≠ .giving s d)
    (hmiss : ∀ v b d, w.loop.task? v = some b → b.point = .giving s d → ¬hit v)
    (hclosed : (w'.sink s).closed = (w.sink s).closed) (hrests : w'.loop.Rests u p)
    (huse : p.isUse = true) (hp : ∀ d, p ≠ .giving s d)
    (hmade : ∀ v b, w.loop.tasks.length ≤ v → w'.loop.task? v = some b → b.point.sink? = some s →
      w'.Unbound v ∧ b.point.isUse = true ∧ ∀ d, b.point ≠ .giving s d) :
    Putting s puts entered w' := by
  refine h.apart ha (fun v b d hv hd => ⟨?_, hmiss v b d hv hd⟩) hclosed.trans
    fun v b hv hb hsink => ?_
  · rintro rfl
    cases hu.symm.trans hv
    exact hpoint d hd
  · rcases hv with rfl | hle
    · rw [hrests.point_eq hb]
      exact ⟨unbound_of_rests hrests, huse, hp⟩
    · exact hmade v b hle hb hsink

/-- Where a put is after its turn. -/
theorem Gives.rests (h : Gives s u d w w' accepted) : ∃ d', w'.loop.Rests u (.giving s d') := by
  cases h with
  | enters ended | refused ended => exact ⟨d, .inr ⟨_, ended⟩⟩
  | waits stands => exact ⟨_, .inl stands⟩

/-- A put has its turn. It has not put anything in before, and is not preceded by one of its
producer that goes on. -/
theorem Putting.gives (h : Putting s puts entered w) (ha : Apart s (· = q.task) hit w w')
    (hmiss : ∀ v, ¬hit v) (hstands : w.loop.StandsAt q.task (.giving s d)) (hq : q ∈ puts)
    (hlength : w'.loop.tasks.length = w.loop.tasks.length)
    (hclosed : (w'.sink s).closed = (w.sink s).closed) (hgives : Gives s q.task d w w' accepted) :
    Putting s puts (entered ++ if accepted then [q] else []) w' := by
  obtain ⟨hevent, hout⟩ := (h.stands q hq).of_stands hstands
  have hmore : ∀ r, r ∈ (if accepted then [q] else []) → r = q := by
    cases accepted <;> simp
  obtain ⟨d', hrests⟩ := hgives.rests
  constructor
  · refine h.users.apart ha fun v b hv hb hsink => ?_
    rcases hv with rfl | hle
    · rw [hrests.point_eq hb]
      exact ⟨unbound_of_rests hrests, rfl, fun _ _ => ⟨q, hq, rfl⟩⟩
    · exact (not_new_of_length hlength hle hb).elim
  · intro r hr
    by_cases hrq : r.task = q.task
    · obtain rfl := h.task_inj hr hq hrq
      cases hgives with
      | enters ended => exact .done ended (List.mem_append_right _ List.mem_cons_self)
      | refused ended closed =>
          exact .refused ended ((List.append_nil entered).symm ▸ hout) (hclosed.trans closed)
      | waits stands => exact .going stands hevent ((List.append_nil entered).symm ▸ hout)
    · exact (h.stands r hr).apart ha hrq (hmiss _) hclosed.trans fun hr =>
        hrq (congrArg (·.task) (hmore r hr))
  · exact h.called
  · intro r hr r' hr' hsame hlt
    have hended := h.turns r hr r' hr' hsame hlt
    refine (h.stands r hr).ended_apart ha (fun hrq => ?_) hended
    rw [hrq, hstands.not_ended] at hended
    cases hended
  · exact List.append_subset.2 ⟨h.known, fun r hr => hmore r hr ▸ hq⟩
  · refine List.pairwise_append.2 ⟨h.order, ?_, fun r hr r' hr' hsame => ?_⟩
    · cases accepted with
      | true => exact List.pairwise_singleton ..
      | false => exact .nil
    · -- the earlier one has ended, and a producer's later puts begin only then
      obtain rfl := hmore r' hr'
      rcases Nat.lt_trichotomy r.task r'.task with hlt | heq | hgt
      · exact hlt
      · obtain rfl := h.task_inj (h.known hr) hq heq
        exact absurd hr hout
      · have hended := h.turns r' hq r (h.known hr) hsame.symm hgt
        rw [hstands.not_ended] at hended
        cases hended

/-- A producer that has had an answer to each of its puts makes the next. -/
theorem Putting.put (h : Putting s puts entered w) (ht : w.Tidy) (i : Nat) (e : LogEvent)
    (hanswered : ∀ q ∈ puts, q.producer = i → w.loop.ended q.task = true) :
    Putting s (puts ++ [⟨i, w.loop.tasks.length, e⟩]) entered
      (w.spawn (.giving s { event := e })).1 := by
  let w' : World := (w.spawn (.giving s { event := e })).1
  let new : Put := ⟨i, w.loop.tasks.length, e⟩
  have hmild : Mild (some s) w w' := .spawn w (.inr rfl) rfl
  have ha : Apart s (· = w.loop.tasks.length) (fun _ => False) w w' :=
    (hmild.works _).apart ht
  have hnow : w'.loop.StandsAt w.loop.tasks.length (.giving s { event := e }) :=
    w.loop.standsAt_spawn _
  have hold : ∀ q ∈ puts, q.task < w.loop.tasks.length := fun q hq => (h.stands q hq).lt
  have hcases : ∀ {q}, q ∈ puts ++ [new] → q ∈ puts ∨ q = new := fun hq =>
    (List.mem_append.1 hq).imp_right List.mem_singleton.1
  constructor
  · refine Users.apart (fun v a hv hsink => ?_) ha fun v b hv hb hsink => ?_
    · obtain ⟨hunbound, huse, hknown⟩ := h.users v a hv hsink
      refine ⟨hunbound, huse, fun d hd => ?_⟩
      obtain ⟨q, hq, hqv⟩ := hknown d hd
      exact ⟨q, List.mem_append_left _ hq, hqv⟩
    · obtain ⟨rfl, rfl⟩ := Loop.eq_of_spawn_new (l := w.loop) hb hv
      exact ⟨unbound_of_rests (.inl hnow), rfl, fun _ _ =>
        ⟨new, List.mem_append_right _ List.mem_cons_self, rfl⟩⟩
  · intro q hq
    rcases hcases hq with hq | rfl
    · exact (List.append_nil entered) ▸ (h.stands q hq).apart ha (Nat.ne_of_lt (hold q hq)) id id
        List.not_mem_nil
    · exact .going hnow rfl fun hin => Nat.lt_irrefl _ (hold new (h.known hin))
  · refine List.pairwise_append.2 ⟨h.called, List.pairwise_singleton .., fun q hq r hr => ?_⟩
    obtain rfl := List.mem_singleton.1 hr
    exact hold q hq
  · intro q hq r hr hsame hlt
    rcases hcases hq with hq | rfl
    · refine (h.stands q hq).ended_apart ha (Nat.ne_of_lt (hold q hq)) ?_
      rcases hcases hr with hr | rfl
      · exact h.turns q hq r hr hsame hlt
      · exact hanswered q hq hsame
    · rcases hcases hr with hr | rfl
      · exact absurd hlt (Nat.lt_asymm (hold r hr))
      · exact absurd hlt (Nat.lt_irrefl _)
  · exact fun q hq => List.mem_append_left _ (h.known hq)
  · exact h.order

end World

end LiveCluster.Simulation
