import LiveCluster.Proofs.Tail.Turns

/-!
# What flows through the sink of a tail

A tail works at a sink of its own, out of which one consumer gets events, call by call. `Flows`
is what holds of the sink as long as nobody cancels any of them and nobody else closes it:
what has left the sink and what is still in it is what the tail and its streams have put in.
Whatever job is run next, it holds again.
-/

namespace LiveCluster.Simulation

open Loop (StandsAt EndedAt TaskEases TaskStays Gentle)

namespace World

variable {w w' x : World} {s : SinkId} {t u v g : TaskId} {race : Option Race}
  {gets : List TaskId} {out given : List LogEvent} {reads : List (TaskId × LogItem)} {p : Point}
  {l : Loop Point Report} {arrival : Arrival} {job : Job}

/-- What a stream that delivers into a sink reads when a job is run. -/
def readsAt (w : World) (s : SinkId) : Job → List (TaskId × LogItem)
  | .resume u => match w.loop.arrive u with
    | some (l, .stream st q, .on) =>
      if st.sink = s then
        (World.reading { w with loop := l } st q).toList.map (u, ·)
      else []
    | _ => []
  | _ => []

/-- Who works at the sink of a tail, other than the tail itself, serves. -/
def Staffed (s : SinkId) (t : TaskId) (w : World) : Prop :=
  ∀ v a, v ≠ t → w.loop.task? v = some a → a.point.sink? = some s → w.Attends v

/-- What holds of a sink into which a tail puts events, and out of which they were got. -/
structure Flows (s : SinkId) (t : TaskId) (gets : List TaskId)
    (reads : List (TaskId × LogItem)) (w : World) : Prop where
  tidy : w.Tidy
  bound : s < w.sinks.length
  staff : Staffed s t w
  flow : ∃ race, Consumer s gets race w ∧
    Phase s t race (w.taken gets ++ (w.sink s).channel.items) reads w ∧
    ((∃ g ∈ gets, w.SawEnd g) →
      race = none ∧ (w.sink s).closed = true ∧ (w.sink s).channel.items = [])

/-! ## The tail itself -/

/-- Where the task of a tail is: it has ended, or the sink is open and it goes on as planned or is
looking for its pods. -/
structure TailAt (s : SinkId) (t : TaskId) (p : Point) (w : World) : Prop where
  helper : p.isHelper = false
  consumer : p.isConsumer = false
  task : (∃ e, w.loop.EndedAt t p e) ∨ (w.sink s).closed = false ∧ (w.loop.StandsAt t p ∨
    p.finds s ∧ ∃ a, w.loop.task? t = some a ∧ a.point = p ∧ a.ending = none ∧
      a.wait.isPlain = true)
  wards : ∀ v ∈ p.wards, ∃ b, w.loop.task? v = some b ∧ b.point.isConsumer = false

theorem TailAt.point_eq (h : TailAt s t p w) {a : Task Point Report}
    (ha : w.loop.task? t = some a) : a.point = p := by
  rcases h.task with ⟨e, he⟩ | ⟨-, ht | ⟨-, b, hb, hpoint, -⟩⟩
  · exact (he.point_eq ha).1
  · exact (ht.point_eq ha).1
  · cases ha.symm.trans hb
    exact hpoint

/-- A helper is not the tail. -/
theorem TailAt.ne_of_helper (h : TailAt s t p w) {a : Task Point Report}
    (ha : w.loop.task? u = some a) (hhelper : a.point.isHelper = true) : u ≠ t := by
  rintro rfl
  rw [h.point_eq ha, h.helper] at hhelper
  cases hhelper

/-- A consumer is not the tail. -/
theorem TailAt.ne_of_consumer (h : TailAt s t p w) {a : Task Point Report}
    (ha : w.loop.task? u = some a) (hconsumer : a.point.isConsumer = true) : u ≠ t := by
  rintro rfl
  rw [h.point_eq ha, h.consumer] at hconsumer
  cases hconsumer

theorem TailAt.lt (h : TailAt s t p w) : t < w.loop.tasks.length := by
  rcases h.task with ⟨_, a, ha, -⟩ | ⟨-, ⟨a, ha, -⟩ | ⟨-, a, ha, -⟩⟩ <;>
    exact Loop.lt_of_task? ha

theorem consumer_of_finds (hp : p.finds s) : p.isConsumer = false ∧ p.wards = [] := by
  cases p with
  | planning | syncing => exact ⟨rfl, rfl⟩
  | _ => cases hp

theorem Phase.tail (h : Phase s t race out reads w) : ∃ p, TailAt s t p w := by
  cases h with
  | @finding a ha hending hplain hp hopen =>
      obtain ⟨hconsumer, hwards⟩ := consumer_of_finds hp
      exact ⟨_, (seat_of_finds hp).2, hconsumer,
        .inr ⟨hopen, .inr ⟨hp, a, ha, rfl, hending, hplain⟩⟩, by simp [hwards]⟩
  | lost hended hp =>
      obtain ⟨hconsumer, hwards⟩ := consumer_of_finds hp
      exact ⟨_, (seat_of_finds hp).2, hconsumer, .inl ⟨_, hended⟩, by simp [hwards]⟩
  | reporting ht _ hopen =>
      exact ⟨.reporting .., rfl, rfl, .inr ⟨hopen, .inl ht⟩,
        fun _ hv => absurd hv List.not_mem_nil⟩
  | @supervising call tasks pending pairs ht _ hopen hstreams _ hcloser _ hledger =>
      refine ⟨.supervising .., rfl, rfl, .inr ⟨hopen, .inl ht⟩, fun v hv => ?_⟩
      rcases List.mem_append.1 hv with hv | hv
      · obtain ⟨a, st, q, ha, hpoint, -⟩ := hledger.isStream (hstreams ▸ hv)
        exact ⟨a, ha, by rw [hpoint]; rfl⟩
      · obtain ⟨a, ha, hpoint, -⟩ := hcloser
        rw [List.mem_singleton.1 hv]
        exact ⟨a, ha, by rw [hpoint]; rfl⟩
  | clearing ht _ hopen =>
      exact ⟨.clearing .., rfl, rfl, .inr ⟨hopen, .inl ht⟩,
        fun _ hv => absurd hv List.not_mem_nil⟩
  | done ht =>
      exact ⟨.clearing .., rfl, rfl, .inl ⟨_, ht⟩,
        fun _ hv => absurd hv List.not_mem_nil⟩

/-! ## One step -/

/-- A call that has not come to the end does not come to it by what is done to others. -/
theorem Consumer.sawEnd_back {moved hit : TaskId → Prop} (h : Consumer s gets race w)
    (ha : Apart s moved hit w w') (hg : g ∈ gets) (hkept : ¬moved g ∧ ¬hit g)
    (hend : w'.SawEnd g) : w.SawEnd g := by
  rcases h.getters g hg with ⟨c, hc⟩ | ⟨c, r, e, he⟩
  · exact absurd hend (not_sawEnd_of_standsAt (ha.standsAt hkept.1 hkept.2 rfl hc))
  · exact (sawEnd_iff he).2 ((sawEnd_iff (ha.endedAt hkept.1 rfl he)).1 hend)

theorem Staffed.step {hit : TaskId → Prop} (h : Staffed s t w) (ha : Apart s (· = u) hit w w')
    (hown : ∀ b, u ≠ t → w'.loop.task? u = some b → w'.Attends u)
    (hmade : ∀ v b, w.loop.tasks.length ≤ v → w'.loop.task? v = some b →
      b.point.sink? = some s → w'.Attends v) : Staffed s t w' := by
  intro v b hv hb hsink
  by_cases hvu : v = u
  · subst hvu
    exact hown b hv hb
  · by_cases hlt : v < w.loop.tasks.length
    · obtain ⟨a, hva, hstays, -⟩ := ha.back hvu hlt hb hsink
      refine (h v a hv hva (hstays.point ▸ hsink)).stays fun a' ha' => ?_
      cases hva.symm.trans ha'
      exact ⟨b, hb, hstays⟩
    · exact hmade v b (Nat.le_of_not_lt hlt) hb hsink

/-- A step of a task that gets no events. -/
theorem flows_of_other {hit : TaskId → Prop} {reads' : List (TaskId × LogItem)}
    (hstaff : Staffed s t w) (hconsumer : Consumer s gets race w)
    (hdrained : (∃ g ∈ gets, w.SawEnd g) →
      race = none ∧ (w.sink s).closed = true ∧ (w.sink s).channel.items = [])
    (ha : Apart s (· = u) hit w w') (htidy : w'.Tidy) (hs : s < w'.sinks.length)
    (hkept : ∀ v b, w.loop.task? v = some b → b.point.sink? = some s →
      b.point.isConsumer = true → v ≠ u ∧ ¬hit v)
    (hnew : ∀ v b, w.loop.tasks.length ≤ v → w'.loop.task? v = some b →
      b.point.sink? = some s → w'.Attends v ∧ b.point.isConsumer = false)
    (hown : ∀ b, w'.loop.task? u = some b → b.point.isConsumer = false)
    (hattends : ∀ b, u ≠ t → w'.loop.task? u = some b → w'.Attends u)
    (hcloser : (∃ a, w.loop.task? u = some a ∧ a.point = .awaitingClose s) →
      ∃ b, w'.loop.task? u = some b ∧ b.point = .awaitingClose s)
    (hitems : (w'.sink s).channel.items = (w.sink s).channel.items ++ given)
    (hphase : Phase s t race (w.taken gets ++ (w.sink s).channel.items ++ given) reads' w')
    (hclosed : (w.sink s).closed = true → (w'.sink s).closed = true ∧ given = []) :
    Flows s t gets reads' w' := by
  obtain ⟨hconsumer', htaken⟩ := hconsumer.frame ha hkept
    (fun v b hb hsink hb' => by
      have hvu : v ≠ u := by
        rintro rfl
        rw [hown b hb] at hb'
        cases hb'
      refine ⟨Nat.lt_of_not_le fun hle => ?_, hvu⟩
      rw [(hnew v b hle hb hsink).2] at hb'
      cases hb')
    fun v hv hpoint => hv ▸ hcloser (hv ▸ hpoint)
  refine ⟨htidy, hs, hstaff.step ha hattends fun v b hle hb hsink => (hnew v b hle hb hsink).1,
    race, hconsumer', ?_, ?_⟩
  · rw [htaken, hitems, ← List.append_assoc]
    exact hphase
  · rintro ⟨g, hg, hend⟩
    have hkeptg : g ≠ u ∧ ¬hit g := by
      rcases hconsumer.getters g hg with ⟨c, b, hb, hpoint, -⟩ | ⟨c, r, e, b, hb, hpoint, -⟩ <;>
        exact hkept g b hb (by rw [hpoint]; rfl) (by rw [hpoint]; rfl)
    obtain ⟨hrace, hover, hempty⟩ := hdrained ⟨g, hg, hconsumer.sawEnd_back ha hg hkeptg hend⟩
    obtain ⟨hover', rfl⟩ := hclosed hover
    exact ⟨hrace, hover', by rw [hitems, hempty]; rfl⟩

/-- The tail goes on. -/
theorem Flows.tail (h : Flows s t gets reads w)
    (harrive : w.loop.arrive t = some (l, p, arrival)) :
    Flows s t gets reads ({ w with loop := l }.runPoint t p arrival) := by
  obtain ⟨htidy, hs, hstaff, race, hconsumer, hphase, hdrained⟩ := h
  obtain ⟨q, hq⟩ := hphase.tail
  obtain ⟨a, ha, -, rfl, -, -⟩ := Loop.arrive_spec harrive
  have hworks := w.works_resume t htidy harrive
  have hopen : (w.sink s).closed = false := by
    refine (hq.task.resolve_left ?_).1
    rintro ⟨e, he⟩
    exact not_arrive_of_endedAt he harrive
  have hstep := hphase.step htidy hs (fun r hr => by
    obtain ⟨b, hb, -⟩ := (hconsumer.racing r hr).1.closer
    exact Loop.lt_of_task? hb) harrive
  obtain ⟨given, hitems, hphase'⟩ := hstep.comes
  obtain ⟨q', hq'⟩ := hphase'.tail
  refine flows_of_other hstaff hconsumer hdrained (hworks.apart htidy) (hworks.tidy htidy)
    (hworks.sinks ▸ hs) ?_ ?_ ?_ (fun _ h => absurd rfl h) ?_ hitems hphase' ?_
  · intro v b hb _ hb'
    constructor
    · exact hq.ne_of_consumer hb hb'
    · intro hv
      obtain ⟨c, hc, hc'⟩ := hq.wards v (hq.point_eq ha ▸ hv)
      cases hb.symm.trans hc
      rw [hc'] at hb'
      cases hb'
  · intro v b hle hb hsink
    refine (hstep.made v b hb hsink).resolve_left ?_
    rintro ⟨c, hc, -⟩
    exact Nat.not_lt_of_le hle (Loop.lt_of_task? hc)
  · intro b hb
    rw [hq'.point_eq hb, hq'.consumer]
  · rintro ⟨b, hb, hb'⟩
    exact absurd rfl (hq.ne_of_helper hb (by rw [hb']; rfl))
  · intro hover
    rw [hopen] at hover
    cases hover

theorem not_new_of_length (h : w'.loop.tasks.length = w.loop.tasks.length)
    {b : Task Point Report} (hle : w.loop.tasks.length ≤ v) (hb : w'.loop.task? v = some b) :
    False :=
  Nat.not_lt_of_le hle (h ▸ Loop.lt_of_task? hb)

/-- A stream goes on. -/
theorem Flows.stream (h : Flows s t gets reads w) {st : Stream} {q : StreamPoint}
    (hst : st.sink = s) (harrive : w.loop.arrive u = some (l, .stream st q, arrival)) :
    arrival = .on ∧ Flows s t gets
      (reads ++ (World.reading { w with loop := l } st q).toList.map (u, ·))
      ({ w with loop := l }.runPoint u (.stream st q) arrival) := by
  obtain ⟨htidy, hs, hstaff, race, hconsumer, hphase, hdrained⟩ := h
  obtain ⟨a, ha, -, hpoint, -, -⟩ := Loop.arrive_spec harrive
  have hworks := w.works_resume u htidy harrive
  obtain ⟨harrival, hopen, hlength, ⟨q', hrests⟩, given, hitems, hphase'⟩ :=
    hphase.stream htidy hs hst harrive
  refine ⟨harrival, flows_of_other hstaff hconsumer hdrained (hworks.apart htidy)
    (hworks.tidy htidy) (hworks.sinks ▸ hs) ?_ ?_ ?_ ?_ ?_ hitems hphase' ?_⟩
  · rintro v b hb - hb'
    refine ⟨?_, List.not_mem_nil⟩
    rintro rfl
    cases ha.symm.trans hb
    rw [hpoint] at hb'
    cases hb'
  · exact fun v b hle hb _ => (not_new_of_length hlength hle hb).elim
  · intro b hb
    rw [hrests.point_eq hb]
    rfl
  · exact fun _ _ _ => attends_of_rests hrests rfl
  · rintro ⟨b, hb, hb'⟩
    cases ha.symm.trans hb
    cases hpoint.symm.trans hb'
  · intro hover
    rw [hopen] at hover
    cases hover

/-- A step of a task that is neither the tail nor a stream. -/
theorem spared_of_apart {q : Point} (hq : TailAt s t q w)
    (ha : Apart s (· = u) (· ∈ p.wards) w w') (hclosed : (w'.sink s).closed = (w.sink s).closed)
    (hu : ∃ a, w.loop.task? u = some a ∧ a.point = p) (hut : u ≠ t)
    (hp : ∀ st q, p ≠ .stream st q)
    (hwards : ∀ v ∈ p.wards, ∃ a, w.loop.task? v = some a ∧ a.point.isHelper = true ∧
      (∀ st q, a.point ≠ .stream st q) ∧
      (a.point = .awaitingClose s → ∃ r, race = some r ∧ r.closer = v))
    (hmade : ∀ v b st q, v = u ∨ w.loop.tasks.length ≤ v → w'.loop.task? v = some b →
      b.point ≠ .stream st q)
    (hself : p = .awaitingClose s → w.loop.StandsAt u p → (w.sink s).closed = false →
      w'.loop.StandsAt u p) : Spared s t race (· = u) (· ∈ p.wards) w w' where
  apart := ha
  closed := hclosed
  tail h := hut h.symm
  miss q' ht _ hward := by
    obtain ⟨a, hta, hhelper, -⟩ := hwards t hward
    exact hq.ne_of_helper hta hhelper rfl
  streams v a st q' hva hpoint _ := by
    constructor
    · rintro rfl
      obtain ⟨a', ha', rfl⟩ := hu
      cases hva.symm.trans ha'
      exact hp st q' hpoint
    · intro _ hward
      obtain ⟨a', ha', -, hnot, -⟩ := hwards v hward
      cases hva.symm.trans ha'
      exact hnot st q' hpoint
  made v b st q' hb hpoint _ := by
    refine ⟨Nat.lt_of_not_le fun hle => hmade v b st q' (.inr hle) hb hpoint, fun hv => ?_⟩
    exact hmade v b st q' (.inl hv) hb hpoint
  closers v hv hopen hrace := by
    by_cases hvu : v = u
    · subst hvu
      obtain ⟨a, hva, hpoint⟩ := hu
      have hsame := (hv.point_eq hva).1.symm.trans hpoint
      exact hsame ▸ hself hsame.symm (hsame ▸ hv) hopen
    · refine ha.standsAt hvu (fun hward => ?_) rfl hv
      obtain ⟨a, hva, -, -, hcloser⟩ := hwards v hward
      obtain ⟨r, hr, hrv⟩ := hcloser (hv.point_eq hva).1
      exact hrace r hr hrv

/-- A step of such a task that calls nobody off and makes nobody, and after which it is where it
was. -/
theorem spared_of_rests {q : Point} (hq : TailAt s t q w)
    (ha : Apart s (· = u) (· ∈ p.wards) w w') (hclosed : (w'.sink s).closed = (w.sink s).closed)
    (hu : ∃ a, w.loop.task? u = some a ∧ a.point = p) (hut : u ≠ t)
    (hp : ∀ st q, p ≠ .stream st q) (hwards : p.wards = [])
    (hlength : w'.loop.tasks.length = w.loop.tasks.length) (hrests : w'.loop.Rests u p)
    (hself : p = .awaitingClose s → w.loop.StandsAt u p → (w.sink s).closed = false →
      w'.loop.StandsAt u p) : Spared s t race (· = u) (· ∈ p.wards) w w' := by
  refine spared_of_apart hq ha hclosed hu hut hp (fun v hv => ?_) (fun v b st q' hv hb => ?_) hself
  · rw [hwards] at hv
    cases hv
  · rcases hv with rfl | hle
    · rw [hrests.point_eq hb]
      exact hp st q'
    · exact (not_new_of_length hlength hle hb).elim

/-- A task goes on that waits for the sink to be closed. -/
theorem Flows.awaitClose (h : Flows s t gets reads w)
    (harrive : w.loop.arrive u = some (l, .awaitingClose s, arrival)) :
    Flows s t gets reads ({ w with loop := l }.runPoint u (.awaitingClose s) arrival) := by
  obtain ⟨htidy, hs, hstaff, race, hconsumer, hphase, hdrained⟩ := h
  obtain ⟨a, ha, -, hpoint, -, -⟩ := Loop.arrive_spec harrive
  obtain ⟨q, hq⟩ := hphase.tail
  have hut : u ≠ t := hq.ne_of_helper ha (by rw [hpoint]; rfl)
  have hattends := hstaff u a hut ha (by rw [hpoint]; rfl)
  have hworks := w.works_resume u htidy harrive
  obtain ⟨hlength, hitems, hclosed, hrests, hwaits⟩ := awaitClose_spec hs harrive hattends
  have hspared : Spared s t race _ _ w _ := spared_of_rests hq (hworks.apart htidy) hclosed
    ⟨a, ha, hpoint⟩ hut (by simp) rfl hlength hrests fun _ => hwaits
  refine flows_of_other hstaff hconsumer hdrained (hworks.apart htidy) (hworks.tidy htidy)
    (hworks.sinks ▸ hs) ?_ ?_ ?_ (fun _ _ _ => attends_of_rests hrests rfl) ?_
    (hitems.trans (List.append_nil _).symm) ?_ ?_
  · rintro v b hb - hb'
    refine ⟨?_, List.not_mem_nil⟩
    rintro rfl
    cases ha.symm.trans hb
    rw [hpoint] at hb'
    cases hb'
  · exact fun v b hle hb _ => (not_new_of_length hlength hle hb).elim
  · intro b hb
    rw [hrests.point_eq hb]
    rfl
  · rcases hrests with ⟨b, hb, hb', -⟩ | ⟨_, b, hb, hb', -⟩ <;>
      exact fun _ => ⟨b, hb, hb'⟩
  · rw [List.append_nil]
    exact hphase.spared hspared fun r hr => .inl hr
  · exact fun hover => ⟨hclosed.trans hover, rfl⟩

/-- A task goes on that takes an event. -/
theorem Flows.taking (h : Flows s t gets reads w)
    (harrive : w.loop.arrive u = some (l, .taking s, arrival)) :
    Flows s t gets reads ({ w with loop := l }.runPoint u (.taking s) arrival) := by
  obtain ⟨htidy, hs, hstaff, race, hconsumer, hphase, hdrained⟩ := h
  obtain ⟨a, ha, -, hpoint, -, -⟩ := Loop.arrive_spec harrive
  obtain ⟨q, hq⟩ := hphase.tail
  have hut : u ≠ t := hq.ne_of_helper ha (by rw [hpoint]; rfl)
  have hworks := w.works_resume u htidy harrive
  have hapart : Apart s (· = u) (· ∈ (Point.taking s).wards) w _ := hworks.apart htidy
  obtain ⟨⟨got, hyields, hconsumer', htaken⟩, hlength, hrests⟩ := hconsumer.taking htidy hs harrive
  have hspared : Spared s t race _ _ w _ := spared_of_rests hq hapart hyields.closed
    ⟨a, ha, hpoint⟩ hut (by simp) rfl hlength hrests (fun h => by cases h)
  have hphase' : Phase s t race _ reads _ := hphase.spared hspared fun r hr => .inl hr
  refine ⟨hworks.tidy htidy, hworks.sinks ▸ hs, hstaff.step hapart
    (fun _ _ _ => attends_of_rests hrests rfl)
    (fun v b hle hb _ => (not_new_of_length hlength hle hb).elim), race, hconsumer', ?_, ?_⟩
  · rw [hyields.items, ← List.append_assoc, ← htaken] at hphase'
    exact hphase'
  · rintro ⟨g, hg, hend⟩
    have hgu : g ≠ u := by
      rintro rfl
      rcases hconsumer.getters g hg with ⟨c, hc⟩ | ⟨c, r, e, he⟩
      · cases hpoint.symm.trans (hc.point_eq ha).1
      · cases hpoint.symm.trans (he.point_eq ha).1
    obtain ⟨hrace, hover, hempty⟩ :=
      hdrained ⟨g, hg, hconsumer.sawEnd_back hapart hg ⟨hgu, List.not_mem_nil⟩ hend⟩
    refine ⟨hrace, hyields.closed.trans hover, ?_⟩
    exact (List.append_eq_nil_iff.1 (hyields.items.symm.trans hempty)).2

/-- A call for events goes on. -/
theorem Flows.getting (h : Flows s t gets reads w) {collected : Option (List LogEvent)}
    {r : Option Race} (harrive : w.loop.arrive u = some (l, .getting s collected r, arrival)) :
    Flows s t gets reads ({ w with loop := l }.runPoint u (.getting s collected r) arrival) := by
  obtain ⟨htidy, hs, hstaff, race, hconsumer, hphase, hdrained⟩ := h
  obtain ⟨a, ha, -, hpoint, -, -⟩ := Loop.arrive_spec harrive
  obtain ⟨q, hq⟩ := hphase.tail
  have hut : u ≠ t := hq.ne_of_consumer ha (by rw [hpoint]; rfl)
  obtain ⟨hmem, hstands, rfl, -⟩ := hconsumer.arrives harrive
  have hworks := w.works_resume u htidy harrive
  have hapart : Apart s (· = u) (· ∈ (Point.getting s collected r).wards) w _ :=
    hworks.apart htidy
  obtain ⟨got, race', hstep⟩ := hconsumer.getting htidy hs harrive
  obtain ⟨c, r', hrests⟩ := hstep.own
  have hwards : ∀ v ∈ (Point.getting s collected r).wards, ∃ r', r = some r' ∧
      (v = r'.taker ∨ v = r'.closer) := by
    intro v hv
    cases r with
    | none => exact absurd hv List.not_mem_nil
    | some r' => exact ⟨r', rfl, by simpa [Point.wards] using hv⟩
  have hspared : Spared s t r _ _ w _ := spared_of_apart hq hapart hstep.yields.closed
    ⟨a, ha, hpoint⟩ hut (fun _ _ => by simp)
    (fun v hv => by
      obtain ⟨r', hr', rfl | rfl⟩ := hwards v hv
      · rcases (hconsumer.racing r' hr').1.taker with ⟨b, hb, hb', -⟩ | ⟨_, b, hb, hb', -⟩ <;>
          exact ⟨b, hb, by rw [hb']; rfl, by simp [hb'], by simp [hb']⟩
      · obtain ⟨b, hb, hb'⟩ := (hconsumer.racing r' hr').1.closer
        exact ⟨b, hb, by rw [hb']; rfl, by simp [hb'], fun _ => ⟨r', hr', rfl⟩⟩)
    (fun v b st q' hv hb => by
      rcases hv with rfl | hle
      · rw [hrests.point_eq hb]
        simp
      · rcases hstep.made v hle (Loop.lt_of_task? hb) with hv | hv <;>
        · rw [(hv.point_eq hb).1]
          simp)
    (fun h => by cases h)
  have hphase' : Phase s t race' _ reads _ :=
    hphase.spared hspared fun r hr => .inr (hstep.later r hr).1
  refine ⟨hworks.tidy htidy, hworks.sinks ▸ hs, hstaff.step hapart
    (fun _ _ _ => attends_of_rests hrests rfl) (fun v b hle hb _ => ?_), race', hstep.consumer,
    ?_, ?_⟩
  · rcases hstep.made v hle (Loop.lt_of_task? hb) with hv | hv <;>
      exact attends_of_rests (.inl hv) rfl
  · rw [hstep.yields.items, ← List.append_assoc, ← hstep.taken] at hphase'
    exact hphase'
  · rintro ⟨g, hg, hend⟩
    by_cases hgu : g = u
    · exact hstep.drained (hgu ▸ hend)
    · -- an earlier call has come to the end already
      obtain ⟨c', r'', e, he⟩ := hconsumer.only_getter hmem hg hstands.not_ended hgu
      have hend' : w.SawEnd g :=
        (sawEnd_iff he).2 ((sawEnd_iff (hapart.endedAt hgu rfl he)).1 hend)
      obtain ⟨-, hover, hempty⟩ := hdrained ⟨g, hg, hend'⟩
      refine ⟨?_, hstep.yields.closed.trans hover,
        (List.append_eq_nil_iff.1 (hstep.yields.items.symm.trans hempty)).2⟩
      cases hrace : race' with
      | none => rfl
      | some r'' =>
          rw [(hstep.later r'' hrace).2] at hover
          cases hover

/-- What does not concern the sink changes nothing. -/
theorem Flows.away (h : Flows s t gets reads w) (ha : Away s w w') : Flows s t gets reads w' := by
  obtain ⟨htidy, hs, hstaff, race, hconsumer, hphase, hdrained⟩ := h
  obtain ⟨hconsumer', htaken⟩ := hconsumer.frame ha.apart (fun _ _ _ _ _ => ⟨id, id⟩)
    (fun v b hb hsink _ => by
      obtain ⟨a, hva, -⟩ := ha.nobody v b hb hsink
      exact ⟨Loop.lt_of_task? hva, id⟩)
    fun _ hm => hm.elim
  have hphase' : Phase s t race _ reads w' := hphase.spared ha.spared fun r hr => .inl hr
  refine ⟨ha.tidy htidy, Nat.lt_of_lt_of_le hs ha.sinks, fun v b hvt hb hsink => ?_, race,
    hconsumer', ?_, ?_⟩
  · obtain ⟨a, hva, hsink'⟩ := ha.nobody v b hb hsink
    refine (hstaff v a hvt hva hsink').stays fun a' ha' => ?_
    cases hva.symm.trans ha'
    obtain ⟨b', hb', heases⟩ := ha.eases v a hva hsink'
    exact ⟨b', hb', heases.stays⟩
  · rw [htaken, ha.sink]
    exact hphase'
  · rintro ⟨g, hg, hend⟩
    rw [ha.sink]
    exact hdrained ⟨g, hg, hconsumer.sawEnd_back ha.apart hg ⟨id, id⟩ hend⟩

/-! ## Jobs -/

/-- The time limit of a tail that is looking for its pods is over. -/
theorem Flows.expire_tail (h : Flows s t gets reads w) {q : Point} (hq : TailAt s t q w)
    (hp : q.finds s) (hplain : ∀ a, w.loop.task? t = some a → a.wait.isPlain = true) :
    Flows s t gets reads (w.withLoop (·.expire t)) := by
  obtain ⟨htidy, hs, hstaff, race, hconsumer, hphase, hdrained⟩ := h
  let nobody := w.loop.tasks.length
  have hworks : Works nobody none (fun x => x = t ∨ w.loop.passesTo t x) w
      (w.withLoop (·.expire t)) := .expire
  have hapart : Apart s (· = nobody) _ w _ := hworks.apart htidy
  have hhit : ∀ x, x = t ∨ w.loop.passesTo t x → x = t := by
    rintro x (rfl | ⟨a, ha, hmem⟩)
    · rfl
    · rw [Wait.targets_of_isPlain (hplain a ha)] at hmem
      cases hmem
  have hold : ∀ v a, w.loop.task? v = some a → v ≠ nobody := fun _ _ => Loop.ne_next_of_task?
  have hnew : ∀ v b, (w.loop.expire t).task? v = some b → v < nobody := fun _ _ =>
    (w.loop.spares_expire t).lt
  have hother : ∀ v a, w.loop.task? v = some a → a.point ≠ q →
      ¬(v = t ∨ w.loop.passesTo t v) := by
    intro v a ha hpoint hv
    rw [hhit v hv] at ha
    exact hpoint (hq.point_eq ha)
  have hspared : Spared s t race _ _ w (w.withLoop (·.expire t)) := {
    apart := hapart
    closed := rfl
    tail := Nat.ne_of_lt hq.lt
    miss := fun p ht hnot => by
      obtain ⟨a, ha, hpoint, -⟩ := ht
      exact absurd (hpoint ▸ hq.point_eq ha ▸ hp) hnot
    streams := fun v a st q' ha hpoint _ => ⟨hold v a ha, fun _ => hother v a ha fun h => by
      rw [← h, hpoint] at hp
      exact hp⟩
    made := fun v b _ _ hb _ _ => ⟨hnew v b hb, Nat.ne_of_lt (hnew v b hb)⟩
    closers := fun v hv _ _ => by
      obtain ⟨a, ha, hpoint, -⟩ := id hv
      refine hapart.standsAt (hold v a ha) (hother v a ha fun h => ?_) rfl hv
      rw [← h, hpoint] at hp
      exact hp }
  refine flows_of_other hstaff hconsumer hdrained hapart (hworks.tidy htidy)
    hs ?_ ?_ ?_ ?_ ?_ (List.append_nil _).symm ?_ (fun h => ⟨h, rfl⟩)
  · intro v b hb _ hb'
    refine ⟨hold v b hb, hother v b hb fun h => ?_⟩
    rw [h, hq.consumer] at hb'
    cases hb'
  · exact fun v b hle hb => absurd (hnew v b hb) (Nat.not_lt_of_le hle)
  · exact fun b hb => absurd (hnew _ b hb) (Nat.lt_irrefl _)
  · exact fun b _ hb => absurd (hnew _ b hb) (Nat.lt_irrefl _)
  · rintro ⟨a, ha, -⟩
    exact absurd rfl (hold _ a ha)
  · rw [List.append_nil]
    exact hphase.spared hspared fun r hr => .inl hr

theorem Tidy.limit_of_expires (h : w.Tidy) {timer : TimerId} (he : w.loop.expires timer v)
    {a : Task Point Report} (ha : w.loop.task? v = some a) (hsink : a.point.sink? = some s) :
    a.ending.isSome = true ∨ a.limit ≠ none := by
  rcases h.limits timer v he with ⟨b, hb, hnone, -⟩ | ⟨b, hb, hknown⟩
  · cases ha.symm.trans hb
    rw [hsink] at hnone
    cases hnone
  · cases ha.symm.trans hb
    exact hknown.imp_right fun ⟨limit, hlimit, _⟩ => by simp [hlimit]

/-- A time limit that ends for a task at the sink is that of the tail, which is looking for its
pods. Everybody else has none, or has ended. -/
theorem Flows.expire (h : Flows s t gets reads w)
    (hknown : ∀ a, w.loop.task? v = some a → a.point.sink? = some s →
      a.ending.isSome = true ∨ a.limit ≠ none) :
    Flows s t gets reads (w.withLoop (·.expire v)) := by
  obtain ⟨htidy, hs, hstaff, race, hconsumer, hphase, hdrained⟩ := id h
  obtain ⟨q, hq⟩ := hphase.tail
  have hover : ∀ p e, w.loop.EndedAt v p e → Flows s t gets reads (w.withLoop (·.expire v)) := by
    intro p e hended
    have hmild : Mild none w (w.withLoop (·.expire v)) := .of_eq hended.gentle_expire rfl rfl
    exact h.away (hmild.away htidy (by simp))
  by_cases hsink : ∀ a, w.loop.task? v = some a → a.point.sink? ≠ some s
  · exact h.away (w.away_expire htidy hsink)
  · obtain ⟨a, ha, hsink⟩ : ∃ a, w.loop.task? v = some a ∧ a.point.sink? = some s := by
      simpa using hsink
    by_cases hvt : v = t
    · subst hvt
      rcases hq.task with ⟨e, hended⟩ | ⟨-, hstands | ⟨hp, b, hb, -, -, hplain⟩⟩
      · exact hover q e hended
      · obtain ⟨-, hending, hsteady⟩ := hstands.point_eq ha
        have hlimit := hknown a ha hsink
        rw [hending, hsteady.limit] at hlimit
        simp at hlimit
      · refine h.expire_tail hq hp fun a' ha' => ?_
        cases hb.symm.trans ha'
        exact hplain
    · obtain ⟨b, hb, -, hlimit, hplain⟩ := hstaff v a hvt ha hsink
      cases ha.symm.trans hb
      have hended := (hknown a ha hsink).resolve_right fun h => h hlimit
      obtain ⟨e, hending⟩ := Option.isSome_iff_exists.1 hended
      exact hover _ e ⟨a, ha, rfl, hending, hplain hended, hlimit⟩

/-- A task goes on. -/
theorem Flows.resume (h : Flows s t gets reads w)
    (harrive : w.loop.arrive u = some (l, p, arrival)) :
    Flows s t gets (reads ++ w.readsAt s (.resume u))
      ({ w with loop := l }.runPoint u p arrival) := by
  have hother : (∀ st q, p = .stream st q → st.sink ≠ s) → w.readsAt s (.resume u) = [] := by
    intro hnot
    rw [readsAt, harrive]
    split
    · next st q heq =>
        cases heq
        exact if_neg (hnot st q rfl)
    · rfl
  by_cases hp : p.sink? = some s
  · by_cases hut : u = t
    · subst hut
      obtain ⟨-, -, -, race, -, hphase, -⟩ := id h
      obtain ⟨q, hq⟩ := hphase.tail
      obtain ⟨a, ha, -, rfl, -, -⟩ := Loop.arrive_spec harrive
      rw [hother fun st q' hpoint => ?_, List.append_nil]
      · exact h.tail harrive
      · exact absurd rfl (hq.ne_of_helper ha (by rw [hpoint]; rfl))
    · obtain ⟨a, ha, -, hpoint, -, -⟩ := Loop.arrive_spec harrive
      obtain ⟨a', ha', hserves, -⟩ := h.staff u a hut ha (hpoint ▸ hp)
      cases ha.symm.trans ha'
      rw [hpoint] at hserves
      cases p with
      | stream st q =>
          have hst : st.sink = s := Option.some.inj hp
          obtain ⟨rfl, hflows⟩ := h.stream hst harrive
          rw [readsAt, harrive]
          dsimp only
          rw [if_pos hst]
          exact hflows
      | taking s' =>
          cases hp
          rw [hother (fun _ _ h => by cases h), List.append_nil]
          exact h.taking harrive
      | awaitingClose s' =>
          cases hp
          rw [hother (fun _ _ h => by cases h), List.append_nil]
          exact h.awaitClose harrive
      | getting s' collected r =>
          cases hp
          rw [hother (fun _ _ h => by cases h), List.append_nil]
          exact h.getting harrive
      | _ => cases hserves
  · rw [hother fun st q heq hst => hp (heq ▸ congrArg some hst), List.append_nil]
    exact h.away (w.away_resume u h.tidy harrive hp)

/-- A job is run. -/
theorem Flows.run (h : Flows s t gets reads w) (job : Job) :
    Flows s t gets (reads ++ w.readsAt s job) (w.run job) := by
  rcases w.run_cases job with ⟨u, l, p, arrival, rfl, harrive, hrun⟩ | ⟨hnone, hcases⟩
  · rw [hrun]
    exact h.resume harrive
  · have hreads : w.readsAt s job = [] := by
      cases job with
      | resume u => rw [readsAt, hnone u rfl]
      | notify | tick | alarm => rfl
    rw [hreads, List.append_nil]
    rcases hcases with ⟨timer, v, he, hrun⟩ | hmild
    · have hcancel : Mild none w (w.withLoop (·.cancelTimer timer)) := w.mild_cancelTimer timer
      rw [hrun]
      exact (h.away (hcancel.away h.tidy (by simp))).expire fun a ha =>
        h.tidy.limit_of_expires he ha
    · exact h.away (hmild.away h.tidy (by simp))

end World

end LiveCluster.Simulation
