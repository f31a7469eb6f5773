import LiveCluster.Proofs.Tail.Sharing
import Mathlib.Data.List.Basic

/-!
# What a consumer gets

A consumer gets events out of a sink by one call after another. A call that has to wait
has two tasks race, and the one that takes an event may have it before the call hears of
it. So an event that has left the sink has either been handed to the consumer or is `held`
by the race of its present call. Of the tasks that wait to take an event only the one of
that race goes on as planned. Those of earlier races have been cancelled and take nothing.
-/

namespace LiveCluster.Simulation

open Loop (StandsAt EndedAt Doomed Steady TaskEases TaskStays Gentle)

namespace World

/-- The event that has been taken in a race. -/
def held (w : World) (race : Race) : List LogEvent :=
  match w.loop.ending? race.taker with
  | some (.returned (.event (some event))) => [event]
  | _ => []

/-- The events that a call for events has handed to the consumer. -/
def handedBy (w : World) (g : TaskId) : List LogEvent :=
  match w.loop.task? g with
  | none => []
  | some a => match a.ending, a.point with
    | some (.returned (.event event)), _ => event.toList
    | some (.returned (.events events)), _ => events
    | _, .getting _ (some events) _ => events
    | _, _ => []

/-- The event that a call for events has yet to hear of. -/
def heldBy (w : World) (g : TaskId) : List LogEvent :=
  match w.loop.task? g with
  | none => []
  | some a => match a.ending, a.point with
    | none, .getting _ _ (some race) => w.held race
    | _, _ => []

/-- All events that the calls for events have handed to the consumer. -/
def handed (w : World) (gets : List TaskId) : List LogEvent :=
  gets.flatMap w.handedBy

/-- All events that have left the sink. -/
def taken (w : World) (gets : List TaskId) : List LogEvent :=
  gets.flatMap fun g => w.handedBy g ++ w.heldBy g

variable {w w' : World} {s : SinkId} {g u v : TaskId} {gets : List TaskId}
  {collected : Option (List LogEvent)} {race : Option Race}

theorem handedBy_stands (h : w.loop.StandsAt g (.getting s collected race)) :
    w.handedBy g = collected.getD [] := by
  obtain ⟨a, ha, hpoint, hending, -⟩ := h
  rw [handedBy, ha]
  dsimp only
  rw [hending, hpoint]
  cases collected <;> rfl

theorem heldBy_stands (h : w.loop.StandsAt g (.getting s collected race)) :
    w.heldBy g = race.elim [] w.held := by
  obtain ⟨a, ha, hpoint, hending, -⟩ := h
  rw [heldBy, ha]
  dsimp only
  rw [hending, hpoint]
  cases race <;> rfl

theorem heldBy_ended {p : Point} {e : Ending Report} (h : w.loop.EndedAt g p e) :
    w.heldBy g = [] := by
  obtain ⟨a, ha, -, hending, -⟩ := h
  rw [heldBy, ha]
  dsimp only
  rw [hending]

theorem handedBy_event {p : Point} {event : Option LogEvent}
    (h : w.loop.EndedAt g p (.returned (.event event))) : w.handedBy g = event.toList := by
  obtain ⟨a, ha, -, hending, -⟩ := h
  rw [handedBy, ha]
  dsimp only
  rw [hending]

theorem handedBy_events {p : Point} {events : List LogEvent}
    (h : w.loop.EndedAt g p (.returned (.events events))) : w.handedBy g = events := by
  obtain ⟨a, ha, -, hending, -⟩ := h
  rw [handedBy, ha]
  dsimp only
  rw [hending]

theorem handedBy_congr {p : Point} {e : Ending Report} (h : w.loop.EndedAt g p e)
    (h' : w'.loop.EndedAt g p e) : w'.handedBy g = w.handedBy g := by
  obtain ⟨a, ha, hpoint, hending, -⟩ := h
  obtain ⟨b, hb, hpoint', hending', -⟩ := h'
  rw [handedBy, handedBy, ha, hb]
  dsimp only
  rw [hpoint, hending, hpoint', hending']

theorem held_of_stands {race : Race} {p : Point} (h : w.loop.StandsAt race.taker p) :
    w.held race = [] := by
  rw [held, h.ending?]

theorem held_of_ended {race : Race} {p : Point} {event : LogEvent}
    (h : w.loop.EndedAt race.taker p (.returned (.event (some event)))) :
    w.held race = [event] := by
  rw [held, h.ending?]

/-- Whether a race goes on, or has been won by an event. -/
structure Races (s : SinkId) (w : World) (race : Race) : Prop where
  taker : w.loop.StandsAt race.taker (.taking s) ∨
    ∃ event, w.loop.EndedAt race.taker (.taking s) (.returned (.event (some event)))
  closer : ∃ a, w.loop.task? race.closer = some a ∧ a.point = .awaitingClose s

/-- What is known of the consumer of a sink, by its calls and the race of the last of them if that
goes on and has one. -/
structure Consumer (s : SinkId) (gets : List TaskId) (race : Option Race) (w : World) :
    Prop where
  getters : ∀ g ∈ gets, (∃ collected, w.loop.StandsAt g (.getting s collected race)) ∨
    ∃ collected r e, w.loop.EndedAt g (.getting s collected r) e
  known : ∀ g a collected r, w.loop.task? g = some a → a.point = .getting s collected r →
    g ∈ gets
  past : ∀ g ∈ gets.dropLast, w.loop.ended g = true
  racing : ∀ r, race = some r → Races s w r ∧
    ∃ g ∈ gets, ∃ collected, w.loop.StandsAt g (.getting s collected race)
  takers : ∀ v a, w.loop.task? v = some a → a.point = .taking s → a.ending = none →
    (∀ r, race = some r → v ≠ r.taker) → Doomed a

/-- The call that goes on is the last. -/
theorem Consumer.last (h : Consumer s gets race w) (hg : g ∈ gets)
    (hgoing : w.loop.ended g = false) : gets = gets.dropLast ++ [g] := by
  have hne : gets ≠ [] := List.ne_nil_of_mem hg
  have hsplit := List.dropLast_concat_getLast hne
  rw [← hsplit] at hg
  rcases List.mem_append.1 hg with hpast | hlast
  · rw [h.past g hpast] at hgoing
    cases hgoing
  · rw [List.mem_singleton.1 hlast]
    exact hsplit.symm

theorem Consumer.ended_of_past (h : Consumer s gets race w) (hv : v ∈ gets.dropLast) :
    ∃ collected r e, w.loop.EndedAt v (.getting s collected r) e := by
  rcases h.getters v (List.dropLast_subset gets hv) with ⟨c, hstands⟩ | hended
  · have hended := h.past v hv
    rw [hstands.not_ended] at hended
    cases hended
  · exact hended

theorem Consumer.ne_of_past (h : Consumer s gets race w) (hv : v ∈ gets.dropLast)
    (hgoing : w.loop.ended g = false) : v ≠ g := by
  rintro rfl
  rw [h.past v hv] at hgoing
  cases hgoing

/-- Of what has left the sink at most one event has not been handed to the consumer. -/
theorem Consumer.taken_split (h : Consumer s gets race w) :
    ∃ held, held.length ≤ 1 ∧ w.taken gets = w.handed gets ++ held ∧
      (race = none → held = []) := by
  rcases List.eq_nil_or_concat gets with rfl | ⟨past, g, rfl⟩
  · exact ⟨[], Nat.zero_le 1, rfl, fun _ => rfl⟩
  · rw [List.concat_eq_append] at h ⊢
    have hpast : ∀ v ∈ past, w.handedBy v ++ w.heldBy v = w.handedBy v := by
      intro v hv
      obtain ⟨c, r, e, hended⟩ := h.ended_of_past (v := v) (by rwa [List.dropLast_concat])
      rw [heldBy_ended hended, List.append_nil]
    refine ⟨w.heldBy g, ?_, ?_, ?_⟩
    · rcases h.getters g (by simp) with ⟨c, hc⟩ | ⟨c, r, e, he⟩
      · rw [heldBy_stands hc]
        cases race with
        | none => exact Nat.zero_le 1
        | some r =>
            show (w.held r).length ≤ 1
            unfold held
            split
            · exact Nat.le_refl 1
            · exact Nat.zero_le 1
      · rw [heldBy_ended he]
        exact Nat.zero_le 1
    · rw [taken, handed, List.flatMap_append, List.flatMap_append, List.flatMap_congr hpast]
      simp
    · rintro rfl
      rcases h.getters g (by simp) with ⟨c, hc⟩ | ⟨c, r, e, he⟩
      · exact heldBy_stands hc
      · exact heldBy_ended he

variable {moved hit : TaskId → Prop}

/-- Whoever is in a race that is not touched, it stays as it is. -/
theorem Races.apart {r : Race} (h : Races s w r) (ha : Apart s moved hit w w')
    (htaker : ¬moved r.taker ∧ ¬hit r.taker)
    (hcloser : moved r.closer → ∃ b, w'.loop.task? r.closer = some b ∧ b.point = .awaitingClose s) :
    Races s w' r ∧ w'.held r = w.held r := by
  have hcloser' : ∃ b, w'.loop.task? r.closer = some b ∧ b.point = .awaitingClose s := by
    by_cases hm : moved r.closer
    · exact hcloser hm
    · obtain ⟨a, hr, hpoint⟩ := h.closer
      obtain ⟨b, hb, hstays, -⟩ := ha.stays r.closer a hm hr (by rw [hpoint]; rfl)
      exact ⟨b, hb, hstays.point.trans hpoint⟩
  rcases h.taker with hstands | ⟨event, hended⟩
  · have hstands' := ha.standsAt htaker.1 htaker.2 rfl hstands
    exact ⟨⟨.inl hstands', hcloser'⟩, by rw [held_of_stands hstands, held_of_stands hstands']⟩
  · have hended' := ha.endedAt htaker.1 rfl hended
    exact ⟨⟨.inr ⟨event, hended'⟩, hcloser'⟩,
      by rw [held_of_ended hended, held_of_ended hended']⟩

/-- What was taken stays taken, and what the last call has taken now is added. -/
theorem Consumer.taken_append (h : Consumer s gets race w) (ha : Apart s moved hit w w')
    (hpast : ∀ v ∈ gets.dropLast, ¬moved v) (hg : g ∈ gets) (hgoing : w.loop.ended g = false)
    {got : List LogEvent}
    (hgot : w'.handedBy g ++ w'.heldBy g = w.handedBy g ++ w.heldBy g ++ got) :
    w'.taken gets = w.taken gets ++ got := by
  have hsame : ∀ v ∈ gets.dropLast,
      w'.handedBy v ++ w'.heldBy v = w.handedBy v ++ w.heldBy v := by
    intro v hv
    obtain ⟨c, r, e, hended⟩ := h.ended_of_past hv
    have hended' := ha.endedAt (hpast v hv) rfl hended
    rw [handedBy_congr hended hended', heldBy_ended hended, heldBy_ended hended']
  rw [taken, taken, h.last hg hgoing, List.flatMap_append, List.flatMap_append, List.append_assoc,
    List.flatMap_congr hsame]
  simpa using hgot

theorem Consumer.taken_eq (h : Consumer s gets race w) (ha : Apart s moved hit w w')
    (hgets : ∀ g ∈ gets, ¬moved g ∧ ¬hit g)
    (hheld : ∀ r, race = some r → w'.held r = w.held r) : w'.taken gets = w.taken gets := by
  refine List.flatMap_congr fun g hg => ?_
  obtain ⟨hm, hmiss⟩ := hgets g hg
  rcases h.getters g hg with ⟨c, hc⟩ | ⟨c, r, e, he⟩
  · have hc' := ha.standsAt hm hmiss rfl hc
    rw [handedBy_stands hc, handedBy_stands hc', heldBy_stands hc, heldBy_stands hc']
    cases race with
    | none => rfl
    | some r => exact congrArg _ (hheld r rfl)
  · have he' := ha.endedAt hm rfl he
    rw [handedBy_congr he he', heldBy_ended he, heldBy_ended he']

/-- Who is where a call for events is, and was not moved, is one of the calls. -/
theorem Consumer.known_back {b : Task Point Report} {r : Option Race} (h : Consumer s gets race w)
    (ha : Apart s moved hit w w') (hm : ¬moved v) (hlt : v < w.loop.tasks.length)
    (hb : w'.loop.task? v = some b) (hpoint : b.point = .getting s collected r) : v ∈ gets := by
  obtain ⟨a, hva, hstays, -⟩ := ha.back hm hlt hb (by rw [hpoint]; rfl)
  exact h.known v a collected r hva (hstays.point.symm.trans hpoint)

/-- Who takes events and was neither moved nor hit is as doomed as before. -/
theorem Consumer.doomed_back {b : Task Point Report} (h : Consumer s gets race w)
    (ha : Apart s moved hit w w') (hm : ¬moved v) (hmiss : ¬hit v)
    (hlt : v < w.loop.tasks.length) (hb : w'.loop.task? v = some b) (hpoint : b.point = .taking s)
    (hending : b.ending = none) (hother : ∀ r, race = some r → v ≠ r.taker) : Doomed b := by
  obtain ⟨a, hva, hstays, heases⟩ := ha.back hm hlt hb (by rw [hpoint]; rfl)
  have hending' := hstays.ending.symm.trans hending
  exact (h.takers v a hva (hstays.point.symm.trans hpoint) hending' hother).eases
    (heases hmiss hending')

theorem Consumer.past_stays (h : Consumer s gets race w) (ha : Apart s moved hit w w')
    (hpast : ∀ v ∈ gets.dropLast, ¬moved v) : ∀ v ∈ gets.dropLast, w'.loop.ended v = true := by
  intro v hv
  obtain ⟨c, r, e, he⟩ := h.ended_of_past hv
  exact (ha.endedAt (hpast v hv) rfl he).ended

/-- A step of someone who gets no events. -/
theorem Consumer.frame (h : Consumer s gets race w) (ha : Apart s moved hit w w')
    (hkept : ∀ v a, w.loop.task? v = some a → a.point.sink? = some s →
      a.point.isConsumer = true → ¬moved v ∧ ¬hit v)
    (hnew : ∀ v b, w'.loop.task? v = some b → b.point.sink? = some s →
      b.point.isConsumer = true → v < w.loop.tasks.length ∧ ¬moved v)
    (hclosers : ∀ v, moved v → (∃ a, w.loop.task? v = some a ∧ a.point = .awaitingClose s) →
      ∃ b, w'.loop.task? v = some b ∧ b.point = .awaitingClose s) :
    Consumer s gets race w' ∧ w'.taken gets = w.taken gets := by
  have hstands : ∀ v p, p.sink? = some s → p.isConsumer = true → w.loop.StandsAt v p →
      w'.loop.StandsAt v p := by
    intro v p hp hconsumer hv
    obtain ⟨a, hva, rfl, -⟩ := id hv
    exact ha.standsAt (hkept v a hva hp hconsumer).1 (hkept v a hva hp hconsumer).2 hp hv
  have hended : ∀ v p e, p.sink? = some s → p.isConsumer = true → w.loop.EndedAt v p e →
      w'.loop.EndedAt v p e := by
    intro v p e hp hconsumer hv
    obtain ⟨a, hva, rfl, -⟩ := id hv
    exact ha.endedAt (hkept v a hva hp hconsumer).1 hp hv
  have hraces : ∀ r, Races s w r → Races s w' r ∧ w'.held r = w.held r := by
    intro r hr
    refine hr.apart ha ?_ fun hm => hclosers _ hm hr.closer
    rcases hr.taker with ⟨a, hva, hpoint, -⟩ | ⟨_, a, hva, hpoint, -⟩ <;>
      exact hkept _ a hva (by rw [hpoint]; rfl) (by rw [hpoint]; rfl)
  refine ⟨{ getters := ?_, known := ?_, past := ?_, racing := ?_, takers := ?_ }, ?_⟩
  · intro g hg
    refine (h.getters g hg).imp (fun ⟨c, hc⟩ => ⟨c, hstands g _ rfl rfl hc⟩) ?_
    exact fun ⟨c, r, e, he⟩ => ⟨c, r, e, hended g _ e rfl rfl he⟩
  · intro g b c r hb hpoint
    obtain ⟨hlt, hm⟩ := hnew g b hb (by rw [hpoint]; rfl) (by rw [hpoint]; rfl)
    exact h.known_back ha hm hlt hb hpoint
  · intro g hg
    obtain ⟨c, r, e, he⟩ := h.ended_of_past hg
    exact (hended g _ e rfl rfl he).ended
  · intro r hr
    obtain ⟨hraces', g, hg, c, hc⟩ := h.racing r hr
    exact ⟨(hraces r hraces').1, g, hg, c, hstands g _ rfl rfl hc⟩
  · intro v b hb hpoint hending hother
    obtain ⟨hlt, hm⟩ := hnew v b hb (by rw [hpoint]; rfl) (by rw [hpoint]; rfl)
    obtain ⟨a, hva, hstays, heases⟩ := ha.back hm hlt hb (by rw [hpoint]; rfl)
    have hpoint' := hstays.point.symm.trans hpoint
    have hending' := hstays.ending.symm.trans hending
    have hmiss := (hkept v a hva (by rw [hpoint']; rfl) (by rw [hpoint']; rfl)).2
    exact (h.takers v a hva hpoint' hending' hother).eases (heases hmiss hending')
  · refine h.taken_eq ha (fun g hg => ?_) fun r hr => (hraces r (h.racing r hr).1).2
    rcases h.getters g hg with ⟨c, a, hga, hpoint, -⟩ | ⟨c, r, e, a, hga, hpoint, -⟩ <;>
      exact hkept g a hga (by rw [hpoint]; rfl) (by rw [hpoint]; rfl)

/-! ## A step of a task that takes -/

/-- Events leave a sink from its front. -/
structure Yields (s : SinkId) (got : List LogEvent) (w w' : World) : Prop where
  items : (w.sink s).channel.items = got ++ (w'.sink s).channel.items
  closed : (w'.sink s).closed = (w.sink s).closed

/-- A task that takes and was not cancelled takes the first event, or waits on. -/
theorem runTaking_on (hs : s < w.sinks.length) (hu : w.loop.StandsAt u (.taking s)) :
    (w.runTaking u s .on).loop.tasks.length = w.loop.tasks.length ∧
      ((w.runTaking u s .on).loop.StandsAt u (.taking s) ∧ Yields s [] w (w.runTaking u s .on) ∨
        ∃ event, (w.runTaking u s .on).loop.EndedAt u (.taking s)
            (.returned (.event (some event))) ∧ Yields s [event] w (w.runTaking u s .on)) := by
  unfold runTaking
  rcases takeEvent?_cases hs with ⟨htake, hitems⟩ |
      ⟨v, event, htake, hloop, hsinks, hitems, hclosed⟩
  · rw [htake]
    refine ⟨Loop.length_modify .., .inl ⟨hu.suspend _, ?_⟩⟩
    have hsink := sink_setSink hs { w.sink s with
      channel := { (w.sink s).channel with takers := (w.sink s).channel.takers ++ [u] } }
    exact ⟨(congrArg (·.channel.items) hsink).symm, congrArg (·.closed) hsink⟩
  · rw [htake]
    exact ⟨(v.loop.spares_finish u _).length.trans hloop.length,
      .inr ⟨event, (hu.gentle hloop).finish _, hitems, hclosed⟩⟩

theorem runTaking_cancelled (hs : s < w.sinks.length) {a : Task Point Report}
    (ha : w.loop.task? u = some a) (woken : Bool) :
    (w.runTaking u s (.cancelled woken)).loop.tasks.length = w.loop.tasks.length ∧
      (w.runTaking u s (.cancelled woken)).loop.EndedAt u a.point .cancelled ∧
      Yields s [] w (w.runTaking u s (.cancelled woken)) := by
  have hleave := Channel.gentle_leaveTakers (w.sink s).channel w.loop u woken
  obtain ⟨b, hb, hab⟩ := hleave.eases u a (fun h => h) ha
  refine ⟨(Loop.spares_finish _ u _).length.trans hleave.length,
    hab.point ▸ .of_finish hb _, ?_⟩
  have hsink := sink_setSink hs { w.sink s with
    channel := ((w.sink s).channel.leaveTakers w.loop u woken).1 }
  refine ⟨?_, congrArg (·.closed) hsink⟩
  rw [List.nil_append]
  exact ((congrArg (·.channel.items) hsink).trans (Channel.leaveTakers_items ..)).symm

theorem Consumer.taker_moves (h : Consumer s gets race w) (ha : Apart s (· = u) hit w w')
    (hmiss : ∀ v, ¬hit v) (hlength : w'.loop.tasks.length = w.loop.tasks.length)
    (hu : ∃ a, w.loop.task? u = some a ∧ a.point = .taking s)
    (hown : ∃ b, w'.loop.task? u = some b ∧ b.point = .taking s ∧
      (b.ending = none → ∃ r, race = some r ∧ u = r.taker))
    (hracer : ∀ r, race = some r → u = r.taker → w'.loop.StandsAt u (.taking s) ∨
      ∃ event, w'.loop.EndedAt u (.taking s) (.returned (.event (some event)))) :
    Consumer s gets race w' ∧ ∀ g ∈ gets, g ≠ u := by
  obtain ⟨a, hua, hupoint⟩ := hu
  obtain ⟨b, hub, hupoint', hugoing⟩ := hown
  have hnot : ∀ v, (∃ a, w.loop.task? v = some a ∧ a.point ≠ .taking s) → v ≠ u := by
    rintro v ⟨a', hv, hpoint⟩ rfl
    cases hv.symm.trans hua
    exact hpoint hupoint
  have hgets : ∀ g ∈ gets, g ≠ u := by
    intro g hg
    refine hnot g ?_
    rcases h.getters g hg with ⟨c, a, hga, hpoint, -⟩ | ⟨c, r, e, a, hga, hpoint, -⟩ <;>
      exact ⟨a, hga, by simp [hpoint]⟩
  refine ⟨{ getters := ?_, known := ?_, past := ?_, racing := ?_, takers := ?_ }, hgets⟩
  · intro g hg
    refine (h.getters g hg).imp ?_ ?_
    · exact fun ⟨c, hc⟩ => ⟨c, ha.standsAt (hgets g hg) (hmiss g) rfl hc⟩
    · exact fun ⟨c, r, e, he⟩ => ⟨c, r, e, ha.endedAt (hgets g hg) rfl he⟩
  · intro g b' c r hgb hpoint
    have hne : g ≠ u := by
      rintro rfl
      cases hgb.symm.trans hub
      rw [hupoint'] at hpoint
      cases hpoint
    exact h.known_back ha hne (hlength ▸ Loop.lt_of_task? hgb) hgb hpoint
  · exact h.past_stays ha fun g hg => hgets g (List.dropLast_subset gets hg)
  · intro r hr
    obtain ⟨hraces, g, hg, c, hc⟩ := h.racing r hr
    refine ⟨?_, g, hg, c, ha.standsAt (hgets g hg) (hmiss g) rfl hc⟩
    have hcloser : r.closer ≠ u := by
      obtain ⟨a', hr', hpoint⟩ := hraces.closer
      exact hnot _ ⟨a', hr', by simp [hpoint]⟩
    by_cases hru : r.taker = u
    · obtain ⟨a', hr', hpoint⟩ := hraces.closer
      obtain ⟨b', hb', hstays, -⟩ := ha.stays _ a' hcloser hr' (by rw [hpoint]; rfl)
      exact ⟨hru ▸ hracer r hr hru.symm, b', hb', hstays.point.trans hpoint⟩
    · exact (hraces.apart ha ⟨hru, hmiss _⟩ fun hm => absurd hm hcloser).1
  · intro v b' hvb hpoint hending hother
    by_cases hvu : v = u
    · subst hvu
      cases hvb.symm.trans hub
      obtain ⟨r, hr, hur⟩ := hugoing hending
      exact absurd hur (hother r hr)
    · exact h.doomed_back ha hvu (hmiss v) (hlength ▸ Loop.lt_of_task? hvb) hvb hpoint hending
        hother

/-- A task that takes goes on: if it is in the present race it takes an event or waits, and if not
it ends. -/
theorem Consumer.taking (h : Consumer s gets race w) (ht : w.Tidy) (hs : s < w.sinks.length)
    {l : Loop Point Report} {arrival : Arrival}
    (harrive : w.loop.arrive u = some (l, .taking s, arrival)) :
    let w' := { w with loop := l }.runTaking u s arrival
    (∃ got, Yields s got w w' ∧ Consumer s gets race w' ∧ w'.taken gets = w.taken gets ++ got) ∧
      w'.loop.tasks.length = w.loop.tasks.length ∧
      w'.loop.Rests u (.taking s) := by
  intro w'
  have ha : Apart s (· = u) (· ∈ ([] : List TaskId)) w
      ({ w with loop := l }.runTaking u s arrival) := (w.works_resume u ht harrive).apart ht
  have hmiss : ∀ v, ¬v ∈ ([] : List TaskId) := fun _ => List.not_mem_nil
  obtain ⟨a, hua, hending, hpoint, harrival, hl⟩ := Loop.arrive_spec harrive
  have hlength : l.tasks.length = w.loop.tasks.length := (Loop.spares_arrive harrive).length
  by_cases hracer : ∃ r, race = some r ∧ u = r.taker
  · obtain ⟨r, rfl, rfl⟩ := hracer
    obtain ⟨hraces, g, hg, c, hc⟩ := h.racing r rfl
    have hstands : w.loop.StandsAt r.taker (.taking s) := by
      refine hraces.taker.resolve_right ?_
      rintro ⟨event, hended⟩
      rw [(hended.point_eq hua).2.1] at hending
      cases hending
    obtain ⟨-, rfl, hstands'⟩ := hstands.arrive harrive
    obtain ⟨htasks, hcases⟩ := runTaking_on (w := { w with loop := l }) hs hstands'
    have hnext := fun hown hcase => h.taker_moves ha hmiss (htasks.trans hlength)
      ⟨a, hua, hpoint⟩ hown fun _ _ _ => hcase
    rcases hcases with ⟨hstill, hyields⟩ | ⟨event, hended, hyields⟩
    · obtain ⟨b, hb, hb', -⟩ := id hstill
      obtain ⟨hconsumer, hgets⟩ := hnext ⟨b, hb, hb', fun _ => ⟨r, rfl, rfl⟩⟩ (.inl hstill)
      refine ⟨⟨[], ⟨hyields.items, hyields.closed⟩, hconsumer, ?_⟩, htasks.trans hlength,
        .inl hstill⟩
      rw [List.append_nil]
      refine h.taken_eq ha (fun g hg => ⟨hgets g hg, hmiss g⟩) fun r' hr' => ?_
      cases hr'
      rw [held_of_stands hstands, held_of_stands hstill]
    · obtain ⟨b, hb, hb', -⟩ := id hended
      obtain ⟨hconsumer, hgets⟩ :=
        hnext ⟨b, hb, hb', fun _ => ⟨r, rfl, rfl⟩⟩ (.inr ⟨event, hended⟩)
      refine ⟨⟨[event], ⟨hyields.items, hyields.closed⟩, hconsumer, ?_⟩, htasks.trans hlength,
        .inr ⟨_, hended⟩⟩
      refine h.taken_append ha (fun v hv => hgets v (List.dropLast_subset gets hv)) hg
        hc.not_ended ?_
      have hc' := ha.standsAt (hgets g hg) (hmiss g) rfl hc
      rw [handedBy_stands hc, handedBy_stands hc', heldBy_stands hc, heldBy_stands hc']
      show _ ++ held _ r = _ ++ held w r ++ [event]
      rw [held_of_stands hstands, held_of_ended hended, List.append_nil]
  · have hother : ∀ r, race = some r → u ≠ r.taker := fun r hr hur => hracer ⟨r, hr, hur⟩
    obtain ⟨woken, hcancelled⟩ := (h.takers u a hua hpoint hending hother).arrival w.loop
    obtain ⟨htasks, hended, hyields⟩ :=
      runTaking_cancelled (w := { w with loop := l }) hs hl woken
    rw [← hcancelled, ← harrival] at htasks hended hyields
    replace hended : w'.loop.EndedAt u (.taking s) .cancelled := hpoint ▸ hended
    obtain ⟨b, hb, hb', hover, -⟩ := id hended
    obtain ⟨hconsumer, hgets⟩ := h.taker_moves ha hmiss (htasks.trans hlength) ⟨a, hua, hpoint⟩
      ⟨b, hb, hb', fun hnone => by rw [hover] at hnone; cases hnone⟩
      fun r hr hur => absurd hur (hother r hr)
    refine ⟨⟨[], ⟨hyields.items, hyields.closed⟩, hconsumer, ?_⟩, htasks.trans hlength,
      .inr ⟨_, hended⟩⟩
    rw [List.append_nil]
    refine h.taken_eq ha (fun g hg => ⟨hgets g hg, hmiss g⟩) fun r hr => ?_
    -- nobody is in the race but its taker
    refine ((h.racing r hr).1.apart ha ⟨Ne.symm (hother r hr), hmiss _⟩ fun hm => ?_).2
    obtain ⟨a', hra, hpoint'⟩ := (h.racing r hr).1.closer
    rw [show r.closer = u from hm] at hra
    cases hra.symm.trans hua
    rw [hpoint] at hpoint'
    cases hpoint'

/-! ## A step of a call for events -/

/-- Whether a call for events has come to the end of its sink. -/
def SawEnd (w : World) (g : TaskId) : Prop :=
  w.loop.ending? g = some (.returned (.event none)) ∨
    ∃ events, w.loop.ending? g = some (.returned (.events events))

theorem not_sawEnd_of_standsAt {p : Point} (h : w.loop.StandsAt g p) : ¬w.SawEnd g := by
  rw [SawEnd, h.ending?]
  rintro (hnone | ⟨_, hnone⟩) <;> cases hnone

theorem sawEnd_iff {p : Point} {e : Ending Report} (h : w.loop.EndedAt g p e) :
    w.SawEnd g ↔ e = .returned (.event none) ∨ ∃ events, e = .returned (.events events) := by
  simp only [SawEnd, h.ending?, Option.some.injEq]

/-- A call for events has handed these to the consumer and has no race. If it has come to the end
of the sink, nothing is left there. -/
structure Sits (s : SinkId) (g : TaskId) (events : List LogEvent) (w : World) : Prop where
  stands : (∃ collected, w.loop.StandsAt g (.getting s collected none)) ∨
    ∃ collected r e, w.loop.EndedAt g (.getting s collected r) e
  handed : w.handedBy g = events
  drained : w.SawEnd g → (w.sink s).closed = true ∧ (w.sink s).channel.items = []

theorem Sits.taken {events : List LogEvent} (h : Sits s g events w) :
    w.handedBy g ++ w.heldBy g = events := by
  rw [h.handed]
  rcases h.stands with ⟨c, hc⟩ | ⟨c, r, e, he⟩
  · rw [heldBy_stands hc]
    exact List.append_nil _
  · rw [heldBy_ended he, List.append_nil]

theorem sits_got (hg : w.loop.StandsAt g (.getting s collected race)) (event : LogEvent) :
    (w.got g s event collected).loop.tasks.length = w.loop.tasks.length ∧
      (w.got g s event collected).sinks = w.sinks ∧
      Sits s g (collected.getD [] ++ [event]) (w.got g s event collected) := by
  cases collected with
  | none =>
      have hended := hg.finish (.returned (.event (some event)))
      refine ⟨(w.loop.spares_finish g _).length, rfl, .inr ⟨_, _, _, hended⟩,
        handedBy_event (w := w.report g _) hended, fun hend => ?_⟩
      rcases (sawEnd_iff (w := w.report g _) hended).1 hend with h | ⟨_, h⟩ <;> cases h
  | some events =>
      have hstands := hg.goOn (.getting s (some (events ++ [event])) none)
      exact ⟨(w.loop.spares_goOn g _).length, rfl, .inl ⟨_, hstands⟩,
        handedBy_stands (w := w.goOn g _) hstands,
        fun hend => absurd hend (not_sawEnd_of_standsAt (w := w.goOn g _) hstands)⟩

theorem sits_drained (hg : w.loop.StandsAt g (.getting s collected race))
    (hclosed : (w.sink s).closed = true) (hitems : (w.sink s).channel.items = []) :
    (w.drained g collected).loop.tasks.length = w.loop.tasks.length ∧
      (w.drained g collected).sinks = w.sinks ∧
      Sits s g (collected.getD []) (w.drained g collected) := by
  cases collected with
  | none =>
      have hended := hg.finish (.returned (.event none))
      exact ⟨(w.loop.spares_finish g _).length, rfl, .inr ⟨_, _, _, hended⟩,
        handedBy_event (w := w.report g _) hended, fun _ => ⟨hclosed, hitems⟩⟩
  | some events =>
      have hended := hg.finish (.returned (.events events))
      exact ⟨(w.loop.spares_finish g _).length, rfl, .inr ⟨_, _, _, hended⟩,
        handedBy_events (w := w.report g _) hended, fun _ => ⟨hclosed, hitems⟩⟩

theorem Races.taker_ne_closer {r : Race} (h : Races s w r) : r.taker ≠ r.closer := by
  obtain ⟨a, ha, hpoint⟩ := h.closer
  intro heq
  rcases h.taker with ⟨b, hb, hpoint', -⟩ | ⟨_, b, hb, hpoint', -⟩ <;>
  · rw [heq] at hb
    cases ha.symm.trans hb
    rw [hpoint] at hpoint'
    cases hpoint'

theorem Races.ne_getter {r : Race} (h : Races s w r)
    (hg : w.loop.StandsAt g (.getting s collected race)) : g ≠ r.taker ∧ g ≠ r.closer := by
  obtain ⟨a, ha, hpoint⟩ := h.closer
  constructor
  · rintro rfl
    rcases h.taker with hstands | ⟨_, b, hb, -, hending, -⟩
    · cases hg.unique hstands
    · rw [(hg.point_eq hb).2.1] at hending
      cases hending
  · rintro rfl
    rw [(hg.point_eq ha).1] at hpoint
    cases hpoint

/-- After a race nobody of it goes on as planned. -/
theorem endRace_spec (ht : w.Tidy) {r : Race} (hr : Races s w r)
    (hg : w.loop.StandsAt g (.getting s collected race)) :
    (w.endRace g r).loop.tasks.length = w.loop.tasks.length ∧
      (w.endRace g r).loop.StandsAt g (.getting s collected race) ∧
      ∀ b, (w.endRace g r).loop.task? r.taker = some b → b.ending = none → Doomed b := by
  obtain ⟨hgtaker, hgcloser⟩ := hr.ne_getter hg
  obtain ⟨a, ha, hpoint⟩ := hr.closer
  have hunwatch := w.loop.gentle_unwatch g [r.taker, r.closer]
  obtain ⟨b, hb, hab⟩ := hunwatch.eases r.closer a (fun h => h) ha
  have hplain : b.wait.isPlain = true := by
    rw [hab.wait.isPlain]
    exact (ht.waits r.closer a ha).isPlain (by rw [hpoint]; rfl)
      (by rw [hpoint]; simp [Point.sink?])
  have hcloser := Loop.spares_cancel_of_isPlain hb hplain
  have hfirst := (Loop.Spares.of_gentle hunwatch).trans hcloser
  show (((w.loop.unwatch g _).cancel r.closer).cancel r.taker).tasks.length = _ ∧ _
  rcases hr.taker with hstands | ⟨event, hended⟩
  · have hstands' := hstands.spares hfirst hr.taker_ne_closer
    obtain ⟨a', ha', hpoint', -⟩ := id hstands
    have hplain' : a'.wait.isPlain = true :=
      (ht.waits r.taker a' ha').isPlain (by rw [hpoint']; rfl) (by rw [hpoint']; simp [Point.sink?])
    obtain ⟨b', hb', hab'⟩ := hfirst.eases r.taker a' hr.taker_ne_closer ha'
    have hplain'' : b'.wait.isPlain = true := hab'.wait.isPlain.trans hplain'
    have htaker := Loop.spares_cancel_of_isPlain hb' hplain''
    obtain ⟨-, hending, hsteady⟩ := hstands'.point_eq hb'
    refine ⟨htaker.length.trans hfirst.length, (hg.spares hfirst hgcloser).spares htaker hgtaker,
      fun c hc hgoing => ?_⟩
    obtain ⟨c', hc', -, -, hdoomed⟩ := Loop.task?_cancel hb' hending hplain'' hsteady.limit
    cases hc.symm.trans hc'
    exact hdoomed
  · obtain ⟨a', ha', hpoint', hending, hplain', hlimit⟩ := id hended
    obtain ⟨b', hb', hab'⟩ := hfirst.eases r.taker a' hr.taker_ne_closer ha'
    have hended' : ((w.loop.unwatch g [r.taker, r.closer]).cancel r.closer).EndedAt r.taker
        (.taking s) (.returned (.event (some event))) :=
      ⟨b', hb', hab'.point.trans hpoint', hab'.ending.trans hending,
        hab'.wait.isPlain.trans hplain', hab'.limit.trans hlimit⟩
    rw [endRace, withLoop]
    dsimp only
    rw [hended'.cancel]
    refine ⟨hfirst.length, hg.spares hfirst hgcloser, fun c hc hgoing => ?_⟩
    rw [(hended'.point_eq hc).2.1] at hgoing
    cases hgoing

theorem Consumer.only_getter (h : Consumer s gets race w) (hg : g ∈ gets) (hv : v ∈ gets)
    (hgoing : w.loop.ended g = false) (hvg : v ≠ g) :
    ∃ collected r e, w.loop.EndedAt v (.getting s collected r) e := by
  refine h.ended_of_past ?_
  rw [h.last hg hgoing] at hv
  exact (List.mem_append.1 hv).resolve_right fun hlast => hvg (List.mem_singleton.1 hlast)

/-- A call for events that has no race any more. -/
theorem Consumer.getter_moves (h : Consumer s gets race w) (ha : Apart s (· = g) hit w w')
    (hg : w.loop.StandsAt g (.getting s collected race)) (hmem : g ∈ gets)
    (hlength : w'.loop.tasks.length = w.loop.tasks.length)
    (hhit : ∀ v, hit v → ∃ r, race = some r ∧ (v = r.taker ∨ v = r.closer))
    (hdoomed : ∀ r, race = some r → ∀ b, w'.loop.task? r.taker = some b → b.ending = none →
      Doomed b)
    (hnow : (∃ collected, w'.loop.StandsAt g (.getting s collected none)) ∨
      ∃ collected r e, w'.loop.EndedAt g (.getting s collected r) e) :
    Consumer s gets none w' where
  getters v hv := by
    by_cases hvg : v = g
    · exact hvg ▸ hnow
    · obtain ⟨c, r, e, he⟩ := h.only_getter hmem hv hg.not_ended hvg
      exact .inr ⟨c, r, e, ha.endedAt hvg rfl he⟩
  known v b c r hvb hpoint := by
    by_cases hvg : v = g
    · exact hvg ▸ hmem
    · exact h.known_back ha hvg (hlength ▸ Loop.lt_of_task? hvb) hvb hpoint
  past := h.past_stays ha fun _ hv => h.ne_of_past hv hg.not_ended
  racing r hr := by cases hr
  takers v b hvb hpoint hending _ := by
    have hvg : v ≠ g := by
      rintro rfl
      rcases hnow with ⟨c, hc⟩ | ⟨c, r, e, he⟩
      · rw [(hc.point_eq hvb).1] at hpoint
        cases hpoint
      · rw [(he.point_eq hvb).1] at hpoint
        cases hpoint
    have hlt := hlength ▸ Loop.lt_of_task? hvb
    by_cases htaker : ∃ r, race = some r ∧ v = r.taker
    · obtain ⟨r, hr, rfl⟩ := htaker
      exact hdoomed r hr b hvb hending
    · have hother : ∀ r, race = some r → v ≠ r.taker := fun r hr hv => htaker ⟨r, hr, hv⟩
      refine h.doomed_back ha hvg (fun hv => ?_) hlt hvb hpoint hending hother
      obtain ⟨r, hr, hv | hv⟩ := hhit v hv
      · exact hother r hr hv
      · -- the other one in the race takes no events
        obtain ⟨a, ha', hcloser⟩ := (h.racing r hr).1.closer
        obtain ⟨b', hb', hstays⟩ := ha.stays v a hvg (hv ▸ ha') (by rw [hcloser]; rfl)
        cases hvb.symm.trans hb'
        cases hcloser.symm.trans (hstays.1.point.symm.trans hpoint)

/-- A call for events has two tasks race that were made for it. -/
theorem Consumer.race_begins (h : Consumer s gets none w) (ha : Apart s (· = g) hit w w')
    (hmiss : ∀ v, ¬hit v) (hg : w.loop.StandsAt g (.getting s collected none)) (hmem : g ∈ gets)
    {r : Race} (htaker : w'.loop.StandsAt r.taker (.taking s))
    (hcloser : w'.loop.StandsAt r.closer (.awaitingClose s))
    (hnow : w'.loop.StandsAt g (.getting s collected (some r)))
    (hnew : ∀ v, w.loop.tasks.length ≤ v → v < w'.loop.tasks.length →
      v = r.taker ∨ v = r.closer) : Consumer s gets (some r) w' where
  getters v hv := by
    by_cases hvg : v = g
    · exact .inl ⟨collected, hvg ▸ hnow⟩
    · obtain ⟨c, r', e, he⟩ := h.only_getter hmem hv hg.not_ended hvg
      exact .inr ⟨c, r', e, ha.endedAt hvg rfl he⟩
  known v b c r' hvb hpoint := by
    by_cases hvg : v = g
    · exact hvg ▸ hmem
    · by_cases hlt : v < w.loop.tasks.length
      · exact h.known_back ha hvg hlt hvb hpoint
      · rcases hnew v (Nat.le_of_not_lt hlt) (Loop.lt_of_task? hvb) with rfl | rfl
        · rw [(htaker.point_eq hvb).1] at hpoint
          cases hpoint
        · rw [(hcloser.point_eq hvb).1] at hpoint
          cases hpoint
  past := h.past_stays ha fun _ hv => h.ne_of_past hv hg.not_ended
  racing r' hr' := by
    cases hr'
    obtain ⟨b, hb, hpoint, -⟩ := hcloser
    exact ⟨⟨.inl htaker, b, hb, hpoint⟩, g, hmem, collected, hnow⟩
  takers v b hvb hpoint hending hother := by
    have hvg : v ≠ g := by
      rintro rfl
      rw [(hnow.point_eq hvb).1] at hpoint
      cases hpoint
    by_cases hlt : v < w.loop.tasks.length
    · exact h.doomed_back ha hvg (hmiss v) hlt hvb hpoint hending fun _ h => by cases h
    · rcases hnew v (Nat.le_of_not_lt hlt) (Loop.lt_of_task? hvb) with hv | rfl
      · exact absurd hv (hother r rfl)
      · rw [(hcloser.point_eq hvb).1] at hpoint
        cases hpoint

/-- Two tasks are made that race. -/
theorem race_spec (hg : w.loop.StandsAt g (.getting s collected race)) :
    let l := ((w.loop.spawn (Point.taking s)).1.spawn (.awaitingClose s)).1
    let r : Race := ⟨w.loop.tasks.length, (w.loop.spawn (Point.taking s)).1.tasks.length⟩
    let l' := l.awaitAny g (.getting s collected (some r)) [r.taker, r.closer]
    w.loop.tasks.length ≤ r.closer ∧ l'.StandsAt r.taker (.taking s) ∧
      l'.StandsAt r.closer (.awaitingClose s) ∧ l'.StandsAt g (.getting s collected (some r)) ∧
      ∀ v, w.loop.tasks.length ≤ v → v < l'.tasks.length → v = r.taker ∨ v = r.closer := by
  intro l r l'
  have hlength : (w.loop.spawn (Point.taking s)).1.tasks.length = w.loop.tasks.length + 1 :=
    List.length_append
  have hlength' : l.tasks.length = (w.loop.spawn (Point.taking s)).1.tasks.length + 1 :=
    List.length_append
  have htaker : l.StandsAt r.taker (.taking s) :=
    (w.loop.standsAt_spawn (Point.taking s)).spawn (.awaitingClose s)
  have hcloser : l.StandsAt r.closer (.awaitingClose s) :=
    (w.loop.spawn (Point.taking s)).1.standsAt_spawn (Point.awaitingClose s)
  have hg' : l.StandsAt g (.getting s collected race) := (hg.spawn (.taking s)).spawn _
  have hgoes := l.goes_awaitAny g (.getting s collected (some r)) [r.taker, r.closer]
  refine ⟨?_, htaker.spares hgoes.toSpares ?_, hcloser.spares hgoes.toSpares ?_,
    hg'.goes hgoes rfl, fun v hle hlt => ?_⟩
  · show w.loop.tasks.length ≤ (w.loop.spawn (Point.taking s)).1.tasks.length
    omega
  · rintro rfl
    cases htaker.unique hg'
  · rintro rfl
    cases hcloser.unique hg'
  · rw [hgoes.length, hlength', hlength] at hlt
    show v = w.loop.tasks.length ∨ v = (w.loop.spawn (Point.taking s)).1.tasks.length
    omega

/-- What a call for events does when it asks the sink. -/
theorem getNext_spec (hs : s < w.sinks.length)
    (hg : w.loop.StandsAt g (.getting s collected race)) :
    ((w.getNext g s collected).loop.tasks.length = w.loop.tasks.length ∧
      ∃ got, Yields s got w (w.getNext g s collected) ∧
        Sits s g (collected.getD [] ++ got) (w.getNext g s collected)) ∨
    ∃ r, (w.loop.tasks.length ≤ r.closer ∧ (w.sink s).closed = false) ∧
      Yields s [] w (w.getNext g s collected) ∧
      (w.getNext g s collected).loop.StandsAt r.taker (.taking s) ∧
      (w.getNext g s collected).loop.StandsAt r.closer (.awaitingClose s) ∧
      (w.getNext g s collected).loop.StandsAt g (.getting s collected (some r)) ∧
      ∀ v, w.loop.tasks.length ≤ v → v < (w.getNext g s collected).loop.tasks.length →
        v = r.taker ∨ v = r.closer := by
  unfold getNext
  rcases takeEvent?_cases hs with ⟨htake, hitems⟩ |
      ⟨v, event, htake, hloop, hsinks, hitems, hclosed⟩
  · rw [htake]
    dsimp only
    split
    · next hclosed =>
      obtain ⟨hlength, hsinks, hsits⟩ := sits_drained hg hclosed hitems
      refine .inl ⟨hlength, [], ⟨?_, ?_⟩, (List.append_nil _).symm ▸ hsits⟩
      · rw [sink, sink, hsinks]
        rfl
      · rw [sink, sink, hsinks]
    · next hclosed =>
      obtain ⟨hcloser, hrace⟩ := race_spec hg
      exact .inr ⟨_, ⟨hcloser, by simpa using hclosed⟩, ⟨rfl, rfl⟩, hrace⟩
  · rw [htake]
    obtain ⟨hlength, hsinks', hsits⟩ := sits_got (hg.gentle hloop) event
    refine .inl ⟨hlength.trans hloop.length, [event], ⟨?_, ?_⟩, hsits⟩
    · rw [hitems, sink, sink, hsinks']
      rfl
    · rw [← hclosed, sink, sink, hsinks']

/-- A call for events that had a race hears of it. -/
theorem heard_spec (ht : w.Tidy) {r : Race} (hr : Races s w r)
    (hg : w.loop.StandsAt g (.getting s collected (some r))) :
    (w.runGetting g s collected (some r) .on).loop.tasks.length = w.loop.tasks.length ∧
      (w.runGetting g s collected (some r) .on).sinks = w.sinks ∧
      Sits s g (collected.getD [] ++ w.held r) (w.runGetting g s collected (some r) .on) ∧
      ∀ b, (w.runGetting g s collected (some r) .on).loop.task? r.taker = some b →
        b.ending = none → Doomed b := by
  obtain ⟨hlength, hg', hdoomed⟩ := endRace_spec ht hr hg
  have hgtaker := (hr.ne_getter hg).1
  -- what the call does after the race touches nobody else
  have hown : ∀ l, Loop.Spares (· = g) (w.endRace g r).loop l → ∀ b, l.task? r.taker = some b →
      b.ending = none → Doomed b := by
    intro l hl b hb hending
    obtain ⟨a, ha, heases⟩ := hl.back (Ne.symm hgtaker) hb
    exact (hdoomed a ha (heases.ending ▸ hending)).eases heases
  unfold runGetting
  dsimp only
  rcases hr.taker with hstands | ⟨event, hended⟩
  · rw [hstands.ending?, held_of_stands hstands, List.append_nil]
    have hnow := hg'.goOn (.getting s collected none)
    have hspares := (w.endRace g r).loop.spares_goOn g (Point.getting s collected none)
    exact ⟨hspares.length.trans hlength, rfl, ⟨.inl ⟨_, hnow⟩,
      handedBy_stands (w := (w.endRace g r).goOn g _) hnow,
      fun hend => absurd hend (not_sawEnd_of_standsAt (w := (w.endRace g r).goOn g _) hnow)⟩,
      hown _ hspares⟩
  · rw [hended.ending?, held_of_ended hended]
    obtain ⟨hlength', hsinks, hsits⟩ := sits_got hg' event
    refine ⟨hlength'.trans hlength, hsinks, hsits, hown _ ?_⟩
    cases collected with
    | none => exact Loop.spares_finish _ g _
    | some events => exact Loop.spares_goOn _ g _

/-- What comes of a step of a call for events. -/
structure GetStep (s : SinkId) (g : TaskId) (gets : List TaskId) (got : List LogEvent)
    (race : Option Race) (w w' : World) : Prop where
  yields : Yields s got w w'
  consumer : Consumer s gets race w'
  taken : w'.taken gets = w.taken gets ++ got
  /-- A race is new, and begins only at an open sink. -/
  later : ∀ r, race = some r → w.loop.tasks.length ≤ r.closer ∧ (w.sink s).closed = false
  drained : w'.SawEnd g →
    race = none ∧ (w'.sink s).closed = true ∧ (w'.sink s).channel.items = []
  made : ∀ v, w.loop.tasks.length ≤ v → v < w'.loop.tasks.length →
    w'.loop.StandsAt v (.taking s) ∨ w'.loop.StandsAt v (.awaitingClose s)
  own : ∃ c r, w'.loop.Rests g (.getting s c r)

/-- A call for events comes to have no race. -/
theorem Consumer.get_sits (h : Consumer s gets race w) (ha : Apart s (· = g) hit w w')
    (hg : w.loop.StandsAt g (.getting s collected race)) (hmem : g ∈ gets)
    (hlength : w'.loop.tasks.length = w.loop.tasks.length)
    (hhit : ∀ v, hit v → ∃ r, race = some r ∧ (v = r.taker ∨ v = r.closer))
    (hdoomed : ∀ r, race = some r → ∀ b, w'.loop.task? r.taker = some b → b.ending = none →
      Doomed b) {got : List LogEvent} (hyields : Yields s got w w')
    (hsits : Sits s g (collected.getD [] ++ race.elim [] w.held ++ got) w') :
    GetStep s g gets got none w w' where
  yields := hyields
  consumer := h.getter_moves ha hg hmem hlength hhit hdoomed hsits.stands
  taken := by
    refine h.taken_append ha (fun v hv => h.ne_of_past hv hg.not_ended) hmem hg.not_ended ?_
    rw [handedBy_stands hg, heldBy_stands hg]
    exact hsits.taken
  later _ hr := by cases hr
  drained hend := ⟨rfl, hsits.drained hend⟩
  made v hle hlt := by omega
  own := hsits.stands.elim (fun ⟨c, hc⟩ => ⟨c, none, .inl hc⟩) fun ⟨c, r, he⟩ => ⟨c, r, .inr he⟩

/-- A call for events that has no race goes on. -/
theorem Consumer.asks (h : Consumer s gets none w) (ht : w.Tidy) (hs : s < w.sinks.length)
    (hg : w.loop.StandsAt g (.getting s collected none)) (hmem : g ∈ gets)
    {l : Loop Point Report}
    (harrive : w.loop.arrive g = some (l, .getting s collected none, .on)) :
    ∃ got race', GetStep s g gets got race' w ({ w with loop := l }.getNext g s collected) := by
  have ha : Apart s (· = g) (· ∈ (Point.getting s collected none).wards) w
      ({ w with loop := l }.getNext g s collected) := (w.works_resume g ht harrive).apart ht
  have hmiss : ∀ v, ¬v ∈ (Point.getting s collected none).wards := fun _ => List.not_mem_nil
  have hg' := (hg.arrive harrive).2.2
  have hlength : l.tasks.length = w.loop.tasks.length := (Loop.spares_arrive harrive).length
  rcases getNext_spec (w := { w with loop := l }) hs hg' with
    ⟨htasks, got, hyields, hsits⟩ | ⟨r, hcloser, hyields, htaker, hcloser', hnow, hnew⟩
  · refine ⟨got, none, h.get_sits ha hg hmem (htasks.trans hlength)
      (fun v hv => absurd hv (hmiss v)) (by simp) ⟨hyields.items, hyields.closed⟩ ?_⟩
    rw [Option.elim_none, List.append_nil]
    exact hsits
  · rw [show World.loop { w with loop := l } = l from rfl, hlength] at hcloser hnew
    refine ⟨[], some r, {
      yields := ⟨hyields.items, hyields.closed⟩
      consumer := h.race_begins ha hmiss hg hmem htaker hcloser' hnow hnew
      taken := ?_
      later := fun _ hr => Option.some.inj hr ▸ hcloser
      drained := fun hend => absurd hend (not_sawEnd_of_standsAt hnow)
      made := fun v hle hlt => ?_
      own := ⟨_, _, .inl hnow⟩ }⟩
    · refine h.taken_append ha (fun v hv => h.ne_of_past hv hg.not_ended) hmem hg.not_ended ?_
      rw [handedBy_stands hg, heldBy_stands hg, handedBy_stands hnow, heldBy_stands hnow]
      simp only [Option.elim_some, Option.elim_none, held_of_stands htaker, List.append_nil]
    · rcases hnew v hle hlt with rfl | rfl
      · exact .inl htaker
      · exact .inr hcloser'

/-- A call for events that has a race goes on. -/
theorem Consumer.hears {r : Race} (h : Consumer s gets (some r) w) (ht : w.Tidy)
    (hg : w.loop.StandsAt g (.getting s collected (some r))) (hmem : g ∈ gets)
    {l : Loop Point Report}
    (harrive : w.loop.arrive g = some (l, .getting s collected (some r), .on)) :
    GetStep s g gets [] none w ({ w with loop := l }.runGetting g s collected (some r) .on) := by
  have ha : Apart s (· = g) (· ∈ (Point.getting s collected (some r)).wards) w
      ({ w with loop := l }.runGetting g s collected (some r) .on) :=
    (w.works_resume g ht harrive).apart ht
  have hg' := (hg.arrive harrive).2.2
  have hlength : l.tasks.length = w.loop.tasks.length := (Loop.spares_arrive harrive).length
  have harrived : Works g (some s) (fun _ => False) w { w with loop := l } := .arrive harrive
  obtain ⟨hr, -⟩ := h.racing r rfl
  obtain ⟨hgtaker, hgcloser⟩ := hr.ne_getter hg
  obtain ⟨hr', hheld⟩ := hr.apart (harrived.apart ht) ⟨Ne.symm hgtaker, fun h => h⟩
    fun hm => absurd hm (Ne.symm hgcloser)
  obtain ⟨htasks, hsinks, hsits, hdoomed⟩ := heard_spec (harrived.tidy ht) hr' hg'
  refine h.get_sits ha hg hmem (htasks.trans hlength) (fun v hv => ⟨r, rfl, ?_⟩)
    (fun _ hx => Option.some.inj hx ▸ hdoomed) ⟨?_, ?_⟩ ?_
  · simpa [Point.wards] using hv
  · rw [sink, sink, hsinks]
    rfl
  · rw [sink, sink, hsinks]
  · rw [List.append_nil, Option.elim_some, ← hheld]
    exact hsits

/-- The call for events that goes on is the one that has the race, if there is one. -/
theorem Consumer.arrives (h : Consumer s gets race w) {l : Loop Point Report} {r : Option Race}
    {arrival : Arrival} (harrive : w.loop.arrive g = some (l, .getting s collected r, arrival)) :
    g ∈ gets ∧ w.loop.StandsAt g (.getting s collected race) ∧ r = race ∧ arrival = .on := by
  obtain ⟨a, hga, hending, hpoint, -, -⟩ := Loop.arrive_spec harrive
  have hmem := h.known g a collected r hga hpoint
  obtain ⟨c, hc⟩ : ∃ c, w.loop.StandsAt g (.getting s c race) := by
    refine (h.getters g hmem).resolve_right ?_
    rintro ⟨c, r, e, he⟩
    rw [(he.point_eq hga).2.1] at hending
    cases hending
  obtain ⟨heq, rfl, -⟩ := hc.arrive harrive
  cases heq
  exact ⟨hmem, hc, rfl, rfl⟩

/-- A call for events goes on. -/
theorem Consumer.getting (h : Consumer s gets race w) (ht : w.Tidy) (hs : s < w.sinks.length)
    {l : Loop Point Report} {r : Option Race} {arrival : Arrival}
    (harrive : w.loop.arrive g = some (l, .getting s collected r, arrival)) :
    ∃ got race', GetStep s g gets got race' w
      ({ w with loop := l }.runGetting g s collected r arrival) := by
  obtain ⟨hmem, hc, rfl, rfl⟩ := h.arrives harrive
  cases r with
  | none => exact h.asks ht hs hc hmem harrive
  | some r => exact ⟨[], none, h.hears ht hc hmem harrive⟩

end World

end LiveCluster.Simulation
