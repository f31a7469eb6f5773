import LiveCluster.Proofs.Tail.Calls
import LiveCluster.Proofs.Tail.Emptying
import Mathlib.Data.List.Nodup

/-!
# What still comes into a closed sink

Once a sink is closed only those put events in who were waiting for room when it was closed,
each once at most, and behind what was in the sink. Whoever else puts something in is refused or
called off. What consumers are handed from then on has left the sink.
-/

namespace LiveCluster.Simulation

/-- Who has done nothing yet has not waited for room. -/
theorem Point.unwaited_of_isFirst {s : SinkId} {p : Point} {d : Delivery}
    (h : p.isFirst = true) (hd : p.due? s = some d) : d.waited = false := by
  cases p with
  | giving r d' =>
      simp only [due?, Option.ite_none_right_eq_some, Option.some.injEq] at hd
      obtain ⟨-, rfl⟩ := hd
      simpa [isFirst] using h
  | stream st q =>
      cases q with
      | delivering => cases h
      | opening | reading => cases hd
  | reporting => cases h
  | _ => cases hd

theorem Point.sink?_of_due? {s : SinkId} {p : Point} {d : Delivery} (hd : p.due? s = some d) :
    p.sink? = some s := by
  cases p with
  | giving r d' =>
      simp only [due?, Option.ite_none_right_eq_some] at hd
      exact congrArg some hd.1
  | stream st q =>
      cases q with
      | delivering =>
          simp only [due?, Option.ite_none_right_eq_some] at hd
          exact congrArg some hd.1
      | opening | reading => cases hd
  | reporting =>
      simp only [due?, Option.ite_none_right_eq_some] at hd
      exact congrArg some hd.1
  | _ => cases hd

/-- Who has done nothing yet has been handed nothing. -/
theorem Point.handed_of_isFirst {p : Point} (h : p.isFirst = true) (hp : p.isConsumer = true) :
    p.handed none = [] := by
  cases p with
  | taking => rfl
  | getting s collected race =>
      cases race with
      | none =>
          cases collected with
          | none => rfl
          | some events => exact List.isEmpty_iff.1 h
      | some r => cases h
  | _ => cases hp

theorem Point.isConsumer_congr {p q : Point} (h : p.routine = q.routine) :
    p.isConsumer = q.isConsumer := by
  cases p <;> cases q <;> first | rfl | cases h

namespace Session

open World (Drains)

variable (s : Session) {k : SinkId}

theorem drains_takeAll (i : SinkId) (n : Nat) (w : World) :
    ∃ gone, Drains k gone w (takeAll i n w).1 := by
  induction n generalizing w with
  | zero => exact ⟨[], .refl k w⟩
  | succ n ih =>
      unfold takeAll
      split
      · exact ⟨[], .refl k w⟩
      · next v e h =>
          obtain ⟨gone, hgone⟩ := ih v
          by_cases hk : i = k
          · subst hk
            exact ⟨_, (World.drains_takeEvent? h).and hgone⟩
          · refine ⟨gone, Drains.trans (.of_sink ?_) hgone⟩
            exact (World.mild_takeEvent? w h).sink k fun heq => hk (Option.some.inj heq)

/-- No request puts anything into a sink. -/
theorem drains_begin (r : Request) (inLoop : Bool) (ht : s.world.Tidy)
    (hk : k < s.world.sinks.length) (hr : ∀ seconds, r ≠ .advance seconds) :
    ∃ gone, Drains k gone s.world (s.begin r inLoop).1.world := by
  by_cases hconcerns : s.concerns r = some k
  · cases r with
    | put | next | all | awaitClose | tail | tailPod => exact ⟨[], .of_sinks rfl⟩
    | close => exact ⟨[], World.drains_closeSink _ _⟩
    | drain => exact drains_takeAll _ _ s.world
    | cancel call =>
        refine ⟨[], ?_⟩
        show Drains k [] s.world (s.cancelled call)
        unfold cancelled
        split <;> exact .of_sinks rfl
    | log path container items closing =>
        refine ⟨[], ?_⟩
        show Drains k [] s.world (s.script (.log path container items closing))
        have hitems : Drains k [] s.world (items.foldl (addLog path container) s.world) :=
          .of_mild (s.world.mild_foldl (mild_addLog path container) items)
        unfold script
        dsimp only
        split
        · exact hitems.trans (World.drains_closeSink _ _)
        · exact hitems
    | access rid withoutTailer what =>
        refine ⟨[], ?_⟩
        have htake : Drains k [] s.world (s.takeAccessor rid withoutTailer).1.world :=
          .of_mild (s.mild_takeAccessor rid withoutTailer)
        show Drains k [] s.world (s.access rid withoutTailer what inLoop).1.world
        unfold access
        split
        · next h =>
            rw [h] at htake
            exact htake
        · next h =>
            rw [h] at htake
            split
            · exact htake
            · exact htake.trans (.of_sinks rfl)
    | _ => cases hconcerns
  · exact ⟨[], .of_sink (s.away_begin r inLoop ht hk hconcerns hr).sink⟩

end Session

namespace World

variable {w w' v x : World} {s : SinkId} {t u g : TaskId} {who : Option TaskId}
  {gone : List LogEvent} {e : LogEvent} {p : Point}

/-! ## Races -/

/-- In the race of a call for events it is a task that takes events that may win one. -/
def Racing (w : World) : Prop :=
  ∀ g s collected r, w.loop.standing g = some (.getting s collected (some r), none) →
    ∃ p e, w.loop.standing r.taker = some (p, e) ∧ p.routine = .taking

/-- A race that a call for events begins is one with a task that takes events. -/
theorem race_getNext {collected c : Option (List LogEvent)} {race : Option Race} {s' : SinkId}
    {r : Race} (hg : w.loop.standing g = some (.getting s collected race, none))
    (h : (w.getNext g s collected).loop.standing g = some (.getting s' c (some r), none)) :
    (w.getNext g s collected).loop.standing r.taker = some (.taking s, none) := by
  unfold getNext at h ⊢
  split at h
  · next v e htake =>
      have hsame := ((quiet_takeEvent? htake).loop.standing g).trans hg
      cases collected with
      | none => cases (standing_finish (.refl v.loop) hsame _).symm.trans h
      | some events => cases (standing_moves hsame (v.loop.moves_goOn g _)).symm.trans h
  · split at h
    · cases collected <;> cases (standing_finish (.refl w.loop) hg _).symm.trans h
    · next hopen =>
        have hlt := Loop.lt_of_standing hg
        let y : World := (w.spawn (.taking s)).1
        let x : World := (y.spawn (.awaitingClose s)).1
        let r' : Race := ⟨w.loop.tasks.length, y.loop.tasks.length⟩
        have hmoves := Loop.moves_awaitAny x.loop g (.getting s collected (some r'))
          [r'.taker, r'.closer]
        have hstands : x.loop.standing g = some (.getting s collected race, none) :=
          (standing_spawn_of_lt (Nat.lt_of_lt_of_le hlt (tasks_spawn w _))).trans
            ((standing_spawn_of_lt hlt).trans hg)
        have hrace : Point.getting s collected (some r') = .getting s' c (some r) :=
          congrArg Prod.fst (Option.some.inj ((standing_moves hstands hmoves).symm.trans h))
        injection hrace with _ _ hrace
        obtain rfl : r' = r := Option.some.inj hrace
        rw [if_neg hopen]
        have hnew : y.loop.standing w.loop.tasks.length = some (.taking s, none) :=
          (w.loop.standing_spawn (Point.taking s) _).trans (if_pos rfl)
        exact (hmoves.others _ (Nat.ne_of_gt hlt)).trans
          ((standing_spawn_of_lt (Loop.lt_of_standing hnew)).trans hnew)

theorem race_runGetting {collected c : Option (List LogEvent)} {race : Option Race} {s' : SinkId}
    {r : Race} {a : Arrival} (hg : w.loop.standing g = some (.getting s collected race, none))
    (h : (w.runGetting g s collected race a).loop.standing g =
      some (.getting s' c (some r), none)) :
    (w.runGetting g s collected race a).loop.standing r.taker = some (.taking s, none) := by
  cases race with
  | none =>
      cases a with
      | cancelled => cases (standing_finish (.refl w.loop) hg _).symm.trans h
      | on => exact race_getNext hg h
  | some r' =>
      have hsame := ((w.quiet_endRace g r').loop.standing g).trans hg
      cases a with
      | cancelled => cases (standing_finish (.refl (w.endRace g r').loop) hsame _).symm.trans h
      | on =>
          unfold runGetting at h
          dsimp only at h
          split at h
          · cases collected with
            | none => cases (standing_finish (.refl (w.endRace g r').loop) hsame _).symm.trans h
            | some events =>
                cases (standing_moves hsame ((w.endRace g r').loop.moves_goOn g _)).symm.trans h
          · cases (standing_finish (.refl (w.endRace g r').loop) hsame _).symm.trans h
          · cases (standing_finish (.refl (w.endRace g r').loop) hsame _).symm.trans h
          · cases (standing_moves hsame ((w.endRace g r').loop.moves_goOn g _)).symm.trans h

theorem Lived.racing (h : Lived w) : w.Racing := by
  induction h with
  | new => exact fun g s collected r hg => by cases hg
  | @next who w w' hw hnext ih =>
      intro g s collected r hg
      rcases hnext.stood hw hg with hold | ⟨-, -, hfirst⟩ | ⟨rfl, q, hq, -, hroutine⟩
      · obtain ⟨p, e, hp, hr⟩ := ih g s collected r hold
        obtain ⟨p', e', hp', hr', -⟩ := (hw.shifts hnext).lasts r.taker p e hp
        exact ⟨p', e', hp', hr'.trans hr⟩
      · cases hfirst
      · rcases hnext.goes with ⟨hsame, -⟩ | ⟨ready, round, l, p, arrival, -, hp, hsoft, rfl⟩
        · obtain ⟨p, e, hp, hr⟩ := ih g s collected r (hsame ▸ hg)
          obtain ⟨p', e', hp', hr', -⟩ := (hw.shifts hnext).lasts r.taker p e hp
          exact ⟨p', e', hp', hr'.trans hr⟩
        · cases hq.symm.trans hp
          cases q with
          | getting s' c race =>
              exact ⟨_, _, race_runGetting (w := { w.withReady ready round with loop := l })
                ((hsoft.standing g).trans hq) hg, rfl⟩
          | _ => cases hroutine

/-! ## What happens to a closed sink -/

/-- A consumer of a sink has been handed an event. -/
def Handed (w : World) (s : SinkId) (e : LogEvent) : Prop :=
  ∃ g p ending, w.loop.standing g = some (p, ending) ∧ p.isConsumer = true ∧
    p.sink? = some s ∧ e ∈ p.handed ending

/-- A task has put an event into a sink: it waits for room no longer, and if it was there for that
event alone it has returned. -/
def HasPut (w : World) (s : SinkId) (u : TaskId) (e : LogEvent) : Prop :=
  (∀ e', ¬w.AwaitsRoom s u e') ∧ ∃ p ending, w.loop.standing u = some (p, ending) ∧
    ∀ e', p.routine = .giving s e' → e' = e ∧ ending = some (.returned .nothing)

/-- What becomes of a closed sink: late events enter, behind what was in it, and some are gone from
its front. -/
structure Sealed (s : SinkId) (w v : World) (late : List (TaskId × LogEvent))
    (gone : List LogEvent) : Prop where
  closed : (v.sink s).closed = true
  items : (w.sink s).channel.items ++ late.map (·.2) = gone ++ (v.sink s).channel.items
  /-- Only those put an event in who waited for room. -/
  waited : ∀ u e, (u, e) ∈ late → w.AwaitsRoom s u e ∧ v.HasPut s u e
  once : (late.map (·.1)).Nodup
  /-- Nobody comes to wait for room. -/
  waiting : ∀ u e, v.AwaitsRoom s u e → w.AwaitsRoom s u e
  handed : ∀ e, v.Handed s e → w.Handed s e ∨ e ∈ gone
  /-- A put that ends puts its event in, or is refused or called off. -/
  puts : ∀ u d ending, v.loop.standing u = some (.giving s d, some ending) →
    w.loop.standing u = some (.giving s d, some ending) ∨ (u, d.event) ∈ late ∨
      ending = .failed .sinkClosed ∨ ending = .cancelled

variable {late late' : List (TaskId × LogEvent)}

theorem Sealed.refl (hclosed : (w.sink s).closed = true) : Sealed s w w [] [] where
  closed := hclosed
  items := List.append_nil _
  waited _ _ h := by cases h
  once := List.nodup_nil
  waiting _ _ := id
  handed _ := .inl
  puts _ _ _ := .inl

theorem Sealed.trans (h : Sealed s w v late gone) (h' : Sealed s v x late' gone')
    (hkept : ∀ u e, v.HasPut s u e → x.HasPut s u e) :
    Sealed s w x (late ++ late') (gone ++ gone') where
  closed := h'.closed
  items := by rw [List.map_append, ← List.append_assoc, h.items, List.append_assoc, h'.items,
    List.append_assoc]
  waited u e hu := by
    rcases List.mem_append.1 hu with hu | hu
    · exact ⟨(h.waited u e hu).1, hkept u e (h.waited u e hu).2⟩
    · exact ⟨h.waiting u e (h'.waited u e hu).1, (h'.waited u e hu).2⟩
  once := by
    rw [List.map_append]
    -- who has put its event in waits no longer, and so puts nothing in later
    refine List.nodup_append.2 ⟨h.once, h'.once, fun u hu u' hu' heq => ?_⟩
    obtain ⟨⟨u, e⟩, hmem, rfl⟩ := List.mem_map.1 hu
    obtain ⟨⟨u', e'⟩, hmem', rfl⟩ := List.mem_map.1 hu'
    obtain rfl : u = u' := heq
    exact (h.waited u e hmem).2.1 e' (h'.waited u e' hmem').1
  waiting u e hu := h.waiting u e (h'.waiting u e hu)
  handed e he := by
    rcases h'.handed e he with he | he
    · exact (h.handed e he).imp_right (List.mem_append_left _)
    · exact .inr (List.mem_append_right _ he)
  puts u d ending hu := by
    rcases h'.puts u d ending hu with hu | hu | hu
    · exact (h.puts u d ending hu).imp_right (.imp_left (List.mem_append_left _))
    · exact .inr (.inl (List.mem_append_right _ hu))
    · exact .inr (.inr hu)

/-- Who has put its event in is done with it. -/
theorem HasPut.happens (h : w.HasPut s u e) (hw : Lived w) (hnext : Happens who w w')
    (hwaiting : ∀ e', w'.AwaitsRoom s u e' → w.AwaitsRoom s u e') : w'.HasPut s u e := by
  obtain ⟨hclear, p, ending, hp, hput⟩ := h
  obtain ⟨p', ending', hp', hroutine, -⟩ := (hw.shifts hnext).lasts u p ending hp
  refine ⟨fun e' he' => hclear e' (hwaiting e' he'), p', ending', hp', fun e' he' => ?_⟩
  obtain ⟨rfl, hending⟩ := hput e' (hroutine.symm.trans he')
  subst hending
  have hkept := hnext.keeps_ending hw.orderly.bound (ending?_of_standing hp)
  exact ⟨rfl, (ending?_of_standing hp').symm.trans hkept⟩

/-! ### One step -/

/-- What a task may have come to in its turn at a closed sink. -/
structure Comes (s : SinkId) (t : TaskId) (w : World) (late : List (TaskId × LogEvent))
    (gone : List LogEvent) (p : Point) (ending : Option (Ending Report)) : Prop where
  waiting : ∀ d, ending = none → p.due? s = some d → d.waited = true → w.AwaitsRoom s t d.event
  handed : p.isConsumer = true → ∀ e ∈ p.handed ending, w.Handed s e ∨ e ∈ gone
  puts : ∀ d e, p = .giving s d → ending = some e →
    (t, d.event) ∈ late ∨ e = .failed .sinkClosed ∨ e = .cancelled

/-- Whoever has not had a turn at the sink has done nothing there. -/
theorem Happens.sealed_of (h : Happens who w w') (hw : Lived w)
    (hclosed : (w'.sink s).closed = true)
    (hitems : (w.sink s).channel.items ++ late.map (·.2) = gone ++ (w'.sink s).channel.items)
    (hwaited : ∀ u e, (u, e) ∈ late → w.AwaitsRoom s u e ∧ w'.HasPut s u e)
    (honce : (late.map (·.1)).Nodup)
    (hturn : ∀ t q p ending, who = some t → w.loop.standing t = some (q, none) →
      q.sink? = some s → w'.loop.standing t = some (p, ending) → Comes s t w late gone p ending) :
    Sealed s w w' late gone where
  closed := hclosed
  items := hitems
  waited := hwaited
  once := honce
  waiting u e := by
    rintro ⟨p, d, hp, hd, hroom, rfl⟩
    rcases h.stood hw hp with hold | ⟨-, -, hfirst⟩ | ⟨hwho, q, hq, hsink, -⟩
    · exact ⟨p, d, hold, hd, hroom, rfl⟩
    · rw [Point.unwaited_of_isFirst hfirst hd] at hroom
      cases hroom
    · exact (hturn u q p none hwho hq (hsink.trans (Point.sink?_of_due? hd)) hp).waiting d rfl hd
        hroom
  handed e := by
    rintro ⟨g, p, ending, hp, hconsumer, hsink, he⟩
    rcases h.stood hw hp with hold | ⟨-, rfl, hfirst⟩ | ⟨hwho, q, hq, hsame, -⟩
    · exact .inl ⟨g, p, ending, hold, hconsumer, hsink, he⟩
    · rw [Point.handed_of_isFirst hfirst hconsumer] at he
      cases he
    · exact (hturn g q p ending hwho hq (hsame.trans hsink) hp).handed hconsumer e he
  puts u d ending hu := by
    rcases h.stood hw hu with hold | ⟨-, hnone, -⟩ | ⟨hwho, q, hq, hsink, -⟩
    · exact .inl hold
    · cases hnone
    · exact .inr ((hturn u q _ _ hwho hq hsink hu).puts d ending rfl rfl)

/-- When it is not the turn of anybody at the sink, nothing is put in. -/
theorem Happens.sealed_drains (h : Happens who w w') (hw : Lived w)
    (hclosed : (w.sink s).closed = true) (hdrains : Drains s gone w w')
    (hother : ∀ t q, who = some t → w.loop.standing t = some (q, none) → q.sink? ≠ some s) :
    Sealed s w w' [] gone :=
  h.sealed_of hw (hdrains.closed hclosed) ((List.append_nil _).trans hdrains.items)
    (fun _ _ h => by cases h) List.nodup_nil fun t q _ _ hwho hq hsink _ =>
      absurd hsink (hother t q hwho hq)

/-! ### A turn at a closed sink -/

theorem awaitsRoom_of_soft (hsoft : Loop.Soft w.loop v.loop) (u : TaskId) (e : LogEvent) :
    v.AwaitsRoom s u e ↔ w.AwaitsRoom s u e := by
  simp only [AwaitsRoom, hsoft.standing]

theorem lt_of_closed (h : (w.sink s).closed = true) : s < w.sinks.length := by
  refine Nat.lt_of_not_le fun hle => ?_
  rw [sink, List.getElem?_eq_none hle] at h
  cases h

/-- The standing of tasks and the sinks decide what a step does at a sink. -/
theorem Proceeds.of_soft (h : Proceeds s t v w') (hsoft : Loop.Soft w.loop v.loop)
    (hsinks : v.sinks = w.sinks) : Proceeds s t w w' := by
  have hdrains : Drains s [] w v := .of_sinks hsinks
  have hroom := awaitsRoom_of_soft (s := s) hsoft t
  have hsink : v.sink s = w.sink s := by rw [sink, sink, hsinks]
  cases h with
  | quits gone hquits hput =>
      refine .quits gone (hdrains.quits hquits) fun d ending hd => (hput d ending hd).imp_right ?_
      exact .imp_right fun hnever e he => hnever e ((hroom e).2 he)
  | waits hwaits hsame => exact .waits (hdrains.trans hwaits) (hsame.trans (hsoft.standing t))
  | enters e he hitems hclosed hclear hput =>
      exact .enters e ((hroom e).1 he) (hsink ▸ hitems) (hsink ▸ hclosed) hclear hput

/-- Who stands where it stood has come to nothing new. -/
theorem Comes.of_same (hp : w.loop.standing t = some (p, none)) (hsink : p.sink? = some s) :
    Comes s t w late gone p none where
  waiting d _ hd hroom := ⟨p, d, hp, hd, hroom, rfl⟩
  handed hconsumer _ he := .inl ⟨t, p, none, hp, hconsumer, hsink, he⟩
  puts _ _ _ h := by cases h

/-- What a turn of a consumer at a closed sink hands to it has left the sink, or was handed to the
task that took it in its race. -/
theorem quits_consumer {q : Point} (hw : Lived w)
    (hsoft : Loop.Soft w.loop x.loop) (hq : w.loop.standing t = some (q, none))
    (hsink : q.sink? = some s) (hconsumer : q.isConsumer = true) (a : Arrival) :
    ∃ gone, Quits s t gone x (x.runPoint t q a) ∧
      ∀ e ∈ (x.runPoint t q a).handedBy t, w.Handed s e ∨ e ∈ gone := by
  have hx := (hsoft.standing t).trans hq
  have hold : ∀ e ∈ x.handedBy t, w.Handed s e := by
    intro e he
    rw [handedBy_of_standing hx] at he
    exact ⟨t, q, none, hq, hconsumer, hsink, he⟩
  cases q with
  | taking r =>
      cases hsink
      obtain ⟨gone, hquits, hhands⟩ := quits_runTaking hx a
      refine ⟨gone, hquits, fun e he => ?_⟩
      rcases hhands e he with he | he | ⟨r, hr, -⟩
      · exact .inl (hold e he)
      · exact .inr he
      · cases hr
  | getting r collected race =>
      cases hsink
      obtain ⟨gone, hquits, hhands⟩ := quits_runGetting collected race hx a
      refine ⟨gone, hquits, fun e he => ?_⟩
      rcases hhands e he with hgot | hgot | ⟨r, rfl, hgot⟩
      · exact .inl (hold e hgot)
      · exact .inr hgot
      · obtain ⟨p, ending, hp, hroutine⟩ := hw.racing t s collected r hq
        rw [handedBy_of_standing ((hsoft.standing r.taker).trans hp)] at hgot
        obtain ⟨b, hb, hstands⟩ := Option.map_eq_some_iff.1 hq
        have hpoint : b.point = .getting s collected (some r) := congrArg Prod.fst hstands
        obtain ⟨b', hb', hseat, -⟩ := hw.orderly.tidy.wards t b hb (congrArg Prod.snd hstands)
          r.taker (by rw [hpoint]; exact List.mem_cons_self)
        rw [hpoint] at hseat
        rw [Loop.standing, hb'] at hp
        cases hp
        exact .inl ⟨r.taker, _, _, by rw [Loop.standing, hb']; rfl,
          (Point.isConsumer_congr (q := .taking s) hroutine), hseat, hgot⟩
  | _ => cases hconsumer

/-- What comes of the turn of a task decides what becomes of the sink. -/
theorem Happens.sealed_turn {q : Point} (h : Happens (some t) w w') (hw : Lived w)
    (hclosed : (w'.sink s).closed = true)
    (hitems : (w.sink s).channel.items ++ late.map (·.2) = gone ++ (w'.sink s).channel.items)
    (hwaited : ∀ u e, (u, e) ∈ late → w.AwaitsRoom s u e ∧ w'.HasPut s u e)
    (honce : (late.map (·.1)).Nodup) (hq : w.loop.standing t = some (q, none))
    (hcomes : ∀ p ending, w'.loop.standing t = some (p, ending) → p.routine = q.routine →
      Comes s t w late gone p ending) : Sealed s w w' late gone := by
  refine h.sealed_of hw hclosed hitems hwaited honce fun t' q' p ending hwho hq' _ hp => ?_
  cases hwho
  cases hq.symm.trans hq'
  obtain ⟨p', ending', hp', hroutine, -⟩ := (hw.shifts h).lasts t q none hq
  cases hp.symm.trans hp'
  exact hcomes p ending hp hroutine

/-- A turn at which nothing is put in. -/
theorem Happens.sealed_none {q : Point} (h : Happens (some t) w w') (hw : Lived w)
    (hclosed : (w'.sink s).closed = true)
    (hitems : (w.sink s).channel.items = gone ++ (w'.sink s).channel.items)
    (hq : w.loop.standing t = some (q, none))
    (hcomes : ∀ p ending, w'.loop.standing t = some (p, ending) → p.routine = q.routine →
      Comes s t w [] gone p ending) : Sealed s w w' [] gone :=
  h.sealed_turn hw hclosed ((List.append_nil _).trans hitems) (fun _ _ h => by cases h)
    List.nodup_nil hq hcomes

/-- A turn at which nothing is put in or taken out, and after which the task stands where it
stood. -/
theorem Happens.sealed_same {q : Point} (h : Happens (some t) w w') (hw : Lived w)
    (hclosed : (w.sink s).closed = true) (hq : w.loop.standing t = some (q, none))
    (hsink : q.sink? = some s) (hdrains : Drains s [] w w')
    (hsame : w'.loop.standing t = w.loop.standing t) : Sealed s w w' [] [] := by
  refine h.sealed_none hw (hdrains.closed hclosed) hdrains.items hq fun p ending hp _ => ?_
  cases (hsame.trans hq).symm.trans hp
  exact .of_same hq hsink

theorem Comes.of_consumer {ending : Option (Ending Report)} (hp : p.isConsumer = true)
    (hhanded : ∀ e ∈ p.handed ending, w.Handed s e ∨ e ∈ gone) :
    Comes s t w late gone p ending where
  waiting d _ hd := by
    cases p with
    | taking | getting => cases hd
    | _ => cases hp
  handed _ := hhanded
  puts d e hd := by cases hd; cases hp

/-- A put that a task has waited for room with is the one it is there for. -/
theorem AwaitsRoom.event_of_routine {e' : LogEvent} (h : w.AwaitsRoom s t e)
    (hp : w.loop.standing t = some (p, none)) (hroutine : p.routine = .giving s e') : e' = e := by
  obtain ⟨q, d, hq, hd, -, rfl⟩ := h
  cases hp.symm.trans hq
  cases p with
  | giving r d' =>
      cases hroutine
      cases (if_pos rfl).symm.trans hd
      rfl
  | _ => cases hroutine

/-- A turn of a task at a closed sink that gets no events. -/
theorem Happens.sealed_proceeds {q : Point} (h : Happens (some t) w w') (hw : Lived w)
    (hclosed : (w.sink s).closed = true) (hq : w.loop.standing t = some (q, none))
    (hsink : q.sink? = some s) (hconsumer : q.isConsumer = false) (hstep : Proceeds s t w w') :
    ∃ late gone, Sealed s w w' late gone := by
  have hnever : ∀ {p : Point}, p.routine = q.routine → p.isConsumer ≠ true := fun hroutine => by
    rw [Point.isConsumer_congr hroutine, hconsumer]
    simp
  cases hstep with
  | quits gone hquits hputs =>
      refine ⟨[], gone, h.sealed_none hw (hquits.closed hclosed) hquits.items hq
        fun p ending hp hroutine => ⟨fun d hgoing hd => ?_, fun h => absurd h (hnever hroutine),
          fun d e hd he => ?_⟩⟩
      · rw [hquits.clear p (hgoing ▸ hp)] at hd
        cases hd
      · subst hd he
        rcases hputs d e hp with hcancelled | ⟨hrefused, -⟩
        · exact .inr (.inr hcancelled)
        · exact .inr (.inl hrefused)
  | waits hdrains hsame => exact ⟨[], [], h.sealed_same hw hclosed hq hsink hdrains hsame⟩
  | enters e hroom hitems hkeeps hclear hputs =>
      have hdone : ∀ {p ending e'}, w'.loop.standing t = some (p, ending) →
          p.routine = q.routine → p.routine = .giving s e' →
            e' = e ∧ ending = some (.returned .nothing) := by
        intro p ending e' hp hroutine hgiving
        refine ⟨hroom.event_of_routine hq (hroutine.symm.trans hgiving), ?_⟩
        cases p with
        | giving r d =>
            cases hgiving
            cases ending with
            | none => cases (if_pos rfl).symm.trans (hclear _ hp)
            | some ending => exact congrArg some (hputs d ending hp)
        | _ => cases hgiving
      refine ⟨[(t, e)], [], h.sealed_turn hw (hkeeps hclosed) hitems.symm ?_
        (List.nodup_singleton t) hq fun p ending hp hroutine => ⟨fun d hgoing hd => ?_,
          fun h => absurd h (hnever hroutine), fun d e' hd _ => ?_⟩⟩
      · intro u e' hmem
        cases List.mem_singleton.1 hmem
        obtain ⟨p, ending, hp, hroutine, -⟩ := (hw.shifts h).lasts t q none hq
        refine ⟨hroom, ?_, p, ending, hp, fun e' => hdone hp hroutine⟩
        rintro e' ⟨p', d, hp', hd, -⟩
        rw [hclear p' hp'] at hd
        cases hd
      · rw [hclear p (hgoing ▸ hp)] at hd
        cases hd
      · obtain ⟨hevent, -⟩ := hdone hp hroutine (congrArg Point.routine hd)
        exact .inl (hevent ▸ List.mem_cons_self)

/-- The turn of a task at a closed sink. -/
theorem Happens.sealed_at {q : Point} (h : Happens (some t) w w') (hw : Lived w)
    (hclosed : (w.sink s).closed = true) (hq : w.loop.standing t = some (q, none))
    (hsink : q.sink? = some s) : ∃ late gone, Sealed s w w' late gone := by
  rcases h.goes with ⟨hsame, hsinks, -⟩ | ⟨ready, round, l, q', a, -, hq', hsoft, hrun⟩
  · exact ⟨[], [], h.sealed_same hw hclosed hq hsink (.of_sinks hsinks) hsame⟩
  · cases hq.symm.trans hq'
    let x : World := { w.withReady ready round with loop := l }
    have hx : x.loop.standing t = some (q, none) := (hsoft.standing t).trans hq
    cases hconsumer : q.isConsumer with
    | true =>
        obtain ⟨gone, hquits, hhanded⟩ := quits_consumer (x := x) hw hsoft hq hsink hconsumer a
        rw [← hrun] at hquits hhanded
        refine ⟨[], gone, h.sealed_none hw (hquits.closed hclosed) hquits.items hq
          fun p ending hp hroutine => .of_consumer ((Point.isConsumer_congr hroutine).trans
            hconsumer) fun e he => hhanded e ?_⟩
        rwa [handedBy_of_standing hp]
    | false =>
        have hlt : s < w.sinks.length := lt_of_closed hclosed
        have hstep : Proceeds s t x w' := by
          rw [hrun]
          refine proceeds_runPoint (w := x) hlt hclosed hx hsink a fun p ending hp => ?_
          obtain ⟨p', ending', hp', hroutine, -⟩ := (hw.shifts h).lasts t q none hq
          rw [hrun] at hp'
          cases hp.symm.trans hp'
          exact hroutine
        exact h.sealed_proceeds hw hclosed hq hsink hconsumer (hstep.of_soft hsoft rfl)

/-! ### Whatever happens -/

/-- When it is not the turn of anybody at a sink, nothing is put in. -/
theorem Happens.drains (h : Happens who w w') (hw : w.Orderly) (hs : s < w.sinks.length)
    (hother : ∀ t q, who = some t → w.loop.standing t = some (q, none) → q.sink? ≠ some s) :
    ∃ gone, Drains s gone w w' := by
  cases h with
  | @job _ job before after round hready =>
      let x : World := w.withReady (before ++ after) round
      have hrest : Mild none w x := w.mild_withReady _ round
      have hsame : Drains s [] w x := .of_sinks rfl
      rcases x.run_cases job with ⟨t, l, p, a, rfl, harrive, hrun⟩ |
          ⟨-, ⟨id, v, -, hrun⟩ | hmild⟩
      · have hworks := works_resume x t (hrest.tidy hw.tidy) harrive
        have hsink := hworks.sink s (hother t p rfl (Loop.arrive_standing harrive).1)
        exact ⟨[], hsame.trans (.of_sink (hrun ▸ hsink))⟩
      · exact ⟨[], hsame.trans (.of_sinks (by rw [hrun]; rfl))⟩
      · exact ⟨[], hsame.trans (.of_mild hmild)⟩
  | round | time | journal => exact ⟨[], .of_sinks rfl⟩
  | request d r inLoop hr hknown => exact d.drains_begin r inLoop hw.tidy hs hr

theorem Happens.sealed (h : Happens who w w') (hw : Lived w)
    (hclosed : (w.sink s).closed = true) : ∃ late gone, Sealed s w w' late gone := by
  by_cases hturn : ∃ t q, who = some t ∧ w.loop.standing t = some (q, none) ∧ q.sink? = some s
  · obtain ⟨t, q, rfl, hq, hsink⟩ := hturn
    exact h.sealed_at hw hclosed hq hsink
  · have hother : ∀ t q, who = some t → w.loop.standing t = some (q, none) → q.sink? ≠ some s :=
      fun t q hwho hq hsink => hturn ⟨t, q, hwho, hq, hsink⟩
    obtain ⟨gone, hdrains⟩ := h.drains hw.orderly (lt_of_closed hclosed) hother
    exact ⟨[], gone, h.sealed_drains hw hclosed hdrains hother⟩

/-- Once nothing is left to be done, a put that has not ended waits for room. -/
theorem Lived.awaitsRoom_of_quiescent {d : Delivery} (hw : Lived w) (hquiet : w.Quiescent)
    (hu : w.loop.standing u = some (.giving s d, none)) : w.AwaitsRoom s u d.event := by
  obtain ⟨a, ha, hstands⟩ := Option.map_eq_some_iff.1 hu
  have hpoint : a.point = .giving s d := congrArg Prod.fst hstands
  obtain ⟨-, hwaited⟩ := hw.orderly.awake.awaits_signal (s := s) hquiet ha
    (congrArg Prod.snd hstands) (by rw [hpoint]; rfl) (by rw [hpoint]; simp)
  rw [hpoint] at hwaited
  exact ⟨_, d, hu, if_pos rfl, hwaited, rfl⟩

/-- Whatever happens to a closed sink, it takes an event late only from a task that waited for room
in it when it was closed, one from each at most and behind what was in it. Every other put that
had not ended is refused, or it is called off, and has ended once nothing is left to be done; and
consumers are handed only what was in the sink or came in late. -/
theorem closed_sink_takes_only_late (hw : Lived w) (hclosed : (w.sink s).closed = true)
    (hv : Becomes w v) :
    (∃ late gone, Sealed s w v late gone) ∧ (v.Quiescent →
      ∀ u d, v.loop.standing u = some (.giving s d, none) → w.AwaitsRoom s u d.event) := by
  have hsealed : ∃ late gone, Sealed s w v late gone := by
    induction hv with
    | refl => exact ⟨[], [], .refl hclosed⟩
    | next hv hnext ih =>
        obtain ⟨late, gone, hlate⟩ := ih
        have hlived := hw.becomes hv
        obtain ⟨late', gone', hlate'⟩ := hnext.sealed hlived hlate.closed
        exact ⟨_, _, hlate.trans hlate' fun u e hput => hput.happens hlived hnext fun e' =>
          hlate'.waiting u e'⟩
  refine ⟨hsealed, fun hquiet u d hu => ?_⟩
  obtain ⟨late, gone, hlate⟩ := hsealed
  exact hlate.waiting u d.event ((hw.becomes hv).awaitsRoom_of_quiescent hquiet hu)

/-- A sink with room for one event, that has been closed while a second put waited for room. -/
def sealedWaiting : Session :=
  ((((Session.new {} {} default none).heard (.sink "s" (some 1))).heard
    (.put "s" (.line "p" "c" "a" false))).heard (.put "s" (.line "p" "c" "b" false))).heard
      (.close "s")

/-- A third put comes, and then events are got out of the sink twice. -/
def sealedEmptied : Session :=
  ((sealedWaiting.heard (.put "s" (.line "p" "c" "c" false))).heard (.next "s")).heard (.next "s")

theorem Becomes.heard {d : Session} {r : Request} (h : Becomes w d.world)
    (instant : ∀ seconds, r ≠ .advance seconds)
    (known : ∀ k, d.concerns r = some k → k < d.world.sinks.length) :
    Becomes w (d.heard r).world :=
  lasts_runReady (fun _ _ _ h hnext => h.next hnext) (h.next (.request d r true instant known)) 40

theorem lived_sealedWaiting : Lived sealedWaiting.world := by
  have hsink := (Lived.new {} {} default none).heard (r := .sink "s" (some 1)) (by simp)
    (by rintro k ⟨⟩)
  have hput := hsink.heard (r := .put "s" (.line "p" "c" "a" false)) (by simp)
    (by rintro k ⟨⟩; decide)
  have hwaits := hput.heard (r := .put "s" (.line "p" "c" "b" false)) (by simp)
    (by rintro k ⟨⟩; decide)
  exact hwaits.heard (by simp) (by rintro k ⟨⟩; decide)

theorem becomes_sealedEmptied : Becomes sealedWaiting.world sealedEmptied.world := by
  have hput := (Becomes.refl (w := sealedWaiting.world)).heard
    (r := .put "s" (.line "p" "c" "c" false)) (by simp) (by rintro k ⟨⟩; decide)
  have hget := hput.heard (r := .next "s") (by simp) (by rintro k ⟨⟩; decide)
  exact hget.heard (by simp) (by rintro k ⟨⟩; decide)

/-- The put that came after the closing is refused, and its event does not come out. -/
theorem closed_sink_refuses_third : (sealedWaiting.world.sink 0).closed = true ∧
    sealedEmptied.world.loop.ending? 2 = some (.failed .sinkClosed) ∧
      ∃ late gone, Sealed 0 sealedWaiting.world sealedEmptied.world late gone := by
  have h := closed_sink_takes_only_late (s := 0) lived_sealedWaiting rfl becomes_sealedEmptied
  exact ⟨rfl, rfl, h.1⟩

/-- The put that waited for room enters the closed sink, and its event comes out. -/
theorem closed_sink_takes_second : Lived sealedWaiting.world ∧
    (sealedWaiting.world.sink 0).closed = true ∧
    (sealedWaiting.world.sink 0).channel.items = [.line "p" "c" "a" false] ∧
    sealedWaiting.world.loop.ending? 1 = none ∧
    Becomes sealedWaiting.world sealedEmptied.world ∧
    sealedEmptied.world.loop.ending? 1 = some (.returned .nothing) ∧
    sealedEmptied.world.loop.ending? 4 =
      some (.returned (.event (some (.line "p" "c" "b" false)))) :=
  ⟨lived_sealedWaiting, rfl, rfl, rfl, becomes_sealedEmptied, rfl, rfl⟩

end World

end LiveCluster.Simulation
