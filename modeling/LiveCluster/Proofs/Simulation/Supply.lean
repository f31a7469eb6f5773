import LiveCluster.Proofs.Simulation.Manned
import LiveCluster.Proofs.Watch.Entries
import LiveCluster.Proofs.Watch.Namespaces

/-!
# What informers have, the cluster had to send

An object comes into a partition by a listing or an event, which a worker took from the
cluster in an earlier turn of its own. So whatever is true of all objects that the cluster
has to send, at any moment of the life of a world, is true of all objects that the world's
informers have.

Between the turn in which a worker takes something from the cluster and the one in which
its informer hears of it, the object is neither here nor there. The invariant `Supplied`
therefore speaks of what workers are about to tell as well as of what is stored.
-/

namespace LiveCluster

variable {P : Value → Prop}

/-! ## Partitions -/

/-- The raw objects that a signal is about. -/
def Informer.Signal.objects : Informer.Signal → List Value
  | .listed items _ => items
  | .event e => [e.object]
  | _ => []

theorem Snapshot.raw_ofRaw {raw : Value} {s : Snapshot} (h : Snapshot.ofRaw raw = .ok s) :
    s.raw = raw := by
  obtain ⟨_, -, h⟩ := ok_of_bind h
  obtain ⟨_, -, h⟩ := ok_of_bind h
  obtain ⟨_, -, h⟩ := ok_of_bind h
  cases h
  rfl

namespace Partition

variable {p q : Partition} {entry : String × Snapshot}

theorem mem_ofListing {items : List Value} (h : ofListing items p = .ok q) (hentry : entry ∈ q) :
    entry ∈ p ∨ entry.2.raw ∈ items := by
  induction items generalizing p with
  | nil =>
      cases h
      exact .inl hentry
  | cons raw rest ih =>
      obtain ⟨s, hs, h⟩ := ok_of_bind h
      rcases ih h with hold | hrest
      · split at hold
        · exact .inl hold
        · rcases Keyed.mem_set hold with hold | rfl
          · exact .inl hold
          · exact .inr (List.mem_cons.2 (.inl (Snapshot.raw_ofRaw hs)))
      · exact .inr (List.mem_cons_of_mem _ hrest)

theorem mem_told_event {e : WatchEvent} (hentry : entry ∈ p.told (.event e)) :
    entry ∈ p ∨ entry.2.raw = e.object := by
  simp only [told] at hentry
  split at hentry
  · next version _ =>
      have htakes := takes p e version
      generalize p.apply e version = effect at hentry htakes
      cases htakes with
      | wrote _ _ _ hs =>
          rcases Keyed.mem_set hentry with hold | rfl
          · exact .inl hold
          · exact .inr (Snapshot.raw_ofRaw hs)
      | erased _ _ _ _ => exact .inl (List.mem_filter.1 hentry).1
      | failed _ => exact .inl hentry
      | @kept effect hkept _ =>
          cases effect with
          | changed q => exact absurd rfl (hkept q)
          | bookmark | unnamed | outOfOrder _ _ | absent | ignored => exact .inl hentry
  · exact .inl hentry

end Partition

/-- What an informer has after a reaction it had before, or it has heard of it just now. -/
theorem Informer.mem_react {i : Informer} {s : Informer.Signal} {entry : String × Snapshot}
    (hentry : entry ∈ (i.react s).informer.items) : entry ∈ i.items ∨ entry.2.raw ∈ s.objects := by
  rw [react_items] at hentry
  cases s with
  | listed items version =>
      have htold : entry ∈ (Partition.ofListing items []).toOption.getD i.items := hentry
      cases hlisting : Partition.ofListing items [] with
      | error fault =>
          rw [hlisting] at htold
          exact .inl htold
      | ok q =>
          rw [hlisting] at htold
          exact .inr ((Partition.mem_ofListing hlisting htold).resolve_left List.not_mem_nil)
  | event e => exact (Partition.mem_told_event hentry).imp_right List.mem_singleton.2
  | started | listFailed _ | ended | watchFailed _ | woke => exact .inl hentry

/-- Whether a partition is sound, and of every object in it something is said. -/
def Partition.SoundOf (P : Value → Prop) (p : Partition) : Prop :=
  p.Sound ∧ ∀ entry ∈ p, P entry.2.raw

theorem Informer.soundOf_react {i : Informer} {s : Informer.Signal} (h : i.items.SoundOf P)
    (hs : ∀ raw ∈ s.objects, P raw) : (i.react s).informer.items.SoundOf P :=
  ⟨i.after_sound h.1 (.heard s), fun entry hentry => (mem_react hentry).elim (h.2 entry) (hs _)⟩

/-! ## The cluster -/

/-- The raw object that an item of a watch brings. -/
def FeedItem.objects : FeedItem → List Value
  | .event e => [e.object]
  | _ => []

namespace Cluster

/-- The raw objects that a cluster has to send: in its listings, and in its watches. -/
def sendable (c : Cluster) : List Value :=
  c.objects.entries.flatten ++ c.feeds.entries.flatMap fun feed => feed.items.flatMap (·.objects)

theorem mem_sendable_of_listed {c : Cluster} {kind ns : String} {raw : Value}
    (h : raw ∈ c.objectsIn kind ns) : raw ∈ c.sendable := by
  have hall : raw ∈ (c.objects.get? kind).getD [] := by
    unfold objectsIn at h
    dsimp only at h
    split at h
    · exact h
    · exact (List.mem_filter.1 h).1
  cases hobjects : c.objects.get? kind with
  | none =>
      rw [hobjects] at hall
      cases hall
  | some items =>
      rw [hobjects] at hall
      exact List.mem_append_left _
        (List.mem_flatten.2 ⟨items, Keyed.mem_entries_of_get? hobjects, hall⟩)

theorem mem_sendable_of_fed {c : Cluster} {scope : String} {item : FeedItem} {raw : Value}
    (hitem : item ∈ (c.feed scope).items) (h : raw ∈ item.objects) : raw ∈ c.sendable := by
  unfold feed at hitem
  cases hfeed : c.feeds.get? scope with
  | none =>
      rw [hfeed] at hitem
      cases hitem
  | some feed =>
      rw [hfeed] at hitem
      refine List.mem_append_right _
        (List.mem_flatMap.2 ⟨feed, Keyed.mem_entries_of_get? hfeed, ?_⟩)
      exact List.mem_flatMap.2 ⟨item, hitem, h⟩

end Cluster

namespace Simulation.World

open Loop (Soft Moves)

variable {w w' : World} {t : TaskId} {i : InformerId} {who : Option TaskId}

theorem objects_signalOf (item : FeedItem) : (signalOf item).objects = item.objects := by
  cases item <;> rfl

/-! ## The turn of a worker -/

/-- Whether a task that works for an informer will tell it only of objects of which something is
said. -/
def TellsOf (P : Value → Prop) (t : TaskId) (w : World) : Prop :=
  ∀ i s, w.loop.standing t = some (.worker i (.signalled s), none) → ∀ raw ∈ s.objects, P raw

theorem TellsOf.of_moves {p : Point} {l : Loop Point Report} (h : Moves t p l w.loop)
    (hp : ∀ i s, p = .worker i (.signalled s) → ∀ raw ∈ s.objects, P raw) : TellsOf P t w := by
  intro i s hs
  rw [h.own] at hs
  obtain ⟨_, -, heq⟩ := Option.map_eq_some_iff.1 hs
  exact hp i s (congrArg Prod.fst heq)

theorem TellsOf.of_ends {e : Ending Report} {l : Loop Point Report} (h : Loop.Ends t e l w.loop) :
    TellsOf P t w := by
  intro i s hs
  rw [h.own] at hs
  obtain ⟨_, -, heq⟩ := Option.map_eq_some_iff.1 hs
  cases congrArg Prod.snd heq

theorem cluster_tell (w : World) (note : Note) : (w.tell note).cluster = w.cluster := by
  have hwrite : ∀ (v : World) setup r, (v.write setup r).cluster = v.cluster := by
    intro v setup r
    unfold write
    split <;> rfl
  have hlogOf : ∀ component, (w.logOf component).1.cluster = w.cluster := by
    intro component
    unfold logOf
    split
    · rfl
    · split <;> rfl
  cases note with
  | log r => exact (hwrite _ _ r).trans (hlogOf r.component)
  | count _ | stale _ _ => rfl

theorem cluster_tellAll (w : World) (notes : List Note) :
    (w.tellAll notes).cluster = w.cluster := by
  induction notes generalizing w with
  | nil => rfl
  | cons note rest ih => exact (ih _).trans (w.cluster_tell note)

theorem cluster_leaveWatch (w : World) (i : InformerId) (c : Informer.Command) :
    (w.leaveWatch i c).cluster = w.cluster := by
  cases c with
  | next => rfl
  | list | watch _ | sleep _ | crash _ =>
      show (w.stopTimer i).cluster = w.cluster
      unfold stopTimer
      split <;> rfl

theorem cluster_announceSync (w : World) (i : InformerId) :
    (w.announceSync i).cluster = w.cluster := by
  unfold announceSync
  dsimp only
  split <;> rfl

theorem tellsOf_callList (h : ∀ raw ∈ w.cluster.sendable, P raw) :
    TellsOf P t (w.callList t i) := by
  unfold callList
  dsimp only
  split
  · refine .of_moves (Loop.moves_goOn _ t _) fun j s heq raw hraw => ?_
    cases heq
    cases hraw
  · split
    · exact .of_moves (Loop.moves_suspend _ t _ .signal) (by simp)
    · refine .of_moves (Loop.moves_goOn _ t _) fun j s heq raw hraw => ?_
      cases heq
      exact h raw (Cluster.mem_sendable_of_listed hraw)

theorem tellsOf_takeFeed (h : ∀ raw ∈ w.cluster.sendable, P raw) :
    TellsOf P t (w.takeFeed t i) := by
  unfold takeFeed
  dsimp only
  split
  · next item feed loop htake =>
      refine .of_moves (Loop.moves_goOn _ t _) fun j s heq raw hraw => ?_
      cases heq
      rw [objects_signalOf] at hraw
      have hfed : item ∈ (w.cluster.feed (w.informer i).cache.key).items := by
        rw [Channel.items_of_take? htake]
        exact List.mem_cons_self
      exact h raw (Cluster.mem_sendable_of_fed hfed hraw)
  · exact .of_moves (Loop.moves_suspend _ t _ .signal) (by simp)

theorem tellsOf_execute (h : ∀ raw ∈ w.cluster.sendable, P raw) (c : Informer.Command) :
    TellsOf P t (w.execute t i c) := by
  cases c with
  | list => exact tellsOf_callList h
  | watch version => exact tellsOf_takeFeed h
  | next => exact tellsOf_takeFeed h
  | sleep delay =>
      show TellsOf P t (w.fallAsleep t i delay)
      unfold fallAsleep
      split
      · exact .of_moves (w.loop.moves_giveWay t _) (by simp)
      · exact .of_moves (Loop.moves_suspend _ t _ .signal) (by simp)
  | crash fault => exact .of_ends (w.loop.ends_finish t _)

theorem tellsOf_signal (h : ∀ raw ∈ w.cluster.sendable, P raw) (s : Informer.Signal) :
    TellsOf P t (w.signal t i s) := by
  refine tellsOf_execute ?_ _
  rw [cluster_tellAll, cluster_announceSync, cluster_leaveWatch]
  exact h

theorem tellsOf_runWorker (h : ∀ raw ∈ w.cluster.sendable, P raw) (p : WorkerPoint) (a : Arrival) :
    TellsOf P t (w.runWorker t i p a) := by
  cases a with
  | cancelled woken => exact .of_ends (Loop.ends_finish _ t _)
  | on =>
      cases p with
      | signalled s => exact tellsOf_signal h s
      | held => exact tellsOf_signal h _
      | watching => exact tellsOf_takeFeed h
      | asleep _ => exact tellsOf_signal h .woke

theorem cache_execute (w : World) (t : TaskId) (i : InformerId) (c : Informer.Command)
    (j : InformerId) : ((w.execute t i c).informer j).cache = (w.informer j).cache := by
  cases c with
  | list => exact (w.turns_callList (t := t) (i := i)).cache j
  | watch version =>
      have hstart : ((w.startTimer i).informer j).cache = (w.informer j).cache :=
        setInformer_congr (x := { w.informer i with timer := some w.loop.nextTimer })
          Watched.cache rfl j
      exact ((turns_takeFeed (t := t) (i := i) _ (g := .awaiting .next) rfl).cache j).trans hstart
  | next => exact (w.turns_takeFeed (t := t) (i := i) (g := .awaiting .next) rfl).cache j
  | sleep delay => exact (w.turns_fallAsleep (t := t) (i := i) delay).cache j
  | crash fault => rfl

/-- Once an informer has reacted, partitions stay as they are. -/
theorem cache_signal (w : World) (t : TaskId) (i : InformerId) (s : Informer.Signal)
    (j : InformerId) : ((w.signal t i s).informer j).cache =
      ((w.setInformer i { w.informer i with cache := ((w.informer i).cache.react s).informer
        }).informer j).cache := by
  let reaction := (w.informer i).cache.react s
  let v := w.setInformer i { w.informer i with cache := reaction.informer }
  have hleft := (v.still_leaveWatch i reaction.command).trans
    ((quiet_announceSync _ i).trans (quiet_tellAll _ reaction.notes)).still
  exact (cache_execute _ t i _ j).trans (hleft.cache j)

variable (hsends : ∀ raw ∈ w.cluster.sendable, P raw)
  (hstored : ∀ j, (w.informer j).cache.items.SoundOf P)

include hstored in
theorem soundOf_signal {s : Informer.Signal} (hs : ∀ raw ∈ s.objects, P raw) (j : InformerId) :
    ((w.signal t i s).informer j).cache.items.SoundOf P := by
  let x : Watched := { w.informer i with cache := ((w.informer i).cache.react s).informer }
  rw [show ((w.signal t i s).informer j).cache = ((w.setInformer i x).informer j).cache from
    w.cache_signal t i s j]
  rcases w.setInformer_cases i j x with hj | ⟨rfl, hj⟩
  · rw [hj]
    exact hstored j
  · rw [hj]
    exact Informer.soundOf_react (hstored j) hs

include hsends hstored in
theorem soundOf_runWorker {p : WorkerPoint}
    (hp : ∀ s, p = .signalled s → ∀ raw ∈ s.objects, P raw) (a : Arrival) (j : InformerId) :
    ((w.runWorker t i p a).informer j).cache.items.SoundOf P := by
  cases a with
  | cancelled woken =>
      rw [show ((w.runWorker t i p (.cancelled woken)).informer j).cache = (w.informer j).cache from
        (w.still_withdraw t i woken p).cache j]
      exact hstored j
  | on =>
      cases p with
      | signalled s => exact soundOf_signal hstored (hp s rfl) j
      | held =>
          exact soundOf_signal hstored (s := w.listingOf (w.informer i).cache)
            (fun raw hraw => hsends raw (Cluster.mem_sendable_of_listed hraw)) j
      | watching =>
          rw [show ((w.runWorker t i .watching .on).informer j).cache = (w.informer j).cache from
            (w.turns_takeFeed (g := .awaiting .next) rfl).cache j]
          exact hstored j
      | asleep _ => exact soundOf_signal hstored (s := .woke) (by simp [Informer.Signal.objects]) j

/-! ## Whatever happens -/

/-- What a worker is about to tell it was about to tell before, or it is new, or it has just had
its turn. -/
theorem Happens.signalled {s : Informer.Signal} (h : Happens who w w') (hw : Lived w)
    (hs : w'.loop.standing t = some (.worker i (.signalled s), none)) :
    w.loop.standing t = some (.worker i (.signalled s), none) ∨ s = .started ∨
      who = some t ∧ ∃ p, w.loop.standing t = some (.worker i p, none) := by
  rcases h.stood hw hs with hsame | ⟨-, -, hfirst⟩ | ⟨hwho, q, hq, -, hroutine⟩
  · exact .inl hsame
  · cases s with
    | started => exact .inr (.inl rfl)
    | listed _ _ | listFailed _ | event _ | ended | watchFailed _ | woke => cases hfirst
  · cases q with
    | worker j p =>
        cases hroutine
        exact .inr (.inr ⟨hwho, p, hq⟩)
    | _ => cases hroutine

/-- The turn of a task that is nobody's worker leaves partitions as they are. -/
theorem Manned.items_runPoint {p : Point} {l : Loop Point Report} (h : w.Manned anything)
    (hstanding : w.loop.standing t = some (p, none)) (hp : ∀ i q, p ≠ .worker i q)
    (hsoft : Soft w.loop l) (a : Arrival) (i : InformerId) :
    ((World.runPoint { w with loop := l } t p a).informer i).cache.items =
      (w.informer i).cache.items := by
  have hengages : Engages anything True none w { w with loop := l } :=
    .of_idle (.of_eq rfl rfl rfl rfl) hsoft.length hsoft.standing
  have hstaffs := staffs_runPoint (hengages.filed h.filed) ((hsoft.standing t).trans hstanding)
    (h.asks t p hstanding) (fun i => h.made t p i hstanding) a
  refine hstaffs.items ?_ i
  cases p with
  | worker i q => exact absurd rfl (hp i q)
  | _ => rfl

/-- It is the turn of a worker, and the world is what comes of that; or all partitions stay as they
are, and so does the worker whose turn it is, if it is one's. -/
theorem Happens.worker_or_still (h : Happens who w w') (hw : Lived w) :
    (∃ t i p ready round l a, who = some t ∧ w.loop.standing t = some (.worker i p, none) ∧
      w' = World.runWorker { w.withReady ready round with loop := l } t i p a) ∨
    (∀ i, (w'.informer i).cache.items = (w.informer i).cache.items) ∧
      ∀ t i p, who = some t → w.loop.standing t = some (.worker i p, none) →
        w'.loop.standing t = w.loop.standing t := by
  cases h with
  | @job _ job before after round hready =>
      let m := w.withReady (before ++ after) round
      obtain ⟨t, rfl⟩ | hjob : (∃ t, job = .resume t) ∨ ∀ t, job ≠ .resume t := by
        cases job <;> simp
      · cases harrive : m.loop.arrive t with
        | none =>
            have hrun : m.run (.resume t) = m := by rw [run, harrive]
            rw [hrun]
            exact .inr ⟨fun _ => rfl, fun _ _ _ _ _ => rfl⟩
        | some arrived =>
            obtain ⟨l, p, a⟩ := arrived
            obtain ⟨hstanding, hsoft⟩ := Loop.arrive_standing harrive
            have hrun : m.run (.resume t) = World.runPoint { m with loop := l } t p a := by
              rw [run, harrive]
            rw [hrun]
            by_cases hworker : ∃ i q, p = .worker i q
            · obtain ⟨i, q, rfl⟩ := hworker
              exact .inl ⟨t, i, q, _, _, l, a, rfl, hstanding, rfl⟩
            · have hother : ∀ i q, p ≠ .worker i q := fun i q heq => hworker ⟨i, q, heq⟩
              have hsoft : Soft w.loop l := ⟨hsoft.length, hsoft.standing, hsoft.arms⟩
              have hitems := hw.manned.items_runPoint hstanding hother hsoft a
              refine .inr ⟨hitems, fun u i q hu hq => ?_⟩
              cases hu
              cases hstanding.symm.trans hq
              exact absurd rfl (hother i q)
      · have hhires : Hires anything True none m (m.run job) := m.hires_run hjob
        refine .inr ⟨hhires.items rfl, fun u _ _ hu => ?_⟩
        cases job with
        | resume t => exact absurd rfl (hjob t)
        | notify | tick | alarm => cases hu
  | round | time | journal => exact .inr ⟨fun _ => rfl, fun _ _ _ hwho => by cases hwho⟩
  | request s r inLoop hr _ =>
      have hhires : Hires anything True none s.world (s.begin r inLoop).1.world :=
        s.hires_begin r inLoop hw.manned.filed hr (s.poses_of_all (fun _ _ => trivial) r)
          fun _ => trivial
      exact .inr ⟨hhires.items rfl, fun _ _ _ hwho => by cases hwho⟩

/-- Something is said of every object that an informer has, and of every one that a worker is about
to tell its informer of. -/
structure Supplied (P : Value → Prop) (w : World) : Prop where
  stored : ∀ i, (w.informer i).cache.items.SoundOf P
  told : ∀ t, TellsOf P t w

theorem Happens.supplied (h : Happens who w w') (hw : Lived w)
    (hsends : ∀ raw ∈ w.cluster.sendable, P raw) (hs : w.Supplied P) : w'.Supplied P := by
  have htold : (∀ t i p, who = some t → w.loop.standing t = some (.worker i p, none) →
      TellsOf P t w') → ∀ t, TellsOf P t w' := by
    intro hown t i s hstanding
    rcases h.signalled hw hstanding with hsame | rfl | ⟨hwho, p, hp⟩
    · exact hs.told t i s hsame
    · exact fun _ hraw => absurd hraw List.not_mem_nil
    · exact hown t i p hwho hp i s hstanding
  rcases h.worker_or_still hw with
      ⟨t, i, p, ready, round, l, a, rfl, hstanding, rfl⟩ | ⟨hitems, hown⟩
  · let x : World := { w.withReady ready round with loop := l }
    have htells : ∀ s, p = .signalled s → ∀ raw ∈ s.objects, P raw := by
      rintro s rfl
      exact hs.told t i s hstanding
    refine ⟨soundOf_runWorker (w := x) hsends hs.stored htells a, htold fun u _ _ hu _ => ?_⟩
    cases hu
    exact tellsOf_runWorker (w := x) hsends p a
  · refine ⟨fun i => ?_, htold fun t j p hwho hp i s hstanding => ?_⟩
    · rw [hitems]
      exact hs.stored i
    · exact hs.told t i s ((hown t j p hwho hp).symm.trans hstanding)

/-- The worlds of sessions whose cluster has at no moment anything to send but objects of which
something is said. -/
inductive LivedOn (P : Value → Prop) : World → Prop
  | new (watch : WatchConfig) (tail : TailConfig) (clock : Instant)
      (clusterScoped : Option (List String)) :
      LivedOn P (Session.new watch tail clock clusterScoped).world
  | next {who : Option TaskId} {w w' : World} : LivedOn P w → Happens who w w' →
      (∀ raw ∈ w'.cluster.sendable, P raw) → LivedOn P w'

theorem LivedOn.lived (h : LivedOn P w) : Lived w := by
  induction h with
  | new watch tail clock clusterScoped => exact .new watch tail clock clusterScoped
  | next _ hnext _ ih => exact ih.next hnext

theorem LivedOn.sends (h : LivedOn P w) : ∀ raw ∈ w.cluster.sendable, P raw := by
  cases h with
  | new watch tail clock clusterScoped =>
      intro raw hraw
      cases clusterScoped <;> cases hraw
  | next _ _ hsends => exact hsends

/-- Somebody requests something. -/
theorem LivedOn.begin {s : Session} {r : Request} (h : LivedOn P s.world) (inLoop : Bool)
    (instant : ∀ seconds, r ≠ .advance seconds)
    (known : ∀ k, s.concerns r = some k → k < s.world.sinks.length)
    (hsends : ∀ raw ∈ (s.begin r inLoop).1.world.cluster.sendable, P raw) :
    LivedOn P (s.begin r inLoop).1.world :=
  h.next (.request s r inLoop instant known) hsends

/-- Whatever is said of all that the cluster has to send holds of all that informers have. -/
theorem LivedOn.supplied (h : LivedOn P w) : w.Supplied P := by
  induction h with
  | new watch tail clock clusterScoped =>
      exact {
        stored := fun _ => ⟨Partition.sound_nil, fun _ hentry => absurd hentry List.not_mem_nil⟩
        told := fun _ _ _ hstanding => by cases hstanding }
  | next hw hnext _ ih => exact hnext.supplied hw.lived hw.sends ih

end Simulation.World

end LiveCluster
