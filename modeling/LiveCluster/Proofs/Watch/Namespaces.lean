import LiveCluster.Proofs.Watch.LastWrite
import LiveCluster.Simulation.Scope

/-!
# A namespace and all of them

A namespace without an informer of its own is served by the informer of all
namespaces, which holds objects that such an informer would never hear of. A reader
cannot tell the two apart: what either finds in the namespace is the same, in the
same order.

The argument is a simulation. `Keyed.restrict` leaves out the entries under keys that
do not matter, and it commutes with everything that is ever done to a partition. A
path says the namespace of what is under it, since a name holds no slash; so to
restrict by path is to restrict by namespace, and objects of different namespaces
never share a path.
-/

namespace LiveCluster

namespace Keyed

variable {α : Type} (keep : String → Bool)

theorem restrict_set {key : String} (h : keep key = true) (table : Keyed α) (x : α) :
    (table.set key x).restrict keep = (table.restrict keep).set key x := by
  induction table with
  | nil => simp [set, restrict, h]
  | cons entry rest ih =>
      obtain ⟨k, old⟩ := entry
      by_cases hkey : k = key
      · subst hkey
        simp [set, restrict, h]
      · rw [set, if_neg hkey, restrict, restrict, List.filter_cons, List.filter_cons, ← restrict,
          ← restrict, ih]
        split
        · rw [set, if_neg hkey]
        · rfl

theorem restrict_set_of_not {key : String} (h : keep key = false) (table : Keyed α) (x : α) :
    (table.set key x).restrict keep = table.restrict keep := by
  induction table with
  | nil => simp [set, restrict, h]
  | cons entry rest ih =>
      rw [set]
      split
      · next hkey => simp [restrict, hkey, h]
      · rw [restrict, restrict, List.filter_cons, List.filter_cons, ← restrict, ← restrict, ih]

theorem restrict_erase (table : Keyed α) (key : String) :
    (table.erase key).restrict keep = (table.restrict keep).erase key := by
  rw [restrict, erase, restrict, erase, List.filter_filter, List.filter_filter]
  exact List.filter_congr fun entry _ => Bool.and_comm _ _

theorem restrict_erase_of_not {key : String} (h : keep key = false) (table : Keyed α) :
    (table.erase key).restrict keep = table.restrict keep := by
  rw [restrict, erase, List.filter_filter, restrict]
  refine List.filter_congr fun entry _ => ?_
  by_cases hkey : entry.1 = key <;> simp [hkey, h]

end Keyed

namespace Value

/-- Whether the metadata of an object says that it lives in a namespace. -/
def livesIn (n : String) (raw : Value) : Bool :=
  match metadataOf raw with
  | .ok metadata =>
    match metadata.get? "namespace" with
    | some (.text ns) => ns == n
    | _ => false
  | .error _ => false

/-- Metadata is a record; in it the name is a text without a slash, the namespace a text and
the labels a record, as far as they are there. -/
def WellTyped (raw : Value) : Prop :=
  ∃ fields metadata : Fields, raw = .record fields ∧
    fields.get? "metadata" = some (.record metadata) ∧
    (∀ v, metadata.get? "name" = some v → ∃ name, v = .text name ∧ '/' ∉ name.toList) ∧
    (∀ v, metadata.get? "namespace" = some v → ∃ ns, v = .text ns) ∧
    (∀ v, metadata.get? "labels" = some v → ∃ labels, v = .record labels)

theorem textOrEmpty_text (s : String) : (Value.text s).textOrEmpty = s := by
  unfold textOrEmpty
  split
  · rfl
  · next h =>
      have hempty : s = "" := by simpa [truthy] using h
      exact hempty.symm

/-- A snapshot can be taken of such an object, and it tells where the object lives. -/
theorem WellTyped.snapshot {raw : Value} (h : raw.WellTyped) :
    ∃ s, Snapshot.ofRaw raw = .ok s ∧ '/' ∉ s.name.toList ∧
      ∀ n, n ≠ "" → raw.livesIn n = (s.ns == n) := by
  obtain ⟨fields, metadata, rfl, hmetadata, hname, hns, hlabels⟩ := h
  obtain ⟨hm, s, hs, hsns, hsname⟩ := Snapshot.ofRaw_record hmetadata hlabels
  refine ⟨s, hs, ?_, fun n hn => ?_⟩
  · rw [hsname, fieldText]
    cases hv : metadata.get? "name" with
    | none => decide
    | some v =>
        obtain ⟨name, rfl, hslash⟩ := hname v hv
        rwa [Option.getD_some, textOrEmpty_text]
  · rw [livesIn, hm, hsns, fieldText]
    dsimp only
    cases hv : metadata.get? "namespace" with
    | none => exact (beq_eq_false_iff_ne.2 (Ne.symm hn)).symm
    | some v =>
        obtain ⟨ns, rfl⟩ := hns v hv
        rw [Option.getD_some, textOrEmpty_text]

end Value

/-- An event that has no say about its object neither writes nor deletes it. -/
theorem WatchEvent.of_outcome?_eq_none {e : WatchEvent} {s : Snapshot}
    (hs : Snapshot.ofRaw e.object = .ok s) (h : e.outcome? = none) :
    e.isWrite = false ∧ e.type ≠ "DELETED" := by
  constructor
  · rw [Bool.eq_false_iff]
    intro hwrite
    rw [outcome?_of_isWrite hwrite hs] at h
    cases h
  · intro hdeleted
    rw [outcome?_of_deleted hdeleted] at h
    cases h

/-! ## Partitions by namespace -/

namespace Partition

/-- Whether a path leads into a namespace. -/
def into (n : String) (path : String) : Bool :=
  (Path.split path).1 == n

/-- What is at a path is an object of that path, whose name holds no slash. -/
def Addressed (p : Partition) : Prop :=
  ∀ entry ∈ p, entry.1 = entry.2.path ∧ '/' ∉ entry.2.name.toList

theorem into_path {s : Snapshot} (h : '/' ∉ s.name.toList) (n : String) :
    into n s.path = (s.ns == n) := by
  rw [into, Snapshot.path, Path.split_join h]

theorem Addressed.set {p : Partition} (h : p.Addressed) {s : Snapshot}
    (hs : '/' ∉ s.name.toList) : Addressed (Keyed.set p s.path s) := by
  induction p with
  | nil => simpa [Keyed.set, Addressed] using hs
  | cons entry rest ih =>
      obtain ⟨hentry, hrest⟩ := List.forall_mem_cons.1 h
      rw [Keyed.set]
      split
      · exact List.forall_mem_cons.2 ⟨⟨rfl, hs⟩, hrest⟩
      · exact List.forall_mem_cons.2 ⟨hentry, ih hrest⟩

theorem Addressed.erase {p : Partition} (h : p.Addressed) (path : String) :
    Addressed (Keyed.erase p path) := fun entry hentry =>
  h entry (List.mem_filter.1 hentry).1

/-- What is selected in a namespace is selected from what is at its paths. -/
theorem Addressed.select {p : Partition} (h : p.Addressed) {n : String} (hn : n ≠ "")
    (selector : Option Selector) :
    select (Keyed.restrict (into n) p) n selector = p.select n selector := by
  unfold Partition.select Keyed.entries Keyed.restrict
  rw [List.filter_map, List.filter_map, List.filter_filter]
  refine congrArg _ (List.filter_congr fun entry hentry => ?_)
  obtain ⟨hpath, hslash⟩ := h entry hentry
  rw [hpath, into_path hslash]
  have hnonempty : n.isEmpty = false := by
    rw [Bool.eq_false_iff, Ne, String.isEmpty_iff]
    exact hn
  cases hns : entry.2.ns == n <;> simp [belongs, hns, hnonempty]

/-! ## Listings and events -/

theorem Addressed.ofListing {items : List Value} (hitems : ∀ raw ∈ items, raw.WellTyped)
    {p : Partition} (h : p.Addressed) :
    ∃ q, ofListing items p = .ok q ∧ q.Addressed := by
  induction items generalizing p with
  | nil => exact ⟨p, rfl, h⟩
  | cons raw rest ih =>
      obtain ⟨hraw, hrest⟩ := List.forall_mem_cons.1 hitems
      obtain ⟨s, hs, hslash, -⟩ := hraw.snapshot
      have hnext : Addressed (if s.name.isEmpty then p else Keyed.set p s.path s) := by
        split
        · exact h
        · exact h.set hslash
      obtain ⟨q, hq, haddressed⟩ := ih hrest hnext
      refine ⟨q, ?_, haddressed⟩
      rw [Partition.ofListing, hs]
      exact hq

/-- The listing of a namespace is what the listing of all has in it. -/
theorem restrict_ofListing {n : String} (hn : n ≠ "") {items : List Value}
    (hitems : ∀ raw ∈ items, raw.WellTyped) {p q : Partition} (hq : ofListing items p = .ok q) :
    ofListing (items.filter (Value.livesIn n)) (Keyed.restrict (into n) p) =
      .ok (Keyed.restrict (into n) q) := by
  induction items generalizing p with
  | nil =>
      cases hq
      rfl
  | cons raw rest ih =>
      obtain ⟨hraw, hrest⟩ := List.forall_mem_cons.1 hitems
      obtain ⟨s, hs, hslash, hlives⟩ := hraw.snapshot
      rw [Partition.ofListing, hs] at hq
      have hrestricted := ih hrest hq
      rw [List.filter_cons, hlives n hn, ← into_path hslash]
      cases hinto : into n s.path with
      | true =>
          rw [if_pos rfl, Partition.ofListing, hs, ← hrestricted]
          show ofListing _ (if _ then _ else _) = _
          split
          · rfl
          · rw [Keyed.restrict_set _ hinto p s]
      | false =>
          rw [if_neg Bool.false_ne_true, ← hrestricted]
          split
          · rfl
          · rw [Keyed.restrict_set_of_not _ hinto p s]

/-- What is held once it has been tried to apply an event. -/
def held (p : Partition) : Except Fault Effect → Partition
  | .ok (.changed q) => q
  | _ => p

/-- The partition after an event about an object of which the snapshot was taken. -/
def withEvent (p : Partition) (e : WatchEvent) (s : Snapshot) : Partition :=
  if s.name.isEmpty || !p.admits s.path s.version then p
  else if e.isWrite then p.set s.path s
  else if e.type = "DELETED" then p.erase s.path
  else p

theorem erase_of_not_has {p : Partition} {path : String} (h : p.has path = false) :
    Keyed.erase p path = p := by
  refine List.filter_eq_self.2 fun entry hentry => ?_
  rw [decide_eq_true_eq]
  rintro rfl
  have hkey : entry.1 ∈ Keyed.keys p := List.mem_map_of_mem hentry
  rw [← Keyed.has_iff_mem_keys] at hkey
  rw [hkey] at h
  cases h

theorem Takes.held_eq {p : Partition} {e : WatchEvent} {s : Snapshot} {r : Except Fault Effect}
    (hs : Snapshot.ofRaw e.object = .ok s) (h : Takes p e s.version r) :
    p.held r = p.withEvent e s := by
  have hpath := (WatchEvent.of_snapshot hs).2
  have hname : ∀ {path}, e.path? = some path → s.name.isEmpty = false ∧ path = s.path := by
    intro path hsome
    rw [hpath] at hsome
    split at hsome
    · cases hsome
    · next hne => exact ⟨by simpa using hne, (Option.some.inj hsome).symm⟩
  cases h with
  | wrote hsome hadmits hwrite hs' =>
      obtain ⟨hne, rfl⟩ := hname hsome
      cases hs.symm.trans hs'
      simp [held, withEvent, hne, hadmits, hwrite]
  | erased hsome hadmits hdeleted _ =>
      obtain ⟨hne, rfl⟩ := hname hsome
      simp [held, withEvent, hne, hadmits, hdeleted, WatchEvent.isWrite_of_deleted hdeleted]
  | failed hnothing =>
      rcases hnothing with hnone | hnone
      · have hempty : s.name.isEmpty = true := by
          rw [hpath] at hnone
          simpa using hnone
        simp [held, withEvent, hempty]
      · obtain ⟨hwrite, hdeleted⟩ := WatchEvent.of_outcome?_eq_none hs hnone
        simp [held, withEvent, hwrite, hdeleted]
  | @kept effect hkept hsame =>
      have hheld : p.held (.ok effect) = p := by
        cases effect with
        | changed q => exact absurd rfl (hkept q)
        | bookmark | unnamed | outOfOrder _ _ | absent | ignored => rfl
      rw [hheld, withEvent]
      split
      · rfl
      · next hsays =>
          obtain ⟨hne, hadmits⟩ : s.name.isEmpty = false ∧ p.admits s.path s.version = true := by
            simpa using hsays
          rw [hne] at hpath
          rcases hsame s.path hpath hadmits with hnone | ⟨hdeleted, habsent⟩
          · obtain ⟨hwrite, hdeleted⟩ := WatchEvent.of_outcome?_eq_none hs hnone
            rw [hwrite, if_neg Bool.false_ne_true, if_neg hdeleted]
          · rw [WatchEvent.isWrite_of_deleted hdeleted, if_neg Bool.false_ne_true,
              if_pos hdeleted, erase_of_not_has habsent]

theorem admits_restrict {n : String} {s : Snapshot} (h : into n s.path = true) (p : Partition)
    (version : String) :
    admits (Keyed.restrict (into n) p) s.path version = p.admits s.path version := by
  rw [admits, Keyed.get?_restrict _ h, admits]

theorem restrict_withEvent {n : String} {s : Snapshot} (h : into n s.path = true) (p : Partition)
    (e : WatchEvent) :
    Keyed.restrict (into n) (p.withEvent e s) =
      withEvent (Keyed.restrict (into n) p) e s := by
  unfold withEvent
  rw [admits_restrict h]
  split
  · rfl
  · split
    · exact Keyed.restrict_set _ h p s
    · split
      · exact Keyed.restrict_erase _ p s.path
      · rfl

/-- An event about an object elsewhere changes nothing in a namespace. -/
theorem restrict_withEvent_of_not {n : String} {s : Snapshot} (h : into n s.path = false)
    (p : Partition) (e : WatchEvent) :
    Keyed.restrict (into n) (p.withEvent e s) = Keyed.restrict (into n) p := by
  unfold withEvent
  split
  · rfl
  · split
    · exact Keyed.restrict_set_of_not _ h p s
    · split
      · exact Keyed.restrict_erase_of_not _ h p
      · rfl

theorem Addressed.withEvent {p : Partition} (h : p.Addressed) {s : Snapshot}
    (hs : '/' ∉ s.name.toList) (e : WatchEvent) : (p.withEvent e s).Addressed := by
  unfold Partition.withEvent
  split
  · exact h
  · split
    · exact h.set hs
    · split
      · exact h.erase s.path
      · exact h

end Partition

/-! ## What an informer is told -/

/-- What is told about the objects of a scope: all of them, or a change of one. -/
inductive Tidings where
  | listing (items : List Value)
  | event (event : WatchEvent)

namespace Tidings

/-- What is told about the objects of a namespace. -/
def within (n : String) : Tidings → Option Tidings
  | .listing items => some (.listing (items.filter (Value.livesIn n)))
  | .event e => if e.object.livesIn n then some (.event e) else none

def WellTyped : Tidings → Prop
  | .listing items => ∀ raw ∈ items, raw.WellTyped
  | .event e => e.object.WellTyped

end Tidings

namespace Partition

/-- The partition of a scope of which something is told. -/
def told (p : Partition) : Tidings → Partition
  | .listing items => (ofListing items []).toOption.getD p
  | .event e =>
    match e.version with
    | .ok version => p.held (p.apply e version)
    | .error _ => p

theorem told_event {e : WatchEvent} {s : Snapshot} (hs : Snapshot.ofRaw e.object = .ok s)
    (p : Partition) : p.told (.event e) = p.withEvent e s := by
  simp only [told, (WatchEvent.of_snapshot hs).1]
  exact (takes p e s.version).held_eq hs

/-- One partition is the part of the other that a namespace has. -/
def PartOf (n : String) (part whole : Partition) : Prop :=
  part = Keyed.restrict (into n) whole ∧ whole.Addressed

/-- What is told of a namespace keeps its partition the part of the whole that it was. -/
theorem PartOf.told {n : String} (hn : n ≠ "") {part whole : Partition} (h : PartOf n part whole)
    {t : Tidings} (ht : t.WellTyped) :
    PartOf n (((t.within n).map part.told).getD part) (whole.told t) := by
  obtain ⟨rfl, haddressed⟩ := h
  cases t with
  | listing items =>
      obtain ⟨q, hq, hqaddressed⟩ := Addressed.ofListing ht (p := []) (by simp [Addressed])
      have hpart := restrict_ofListing hn ht hq
      refine ⟨?_, ?_⟩
      · show ((ofListing (items.filter (Value.livesIn n)) []).toOption.getD _) =
          Keyed.restrict (into n) ((ofListing items []).toOption.getD _)
        rw [hq, show ofListing (items.filter (Value.livesIn n)) [] = _ from hpart]
        rfl
      · show Addressed ((ofListing items []).toOption.getD _)
        rw [hq]
        exact hqaddressed
  | event e =>
      obtain ⟨s, hs, hslash, hlives⟩ := Value.WellTyped.snapshot ht
      rw [told_event hs]
      refine ⟨?_, haddressed.withEvent hslash e⟩
      rw [Tidings.within, hlives n hn, ← into_path hslash]
      cases hinto : into n s.path with
      | true =>
          rw [if_pos rfl, restrict_withEvent hinto]
          exact told_event hs _
      | false =>
          rw [if_neg Bool.false_ne_true, restrict_withEvent_of_not hinto]
          rfl

theorem PartOf.tidings {n : String} (hn : n ≠ "") {part whole : Partition}
    (h : PartOf n part whole) {ts : List Tidings} (hts : ∀ t ∈ ts, t.WellTyped) :
    PartOf n ((ts.filterMap (Tidings.within n)).foldl Partition.told part)
      (ts.foldl Partition.told whole) := by
  induction ts generalizing part whole with
  | nil => exact h
  | cons t rest ih =>
      obtain ⟨ht, hrest⟩ := List.forall_mem_cons.1 hts
      have hnext := ih (h.told hn ht) hrest
      rw [List.filterMap_cons, List.foldl_cons]
      cases hwithin : t.within n with
      | none =>
          rw [hwithin] at hnext
          exact hnext
      | some t' =>
          rw [hwithin] at hnext
          exact hnext

end Partition

namespace Informer

/-- What is told to an informer by something that happens to it. -/
def Deed.tidings? : Deed → Option Tidings
  | .heard (.listed items _) => some (.listing items)
  | .heard (.event e) => some (.event e)
  | _ => none

/-- What is told by one thing after another. -/
def tidings (ds : List Deed) : List Tidings :=
  ds.filterMap Deed.tidings?

theorem applyEvent_items (i : Informer) (e : WatchEvent) :
    (i.applyEvent e).1.items = i.items.told (.event e) := by
  have ha := applies i e
  generalize (i.applyEvent e).1 = j at ha ⊢
  generalize (i.applyEvent e).2.2 = changed at ha
  cases ha with
  | unreadable hv => simp only [Partition.told, hv]
  | refused hv hp => simp only [Partition.told, hv, hp, seen_items, Partition.held]
  | changed hv hp => simp only [Partition.told, hv, hp, Partition.held]
  | @dropped v effect hv hp hkept =>
      simp only [Partition.told, hv, hp, seen_items]
      cases effect with
      | changed q => exact absurd rfl (hkept q)
      | bookmark | unnamed | outOfOrder _ _ | absent | ignored => rfl

theorem told_event_items (i : Informer) (e : WatchEvent) :
    (i.told (.event e)).items = i.items.told (.event e) := by
  rw [← applyEvent_items]
  exact (applyEvent_congr i.establish_items e).2

theorem told_items_of_fault {i : Informer} {s : Signal} {fault : Fault}
    (h : i.fault? s = some fault) :
    (i.told s).items = ((Deed.heard s).tidings?.map i.items.told).getD i.items := by
  cases s with
  | listed items v =>
      show i.items = (Partition.ofListing items []).toOption.getD i.items
      simp only [fault?] at h
      cases hp : Partition.ofListing items [] with
      | ok p =>
          rw [hp] at h
          cases h
      | error f => rfl
  | event e => exact i.told_event_items e
  | started | listFailed _ | ended | watchFailed _ | woke => rfl

theorem react_items (i : Informer) (s : Signal) :
    (i.react s).informer.items = ((Deed.heard s).tidings?.map i.items.told).getD i.items := by
  have hr := reacts i s
  generalize (i.react s).informer = j at hr ⊢
  generalize (i.react s).command = c at hr
  cases hr with
  | started => rfl
  | listing hs _ | resuming hs _ => rcases hs with rfl | ⟨rfl, -⟩ <;> rfl
  | @listed items v p hp =>
      show p = (Partition.ofListing items []).toOption.getD i.items
      rw [hp]
      rfl
  | event _ => exact i.told_event_items _
  | gone hf _ | counted hf _ => exact told_items_of_fault hf
  | closed _ => exact i.closed_view.items

/-- The partition changes by what is told and by nothing else. -/
theorem after_items (i : Informer) (d : Deed) :
    (i.after d).items = (d.tidings?.map i.items.told).getD i.items := by
  cases d with
  | started | stopped => rfl
  | alarm => exact i.establish_items
  | heard s => exact i.react_items s

theorem lived_items (i : Informer) (ds : List Deed) :
    (i.lived ds).items = (tidings ds).foldl Partition.told i.items := by
  induction ds generalizing i with
  | nil => rfl
  | cons d rest ih =>
      rw [show i.lived (d :: rest) = (i.after d).lived rest from rfl, ih, after_items, tidings,
        tidings, List.filterMap_cons]
      cases d.tidings? with
      | none => rfl
      | some t => rfl

end Informer

/-! ## Readers -/

namespace Simulation.World

theorem scopeNamespace_of_namespaced {w : World} {rid : ResourceId}
    (h : w.cluster.namespaced rid = true) (n : String) : w.scopeNamespace rid n = n := by
  rw [scopeNamespace, h]
  rfl

theorem lookup_own {w : World} {f : FactoryId} {rid : ResourceId} {n : String} {i : InformerId}
    (hkind : w.cluster.namespaced rid = true)
    (h : (w.factory f).informers.get? (rid.scopeKey n) = some i) : w.lookup f rid n = some i := by
  simp only [lookup, scopeNamespace_of_namespaced hkind, h]

theorem lookup_all {w : World} {f : FactoryId} {rid : ResourceId} {n : String} {i : InformerId}
    (hkind : w.cluster.namespaced rid = true) (hn : n ≠ "")
    (hnone : (w.factory f).informers.get? (rid.scopeKey n) = none)
    (h : (w.factory f).informers.get? (rid.scopeKey "") = some i) :
    w.lookup f rid n = some i := by
  simp [lookup, scopeNamespace_of_namespaced hkind, hnone, hn, h]

theorem list_of_lookup {w : World} {f : FactoryId} {rid : ResourceId} {n : String}
    {i : InformerId} (hkind : w.cluster.namespaced rid = true)
    (h : w.lookup f rid n = some i) (selector : Option Selector) :
    w.list f rid n selector = (w, (w.informer i).cache.items.select n selector) := by
  simp only [list, scopeNamespace_of_namespaced hkind, h]

theorem get_of_lookup {w : World} {f : FactoryId} {rid : ResourceId} {n name : String}
    {i : InformerId} (hname : '/' ∉ name.toList) (h : w.lookup f rid n = some i) :
    w.get f rid (Path.join n name) = (w, (w.informer i).cache.items.get? (Path.join n name)) := by
  simp only [get, Path.split_join hname, h]

/-- Two factories watch a kind with namespaces, one of them all namespaces at once and the other
one namespace. To the one informer anything is told, by listings and events about objects whose
metadata is as it should be, to the other what of this is about its namespace; and apart from
what they are told anything may happen to either. Then readers of the namespace find the same
objects in the same order through both, and the same object at every path. -/
theorem served_alike (w w' : World) (f f' : FactoryId) (rid : ResourceId) (n : String)
    (i i' : InformerId) (config config' : WatchConfig) (ds ds' : List Informer.Deed)
    (hn : n ≠ "")
    (hkind : w.cluster.namespaced rid = true)
    (hkind' : w'.cluster.namespaced rid = true)
    (hnone : (w.factory f).informers.get? (rid.scopeKey n) = none)
    (hall : (w.factory f).informers.get? (rid.scopeKey "") = some i)
    (hown : (w'.factory f').informers.get? (rid.scopeKey n) = some i')
    (hlived : (w.informer i).cache = (Informer.new rid "" config).lived ds)
    (hlived' : (w'.informer i').cache = (Informer.new rid n config').lived ds')
    (htyped : ∀ t ∈ Informer.tidings ds, t.WellTyped)
    (hwithin : Informer.tidings ds' = (Informer.tidings ds).filterMap (Tidings.within n)) :
    (∀ selector, (w.list f rid n selector).2 = (w'.list f' rid n selector).2) ∧
      ∀ name, '/' ∉ name.toList →
        (w.get f rid (Path.join n name)).2 = (w'.get f' rid (Path.join n name)).2 := by
  have hpart : Partition.PartOf n (w'.informer i').cache.items (w.informer i).cache.items := by
    rw [hlived, hlived', Informer.lived_items, Informer.lived_items, hwithin]
    exact Partition.PartOf.tidings hn ⟨rfl, fun _ hentry => absurd hentry List.not_mem_nil⟩ htyped
  obtain ⟨hitems, haddressed⟩ := hpart
  have hserved := lookup_all hkind hn hnone hall
  have hserved' := lookup_own hkind' hown
  constructor
  · intro selector
    rw [list_of_lookup hkind hserved, list_of_lookup hkind' hserved', hitems]
    exact (haddressed.select hn selector).symm
  · intro name hname
    have hinto : Partition.into n (Path.join n name) = true := by
      rw [Partition.into, Path.split_join hname]
      exact beq_self_eq_true n
    rw [get_of_lookup hname hserved, get_of_lookup hname hserved', hitems]
    exact (Keyed.get?_restrict _ hinto _).symm

/-- What the cluster tells of a pod. -/
def podOf (ns name version : String) : Value :=
  .record [
    ("kind", .text "Pod"),
    ("metadata", .record [
      ("namespace", .text ns), ("name", .text name), ("resourceVersion", .text version)])]

theorem wellTyped_podOf {name : String} (h : '/' ∉ name.toList) (ns version : String) :
    (podOf ns name version).WellTyped := by
  refine ⟨_, _, rfl, rfl, fun v hv => ?_, fun v hv => ?_, fun v hv => (by cases hv)⟩
  · cases hv
    exact ⟨name, rfl, h⟩
  · cases hv
    exact ⟨ns, rfl⟩

/-- Pods of two namespaces; one of them is listed twice, another goes and comes back. -/
def podTidings : List Tidings := [
  .listing [podOf "b" "x" "1", podOf "a" "x" "2", podOf "b" "x" "3", podOf "a" "y" "3"],
  .event ⟨"DELETED", podOf "a" "x" "4"⟩,
  .event ⟨"MODIFIED", podOf "b" "x" "5"⟩,
  .event ⟨"ADDED", podOf "a" "x" "6"⟩]

/-- What happens to an informer to which something is told. -/
def deedOf : Tidings → Informer.Deed
  | .listing items => .heard (.listed items "")
  | .event e => .heard (.event e)

/-- A world in which the pods of a scope are watched to whose informer this happened. -/
def watchingPods (ns : String) (ds : List Informer.Deed) : World where
  clock := default
  informers := [{ cache := (Informer.new .pods ns {}).lived ds }]
  factories := [{ informers := [(ResourceId.pods.scopeKey ns, 0)] }]

theorem served_alike_pods :
    let all := watchingPods "" (podTidings.map deedOf)
    let own := watchingPods "a"
      (.alarm :: (podTidings.filterMap (Tidings.within "a")).map deedOf ++ [.stopped])
    (all.list 0 .pods "a" none).2.map (·.name) = ["y", "x"] ∧
      (all.list 0 .pods "a" none).2 = (own.list 0 .pods "a" none).2 ∧
      (all.get 0 .pods "a/x").2 = (own.get 0 .pods "a/x").2 := by
  have htyped : ∀ t ∈ podTidings, t.WellTyped := by
    simp only [podTidings, List.forall_mem_cons, Tidings.WellTyped]
    refine ⟨⟨?_, ?_, ?_, ?_, by simp⟩, ?_, ?_, ?_, by simp⟩
    all_goals exact wellTyped_podOf (by decide) _ _
  have h := served_alike
    (watchingPods "" (podTidings.map deedOf))
    (watchingPods "a"
      (.alarm :: (podTidings.filterMap (Tidings.within "a")).map deedOf ++ [.stopped]))
    0 0 .pods "a" 0 0 {} {} _ _ (by decide) rfl rfl rfl rfl rfl rfl rfl htyped rfl
  exact ⟨rfl, h.1 none, h.2 "x" (by decide)⟩

end Simulation.World

end LiveCluster
