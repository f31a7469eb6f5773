import LiveCluster.Proofs.Watch.Intact
import LiveCluster.Proofs.Watch.LastWrite

/-!
# The entries of a partition, and its revision

A partition finds an object under a path that is worked out twice: once by the event,
which has to know which entry it concerns, and once by the snapshot that is stored.
Both take it from the same places of the raw object, so an entry is always under the
path of its own object. The invariant `Sound` says that, and that a snapshot says
nothing which its raw object does not.

The revision counts what changed the partition, and nothing else. An event that is
dropped is dropped for one of five reasons, and leaves the informer as it was but for
the version from which the next watch resumes.
-/

namespace LiveCluster

/-! ## Snapshots -/

/-- Whether a snapshot says of its raw object what is there. -/
structure Snapshot.Faithful (s : Snapshot) : Prop where
  kind : ∃ fields, s.raw = .record fields ∧
    s.kind = ((Keyed.get? fields "kind").getD (.text "")).asText
  ns : s.ns = (s.raw.at? ["metadata", "namespace"]).textOrEmpty
  name : s.name = (s.raw.at? ["metadata", "name"]).textOrEmpty
  version : s.version = (s.raw.at? ["metadata", "resourceVersion"]).textOrEmpty
  labels : tableOf ((s.raw.at? ["metadata", "labels"]).orElse (.record [])) = .ok s.labelled

theorem fieldsOf_ok {v : Value} {fields : Fields} (h : fieldsOf v = .ok fields) :
    v = .record fields := by
  cases v with
  | record fs =>
      simp only [fieldsOf, Except.ok.injEq] at h
      rw [h]
  | null | bool _ | int _ | float _ | text _ | list _ => simp [fieldsOf] at h

/-- The metadata of an object is looked up where it is; what does not count as present has no
fields. -/
theorem at?_metadata {raw : Value} {metadata : Fields} (h : metadataOf raw = .ok metadata)
    (name : String) :
    raw.at? ["metadata", name] = (metadata.get? name).getD .null := by
  obtain ⟨fields, hfields, h⟩ := ok_of_bind h
  rw [fieldsOf_ok hfields, Value.at?]
  show Value.at? ((fields.get? "metadata").getD .null) [name] = _
  generalize (fields.get? "metadata").getD .null = v at h ⊢
  have hrecord := fieldsOf_ok h
  unfold Value.orElse at hrecord
  split at hrecord
  · rw [hrecord, Value.at?, Value.at?]
  · next hmissing =>
      cases hrecord
      cases v with
      | record fs =>
          have hempty : fs = [] := by simpa [Value.truthy] using hmissing
          rw [hempty, Value.at?, Value.at?]
      | null | bool _ | int _ | float _ | text _ | list _ => rfl

/-- A snapshot that was taken of an object is faithful to it. -/
theorem Snapshot.faithful_ofRaw {raw : Value} {s : Snapshot} (h : Snapshot.ofRaw raw = .ok s) :
    s.Faithful := by
  obtain ⟨fields, hfields, h⟩ := ok_of_bind h
  obtain ⟨metadata, hmetadata, h⟩ := ok_of_bind h
  obtain ⟨labels, hlabels, h⟩ := ok_of_bind h
  have hat := at?_metadata hmetadata
  cases h
  exact {
    kind := ⟨fields, fieldsOf_ok hfields, rfl⟩
    ns := by rw [hat]; rfl
    name := by rw [hat]; rfl
    version := by rw [hat]; rfl
    labels := by rw [hat, hlabels] }

/-- Labels that are a record are taken over as they are. -/
theorem Snapshot.Faithful.labels_of_record {s : Snapshot} (h : s.Faithful) {fields : Fields}
    (hat : s.raw.at? ["metadata", "labels"] = .record fields) : s.labels = fields := by
  have hlabelled := h.labels
  rw [hat, Value.orElse_record] at hlabelled
  rw [Snapshot.labels, ← Except.ok.inj hlabelled, Table.fields_ofFields]

/-! ## Partitions -/

namespace Partition

/-- Whether a partition has each key once, and under it an object that is named, is where its
path is, and was taken faithfully. -/
structure Sound (p : Partition) : Prop where
  unique : p.keys.Nodup
  path : ∀ entry ∈ p, entry.1 = entry.2.path
  named : ∀ entry ∈ p, entry.2.name.isEmpty = false
  faithful : ∀ entry ∈ p, entry.2.Faithful

theorem sound_nil : Sound [] where
  unique := List.nodup_nil
  path := by simp
  named := by simp
  faithful := by simp

/-- A named object may be put under its path. -/
theorem Sound.set {p : Partition} {raw : Value} {s : Snapshot} (hp : p.Sound)
    (hs : Snapshot.ofRaw raw = .ok s) (hname : s.name.isEmpty = false) :
    Sound (p.set s.path s) where
  unique := Keyed.nodup_keys_set hp.unique _ _
  path := by
    intro entry hentry
    rcases Keyed.mem_set hentry with hold | hnew
    · exact hp.path entry hold
    · rw [hnew]
  named := by
    intro entry hentry
    rcases Keyed.mem_set hentry with hold | hnew
    · exact hp.named entry hold
    · rw [hnew]
      exact hname
  faithful := by
    intro entry hentry
    rcases Keyed.mem_set hentry with hold | hnew
    · exact hp.faithful entry hold
    · rw [hnew]
      exact Snapshot.faithful_ofRaw hs

theorem Sound.erase {p : Partition} (hp : p.Sound) (path : String) :
    Sound (p.erase path) where
  unique := Keyed.nodup_keys_erase hp.unique path
  path := fun entry hentry => hp.path entry ((List.mem_filter.1 hentry).1)
  named := fun entry hentry => hp.named entry ((List.mem_filter.1 hentry).1)
  faithful := fun entry hentry => hp.faithful entry ((List.mem_filter.1 hentry).1)

theorem Sound.ofListing {items : List Value} {p q : Partition} (hp : p.Sound)
    (h : Partition.ofListing items p = .ok q) : q.Sound := by
  induction items generalizing p with
  | nil =>
      cases h
      exact hp
  | cons raw rest ih =>
      obtain ⟨s, hs, h⟩ := ok_of_bind h
      refine ih ?_ h
      split
      · exact hp
      · next hname => exact hp.set hs (by simpa using hname)

/-- The path that an event works out is the one of the snapshot that is taken of its object. -/
theorem Sound.apply {p q : Partition} {e : WatchEvent} {version : String} (hp : p.Sound)
    (h : p.apply e version = .ok (.changed q)) : q.Sound := by
  have htakes := takes p e version
  rw [h] at htakes
  cases htakes with
  | wrote hpath _ _ hs =>
      have hsame := (WatchEvent.of_snapshot hs).2
      rw [hpath] at hsame
      split at hsame
      · cases hsame
      · next hname =>
          cases hsame
          exact hp.set hs (by simpa using hname)
  | erased _ _ _ _ => exact hp.erase _
  | kept hkept _ => exact absurd rfl (hkept q)

/-- Why an event changes nothing, though nothing is wrong with it. -/
inductive Drops (p : Partition) (e : WatchEvent) (version : String) : Prop
  | bookmark : e.type = "BOOKMARK" → Drops p e version
  | unnamed : e.path? = none → Drops p e version
  | older {path : String} {current : Snapshot} :
      e.path? = some path → p.get? path = some current →
      newerOrEqual version current.version = false → Drops p e version
  | absent {path : String} :
      e.type = "DELETED" → e.path? = some path → p.get? path = none → Drops p e version
  | unknown : e.isWrite = false → e.type ≠ "DELETED" → Drops p e version

/-- What is done about a named object once the event is not too old for it. -/
def revise (p : Partition) (e : WatchEvent) (path : String) : Except Fault Effect :=
  if e.isWrite then (Snapshot.ofRaw e.object).bind fun s => .ok (.changed (p.set path s))
  else if e.type = "DELETED" then .ok (if p.has path then .changed (p.erase path) else .absent)
  else .ok .ignored

theorem apply_named {p : Partition} {e : WatchEvent} {version path : String}
    (htype : e.type ≠ "BOOKMARK") (hpath : e.path? = some path) :
    p.apply e version = match p.get? path with
      | some current =>
        if newerOrEqual version current.version then p.revise e path
        else .ok (.outOfOrder path current.version)
      | none => p.revise e path := by
  rw [apply, if_neg htype]
  rw [WatchEvent.path?] at hpath
  split at hpath
  · next metadata hmetadata =>
      rw [hmetadata]
      dsimp only [bind, Except.bind] at hpath ⊢
      split at hpath
      · cases hpath
      · next hname =>
          cases hpath
          rw [if_neg hname]
          generalize Path.join (fieldText metadata "namespace") (fieldText metadata "name") = path
          cases p.get? path with
          | none => rfl
          | some current =>
              dsimp only
              generalize newerOrEqual version current.version = newer
              cases newer <;> rfl
  · cases hpath

theorem apply_unnamed {p : Partition} {e : WatchEvent} {version : String}
    (hv : e.version = .ok version) (htype : e.type ≠ "BOOKMARK") (hpath : e.path? = none) :
    p.apply e version = .ok .unnamed := by
  obtain ⟨metadata, hmetadata, -⟩ := ok_of_bind hv
  rw [WatchEvent.path?, hmetadata] at hpath
  rw [apply, if_neg htype, hmetadata]
  dsimp only [bind, Except.bind] at hpath ⊢
  split at hpath
  · next hname =>
      rw [if_pos hname]
      rfl
  · cases hpath

/-- A named object is revised, unless what is said of it changes nothing or cannot be stored. -/
theorem revise_drops_iff {p : Partition} {e : WatchEvent} {path : String} :
    (∃ effect, p.revise e path = .ok effect ∧ ∀ q, effect ≠ .changed q) ↔
      e.isWrite = false ∧ (e.type = "DELETED" → p.get? path = none) := by
  unfold revise
  by_cases hwrite : e.isWrite = true
  · rw [if_pos hwrite]
    cases Snapshot.ofRaw e.object with
    | error fault => simp [Except.bind, hwrite]
    | ok s => simp [Except.bind, hwrite]
  · rw [if_neg hwrite]
    by_cases hdeleted : e.type = "DELETED"
    · rw [if_pos hdeleted]
      have hhas : Keyed.has p path = (Keyed.get? p path).isSome := rfl
      cases hget : Keyed.get? p path with
      | some s => simp [hhas, hget, hdeleted]
      | none => simp [hhas, hget, hwrite]
    · simp [hdeleted, hwrite]

/-- An event about a named object changes nothing if it is too old for what is there, or has
nothing to say. -/
theorem named_drops_iff {p : Partition} {e : WatchEvent} {version path : String}
    (htype : e.type ≠ "BOOKMARK") (hpath : e.path? = some path) :
    (∃ effect, p.apply e version = .ok effect ∧ ∀ q, effect ≠ .changed q) ↔
      (∃ current, p.get? path = some current ∧ newerOrEqual version current.version = false) ∨
        e.isWrite = false ∧ (e.type = "DELETED" → p.get? path = none) := by
  rw [apply_named htype hpath, ← revise_drops_iff]
  cases hget : Keyed.get? p path with
  | none => simp
  | some current =>
      dsimp only
      cases hnewer : newerOrEqual version current.version with
      | true => simp [hnewer]
      | false => simp [hnewer]

/-- An event changes nothing exactly for one of these reasons. -/
theorem drops_iff {p : Partition} {e : WatchEvent} {version : String}
    (hv : e.version = .ok version) :
    (∃ effect, p.apply e version = .ok effect ∧ ∀ q, effect ≠ .changed q) ↔
      Drops p e version := by
  by_cases htype : e.type = "BOOKMARK"
  · rw [apply, if_pos htype]
    exact iff_of_true ⟨.bookmark, rfl, by simp⟩ (.bookmark htype)
  cases hpath : e.path? with
  | none =>
      rw [apply_unnamed hv htype hpath]
      exact iff_of_true ⟨.unnamed, rfl, by simp⟩ (.unnamed hpath)
  | some path =>
      rw [named_drops_iff htype hpath]
      constructor
      · rintro (⟨current, hcurrent, hnewer⟩ | ⟨hwrite, habsent⟩)
        · exact .older hpath hcurrent hnewer
        · by_cases hdeleted : e.type = "DELETED"
          · exact .absent hdeleted hpath (habsent hdeleted)
          · exact .unknown hwrite hdeleted
      · intro hdrops
        cases hdrops with
        | bookmark h => exact absurd h htype
        | unnamed h => rw [hpath] at h; cases h
        | older hp hcurrent hnewer =>
            cases hpath.symm.trans hp
            exact .inl ⟨_, hcurrent, hnewer⟩
        | absent hdeleted hp hnone =>
            cases hpath.symm.trans hp
            exact .inr ⟨by simp [WatchEvent.isWrite, hdeleted], fun _ => hnone⟩
        | unknown hwrite hdeleted => exact .inr ⟨hwrite, fun h => absurd h hdeleted⟩

end Partition

/-! ## Informers -/

namespace Informer

/-- An event is dropped exactly if its version can be read and one of the reasons holds; then the
informer has seen the version, and that is all. -/
theorem applyEvent_drops (i : Informer) (e : WatchEvent) :
    (i.applyEvent e).2.2 = .ok false ↔
      ∃ v, e.version = .ok v ∧ i.items.Drops e v ∧ (i.applyEvent e).1 = i.seen v := by
  have happlies := applies i e
  generalize (i.applyEvent e).1 = j at happlies ⊢
  generalize (i.applyEvent e).2.2 = result at happlies ⊢
  have hkept {v : String} (hv : e.version = .ok v) (hdrops : ∃ v, e.version = .ok v ∧
      i.items.Drops e v ∧ j = i.seen v) :
      ∃ effect, i.items.apply e v = .ok effect ∧ ∀ q, effect ≠ .changed q := by
    obtain ⟨v', hv', hdrops, -⟩ := hdrops
    cases hv.symm.trans hv'
    exact (Partition.drops_iff hv).2 hdrops
  constructor
  · intro hresult
    cases happlies with
    | unreadable _ | refused _ _ | changed _ _ => cases hresult
    | dropped hv heffect hne => exact ⟨_, hv, (Partition.drops_iff hv).1 ⟨_, heffect, hne⟩, rfl⟩
  · intro hdrops
    cases happlies with
    | unreadable herror =>
        obtain ⟨v, hv, -⟩ := hdrops
        rw [herror] at hv
        cases hv
    | refused hv herror =>
        obtain ⟨effect, heffect, -⟩ := hkept hv hdrops
        rw [herror] at heffect
        cases heffect
    | changed hv hchanged =>
        obtain ⟨effect, heffect, hne⟩ := hkept hv hdrops
        rw [hchanged] at heffect
        cases heffect
        exact absurd rfl (hne _)
    | dropped _ _ _ => rfl

/-- Whether something that happens changes the partition: a listing of whose objects snapshots
can be taken, or an event that is applied. -/
def changes (i : Informer) : Deed → Bool
  | .heard (.listed items _) => (Partition.ofListing items []).toOption.isSome
  | .heard (.event e) => (i.applyEvent e).2.2.toOption.getD false
  | _ => false

/-- How many of the things that happen one after another change the partition. -/
def changeCount : Informer → List Deed → Nat
  | _, [] => 0
  | i, d :: rest => (if i.changes d then 1 else 0) + changeCount (i.after d) rest

theorem changes_of_fault {i : Informer} {s : Signal} {fault : Fault}
    (h : i.fault? s = some fault) : i.changes (.heard s) = false := by
  cases s with
  | listed items v =>
      simp only [fault?] at h
      cases hp : Partition.ofListing items [] with
      | ok p => rw [hp] at h; cases h
      | error f => rw [changes, hp]; rfl
  | event e =>
      simp only [fault?] at h
      cases hresult : (i.applyEvent e).2.2 with
      | ok b => rw [hresult] at h; cases h
      | error f => rw [changes, hresult]; rfl
  | started | listFailed _ | ended | watchFailed _ | woke => rfl

theorem applyEvent_revision (i : Informer) (e : WatchEvent) :
    (i.applyEvent e).1.revision =
      i.revision + if i.changes (.heard (.event e)) then 1 else 0 := by
  have happlies := applies i e
  rw [changes]
  generalize (i.applyEvent e).1 = j at happlies ⊢
  generalize (i.applyEvent e).2.2 = result at happlies ⊢
  cases happlies with
  | unreadable _ => rfl
  | refused _ _ | dropped _ _ _ => exact i.seen_revision _
  | changed _ _ => rfl

theorem told_event_revision (i : Informer) (e : WatchEvent) :
    (i.told (.event e)).revision =
      i.revision + if i.changes (.heard (.event e)) then 1 else 0 := by
  have hsame : i.establish.1.changes (.heard (.event e)) = i.changes (.heard (.event e)) := by
    simp only [changes, (applyEvent_congr i.establish_items e).1]
  rw [told, applyEvent_revision, i.establish_view.revision, hsame]

/-- The revision counts what changes the partition. -/
theorem Reacts.revision {i j : Informer} {s : Signal} {c : Command} (h : Reacts i s j c) :
    j.revision = i.revision + if i.changes (.heard s) then 1 else 0 := by
  cases h with
  | started => rfl
  | listed hp => rw [changes, hp]; rfl
  | event _ => exact i.told_event_revision _
  | gone hfault _ | counted hfault _ =>
      rw [changes_of_fault hfault]
      exact (told_view_of_fault hfault).revision
  | closed _ => exact i.closed_view.revision
  | listing hs _ | resuming hs _ =>
      rcases hs with hs | ⟨hs, -⟩ <;> rw [hs] <;> rfl

theorem after_revision (i : Informer) (d : Deed) :
    (i.after d).revision = i.revision + if i.changes d then 1 else 0 := by
  cases d with
  | started | stopped => rfl
  | heard s => exact (reacts i s).revision
  | alarm => exact i.establish_view.revision

theorem lived_revision (i : Informer) (ds : List Deed) :
    (i.lived ds).revision = i.revision + i.changeCount ds := by
  induction ds generalizing i with
  | nil => rfl
  | cons d rest ih =>
      have hstep := i.after_revision d
      have hrest := ih (i.after d)
      show ((i.after d).lived rest).revision = _
      rw [changeCount]
      omega

/-- Whatever happens to an informer, its partition stays sound. -/
theorem after_sound {i : Informer} (h : i.items.Sound) (d : Deed) : (i.after d).items.Sound := by
  rcases i.after_view d with hview | hrevises
  · rw [hview.items]
    exact h
  · cases hrevises with
    | listing _ hlisting _ _ => exact Partition.sound_nil.ofListing hlisting
    | @event e hresult hitems _ _ =>
        rw [hitems]
        have happlies := applies i e
        rw [hresult] at happlies
        generalize (i.applyEvent e).1 = j at happlies ⊢
        cases happlies with
        | changed _ hchanged => exact h.apply hchanged

theorem lived_sound {i : Informer} (h : i.items.Sound) (ds : List Deed) :
    (i.lived ds).items.Sound := by
  induction ds generalizing i with
  | nil => exact h
  | cons d rest ih => exact ih (after_sound h d)

/-- In every state that an informer can come to, whatever has happened to it, the partition has
each key once, and under it a named object of that path whose snapshot says what its raw object
says. The revision is the number of listings that were taken over and events that were applied.
And an event is dropped exactly for one of the five reasons; what it leaves is the same informer,
only that the version of the event, unless that is empty, is the one to resume from. -/
theorem entries_described (rid : ResourceId) (ns : String) (config : WatchConfig)
    (past : List Deed) :
    let i := (new rid ns config).lived past
    i.items.Sound ∧
      i.revision = (new rid ns config).changeCount past ∧
      (∀ d, (i.after d).revision = i.revision + if i.changes d then 1 else 0) ∧
      ∀ e, (i.applyEvent e).2.2 = .ok false ↔
        ∃ v, e.version = .ok v ∧ i.items.Drops e v ∧
          (i.applyEvent e).1 = if v.isEmpty then i else { i with version := v } := by
  intro i
  refine ⟨lived_sound Partition.sound_nil past, ?_, i.after_revision, i.applyEvent_drops⟩
  have hcount := lived_revision (new rid ns config) past
  rw [hcount]
  exact Nat.zero_add _

end Informer

end LiveCluster
