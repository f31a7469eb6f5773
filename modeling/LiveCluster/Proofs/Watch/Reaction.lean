import LiveCluster.Proofs.Watch.Malformed
import LiveCluster.Proofs.Watch.Run

/-!
# What a reaction can do

Whatever a worker is told, `Reacts` says which state the informer is in afterwards
and which command comes next; there is a case for each thing that can be told, and
`reacts` is the only proof that looks into the reaction. What a run keeps is then
shown case by case over `Reacts`.

Faults are told in four ways, by a listing, by a watch, by a malformed listing and by
an event that cannot be applied, and all four are handled alike. So there is one
case for the expired version and one for every other fault. The end of a watch that
was never established is the only failure that is no fault.
-/

namespace LiveCluster.Informer

/-! ## Counting and pausing -/

/-- The state after one more failure. -/
def failed (i : Informer) : Informer :=
  { i with
    failures := i.failures + 1
    state := if i.config.staleThreshold ≤ (i.failures + 1 : Nat) then .stale else i.state }

theorem countFailure_informer (i : Informer) (fault : Fault) :
    (i.countFailure fault).1 = i.failed := by
  unfold countFailure failed
  dsimp only
  by_cases ht : i.config.staleThreshold ≤ (i.failures + 1 : Nat)
  · rw [if_pos ht]
    by_cases hs : i.state = .stale
    · rw [if_neg (by simp [hs]), hs]
    · rw [if_pos (by simp [hs]; omega)]
  · rw [if_neg ht, if_neg (by simp; omega)]

theorem countFailure_delay (i : Informer) (fault : Fault) :
    (i.countFailure fault).2.2 = backoffDelay i.config (i.failures + 1 : Nat) := by
  unfold countFailure
  dsimp only
  split <;> rfl

/-- The command by which a worker pauses, or crashes where the pause cannot be computed. -/
def Command.pausing : Except Fault Float → Command
  | .ok d => .sleep d
  | .error fault => .crash fault

theorem backoffDelay_eq_ok (config : WatchConfig) {n : Nat} (h : n ≤ backoffLimit) :
    ∃ d, backoffDelay config n = .ok d := by
  unfold backoffDelay
  split
  · exact ⟨_, rfl⟩
  · have hn : ¬((n : Int) > backoffLimit) := by omega
    rw [if_neg hn]
    exact ⟨_, rfl⟩

theorem backoffDelay_eq_error (config : WatchConfig) {n : Nat} (h : backoffLimit < n) :
    backoffDelay config n = .error (.misfit .floatRange) := by
  unfold backoffDelay
  have hpos : ¬((n : Int) ≤ 0) := by omega
  have hn : (n : Int) > backoffLimit := by omega
  rw [if_neg hpos, if_pos hn]

theorem pause_spec (i : Informer) (notes : List Note) (fault : Fault) :
    (i.pause notes fault).informer = i.failed ∧
      (i.pause notes fault).command = .pausing (backoffDelay i.config (i.failures + 1 : Nat)) := by
  have hinformer := countFailure_informer i fault
  have hdelay := countFailure_delay i fault
  unfold pause
  revert hinformer hdelay
  generalize i.countFailure fault = counted
  obtain ⟨j, notes', delay⟩ := counted
  rintro rfl rfl
  cases backoffDelay i.config (i.failures + 1 : Nat) with
  | ok d => exact ⟨rfl, rfl⟩
  | error e => exact ⟨rfl, rfl⟩

/-! ## Events -/

theorem establish_informer (i : Informer) :
    i.establish.1 =
      if i.established then i
      else { i with established := true, failures := 0, state := .watching } := by
  unfold establish
  split <;> rfl

/-- Establishing a watch touches what failures bear on and nothing else. -/
theorem establish_frame (i : Informer) :
    i.establish.1 =
      { i with
        established := i.establish.1.established
        failures := i.establish.1.failures
        state := i.establish.1.state } := by
  rw [establish_informer]
  split <;> rfl

/-- The informer once it has seen a version; the empty one tells nothing. -/
def seen (i : Informer) (version : String) : Informer :=
  if version.isEmpty then i else { i with version := version }

/-- What applying an event can do: the informer afterwards, and whether the partition
changed. -/
inductive Applies (i : Informer) (e : WatchEvent) : Informer → Except Fault Bool → Prop
  | unreadable {fault : Fault} : e.version = .error fault → Applies i e i (.error fault)
  | refused {v : String} {fault : Fault} :
      e.version = .ok v → i.items.apply e v = .error fault →
      Applies i e (i.seen v) (.error fault)
  | changed {v : String} {items : Partition} :
      e.version = .ok v → i.items.apply e v = .ok (.changed items) →
      Applies i e { i.seen v with items := items, revision := i.revision + 1 } (.ok true)
  | dropped {v : String} {effect : Partition.Effect} :
      e.version = .ok v → i.items.apply e v = .ok effect →
      (∀ items, effect ≠ .changed items) → Applies i e (i.seen v) (.ok false)

theorem seen_items (i : Informer) (v : String) : (i.seen v).items = i.items := by
  unfold seen
  split <;> rfl

theorem seen_revision (i : Informer) (v : String) : (i.seen v).revision = i.revision := by
  unfold seen
  split <;> rfl

theorem applies (i : Informer) (e : WatchEvent) :
    Applies i e (i.applyEvent e).1 (i.applyEvent e).2.2 := by
  unfold applyEvent
  split
  · next h => exact .unreadable h
  · next v hv =>
      dsimp only
      rw [← seen, seen_items, seen_revision]
      cases hp : i.items.apply e v with
      | error fault => exact .refused hv hp
      | ok effect =>
          cases effect with
          | changed items => exact .changed hv hp
          | bookmark | unnamed | outOfOrder _ _ | absent | ignored =>
              exact .dropped hv hp (by simp)

/-- What an event does to the partition depends on the partition and on nothing else of the
informer. -/
theorem applyEvent_congr {i j : Informer} (h : i.items = j.items) (e : WatchEvent) :
    (i.applyEvent e).2.2 = (j.applyEvent e).2.2 ∧
      (i.applyEvent e).1.items = (j.applyEvent e).1.items := by
  unfold applyEvent
  split
  · exact ⟨rfl, h⟩
  · next v hv =>
      dsimp only
      rw [← seen, ← seen, seen_items, seen_items, h]
      cases j.items.apply e v with
      | error fault => exact ⟨rfl, by rw [seen_items, seen_items, h]⟩
      | ok effect =>
          cases effect with
          | changed items => exact ⟨rfl, rfl⟩
          | bookmark | unnamed | outOfOrder _ _ | absent | ignored =>
              exact ⟨rfl, by rw [seen_items, seen_items, h]⟩

/-! ## Faults -/

theorem establish_items (i : Informer) : i.establish.1.items = i.items := by
  rw [establish_frame]

/-- The informer once it has taken in what it was told, before it acts on a fault in it. -/
def told (i : Informer) : Signal → Informer
  | .event e => (i.establish.1.applyEvent e).1
  | _ => i

theorem recover_of_gone (i : Informer) (notes : List Note) {fault : Fault}
    (h : fault.isGone = true) :
    (i.recover notes fault).informer = { i with needList := true } ∧
      (i.recover notes fault).command = .list := by
  unfold recover
  dsimp only
  rw [if_pos h]
  exact ⟨rfl, rfl⟩

theorem recover_of_not_gone (i : Informer) (notes : List Note) {fault : Fault}
    (h : fault.isGone = false) :
    (i.recover notes fault).informer = ({ i with needList := true } : Informer).failed ∧
      (i.recover notes fault).command =
        .pausing (backoffDelay i.config (i.failures + 1 : Nat)) := by
  unfold recover
  dsimp only
  rw [if_neg (by simp [h])]
  split <;> exact pause_spec { i with needList := true } _ fault

/-- An event is taken in, and then either the watch goes on or its fault is recovered from. -/
theorem react_event (i : Informer) (e : WatchEvent) :
    ∃ notes, i.react (.event e) =
      match i.fault? (.event e) with
      | none => ⟨i.told (.event e), notes, .next⟩
      | some fault => (i.told (.event e)).recover notes fault := by
  simp only [fault?]
  rw [← (applyEvent_congr (establish_items i) e).1]
  simp only [react, told]
  generalize i.establish = j
  obtain ⟨j, established⟩ := j
  dsimp only
  generalize j.applyEvent e = applied
  obtain ⟨j', notes, changed⟩ := applied
  cases changed with
  | ok b => exact ⟨_, rfl⟩
  | error f => exact ⟨_, rfl⟩

/-- A fault in what was told is recovered from. -/
theorem react_of_fault {i : Informer} {s : Signal} {fault : Fault} (h : i.fault? s = some fault) :
    ∃ notes, i.react s = (i.told s).recover notes fault := by
  cases s with
  | listFailed f | watchFailed f =>
      cases h
      exact ⟨[], rfl⟩
  | listed items v =>
      simp only [fault?] at h
      simp only [react, relist, told]
      cases hp : Partition.ofListing items [] with
      | ok p => rw [hp] at h; cases h
      | error f =>
          rw [hp] at h
          cases h
          exact ⟨[], rfl⟩
  | event e =>
      obtain ⟨notes, hr⟩ := react_event i e
      rw [h] at hr
      exact ⟨notes, hr⟩
  | started | ended | woke => cases h

/-! ## The end of a watch -/

/-- The state after a watch that closed too early. A pause that cannot be computed counts as
a failure of its own. -/
def closed (i : Informer) : Informer :=
  if i.failures + 1 ≤ backoffLimit then i.failed
  else ({ i.failed with needList := true } : Informer).failed

theorem react_closed {i : Informer} (h : i.established = false) :
    (i.react .ended).informer = i.closed ∧
      (i.react .ended).command = .pausing (backoffDelay i.config (i.failures + 1 : Nat)) := by
  obtain ⟨hinformer, hcommand⟩ := pause_spec i [] closedEarly
  unfold react closed
  dsimp only
  rw [if_neg (by simp [h])]
  by_cases hlimit : i.failures + 1 ≤ backoffLimit
  · obtain ⟨d, hd⟩ := backoffDelay_eq_ok i.config hlimit
    rw [hd] at hcommand ⊢
    rw [if_pos hlimit, hcommand]
    exact ⟨hinformer, hcommand⟩
  · have hcrash := backoffDelay_eq_error i.config (Nat.lt_of_not_le hlimit)
    rw [hcrash] at hcommand ⊢
    rw [if_neg hlimit, hcommand]
    have hgone : Fault.isGone (.misfit .floatRange) = false := rfl
    obtain ⟨h1, h2⟩ := recover_of_not_gone (i.pause [] closedEarly).informer
      (i.pause [] closedEarly).notes hgone
    have hagain : backoffDelay i.failed.config (i.failed.failures + 1 : Nat) =
        .error (.misfit .floatRange) :=
      backoffDelay_eq_error _ (show backoffLimit < i.failures + 1 + 1 by omega)
    exact ⟨h1.trans (by rw [hinformer]), h2.trans (by rw [hinformer, hagain])⟩

/-! ## Reactions -/

/-- What a reaction can do: what was told, the informer afterwards, the next command. -/
inductive Reacts (i : Informer) : Signal → Informer → Command → Prop
  | started : Reacts i .started { i with needList := true } .list
  | listed {items : List Value} {v : String} {p : Partition} :
      Partition.ofListing items [] = .ok p →
      Reacts i (.listed items v)
        { i with
          items := p
          revision := i.revision + 1
          version := v
          synced := true
          needList := false
          established := false }
        (.watch v)
  | event {e : WatchEvent} :
      i.fault? (.event e) = none → Reacts i (.event e) (i.told (.event e)) .next
  | gone {s : Signal} {fault : Fault} :
      i.fault? s = some fault → fault.isGone = true →
      Reacts i s { i.told s with needList := true } .list
  | counted {s : Signal} {fault : Fault} :
      i.fault? s = some fault → fault.isGone = false →
      Reacts i s ({ i.told s with needList := true } : Informer).failed
        (.pausing (backoffDelay (i.told s).config ((i.told s).failures + 1 : Nat)))
  | closed :
      i.established = false →
      Reacts i .ended i.closed (.pausing (backoffDelay i.config (i.failures + 1 : Nat)))
  /-- A round begins with a listing if one is due. -/
  | listing {s : Signal} :
      s = .woke ∨ s = .ended ∧ i.established = true → i.needList = true → Reacts i s i .list
  /-- Otherwise it begins with a watch from the last version. -/
  | resuming {s : Signal} :
      s = .woke ∨ s = .ended ∧ i.established = true → i.needList = false →
      Reacts i s { i with established := false } (.watch i.version)

theorem reacts_proceed {i : Informer} {s : Signal} {notes : List Note}
    (hs : s = .woke ∨ s = .ended ∧ i.established = true) :
    Reacts i s (i.proceed notes).informer (i.proceed notes).command := by
  unfold proceed
  by_cases hn : i.needList = true
  · rw [if_pos hn]
    exact .listing hs hn
  · rw [if_neg hn]
    exact .resuming hs (by simpa using hn)

theorem reacts (i : Informer) (s : Signal) :
    Reacts i s (i.react s).informer (i.react s).command := by
  cases hf : i.fault? s with
  | some fault =>
      obtain ⟨notes, hr⟩ := react_of_fault hf
      rw [hr]
      cases hg : fault.isGone with
      | true =>
          obtain ⟨h1, h2⟩ := recover_of_gone (i.told s) notes hg
          rw [h1, h2]
          exact .gone hf hg
      | false =>
          obtain ⟨h1, h2⟩ := recover_of_not_gone (i.told s) notes hg
          rw [h1, h2]
          exact .counted hf hg
  | none =>
      cases s with
      | started => exact .started
      | listFailed f | watchFailed f => cases hf
      | listed items v =>
          simp only [fault?] at hf
          simp only [react, relist]
          cases hp : Partition.ofListing items [] with
          | error f => rw [hp] at hf; cases hf
          | ok p => exact .listed hp
      | event e =>
          obtain ⟨notes, hr⟩ := react_event i e
          rw [hf] at hr
          rw [hr]
          exact .event hf
      | ended =>
          cases he : i.established with
          | true =>
              unfold react
              dsimp only
              rw [if_pos he]
              exact reacts_proceed (.inr ⟨rfl, he⟩)
          | false =>
              obtain ⟨h1, h2⟩ := react_closed he
              rw [h1, h2]
              exact .closed he
      | woke => exact reacts_proceed (.inl rfl)

end LiveCluster.Informer
