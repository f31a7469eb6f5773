import LiveCluster.Proofs.Watch.Standing

/-!
# What failures leave intact

Readers see the partition of an informer, its revision, and whether it was ever
filled. None of this is touched by anything that fails, at whatever depth of an object
the fault lies: a listing is taken over only when all of its snapshots have been taken,
and an event writes the version first but the partition last.

An informer may be begun and stopped any number of times, and workers of different
lives may overlap. So nothing is assumed here about the order of what happens to it.
-/

namespace LiveCluster.Informer

/-- What can happen to an informer. -/
inductive Deed where
  /-- A worker is started. -/
  | started
  | heard (signal : Signal)
  /-- The alarm of a watch goes off. -/
  | alarm
  /-- The worker was called off and has ended. -/
  | stopped

/-- The informer after something has happened to it. -/
def after (i : Informer) : Deed → Informer
  | .started => { i with state := .watching }
  | .heard s => (i.react s).informer
  | .alarm => i.establish.1
  | .stopped => i.stopped.1

/-- The informer after one thing after another has happened to it. -/
def lived (i : Informer) (ds : List Deed) : Informer :=
  ds.foldl after i

theorem lived_append (i : Informer) (past ds : List Deed) :
    i.lived (past ++ ds) = (i.lived past).lived ds :=
  List.foldl_append

/-- Whether a snapshot can be taken of each object of a listing. -/
def Listable (items : List Value) : Prop :=
  ∀ raw ∈ items, ∃ s, Snapshot.ofRaw raw = .ok s

/-- Whether something that happens is a failure: a call that raises, a listing some object of
which is malformed, an event that cannot be applied, the end of a watch, or of the worker. -/
def Fails (i : Informer) : Deed → Prop
  | .heard (.listFailed _) | .heard (.watchFailed _) | .heard .ended | .stopped => True
  | .heard (.listed items _) => ¬Listable items
  | .heard (.event e) => ∃ fault, (i.applyEvent e).2.2 = .error fault
  | _ => False

/-- Whether one failure after another happens. -/
def FailsThrough (i : Informer) : List Deed → Prop
  | [] => True
  | d :: rest => i.Fails d ∧ (i.after d).FailsThrough rest

/-- Two informers in which readers see the same. -/
structure SameView (i j : Informer) : Prop where
  items : i.items = j.items
  revision : i.revision = j.revision
  synced : i.synced = j.synced

theorem SameView.trans {i j l : Informer} (h : SameView i j) (h' : SameView j l) : SameView i l :=
  ⟨h.items.trans h'.items, h.revision.trans h'.revision, h.synced.trans h'.synced⟩

theorem establish_view (i : Informer) : SameView i.establish.1 i := by
  rw [establish_frame]
  exact ⟨rfl, rfl, rfl⟩

theorem seen_view (i : Informer) (v : String) : SameView (i.seen v) i := by
  unfold seen
  split <;> exact ⟨rfl, rfl, rfl⟩

theorem closed_view (i : Informer) : SameView i.closed i := by
  unfold closed
  split <;> exact ⟨rfl, rfl, rfl⟩

/-- Readers see an event only if it changed the partition. -/
theorem applyEvent_view {i : Informer} {e : WatchEvent} (h : (i.applyEvent e).2.2 ≠ .ok true) :
    SameView (i.applyEvent e).1 i := by
  have ha := applies i e
  generalize (i.applyEvent e).1 = j at ha ⊢
  generalize (i.applyEvent e).2.2 = changed at ha h
  cases ha with
  | unreadable _ => exact ⟨rfl, rfl, rfl⟩
  | refused _ _ | dropped _ _ _ => exact i.seen_view _
  | changed _ _ => exact absurd rfl h

theorem fault_listed_eq_none {i : Informer} {items : List Value} {v : String} :
    i.fault? (.listed items v) = none ↔ Listable items := by
  have hlistable : (∃ p, Partition.ofListing items [] = .ok p) ↔ Listable items :=
    Partition.ofListing_ok_iff
  rw [← hlistable]
  simp only [fault?]
  cases Partition.ofListing items [] with
  | ok p => simp
  | error f => simp

/-- What readers see changes by a listing that is taken over, which replaces the partition by its
own, and by an event that changes the partition. What the partition of a listing has under each
path is said by `Partition.get?_ofListing`; that it is sound, by `Partition.Sound.ofListing`. -/
inductive Revises (i j : Informer) : Deed → Prop
  | listing {items : List Value} {v : String} :
      Listable items → Partition.ofListing items [] = .ok j.items →
      j.revision = i.revision + 1 → j.synced = true → Revises i j (.heard (.listed items v))
  | event {e : WatchEvent} :
      (i.applyEvent e).2.2 = .ok true → j.items = (i.applyEvent e).1.items →
      j.revision = i.revision + 1 → j.synced = i.synced → Revises i j (.heard (.event e))

theorem told_event_view (i : Informer) (e : WatchEvent) :
    SameView (i.told (.event e)) i ∨ Revises i (i.told (.event e)) (.heard (.event e)) := by
  obtain ⟨hresult, hitems⟩ := applyEvent_congr i.establish_items e
  by_cases h : (i.establish.1.applyEvent e).2.2 = .ok true
  · have hrest : (i.told (.event e)).revision = i.revision + 1 ∧
        (i.told (.event e)).synced = i.synced := by
      have ha := applies i.establish.1 e
      rw [h] at ha
      rw [told]
      generalize (i.establish.1.applyEvent e).1 = j at ha ⊢
      cases ha with
      | @changed v items _ _ =>
          have hseen := (i.establish.1.seen_view v).trans i.establish_view
          exact ⟨congrArg (· + 1) i.establish_view.revision, hseen.synced⟩
    exact .inr (.event (hresult ▸ h) hitems hrest.1 hrest.2)
  · exact .inl ((applyEvent_view h).trans i.establish_view)

/-- A fault in what was told is not seen by readers. -/
theorem told_view_of_fault {i : Informer} {s : Signal} {fault : Fault}
    (h : i.fault? s = some fault) : SameView (i.told s) i := by
  cases s with
  | event e =>
      have hresult := (applyEvent_congr i.establish_items e).1
      refine (applyEvent_view ?_).trans i.establish_view
      rw [hresult]
      intro hok
      simp only [fault?, hok] at h
      cases h
  | started | listed _ _ | listFailed _ | ended | watchFailed _ | woke => exact ⟨rfl, rfl, rfl⟩

theorem Reacts.view {i j : Informer} {s : Signal} {c : Command} (h : Reacts i s j c) :
    SameView j i ∨ Revises i j (.heard s) := by
  cases h with
  | started | listing _ _ | resuming _ _ => exact .inl ⟨rfl, rfl, rfl⟩
  | listed hp =>
      have hlistable := Partition.ofListing_ok_iff.1 ⟨_, hp⟩
      exact .inr (.listing hlistable hp rfl rfl)
  | event _ => exact i.told_event_view _
  | gone hf _ | counted hf _ =>
      obtain ⟨h1, h2, h3⟩ := told_view_of_fault hf
      exact .inl ⟨h1, h2, h3⟩
  | closed _ => exact .inl i.closed_view

/-- Whatever happens to an informer, readers see what they saw before or what it says. -/
theorem after_view (i : Informer) (d : Deed) :
    SameView (i.after d) i ∨ Revises i (i.after d) d := by
  cases d with
  | started | stopped => exact .inl ⟨rfl, rfl, rfl⟩
  | heard s => exact (reacts i s).view
  | alarm => exact .inl i.establish_view

/-- A failure is not seen by readers. -/
theorem Fails.view {i : Informer} {d : Deed} (h : i.Fails d) : SameView (i.after d) i := by
  rcases i.after_view d with hview | hrevises
  · exact hview
  · cases hrevises with
    | listing hlistable _ _ _ => exact absurd hlistable h
    | event hok _ _ _ =>
        obtain ⟨fault, hfault⟩ := h
        rw [hok] at hfault
        cases hfault

theorem FailsThrough.view {i : Informer} {ds : List Deed} (h : i.FailsThrough ds) :
    SameView (i.lived ds) i := by
  induction ds generalizing i with
  | nil => exact ⟨rfl, rfl, rfl⟩
  | cons d rest ih => exact (ih h.2).trans h.1.view

/-! ## Filled informers -/

/-- Whether something that happens is a listing that is taken over. -/
def Deed.Fills : Deed → Prop
  | .heard (.listed items _) => Listable items
  | _ => False

theorem after_synced_of_fills {i : Informer} {d : Deed} (h : d.Fills) :
    (i.after d).synced = true := by
  match d with
  | .heard (.listed items v) =>
      have hnone : i.fault? (.listed items v) = none := fault_listed_eq_none.2 h
      have hr := reacts i (.listed items v)
      rw [after]
      generalize (i.react (.listed items v)).informer = j at hr ⊢
      generalize (i.react (.listed items v)).command = c at hr
      cases hr with
      | listed _ => rfl
      | gone hf _ | counted hf _ => rw [hnone] at hf; cases hf
      | listing hs _ | resuming hs _ => rcases hs with hs | ⟨hs, -⟩ <;> cases hs

theorem after_synced (i : Informer) (d : Deed) :
    (i.after d).synced = true ↔ i.synced = true ∨ d.Fills := by
  constructor
  · intro h
    rcases i.after_view d with hview | hrevises
    · exact .inl (hview.synced ▸ h)
    · cases hrevises with
      | listing hlistable _ _ _ => exact .inr hlistable
      | event _ _ _ hsynced => exact .inl (hsynced ▸ h)
  · rintro (h | h)
    · rcases i.after_view d with hview | hrevises
      · exact hview.synced.trans h
      · cases hrevises with
        | listing _ _ _ hsynced => exact hsynced
        | event _ _ _ hsynced => exact hsynced.trans h
    · exact after_synced_of_fills h

/-- An informer is filled once a listing has been taken over, and stays so. -/
theorem lived_synced (i : Informer) (ds : List Deed) :
    (i.lived ds).synced = true ↔ i.synced = true ∨ ∃ d ∈ ds, d.Fills := by
  induction ds generalizing i with
  | nil => simp [lived]
  | cons d rest ih =>
      rw [show i.lived (d :: rest) = (i.after d).lived rest from rfl, ih, after_synced]
      simp [or_assoc]

/-- In every state that an informer can come to, whatever has happened to it, failures one
after another change nothing that readers see. What does change is said by a listing of which
every object was taken a snapshot of, which replaces the partition, or by an event that changed
it. And readers are told that the informer was filled exactly if there was such a listing. -/
theorem intact (rid : ResourceId) (ns : String) (config : WatchConfig) (past : List Deed) :
    (∀ ds, ((new rid ns config).lived past).FailsThrough ds →
        SameView ((new rid ns config).lived (past ++ ds)) ((new rid ns config).lived past)) ∧
      (∀ d,
        SameView ((new rid ns config).lived (past ++ [d])) ((new rid ns config).lived past) ∨
          Revises ((new rid ns config).lived past) ((new rid ns config).lived (past ++ [d])) d) ∧
      (((new rid ns config).lived past).synced = true ↔ ∃ d ∈ past, d.Fills) := by
  refine ⟨fun ds h => ?_, fun d => ?_, ?_⟩
  · rw [lived_append]
    exact h.view
  · rw [lived_append]
    exact after_view _ d
  · rw [lived_synced]
    exact or_iff_right (by simp [new])

end LiveCluster.Informer
