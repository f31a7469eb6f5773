import LiveCluster.Watch.Partition

/-!
# Malformed objects

Where a raw object is not what it has to be, taking a snapshot of it or applying an
event with it fails. The fault always says what is wrong with the object; it is
never one of the transport, so it can never pass for an expired version. A listing
is taken over exactly when a snapshot can be taken of each of its objects.
-/

namespace LiveCluster

/-- A computation in two parts fails in the first or in the second. -/
theorem error_of_bind {ε α β : Type} {x : Except ε α} {f : α → Except ε β} {e : ε}
    (h : x >>= f = .error e) : x = .error e ∨ ∃ a, x = .ok a ∧ f a = .error e := by
  cases x with
  | error e' => cases h; exact .inl rfl
  | ok a => exact .inr ⟨a, rfl, h⟩

/-- A computation in two parts succeeds if both do. -/
theorem ok_of_bind {ε α β : Type} {x : Except ε α} {f : α → Except ε β} {b : β}
    (h : x >>= f = .ok b) : ∃ a, x = .ok a ∧ f a = .ok b := by
  cases x with
  | error e => cases h
  | ok a => exact ⟨a, rfl, h⟩

theorem fieldsOf_not_gone {v : Value} {fault : Fault} (h : fieldsOf v = .error fault) :
    fault.isGone = false := by
  unfold fieldsOf at h
  split at h
  · cases h
  · cases h; rfl

theorem metadataOf_not_gone {v : Value} {fault : Fault} (h : metadataOf v = .error fault) :
    fault.isGone = false := by
  rcases error_of_bind h with h | ⟨fields, -, h⟩
  · exact fieldsOf_not_gone h
  · exact fieldsOf_not_gone h

theorem keyOf_not_gone {v : Value} {fault : Fault} (h : keyOf v = .error fault) :
    fault.isGone = false := by
  unfold keyOf at h
  split at h <;> cases h <;> rfl

theorem pairOf_not_gone {n : Nat} {v : Value} {fault : Fault} (h : pairOf n v = .error fault) :
    fault.isGone = false := by
  unfold pairOf at h
  cases v with
  | null | bool _ | int _ | float _ => cases h; rfl
  | list _ | text _ | record _ =>
      rcases error_of_bind h with h | ⟨parts, -, h⟩
      · cases h
      · dsimp only at h
        split at h
        · rcases error_of_bind h with h | ⟨key, -, h⟩
          · exact keyOf_not_gone h
          · cases h
        · cases h; rfl

theorem pairsOf_not_gone {vs : List Value} {n : Nat} {fault : Fault}
    (h : pairsOf n vs = .error fault) : fault.isGone = false := by
  induction vs generalizing n with
  | nil => cases h
  | cons v rest ih =>
      rcases error_of_bind h with h | ⟨pair, -, h⟩
      · exact pairOf_not_gone h
      · rcases error_of_bind h with h | ⟨pairs, -, h⟩
        · exact ih h
        · cases h

theorem tableOf_not_gone {v : Value} {fault : Fault} (h : tableOf v = .error fault) :
    fault.isGone = false := by
  have hpairs : ∀ items : List Value,
      (pairsOf 0 items).map Table.ofList = .error fault → fault.isGone = false := by
    intro items hp
    cases hi : pairsOf 0 items with
    | error e =>
        rw [hi] at hp
        cases hp
        exact pairsOf_not_gone hi
    | ok pairs => rw [hi] at hp; cases hp
  unfold tableOf at h
  split at h
  · cases h
  · exact hpairs _ h
  · exact hpairs _ h
  · cases h; rfl

theorem Snapshot.ofRaw_not_gone {v : Value} {fault : Fault} (h : Snapshot.ofRaw v = .error fault) :
    fault.isGone = false := by
  rcases error_of_bind h with h | ⟨fields, -, h⟩
  · exact fieldsOf_not_gone h
  rcases error_of_bind h with h | ⟨metadata, -, h⟩
  · exact metadataOf_not_gone h
  rcases error_of_bind h with h | ⟨labels, -, h⟩
  · exact tableOf_not_gone h
  · cases h

theorem WatchEvent.version_not_gone {e : WatchEvent} {fault : Fault}
    (h : e.version = .error fault) : fault.isGone = false := by
  rcases error_of_bind h with h | ⟨metadata, -, h⟩
  · exact metadataOf_not_gone h
  · cases h

namespace Partition

theorem ofListing_not_gone {items : List Value} {p : Partition} {fault : Fault}
    (h : ofListing items p = .error fault) : fault.isGone = false := by
  induction items generalizing p with
  | nil => cases h
  | cons raw rest ih =>
      rcases error_of_bind h with h | ⟨s, -, h⟩
      · exact Snapshot.ofRaw_not_gone h
      · exact ih h

/-- A listing is taken over exactly when a snapshot can be taken of each of its objects. -/
theorem ofListing_ok_iff {items : List Value} {p : Partition} :
    (∃ q, ofListing items p = .ok q) ↔ ∀ raw ∈ items, ∃ s, Snapshot.ofRaw raw = .ok s := by
  induction items generalizing p with
  | nil => simp [ofListing]
  | cons raw rest ih =>
      rw [List.forall_mem_cons, ofListing]
      cases hs : Snapshot.ofRaw raw with
      | error e =>
          constructor
          · rintro ⟨q, hq⟩; cases hq
          · rintro ⟨⟨s, hs'⟩, -⟩; cases hs'
      | ok s =>
          constructor
          · intro hq
            exact ⟨⟨s, rfl⟩, ih.1 hq⟩
          · intro hrest
            exact ih.2 hrest.2

/-- Under a path, the partition of a listing has the last named object of that path; one that the
listing does not name is left as it was. -/
theorem get?_ofListing {items : List Value} {p q : Partition} (h : ofListing items p = .ok q) :
    ∃ listed : List Snapshot, items.map Snapshot.ofRaw = listed.map .ok ∧ ∀ path, q.get? path =
      (listed.reverse.find? fun s => s.name ≠ "" && s.path = path).or (p.get? path) := by
  induction items generalizing p with
  | nil =>
      cases h
      exact ⟨[], rfl, fun _ => rfl⟩
  | cons raw rest ih =>
      obtain ⟨s, hs, h⟩ := ok_of_bind h
      obtain ⟨listed, hlisted, hget⟩ := ih h
      refine ⟨s :: listed, by rw [List.map_cons, hs, hlisted, List.map_cons], fun path => ?_⟩
      rw [hget, List.reverse_cons, List.find?_append, Option.or_assoc, List.find?_singleton]
      congr 1
      by_cases hname : s.name = ""
      · simp [hname]
      · by_cases hpath : path = s.path
        · simp [hname, hpath, Keyed.get?_set]
        · simp [hname, hpath, Ne.symm hpath, Keyed.get?_set]

theorem apply_not_gone {p : Partition} {e : WatchEvent} {version : String} {fault : Fault}
    (h : p.apply e version = .error fault) : fault.isGone = false := by
  unfold apply at h
  split at h
  · cases h
  rcases error_of_bind h with h | ⟨metadata, -, h⟩
  · exact metadataOf_not_gone h
  dsimp only at h
  split at h
  · cases h
  · split at h
    · split at h
      · cases h
      · split at h
        · rcases error_of_bind h with h | ⟨s, -, h⟩
          · exact Snapshot.ofRaw_not_gone h
          · cases h
        · split at h <;> cases h
    · split at h
      · rcases error_of_bind h with h | ⟨s, -, h⟩
        · exact Snapshot.ofRaw_not_gone h
        · cases h
      · split at h <;> cases h

end Partition

end LiveCluster
