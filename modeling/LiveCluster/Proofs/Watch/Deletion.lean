import LiveCluster.Proofs.Watch.LastWrite

/-!
# What a deletion leaves behind

A deletion takes the object away and leaves nothing: not its version either. So the
next write at the path is compared with nothing, and it is stored however old it is,
older than the deletion too. From then on writes are compared with it again.

How long the path stays empty is therefore read off the writes that arrived since:
until there is one. `Informer.absent_iff` is that, and it is `Shows` once more, begun
at the deletion.
-/

namespace LiveCluster

namespace Informer

variable {i : Informer} {d e : WatchEvent} {p : String} {ws later : List WatchEvent}

/-- What is at a path comes of the writes since a deletion. -/
theorem shows_after_deletion (hdeletes : i.deletes d p = true) (hd : d.number?.isSome = true)
    (hlater : ∀ x ∈ later, x.number?.isSome = true) :
    ((i.applyEvent d).1.applyAll later).Shows p (writesAt p (i.applyEvent d).1 [] later) :=
  (Shows.nothing (get?_of_deletes hd hdeletes)).applyAll (by simp) hlater

theorem Shows.absent_iff (h : i.Shows p ws) : i.items.get? p = none ↔ ws = [] := by
  cases h with
  | nothing hnone => exact ⟨fun _ => rfl, fun _ => hnone⟩
  | winner hwins _ hsome =>
      constructor
      · intro hnone
        rw [hsome] at hnone
        cases hnone
      · rintro rfl
        exact absurd hwins.mem List.not_mem_nil

/-- An event that is older than a write whose effect still counts changes nothing. -/
theorem Shows.get?_of_older (h : i.Shows p ws) (hws : ∀ x ∈ ws, x.number?.isSome = true)
    (he : e.number?.isSome = true) {w : WatchEvent} (hw : w ∈ ws) (holder : e.number < w.number) :
    (i.applyEvent e).1.items.get? p = i.items.get? p := by
  obtain ⟨v, hv⟩ := exists_version he
  rw [i.get?_applyEvent hv]
  cases h with
  | nothing _ => exact absurd hw List.not_mem_nil
  | @winner _ winner s hwins hs hsome =>
      have hle := hwins.le hw
      have hadmits : i.items.admits p v = false := by
        rw [Partition.admits, hsome]
        refine (newerOrEqual_of_numbers (WatchEvent.parseInt_version hv he)
          (WatchEvent.parseInt_version (WatchEvent.of_snapshot hs).1
            (hws winner hwins.mem))).trans ?_
        exact decide_eq_false (by omega)
      rw [hadmits, if_neg (by simp)]

/-- Where nothing was written, an event makes an object present just if it writes one. -/
theorem Shows.appears_iff (h : i.Shows p ws) (hws : ∀ x ∈ ws, x.number?.isSome = true)
    (he : e.number?.isSome = true) :
    (i.items.get? p = none ∧ (i.applyEvent e).1.items.get? p ≠ none) ↔
      ws = [] ∧ e.puts p = true := by
  rw [h.absent_iff]
  refine and_congr_right fun hnone => ?_
  subst hnone
  have habsent := (h.applyEvent hws he).absent_iff
  rw [Ne, habsent, retold]
  by_cases hputs : e.puts p = true
  · simp [hputs]
  · simp [hputs]

/-- After a deletion that was applied, and whatever events came later, its path is empty until
something is written there; what fills it is a write, of any version; and an event that is older
than a write since the last deletion that was applied leaves the path as it is. -/
theorem deletion_lasts (hdeletes : i.deletes d p = true)
    (hnumbers : ∀ x ∈ d :: e :: later, x.number?.isSome = true) :
    (((i.applyEvent d).1.applyAll later).items.get? p = none ↔
        writesAt p (i.applyEvent d).1 [] later = []) ∧
      (((i.applyEvent d).1.applyAll later).items.get? p = none ∧
          (((i.applyEvent d).1.applyAll later).applyEvent e).1.items.get? p ≠ none ↔
        writesAt p (i.applyEvent d).1 [] later = [] ∧ e.puts p = true) ∧
      ∀ w ∈ writesAt p (i.applyEvent d).1 [] later, e.number < w.number →
        (((i.applyEvent d).1.applyAll later).applyEvent e).1.items.get? p =
          ((i.applyEvent d).1.applyAll later).items.get? p := by
  simp only [List.forall_mem_cons] at hnumbers
  obtain ⟨hd, he, hlater⟩ := hnumbers
  have hshows := shows_after_deletion hdeletes hd hlater
  have hws : ∀ x ∈ writesAt p (i.applyEvent d).1 [] later, x.number?.isSome = true :=
    numbered_writesAt (by simp) hlater
  exact ⟨hshows.absent_iff, hshows.appears_iff hws he,
    fun w hw holder => hshows.get?_of_older hws he hw holder⟩

open WatchEvent (ofPod) in
/-- The write that comes first after a deletion is stored though it is older, and one that is
older still is dropped then. -/
theorem deletion_lasts_until_written :
    (((new .pods "" {}).applyAll
        [ofPod "ADDED" "web" "5", ofPod "DELETED" "web" "10"]).items.get? "default/web" = none ∧
      ((new .pods "" {}).applyAll
        [ofPod "ADDED" "web" "5", ofPod "DELETED" "web" "10",
          ofPod "MODIFIED" "web" "7"]).items.get? "default/web" ≠ none) ∧
    ((new .pods "" {}).applyAll
        [ofPod "ADDED" "web" "5", ofPod "DELETED" "web" "10", ofPod "MODIFIED" "web" "7",
          ofPod "MODIFIED" "web" "6"]).items.get? "default/web" =
      ((new .pods "" {}).applyAll
        [ofPod "ADDED" "web" "5", ofPod "DELETED" "web" "10",
          ofPod "MODIFIED" "web" "7"]).items.get? "default/web" := by
  have hdeletes : ((new .pods "" {}).applyAll [ofPod "ADDED" "web" "5"]).deletes
      (ofPod "DELETED" "web" "10") "default/web" = true := rfl
  have hfirst : ∀ x ∈ [ofPod "DELETED" "web" "10", ofPod "MODIFIED" "web" "7"],
      x.number?.isSome = true := by
    simp only [List.forall_mem_cons]
    exact ⟨rfl, rfl, by simp⟩
  have hsecond : ∀ x ∈ [ofPod "DELETED" "web" "10", ofPod "MODIFIED" "web" "6",
      ofPod "MODIFIED" "web" "7"], x.number?.isSome = true := by
    simp only [List.forall_mem_cons]
    exact ⟨rfl, rfl, rfl, by simp⟩
  constructor
  · exact (deletion_lasts hdeletes hfirst).2.1.2 ⟨rfl, rfl⟩
  · exact (deletion_lasts hdeletes hsecond).2.2 (ofPod "MODIFIED" "web" "7")
      (List.mem_singleton.2 rfl) (by decide)

open WatchEvent (ofPod) in
/-- So a deletion does not keep older writes out. -/
theorem deletion_undone :
    ¬ ∀ (i : Informer) (d e : WatchEvent) (p : String) (later : List WatchEvent),
      i.deletes d p = true → (∀ x ∈ d :: e :: later, x.number?.isSome = true) →
      e.puts p = true → e.number < d.number →
      ((i.applyEvent d).1.applyAll later).items.get? p = none →
      (((i.applyEvent d).1.applyAll later).applyEvent e).1.items.get? p = none := by
  intro hlasts
  have habsent := hlasts ((new .pods "" {}).applyAll [ofPod "ADDED" "web" "5"])
    (ofPod "DELETED" "web" "10") (ofPod "MODIFIED" "web" "7") "default/web" [] rfl
    (by simp only [List.forall_mem_cons]; exact ⟨rfl, rfl, by simp⟩) rfl (by decide) rfl
  cases habsent

end Informer

end LiveCluster
