import LiveCluster.Proofs.Schema.Normal
import LiveCluster.Watch.Partition

/-!
# The labels of a workload's pods

A workload names labels that its pods carry. Decoding sees to it that these are texts, so the
selector made of them asks for exactly those labels; and it selects nothing where the workload
names none.
-/

namespace LiveCluster

/-- A record of texts. -/
def Value.ofTexts (entries : List (String × String)) : Value :=
  .record (entries.map fun entry => (entry.1, .text entry.2))

/-! ## Reading a record -/

namespace Shape

variable {slots : List (Slot × Shape)} {slot : Slot} {shape : Shape} {raw : Fields} {v : Value}

/-- Under the public name of a field stands a reading of it, without problems if there were none:
of what was found under one of its names, or of what stands for it when it is missing. -/
theorem get?_readSlots (hslot : (slot, shape) ∈ slots)
    (hnodup : (slots.map (·.1.outer)).Nodup) (hfine : (readSlots slots raw).2.2 = []) :
    ∃ u, (readSlots slots raw).1.get? slot.outer = some (shape.read u).1 ∧
      ((shape.read u).2 = [] ∨ slot.fallback = some u) := by
  induction slots with
  | nil => cases hslot
  | cons first rest ih =>
      obtain ⟨slot', shape'⟩ := first
      obtain ⟨hnew, hnodup'⟩ := List.nodup_cons.1 hnodup
      have hrest : ∀ u, (readSlots rest raw).2.2 = [] → (slot, shape) ∈ rest →
          ∃ u', Keyed.get? ((slot'.outer, u) :: (readSlots rest raw).1) slot.outer =
              some (shape.read u').1 ∧ ((shape.read u').2 = [] ∨ slot.fallback = some u') := by
        intro u hfine' hmem
        have hne : slot.outer ≠ slot'.outer := fun h =>
          hnew (List.mem_map.2 ⟨(slot, shape), hmem, h⟩)
        rw [Keyed.get?_cons, if_neg hne]
        exact ih hmem hnodup' hfine'
      rw [readSlots] at hfine ⊢
      cases hkey : slot'.key? raw with
      | some key =>
          rw [hkey] at hfine
          dsimp only at hfine ⊢
          obtain ⟨hread, hfine'⟩ := List.append_eq_nil_iff.1 hfine
          rcases List.mem_cons.1 hslot with heq | hmem
          · cases heq
            rw [Keyed.get?_cons, if_pos rfl]
            exact ⟨_, rfl, .inl (List.map_eq_nil_iff.1 hread)⟩
          · exact hrest _ hfine' hmem
      | none =>
          rw [hkey] at hfine
          dsimp only at hfine ⊢
          cases hfallback : slot'.fallback with
          | none =>
              rw [hfallback] at hfine
              cases hfine
          | some u =>
              rw [hfallback] at hfine
              dsimp only at hfine ⊢
              rcases List.mem_cons.1 hslot with heq | hmem
              · cases heq
                rw [Keyed.get?_cons, if_pos rfl]
                exact ⟨u, rfl, .inr hfallback⟩
              · exact hrest _ hfine hmem

/-- What a record that could be read holds under the public name of a field. -/
theorem at?_read {inner outer : String} {fallback : Value}
    (hslot : field inner outer shape fallback ∈ slots) (hnodup : (slots.map (·.1.outer)).Nodup)
    (hfine : ((Shape.model slots).read v).2 = []) (path : List String) :
    ∃ u, ((Shape.model slots).read v).1.at? (outer :: path) = (shape.read u).1.at? path ∧
      ((shape.read u).2 = [] ∨ u = fallback) := by
  cases v with
  | record raw =>
      rw [Shape.read] at hfine ⊢
      obtain ⟨u, hget, hu⟩ := get?_readSlots hslot hnodup hfine
      have hget' : (readSlots slots raw).1.get? outer = some (shape.read u).1 := hget
      refine ⟨u, ?_, hu.imp_right fun h => (Option.some.inj h).symm⟩
      dsimp only
      rw [Value.at?, Keyed.get?, List.lookup_append, ← Keyed.get?, hget']
      rfl
  | _ => simp [Shape.read, Reading.problem] at hfine

theorem readTexts_fine {fields : Fields} (hfine : (readTexts fields).2 = []) :
    ∃ labels, Value.record (readTexts fields).1 = .ofTexts labels := by
  induction fields with
  | nil => exact ⟨[], rfl⟩
  | cons field rest ih =>
      obtain ⟨key, v⟩ := field
      obtain ⟨hread, hrest⟩ := List.append_eq_nil_iff.1 hfine
      obtain ⟨labels, hlabels⟩ := ih hrest
      cases v with
      | text value =>
          refine ⟨(key, value) :: labels, ?_⟩
          rw [Value.ofTexts, List.map_cons, ← Value.record.inj hlabels]
          rfl
      | _ => cases hread

/-- What may be missing is missing, or has the shape. -/
theorem read_optional (h : ((Shape.optional shape).read v).2 = [] ∨ v = .null) :
    ((Shape.optional shape).read v).1 = .null ∨
      (Shape.optional shape).read v = shape.read v ∧ (shape.read v).2 = [] := by
  by_cases hnull : v = .null
  · subst hnull
    exact .inl (by rw [Shape.read]; rfl)
  · have hread : (Shape.optional shape).read v = shape.read v := by
      rw [Shape.read]
      exact hnull
    rw [hread] at h ⊢
    exact .inr ⟨rfl, h.resolve_right hnull⟩

/-- The labels that a label selector asks for. -/
theorem at?_labelSelector (hfine : (labelSelector.read v).2 = []) :
    (labelSelector.read v).1.at? ["matchLabels"] = .null ∨
      ∃ labels, (labelSelector.read v).1.at? ["matchLabels"] = .ofTexts labels := by
  obtain ⟨u, hat, hu⟩ := at?_read List.mem_cons_self (by decide) hfine []
  rw [labelSelector, hat, Value.at?]
  rcases read_optional hu with hnull | ⟨hread, htexts⟩
  · exact .inl hnull
  · cases u with
    | record fields =>
        rw [Shape.read] at htexts
        rw [hread, Shape.read]
        exact .inr (readTexts_fine htexts)
    | _ => simp [Shape.read, Reading.problem] at htexts

/-- The labels that the specification of a workload asks for. -/
theorem at?_spec {kind : Kind} (hkind : kind.isWorkload = true)
    (hfine : ((spec kind).read v).2 = []) :
    ((spec kind).read v).1.at? ["selector", "matchLabels"] = .null ∨
      ∃ labels, ((spec kind).read v).1.at? ["selector", "matchLabels"] = .ofTexts labels := by
  obtain ⟨slots, hspec, hnodup⟩ : ∃ slots, spec kind = .model (workloadSlots ++ slots) ∧
      ((workloadSlots ++ slots).map (·.1.outer)).Nodup := by
    cases kind with
    | pod => cases hkind
    | _ => exact ⟨_, rfl, by decide⟩
  rw [hspec] at hfine ⊢
  have hslot : field "selector" "selector" (.optional labelSelector) .null ∈
      workloadSlots ++ slots := List.mem_append_left slots List.mem_cons_self
  obtain ⟨u, hat, hu⟩ := at?_read hslot hnodup hfine ["matchLabels"]
  rw [hat]
  rcases read_optional hu with hnull | ⟨hread, hselector⟩
  · rw [hnull]
    exact .inl rfl
  · rw [hread]
    exact at?_labelSelector hselector

end Shape

/-- A workload that could be decoded names its pods' labels, or it names none. -/
theorem Decoded.at?_matchLabels {kind : Kind} {raw v : Value} (hkind : kind.isWorkload = true)
    (h : kind.decode raw = .ok v) :
    v.at? ["spec", "selector", "matchLabels"] = .null ∨
      ∃ labels, v.at? ["spec", "selector", "matchLabels"] = .ofTexts labels := by
  obtain ⟨hfine, rfl⟩ := Shape.decode_eq_ok_iff.1 h
  obtain ⟨slots, hshape, hnodup, -, hslot⟩ := kind.shape_slots
  rw [hshape] at hfine ⊢
  obtain ⟨u, hat, hu⟩ := Shape.at?_read hslot hnodup hfine ["selector", "matchLabels"]
  rw [hat]
  rcases hu with hspec | rfl
  · exact Shape.at?_spec hkind hspec
  · refine Shape.at?_spec hkind ?_
    cases kind with
    | pod => cases hkind
    | _ => rfl

/-- The labels by which a decoded workload selects its pods, none if it names none. -/
theorem Decoded.matchLabels_eq {kind : Kind} {raw v : Value} (hkind : kind.isWorkload = true)
    (h : kind.decode raw = .ok v) : ∃ labels, Decoded.matchLabels v = .ofTexts labels := by
  rw [matchLabels]
  rcases at?_matchLabels hkind h with hnull | ⟨labels, hlabels⟩
  · rw [hnull]
    exact ⟨[], rfl⟩
  · rw [hlabels, Value.orElse]
    split
    · exact ⟨labels, rfl⟩
    · exact ⟨[], rfl⟩

/-! ## The selector -/

namespace Selector

variable {labels : List (String × String)} {p q : String × String}

/-- The selector that is made of a workload's labels. -/
theorem ofLabels_ofTexts (labels : List (String × String)) :
    ofLabels (.ofTexts labels) = .ok (ofPairs labels) := by
  cases labels with
  | nil => rfl
  | cons p rest =>
      show Except.ok (ofPairs (((p :: rest).map _).map _)) = _
      rw [List.map_map]
      refine congrArg (fun pairs => Except.ok (ofPairs pairs)) ?_
      exact List.map_id' _

/-- An object is selected that carries all of the labels, of which there must be one. -/
theorem selects_ofPairs {carried : Fields} : (ofPairs labels).selects carried = true ↔
    labels ≠ [] ∧ ∀ key text, (key, text) ∈ labels → carried.get? key = some (.text text) := by
  rw [selects, Bool.and_eq_true_iff, isEmpty_ofPairs, List.all_eq_true]
  refine and_congr (by simp) ⟨fun h key text hmem => ?_, fun h q hq => ?_⟩
  · have hcarries := h (key, text) (mem_ofPairs.2 hmem)
    dsimp only at hcarries
    split at hcarries
    · next v hv => rw [hv, eq_of_beq hcarries]
    · cases hcarries
  · dsimp only
    rw [h q.1 q.2 (mem_ofPairs.1 hq)]
    exact beq_self_eq_true _

end Selector

/-! ## Their pods -/

/-- A pod lives in a namespace, if one is given, and carries all of the labels, of which there must
be one. -/
def Snapshot.Owned (ns : String) (labels : List (String × String)) (pod : Snapshot) : Prop :=
  (ns = "" ∨ pod.ns = ns) ∧ labels ≠ [] ∧
    ∀ key text, (key, text) ∈ labels → pod.labels.get? key = some (.text text)

theorem Partition.belongs_ofPairs {ns : String} {labels : List (String × String)} {pod : Snapshot} :
    belongs ns (some (.ofPairs labels)) pod = true ↔ pod.Owned ns labels := by
  rw [belongs, Bool.and_eq_true_iff, Bool.or_eq_true_iff, beq_iff_eq, Selector.selects_ofPairs,
    String.isEmpty_iff, Snapshot.Owned]

instance (ns : String) (labels : List (String × String)) (pod : Snapshot) :
    Decidable (pod.Owned ns labels) :=
  decidable_of_iff _ Partition.belongs_ofPairs

end LiveCluster
