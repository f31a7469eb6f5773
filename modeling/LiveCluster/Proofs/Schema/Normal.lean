import LiveCluster.Schema.Kind

/-!
# Normal forms

Reading a value by a shape puts it into its normal form. A value that is in its normal
form is read as itself: texts and records are never touched, whole numbers and truth
values are converted once and are then what they are converted to, and a record holds
every mentioned field under its public name, so that the second reading finds there
what the first one left.

What makes this delicate is that a record may spell a field in two ways at once. The
public name counts then, and the inner name is a field like any other; it is kept
behind the mentioned ones, where the second reading, which finds the public name
again, leaves it alone a second time.

The argument needs three things of a shape, and `Sound` says them: no two fields have
the same public name, what stands for a missing field can itself be read, and the same
holds of the shapes inside. The last part shows them of the shapes of all kinds.
-/

namespace LiveCluster

/-! ## Numbers, truth values and texts -/

theorem readSigned_whole {negative : Bool} {digits : List Char}
    (hfine : (readSigned negative digits).2 = []) :
    ∃ n, readSigned negative digits = .ok (.int n) := by
  revert hfine
  unfold readSigned
  dsimp only
  generalize List.countP Char.isDigit _ + _ = places
  by_cases hplaces : places > mostPlaces
  · rw [if_pos hplaces]
    exact fun hfine => nomatch hfine
  rw [if_neg hplaces]
  by_cases hzeros : (negative && decide ((dropZeros digits).length < digits.length)) = true
  · rw [if_pos hzeros]
    exact fun hfine => nomatch hfine
  rw [if_neg hzeros]
  cases wholeDigits? true 0 digits with
  | some n => exact fun _ => ⟨_, rfl⟩
  | none => exact fun hfine => nomatch hfine

theorem readWholeText_whole {s : String} (hfine : (readWholeText s).2 = []) :
    ∃ n, readWholeText s = .ok (.int n) := by
  unfold readWholeText at hfine ⊢
  split at hfine
  · exact readSigned_whole hfine
  · cases hfine
  · exact readSigned_whole hfine
  · cases hfine
  · exact readSigned_whole hfine

theorem readWholeFloat_whole {x : Float} (hfine : (readWholeFloat x).2 = []) :
    ∃ n, readWholeFloat x = .ok (.int n) := by
  unfold readWholeFloat at hfine ⊢
  split at hfine
  · cases hfine
  · next hfinite =>
      rw [if_neg hfinite]
      split at hfine
      · cases hfine
      · split at hfine
        · next hfits => exact ⟨_, by rw [if_pos hfits]⟩
        · cases hfine

/-- What could be read as a whole number has become one. -/
theorem readWhole_whole {v : Value} (hfine : (readWhole v).2 = []) :
    ∃ n, readWhole v = .ok (.int n) := by
  cases v with
  | int n => exact ⟨n, rfl⟩
  | bool b => exact ⟨_, rfl⟩
  | float x => exact readWholeFloat_whole hfine
  | text s => exact readWholeText_whole hfine
  | null | list _ | record _ => cases hfine

theorem readTruthWhole_truth {n : Int} (hfine : (readTruthWhole n).2 = []) :
    ∃ b, readTruthWhole n = .ok (.bool b) := by
  unfold readTruthWhole at hfine ⊢
  by_cases hzero : n = 0
  · exact ⟨false, by rw [if_pos hzero]⟩
  · rw [if_neg hzero] at hfine ⊢
    by_cases hone : n = 1
    · exact ⟨true, by rw [if_pos hone]⟩
    · rw [if_neg hone] at hfine
      split at hfine <;> cases hfine

/-- What could be read as a truth value has become one. -/
theorem readTruth_truth {v : Value} (hfine : (readTruth v).2 = []) :
    ∃ b, readTruth v = .ok (.bool b) := by
  cases v with
  | bool b => exact ⟨b, rfl⟩
  | int n => exact readTruthWhole_truth hfine
  | float x =>
      rw [readTruth] at hfine ⊢
      split at hfine
      · split at hfine
        · next hfits =>
            rw [if_pos hfits]
            exact readTruthWhole_truth hfine
        · cases hfine
      · cases hfine
  | text s =>
      rw [readTruth] at hfine ⊢
      split at hfine
      · exact ⟨_, rfl⟩
      · cases hfine
  | null | list _ | record _ => cases hfine

theorem readText_same {v : Value} (hfine : (readText v).2 = []) : readText v = .ok v := by
  cases v with
  | text s => rfl
  | null | bool _ | int _ | float _ | list _ | record _ => cases hfine

theorem readTexts_same {fields : Fields} (hfine : (readTexts fields).2 = []) :
    readTexts fields = (fields, []) := by
  induction fields with
  | nil => rfl
  | cons field rest ih =>
      obtain ⟨name, v⟩ := field
      obtain ⟨hread, hrest⟩ := List.append_eq_nil_iff.1 hfine
      have hv := readText_same (List.map_eq_nil_iff.1 hread)
      rw [readTexts, ih hrest, hv]
      rfl

/-! ## Lists -/

theorem readItems_values (read : Value → Reading) (index : Nat) (items : List Value) :
    (readItems read index items).1 = items.map fun v => (read v).1 := by
  induction items generalizing index with
  | nil => rfl
  | cons v rest ih =>
      show (read v).1 :: (readItems read (index + 1) rest).1 = _
      rw [ih, List.map_cons]

theorem readItems_fine_iff (read : Value → Reading) (index : Nat) (items : List Value) :
    (readItems read index items).2 = [] ↔ ∀ v ∈ items, (read v).2 = [] := by
  induction items generalizing index with
  | nil => simp [readItems]
  | cons v rest ih =>
      show ((read v).within (toString index)).2 ++ (readItems read (index + 1) rest).2 = [] ↔ _
      rw [List.append_eq_nil_iff, ih, List.forall_mem_cons, Reading.within, List.map_eq_nil_iff]

/-! ## Records -/

/-- What a field is read from: what stands under one of its names, or what stands for it when it
is missing. -/
def Slot.source? (slot : Slot) (raw : Fields) : Option Value :=
  match slot.key? raw with
  | some key => raw.get? key
  | none => slot.fallback

theorem Slot.key?_of_outer {slot : Slot} {raw : Fields} (h : raw.has slot.outer = true) :
    slot.key? raw = some slot.outer := by
  rw [Slot.key?, if_pos h]

/-- A field that was found is there. -/
theorem Slot.get?_of_key {slot : Slot} {raw : Fields} {key : String}
    (h : slot.key? raw = some key) : ∃ v, raw.get? key = some v := by
  unfold Slot.key? at h
  split at h
  · next hhas =>
      cases h
      exact Option.isSome_iff_exists.1 hhas
  · split at h
    · next hhas =>
        cases h
        exact Option.isSome_iff_exists.1 hhas
    · cases h

namespace Shape

variable {shape : Shape} {slot : Slot} {slots : List (Slot × Shape)} {raw : Fields} {v : Value}

/-- The normal form of a field. -/
def normal (raw : Fields) (slot : Slot × Shape) : Value :=
  match slot.1.source? raw with
  | some u => (slot.2.read u).1
  | none => .null

/-- The mentioned fields stand in their order under their public names. -/
theorem readSlots_fields (slots : List (Slot × Shape)) (raw : Fields) :
    (readSlots slots raw).1 = slots.map fun slot => (slot.1.outer, normal raw slot) := by
  induction slots with
  | nil => rfl
  | cons first rest ih =>
      obtain ⟨slot, shape⟩ := first
      rw [readSlots, List.map_cons, ← ih, normal, Slot.source?]
      cases hkey : slot.key? raw with
      | some key =>
          obtain ⟨v, hv⟩ := Slot.get?_of_key hkey
          simp only [hv, Option.getD_some]
          rfl
      | none =>
          cases slot.fallback with
          | some v => rfl
          | none => rfl

theorem readSlots_used (slots : List (Slot × Shape)) (raw : Fields) :
    (readSlots slots raw).2.1 = slots.filterMap fun slot => slot.1.key? raw := by
  induction slots with
  | nil => rfl
  | cons first rest ih =>
      obtain ⟨slot, shape⟩ := first
      rw [readSlots, List.filterMap_cons, ← ih]
      cases hkey : slot.key? raw with
      | some key => rfl
      | none =>
          cases slot.fallback with
          | some v => rfl
          | none => rfl

/-- There are no problems exactly if each field has something to be read from, and what was found
of it has none. -/
theorem readSlots_fine_iff :
    (readSlots slots raw).2.2 = [] ↔
      ∀ slot ∈ slots, ∃ u, slot.1.source? raw = some u ∧
        (slot.1.key? raw ≠ none → (slot.2.read u).2 = []) := by
  induction slots with
  | nil => simp [readSlots]
  | cons first rest ih =>
      obtain ⟨slot, shape⟩ := first
      rw [List.forall_mem_cons, ← ih, readSlots, Slot.source?]
      cases hkey : slot.key? raw with
      | some key =>
          obtain ⟨v, hv⟩ := Slot.get?_of_key hkey
          simp [hv, Reading.within]
      | none =>
          cases slot.fallback with
          | some v => simp
          | none => simp

/-- The mentioned fields of a record, in their normal form. -/
def mentioned (slots : List (Slot × Shape)) (raw : Fields) : Fields :=
  slots.map fun slot => (slot.1.outer, normal raw slot)

/-- Whether a field was found under a name. -/
def finds (slots : List (Slot × Shape)) (raw : Fields) (name : String) : Bool :=
  (slots.filterMap fun slot => slot.1.key? raw).contains name

theorem finds_iff {name : String} :
    finds slots raw name = true ↔ ∃ slot ∈ slots, slot.1.key? raw = some name := by
  rw [finds, List.contains_iff_mem, List.mem_filterMap]

/-- The fields of a record under whose names no mentioned field was found. -/
def unmentioned (slots : List (Slot × Shape)) (raw : Fields) : Fields :=
  Keyed.restrict (fun name => !finds slots raw name) raw

theorem read_record (slots : List (Slot × Shape)) (raw : Fields) :
    (Shape.model slots).read (.record raw) =
      (.record (mentioned slots raw ++ unmentioned slots raw), (readSlots slots raw).2.2) := by
  rw [Shape.read, mentioned, unmentioned, ← readSlots_fields, Keyed.restrict]
  simp only [finds, ← readSlots_used]

theorem get?_mentioned (hnodup : (slots.map (·.1.outer)).Nodup) {slot : Slot × Shape}
    (hslot : slot ∈ slots) (rest : Fields) :
    Keyed.get? (mentioned slots raw ++ rest) slot.1.outer = some (normal raw slot) := by
  induction slots with
  | nil => cases hslot
  | cons first others ih =>
      obtain ⟨hnew, hnodup⟩ := List.nodup_cons.1 hnodup
      show Keyed.get? ((first.1.outer, normal raw first) :: (mentioned others raw ++ rest)) _ = _
      rw [Keyed.get?_cons]
      rcases List.mem_cons.1 hslot with heq | hmem
      · rw [heq, if_pos rfl]
      · have hne : slot.1.outer ≠ first.1.outer := by
          intro h
          exact hnew (List.mem_map.2 ⟨slot, hmem, h⟩)
        rw [if_neg hne]
        exact ih hnodup hmem

/-- A field that is not mentioned is where it was. -/
theorem get?_unmentioned {name : String} (houter : ∀ slot ∈ slots, slot.1.outer ≠ name)
    (hunfound : finds slots raw name = false) :
    Keyed.get? (mentioned slots raw ++ unmentioned slots raw) name = raw.get? name := by
  have hmentioned : (mentioned slots raw).lookup name = none := by
    rw [List.lookup_eq_none_iff]
    intro entry hentry
    obtain ⟨slot, hslot, rfl⟩ := List.mem_map.1 hentry
    simpa using Ne.symm (houter slot hslot)
  rw [Keyed.get?, List.lookup_append, hmentioned, Option.none_or]
  exact Keyed.get?_restrict _ (by simp [hunfound]) raw

/-! ## Reading again -/

/-- Whether a normal form can be read, and is read as itself. -/
def Settles (shape : Shape) (v : Value) : Prop :=
  (shape.read v).2 = [] → shape.read (shape.read v).1 = .ok (shape.read v).1

theorem settles_optional (h : shape.Settles v) : (Shape.optional shape).Settles v := by
  intro hfine
  by_cases hnull : v = .null
  · subst hnull
    rfl
  have hread : (Shape.optional shape).read v = shape.read v := by
    rw [Shape.read]
    exact hnull
  rw [hread] at hfine ⊢
  have hagain := h hfine
  by_cases hnormal : (shape.read v).1 = .null
  · rw [hnormal]
    rfl
  · rw [Shape.read]
    · exact hagain
    · exact hnormal

theorem settles_list (h : ∀ v, shape.Settles v) (v : Value) : (Shape.list shape).Settles v := by
  intro hfine
  cases v with
  | list items =>
      rw [Shape.read] at hfine ⊢
      have hitems := (readItems_fine_iff _ 0 items).1 hfine
      have hvalues := readItems_values (shape.read ·) 0 items
      dsimp only at hvalues ⊢
      rw [hvalues, Shape.read]
      have hagain : readItems (shape.read ·) 0 (items.map fun v => (shape.read v).1) =
          (items.map fun v => (shape.read v).1, []) := by
        apply Prod.ext
        · rw [readItems_values, List.map_map]
          apply List.map_congr_left
          intro v hv
          show (shape.read (shape.read v).1).1 = (shape.read v).1
          rw [h v (hitems v hv)]
          rfl
        · rw [readItems_fine_iff, List.forall_mem_map]
          intro v hv
          rw [h v (hitems v hv)]
          rfl
      rw [hagain]
      rfl
  | null | bool _ | int _ | float _ | text _ | record _ => cases hfine

/-- No field that is not mentioned stands under a public name. -/
theorem outer_ne_of_unmentioned {entry : String × Value} (hentry : entry ∈ unmentioned slots raw)
    {slot : Slot × Shape} (hslot : slot ∈ slots) : slot.1.outer ≠ entry.1 := by
  intro houter
  obtain ⟨hraw, hunfound⟩ := List.mem_filter.1 hentry
  have hhas : raw.has slot.1.outer = true := by
    rw [houter]
    exact Keyed.has_iff_mem_keys.2 (List.mem_map_of_mem hraw)
  have hfound : finds slots raw entry.1 = true :=
    finds_iff.2 ⟨slot, hslot, houter ▸ Slot.key?_of_outer hhas⟩
  simp [hfound] at hunfound

/-- A record in its normal form has the unmentioned fields of the one it was read from. -/
theorem unmentioned_again
    (hkey : ∀ slot ∈ slots, slot.1.key? (mentioned slots raw ++ unmentioned slots raw) =
      some slot.1.outer) :
    unmentioned slots (mentioned slots raw ++ unmentioned slots raw) = unmentioned slots raw := by
  have hfinds {name : String} :
      finds slots (mentioned slots raw ++ unmentioned slots raw) name = true ↔
        ∃ slot ∈ slots, slot.1.outer = name := by
    rw [finds_iff]
    constructor
    · rintro ⟨slot, hslot, h⟩
      rw [hkey slot hslot] at h
      exact ⟨slot, hslot, Option.some.inj h⟩
    · rintro ⟨slot, hslot, h⟩
      exact ⟨slot, hslot, by rw [hkey slot hslot, h]⟩
  rw [unmentioned, Keyed.restrict, List.filter_append]
  have hnone : (mentioned slots raw).filter (fun entry =>
      !finds slots (mentioned slots raw ++ unmentioned slots raw) entry.1) = [] := by
    rw [List.filter_eq_nil_iff]
    intro entry hentry
    obtain ⟨slot, hslot, rfl⟩ := List.mem_map.1 hentry
    simp only [hfinds.2 ⟨slot, hslot, rfl⟩]
    decide
  have hall : (unmentioned slots raw).filter (fun entry =>
      !finds slots (mentioned slots raw ++ unmentioned slots raw) entry.1) =
        unmentioned slots raw := by
    rw [List.filter_eq_self]
    intro entry hentry
    rw [Bool.not_eq_true', Bool.eq_false_iff, ne_eq, hfinds]
    rintro ⟨slot, hslot, houter⟩
    exact outer_ne_of_unmentioned hentry hslot houter
  rw [hnone, hall, List.nil_append]

/-- The second reading of a record finds each mentioned field under its public name, and what it
finds there is in its normal form. -/
theorem settles_model (hnodup : (slots.map (·.1.outer)).Nodup)
    (hslots : ∀ slot ∈ slots, ∀ v, slot.2.Settles v)
    (hfallback : ∀ slot ∈ slots, ∀ v, slot.1.fallback = some v → (slot.2.read v).2 = [])
    (v : Value) : (Shape.model slots).Settles v := by
  intro hfine
  cases v with
  | record raw =>
      rw [read_record] at hfine ⊢
      let d : Fields := mentioned slots raw ++ unmentioned slots raw
      show (Shape.model slots).read (.record d) = .ok (.record d)
      have hget : ∀ slot ∈ slots, d.get? slot.1.outer = some (normal raw slot) := by
        intro slot hslot
        exact get?_mentioned hnodup hslot _
      have hkey : ∀ slot ∈ slots, slot.1.key? d = some slot.1.outer := by
        intro slot hslot
        apply Slot.key?_of_outer
        show (d.get? slot.1.outer).isSome = true
        rw [hget slot hslot]
        rfl
      have hsource : ∀ slot ∈ slots, slot.1.source? d = some (normal raw slot) := by
        intro slot hslot
        rw [Slot.source?, hkey slot hslot]
        exact hget slot hslot
      have hnormal : ∀ slot ∈ slots, slot.2.read (normal raw slot) = .ok (normal raw slot) := by
        intro slot hslot
        obtain ⟨u, hu, hread⟩ := readSlots_fine_iff.1 hfine slot hslot
        rw [normal, hu]
        apply hslots slot hslot u
        cases hfound : slot.1.key? raw with
        | some key => exact hread (by simp [hfound])
        | none =>
            rw [Slot.source?, hfound] at hu
            exact hfallback slot hslot u hu
      have hmentioned : mentioned slots d = mentioned slots raw := by
        apply List.map_congr_left
        intro slot hslot
        rw [normal, hsource slot hslot]
        show (slot.1.outer, (slot.2.read (normal raw slot)).1) = _
        rw [hnormal slot hslot]
        rfl
      have hunmentioned : unmentioned slots d = unmentioned slots raw := unmentioned_again hkey
      rw [read_record, hmentioned, hunmentioned]
      apply Prod.ext
      · rfl
      · apply readSlots_fine_iff.2
        intro slot hslot
        refine ⟨_, hsource slot hslot, fun _ => ?_⟩
        rw [hnormal slot hslot]
        rfl
  | null | bool _ | int _ | float _ | text _ | list _ => cases hfine

/-! ## Sound shapes -/

/-- Whether no two fields of a record have the same public name, and what stands for a missing
field can be read, throughout a shape. -/
inductive Sound : Shape → Prop
  | text : Sound .text
  | whole : Sound .whole
  | truth : Sound .truth
  | record : Sound .record
  | texts : Sound .texts
  | optional {shape : Shape} : Sound shape → Sound (.optional shape)
  | list {shape : Shape} : Sound shape → Sound (.list shape)
  | model {slots : List (Slot × Shape)} :
      (slots.map (·.1.outer)).Nodup → (∀ slot ∈ slots, Sound slot.2) →
      (∀ slot ∈ slots, ∀ v, slot.1.fallback = some v → (slot.2.read v).2 = []) →
      Sound (.model slots)

theorem Sound.settles (hsound : shape.Sound) (v : Value) : shape.Settles v := by
  induction hsound generalizing v with
  | text =>
      intro hfine
      have hv : Shape.text.read v = .ok v := readText_same hfine
      rw [hv]
      exact hv
  | whole =>
      intro hfine
      obtain ⟨n, hn⟩ : ∃ n, Shape.whole.read v = .ok (.int n) := readWhole_whole hfine
      rw [hn]
      rfl
  | truth =>
      intro hfine
      obtain ⟨b, hb⟩ : ∃ b, Shape.truth.read v = .ok (.bool b) := readTruth_truth hfine
      rw [hb]
      rfl
  | record =>
      intro hfine
      cases v with
      | record fields => rfl
      | null | bool _ | int _ | float _ | text _ | list _ => cases hfine
  | texts =>
      intro hfine
      cases v with
      | record fields =>
          have hfields : Shape.texts.read (.record fields) = .ok (.record fields) := by
            rw [Shape.read, readTexts_same hfine]
            rfl
          rw [hfields]
          exact hfields
      | null | bool _ | int _ | float _ | text _ | list _ => cases hfine
  | optional _ ih => exact settles_optional (ih v)
  | list _ ih => exact settles_list ih v
  | model hnodup _ hfallback ih => exact settles_model hnodup ih hfallback v

/-- Whether a field is sound. -/
structure SoundSlot (slot : Slot × Shape) : Prop where
  shape : slot.2.Sound
  fallback : ∀ v, slot.1.fallback = some v → (slot.2.read v).2 = []

theorem Sound.of_slots (hnodup : (slots.map (·.1.outer)).Nodup)
    (hslots : ∀ slot ∈ slots, SoundSlot slot) : (Shape.model slots).Sound :=
  .model hnodup (fun slot hslot => (hslots slot hslot).shape)
    fun slot hslot => (hslots slot hslot).fallback

theorem soundSlot_required {name : String} (h : shape.Sound) : SoundSlot (required name shape) :=
  ⟨h, fun _ hv => nomatch hv⟩

theorem soundSlot_field {inner outer : String} (h : shape.Sound) (hv : (shape.read v).2 = []) :
    SoundSlot (field inner outer shape v) := by
  refine ⟨h, fun w hw => ?_⟩
  cases hw
  exact hv

/-! ## The shapes of the kinds -/

theorem sound_metadata : metadata.Sound := by
  apply Sound.of_slots (by decide)
  simp only [List.forall_mem_cons]
  exact ⟨soundSlot_required .text, soundSlot_field .text rfl, soundSlot_field .text rfl,
    soundSlot_field .text rfl, soundSlot_field .texts rfl, soundSlot_field .texts rfl, by simp⟩

theorem sound_labelSelector : labelSelector.Sound := by
  apply Sound.of_slots (by decide)
  simp only [List.forall_mem_cons]
  exact ⟨soundSlot_field (.optional .texts) rfl, by simp⟩

theorem sound_container : container.Sound := by
  apply Sound.of_slots (by decide)
  simp only [List.forall_mem_cons]
  exact ⟨soundSlot_required .text, soundSlot_field .text rfl, by simp⟩

theorem sound_podSpec : podSpec.Sound := by
  apply Sound.of_slots (by decide)
  simp only [List.forall_mem_cons]
  exact ⟨soundSlot_field (.list sound_container) rfl, soundSlot_field (.list sound_container) rfl,
    soundSlot_field .text rfl, by simp⟩

theorem sound_templateMetadata : templateMetadata.Sound := by
  apply Sound.of_slots (by decide)
  simp only [List.forall_mem_cons]
  exact ⟨soundSlot_field .texts rfl, soundSlot_field .texts rfl, by simp⟩

theorem sound_podTemplate : podTemplate.Sound := by
  apply Sound.of_slots (by decide)
  simp only [List.forall_mem_cons]
  exact ⟨soundSlot_field sound_templateMetadata rfl, soundSlot_field sound_podSpec rfl, by simp⟩

theorem sound_updateStrategy : updateStrategy.Sound := by
  apply Sound.of_slots (by decide)
  simp only [List.forall_mem_cons]
  exact ⟨soundSlot_field .text rfl, by simp⟩

theorem soundSlot_count {name : String} :
    SoundSlot (field name name (.optional .whole) .null) :=
  soundSlot_field (.optional .whole) rfl

theorem soundSlot_updateStrategy :
    SoundSlot (field "update_strategy" "updateStrategy" updateStrategy nothing) :=
  soundSlot_field sound_updateStrategy rfl

/-- A specification is sound if what it has beside the fields of every workload is. -/
theorem sound_workload {slots : List (Slot × Shape)}
    (hnodup : ((workloadSlots ++ slots).map (·.1.outer)).Nodup)
    (hslots : ∀ slot ∈ slots, SoundSlot slot) : (Shape.model (workloadSlots ++ slots)).Sound := by
  apply Sound.of_slots hnodup
  rw [List.forall_mem_append]
  refine ⟨?_, hslots⟩
  simp only [workloadSlots, List.forall_mem_cons]
  exact ⟨soundSlot_field (.optional sound_labelSelector) rfl,
    soundSlot_field sound_podTemplate rfl, by simp⟩

theorem sound_spec (kind : Kind) : (spec kind).Sound := by
  cases kind with
  | pod => exact sound_podSpec
  | deployment =>
      apply sound_workload (by decide)
      simp only [List.forall_mem_cons]
      exact ⟨soundSlot_field .truth rfl, soundSlot_count, by simp⟩
  | daemonSet =>
      apply sound_workload (by decide)
      simp only [List.forall_mem_cons]
      exact ⟨soundSlot_updateStrategy, by simp⟩
  | statefulSet =>
      apply sound_workload (by decide)
      simp only [List.forall_mem_cons]
      exact ⟨soundSlot_updateStrategy, soundSlot_count, by simp⟩
  | replicaSet | job =>
      apply sound_workload (by decide)
      simp only [List.forall_mem_cons]
      exact ⟨soundSlot_count, by simp⟩

end Shape

/-- The record of every kind has a status as it comes and the specification of the kind, and no
name twice. -/
theorem Kind.shape_slots (kind : Kind) : ∃ slots, kind.shape = .model slots ∧
    (slots.map (·.1.outer)).Nodup ∧ Shape.field "status" "status" .record Shape.nothing ∈ slots ∧
      Shape.field "spec" "spec" (Shape.spec kind) Shape.nothing ∈ slots := by
  have hnodup : ["apiVersion", "kind", "metadata", "status", "spec"].Nodup := by decide
  exact ⟨_, rfl, hnodup, by simp, by simp⟩

/-- Decoding succeeds where reading meets no problem. -/
theorem Shape.decode_eq_ok_iff {shape : Shape} {v d : Value} :
    shape.decode v = .ok d ↔ (shape.read v).2 = [] ∧ (shape.read v).1 = d := by
  unfold Shape.decode
  generalize shape.read v = r
  obtain ⟨normal, problems⟩ := r
  cases problems with
  | nil => simp
  | cons problem rest => simp

theorem Kind.sound_shape (kind : Kind) : kind.shape.Sound := by
  have hnodup : ["apiVersion", "kind", "metadata", "status", "spec"].Nodup := by decide
  refine Shape.Sound.of_slots hnodup ?_
  simp only [List.forall_mem_cons]
  refine ⟨Shape.soundSlot_field .text rfl, Shape.soundSlot_field .text rfl,
    Shape.soundSlot_required Shape.sound_metadata, Shape.soundSlot_field .record rfl,
    Shape.soundSlot_field (Shape.sound_spec kind) ?_, by simp⟩
  cases kind <;> rfl

end LiveCluster
