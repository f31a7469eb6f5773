import LiveCluster.Proofs.Schema.Normal

/-!
# What decoding keeps

Decoding an object changes little of it. A place of the modelled structure is a way
into an object by mentioned fields and numbers of items, and `Inside` says which value
of the raw object is there and which shape it has to have. At each such place the
decoded object has the normal form of that value. So a record in it has all of its
unmentioned fields, and a record of a shape that says nothing about its fields is what
it was.

Decoding an object that was decoded before changes nothing at all.
-/

namespace LiveCluster

/-- A step into a value: to a field of a record, or to an item of a list. -/
inductive Spot where
  | name (name : String)
  | item (index : Nat)

/-- The value at a place inside a value. -/
def Value.spot? : Value → List Spot → Option Value
  | v, [] => some v
  | .record fields, .name name :: place => (Keyed.get? fields name).bind (spot? · place)
  | .list items, .item index :: place => items[index]?.bind (spot? · place)
  | _, _ :: _ => none

namespace Shape

variable {shape : Shape}

/-- Whether a value that is read by a shape has inside it, at a place, a value that is read by
another shape. Fields are found under either name; a place spells them by the public one. -/
inductive Inside : Shape → Value → List Spot → Shape → Value → Prop
  | here {shape : Shape} {v : Value} : Inside shape v [] shape v
  | field {slots : List (Slot × Shape)} {slot : Slot × Shape} {raw : Fields} {key : String}
      {v u : Value} {place : List Spot} {inner : Shape} :
      slot ∈ slots → slot.1.key? raw = some key → raw.get? key = some v →
      Inside slot.2 v place inner u →
      Inside (.model slots) (.record raw) (.name slot.1.outer :: place) inner u
  | item {shape : Shape} {items : List Value} {index : Nat} {v u : Value} {place : List Spot}
      {inner : Shape} :
      items[index]? = some v → Inside shape v place inner u →
      Inside (.list shape) (.list items) (.item index :: place) inner u
  | present {shape : Shape} {v u : Value} {place : List Spot} {inner : Shape} :
      v ≠ .null → Inside shape v place inner u → Inside (.optional shape) v place inner u

/-- At each place of the modelled structure stands the normal form of what was there. -/
theorem Sound.spot?_read {shape inner : Shape} {v u : Value} {place : List Spot}
    (hsound : shape.Sound) (hinside : Inside shape v place inner u)
    (hfine : (shape.read v).2 = []) :
    (shape.read v).1.spot? place = some (inner.read u).1 ∧ (inner.read u).2 = [] := by
  induction hinside with
  | here => exact ⟨by rw [Value.spot?], hfine⟩
  | @field slots slot raw key v u place inner hslot hkey hget _ ih =>
      cases hsound with
      | model hnodup hslots _ =>
          rw [read_record] at hfine ⊢
          obtain ⟨w, hw, hread⟩ := readSlots_fine_iff.1 hfine slot hslot
          have hsource : slot.1.source? raw = some v := by
            rw [Slot.source?, hkey]
            exact hget
          cases hsource.symm.trans hw
          have hnormal : normal raw slot = (slot.2.read v).1 := by
            rw [normal, hsource]
          have hrest := ih (hslots slot hslot) (hread (by simp [hkey]))
          refine ⟨?_, hrest.2⟩
          rw [Value.spot?, get?_mentioned hnodup hslot, hnormal]
          exact hrest.1
  | @item shape items index v u place inner hitem _ ih =>
      cases hsound with
      | list hshape =>
          rw [Shape.read] at hfine ⊢
          have hitems := (readItems_fine_iff _ 0 items).1 hfine
          have hvalues := readItems_values (shape.read ·) 0 items
          dsimp only at hvalues ⊢
          rw [hvalues, Value.spot?, List.getElem?_map, hitem]
          exact ih hshape (hitems v (List.mem_of_getElem? hitem))
  | @present shape v u place inner hpresent _ ih =>
      cases hsound with
      | optional hshape =>
          have hread : (Shape.optional shape).read v = shape.read v := by
            rw [Shape.read]
            exact hpresent
          rw [hread] at hfine ⊢
          exact ih hshape hfine

/-- A record of the modelled structure keeps each field under whose name no mentioned field was
found and none is written. That may be the inner name of a field, where it has its public name
beside it. -/
theorem Sound.get?_read {slots : List (Slot × Shape)} {v u : Value} {place : List Spot}
    (hsound : shape.Sound) (hinside : Inside shape v place (.model slots) u)
    (hfine : (shape.read v).2 = []) :
    ∃ fields kept, u = .record fields ∧ (shape.read v).1.spot? place = some (.record kept) ∧
      ∀ name, (∀ slot ∈ slots, slot.1.outer ≠ name ∧ slot.1.key? fields ≠ some name) →
        Keyed.get? kept name = Keyed.get? fields name := by
  obtain ⟨hspot, hread⟩ := hsound.spot?_read hinside hfine
  cases u with
  | record fields =>
      rw [read_record] at hspot
      refine ⟨fields, _, rfl, hspot, fun name hname => ?_⟩
      apply get?_unmentioned fun slot hslot => (hname slot hslot).1
      rw [Bool.eq_false_iff, ne_eq, finds_iff]
      rintro ⟨slot, hslot, hfound⟩
      exact (hname slot hslot).2 hfound
  | null | bool _ | int _ | float _ | text _ | list _ => cases hread

end Shape

namespace Kind

/-- The status of an object is part of the modelled structure of every kind. -/
theorem inside_status (kind : Kind) {raw v : Value}
    (h : raw.spot? [.name "status"] = some v) :
    Shape.Inside kind.shape raw [.name "status"] .record v := by
  cases raw with
  | record fields =>
      rw [Value.spot?] at h
      obtain ⟨u, hget, hu⟩ := Option.bind_eq_some_iff.1 h
      cases hu
      have hhas : Keyed.has fields "status" = true := by
        show (Keyed.get? fields "status").isSome = true
        rw [hget]
        rfl
      obtain ⟨slots, hshape, -, hstatus, -⟩ := kind.shape_slots
      rw [hshape]
      exact .field hstatus (Slot.key?_of_outer hhas) hget .here
  | null | bool _ | int _ | float _ | text _ | list _ => cases h

/-- A decoded object is decoded again as itself. At each record of the modelled structure it has
every field of the raw object under whose name no mentioned field was found and none is written,
with the value that it had; and its status is the one that came. -/
theorem decode_lossless {kind : Kind} {raw d : Value} (h : kind.decode raw = .ok d) :
    kind.decode d = .ok d ∧
      (∀ place slots v, Shape.Inside kind.shape raw place (.model slots) v →
        ∃ fields kept, v = .record fields ∧ d.spot? place = some (.record kept) ∧
          ∀ name, (∀ slot ∈ slots, slot.1.outer ≠ name ∧ slot.1.key? fields ≠ some name) →
            Keyed.get? kept name = Keyed.get? fields name) ∧
      ∀ v, raw.spot? [.name "status"] = some v → d.spot? [.name "status"] = some v := by
  obtain ⟨hfine, rfl⟩ := Shape.decode_eq_ok_iff.1 h
  have hsound := kind.sound_shape
  refine ⟨?_, fun place slots v hinside => hsound.get?_read hinside hfine, fun v hv => ?_⟩
  · have hagain := hsound.settles raw hfine
    apply Shape.decode_eq_ok_iff.2
    rw [hagain]
    exact ⟨rfl, rfl⟩
  · obtain ⟨hspot, hread⟩ := hsound.spot?_read (kind.inside_status hv) hfine
    cases v with
    | record fields => exact hspot
    | null | bool _ | int _ | float _ | text _ | list _ => cases hread

/-- A deployment with an unmentioned field in each of its records, whose selector has its labels
under both names and whose counts came as texts. -/
def sampleDeployment : Value :=
  .record [
    ("metadata", .record [("name", .text "web"), ("resource_version", .text "5"),
      ("generation", .int 2)]),
    ("spec", .record [
      ("replicas", .text " +3.0"), ("paused", .text "Off"),
      ("selector", .record [("match_labels", .int 1),
        ("matchLabels", .record [("app", .text "web")]), ("matchExpressions", .list [])]),
      ("template", .record [("spec", .record [
        ("init_containers", .list [.record [("name", .text "c"), ("ports", .list [.int 80])]]),
        ("restartPolicy", .text "Always")])]),
      ("revisionHistoryLimit", .int 10)]),
    ("status", .record [("ready", .null)]),
    ("extra", .bool true)]

theorem decode_lossless_sample :
    ∃ d, Kind.deployment.decode sampleDeployment = .ok d ∧ Kind.deployment.decode d = .ok d ∧
      d.spot? [.name "spec", .name "replicas"] = some (.int 3) ∧
      d.spot? [.name "spec", .name "selector", .name "match_labels"] = some (.int 1) ∧
      d.spot? [.name "status"] = some (.record [("ready", .null)]) := by
  obtain ⟨d, hd⟩ : ∃ d, Kind.deployment.decode sampleDeployment = .ok d := ⟨_, rfl⟩
  have h := decode_lossless hd
  refine ⟨d, hd, h.1, ?_, ?_, h.2.2 _ rfl⟩
  · cases hd
    rfl
  · cases hd
    rfl

end Kind

end LiveCluster
