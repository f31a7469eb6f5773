import LiveCluster.Proofs.Watch.Intact

/-!
# The last write wins

Events of one object may arrive in any order, and an event is compared with nothing
but what is stored at its path. What comes of a whole sequence of events is said here,
path by path: of the writes since the last deletion that was applied, the one with the
greatest version is stored, and the last to arrive of several with that version. So
where versions differ, the order of writes does not matter.

Everything follows from one equation. Whether an event may change what is at its path
is `Partition.admits`, what it puts there is `WatchEvent.outcome?`, and
`Informer.get?_applyEvent` says that this is all an event does. Versions are compared
as numbers, not as texts: the same number may be written in several ways.
-/

namespace LiveCluster

namespace WatchEvent

/-- The path of the object that an event is about, if that object is named. -/
def path? (e : WatchEvent) : Option String :=
  match metadataOf e.object with
  | .ok metadata =>
    let name := fieldText metadata "name"
    if name.isEmpty then none else some (Path.join (fieldText metadata "namespace") name)
  | .error _ => none

/-- The version of an event, where it is a whole number. -/
def number? (e : WatchEvent) : Option Int :=
  match e.version with
  | .ok version => (Number.parseInt version).toOption
  | .error _ => none

/-- The version of an event as a number, nought where it is none. -/
def number (e : WatchEvent) : Int :=
  e.number?.getD 0

/-- Whether an event says that its object is there. -/
def isWrite (e : WatchEvent) : Bool :=
  e.type = "ADDED" || e.type = "MODIFIED"

/-- What is to be at the path of an event on its account, if it has a say in that. -/
def outcome? (e : WatchEvent) : Option (Option Snapshot) :=
  if e.isWrite then (Snapshot.ofRaw e.object).toOption.map some
  else if e.type = "DELETED" then some none
  else none

/-- Whether an event is a write at a path, with an object of which a snapshot can be taken. -/
def puts (e : WatchEvent) (p : String) : Bool :=
  e.path? = some p && e.isWrite && (Snapshot.ofRaw e.object).toOption.isSome

theorem puts_iff {e : WatchEvent} {p : String} :
    e.puts p = true ↔
      e.path? = some p ∧ e.isWrite = true ∧ ∃ s, Snapshot.ofRaw e.object = .ok s := by
  cases hs : Snapshot.ofRaw e.object with
  | error fault => simp [puts, hs, Except.toOption]
  | ok s => simp [puts, hs, Except.toOption]

theorem outcome?_of_isWrite {e : WatchEvent} {s : Snapshot} (hw : e.isWrite = true)
    (hs : Snapshot.ofRaw e.object = .ok s) : e.outcome? = some (some s) := by
  rw [outcome?, if_pos hw, hs]
  rfl

theorem isWrite_of_deleted {e : WatchEvent} (h : e.type = "DELETED") : e.isWrite = false := by
  simp [isWrite, h]

theorem outcome?_of_deleted {e : WatchEvent} (h : e.type = "DELETED") : e.outcome? = some none := by
  rw [outcome?, isWrite_of_deleted h, if_neg Bool.false_ne_true, if_pos h]

/-- A snapshot of an event's object has the version and the path of the event. -/
theorem of_snapshot {e : WatchEvent} {s : Snapshot} (hs : Snapshot.ofRaw e.object = .ok s) :
    e.version = .ok s.version ∧ e.path? = if s.name.isEmpty then none else some s.path := by
  obtain ⟨fields, -, hs⟩ := ok_of_bind hs
  obtain ⟨metadata, hm, hs⟩ := ok_of_bind hs
  obtain ⟨labels, -, hs⟩ := ok_of_bind hs
  cases hs
  rw [version, path?, hm]
  exact ⟨rfl, rfl⟩

theorem parseInt_version {e : WatchEvent} {v : String} (hv : e.version = .ok v)
    (hn : e.number?.isSome = true) : Number.parseInt v = .ok e.number := by
  unfold number
  rw [number?, hv] at hn ⊢
  dsimp only at hn ⊢
  cases hp : Number.parseInt v with
  | error fault => rw [hp] at hn; cases hn
  | ok n => rfl

end WatchEvent

/-- Versions that are numbers are compared as numbers. -/
theorem newerOrEqual_of_numbers {v current : String} {n m : Int} (hv : Number.parseInt v = .ok n)
    (hcurrent : Number.parseInt current = .ok m) :
    newerOrEqual v current = decide (m ≤ n) := by
  have hnonempty : ∀ {s k}, Number.parseInt s = .ok k → s.isEmpty = false := by
    intro s k hs
    rw [Bool.eq_false_iff]
    intro hempty
    rw [String.isEmpty_iff] at hempty
    rw [hempty] at hs
    cases hs
  rw [newerOrEqual, hnonempty hv, hnonempty hcurrent, hv, hcurrent]
  rfl

/-! ## One event -/

namespace Partition

/-- Whether an event of the given version may change what is at a path. -/
def admits (items : Partition) (path version : String) : Bool :=
  match items.get? path with
  | some current => newerOrEqual version current.version
  | none => true

/-- What applying an event can do to a partition. -/
inductive Takes (items : Partition) (e : WatchEvent) (version : String) :
    Except Fault Effect → Prop
  | wrote {path : String} {s : Snapshot} :
      e.path? = some path → items.admits path version = true → e.isWrite = true →
      Snapshot.ofRaw e.object = .ok s → Takes items e version (.ok (.changed (items.set path s)))
  | erased {path : String} :
      e.path? = some path → items.admits path version = true → e.type = "DELETED" →
      items.has path = true → Takes items e version (.ok (.changed (items.erase path)))
  | failed {fault : Fault} :
      e.path? = none ∨ e.outcome? = none → Takes items e version (.error fault)
  /-- The event is about no object or is too old; or it has nothing to say, or what it says is
  so already. -/
  | kept {effect : Effect} :
      (∀ items', effect ≠ .changed items') →
      (∀ path, e.path? = some path → items.admits path version = true →
        e.outcome? = none ∨ e.type = "DELETED" ∧ items.has path = false) →
      Takes items e version (.ok effect)

/-- What an event does that is about a named object and may change what is at its path. -/
theorem takes_of_admits {items : Partition} {e : WatchEvent} {version path : String}
    (hpath : e.path? = some path) (hadmits : items.admits path version = true) :
    Takes items e version
      (if e.isWrite then (Snapshot.ofRaw e.object).bind fun s => .ok (.changed (items.set path s))
      else if e.type = "DELETED" then
        .ok (if items.has path then .changed (items.erase path) else .absent)
      else .ok .ignored) := by
  have hsame : ∀ {p}, e.path? = some p → p = path := fun hp =>
    Option.some.inj (hp.symm.trans hpath)
  split
  · next hwrite =>
      cases hs : Snapshot.ofRaw e.object with
      | error fault =>
          refine .failed (.inr ?_)
          rw [WatchEvent.outcome?, if_pos hwrite, hs]
          rfl
      | ok s => exact .wrote hpath hadmits hwrite hs
  · next hwrite =>
      split
      · next hdeleted =>
          split
          · next hhas => exact .erased hpath hadmits hdeleted hhas
          · next hhas =>
              refine .kept (by simp) fun p hp _ => .inr ⟨hdeleted, ?_⟩
              rw [hsame hp]
              simpa using hhas
      · next hdeleted =>
          refine .kept (by simp) fun p hp _ => .inl ?_
          rw [WatchEvent.outcome?, if_neg hwrite, if_neg hdeleted]

theorem takes (items : Partition) (e : WatchEvent) (version : String) :
    Takes items e version (items.apply e version) := by
  unfold apply
  split
  · next hbookmark =>
      refine .kept (by simp) fun path _ _ => .inl ?_
      simp [WatchEvent.outcome?, WatchEvent.isWrite, hbookmark]
  cases hm : metadataOf e.object with
  | error fault => exact .failed (.inl (by rw [WatchEvent.path?, hm]))
  | ok metadata =>
      dsimp only [bind, Except.bind]
      split
      · next hname =>
          refine .kept (by simp) fun path hpath => ?_
          simp [WatchEvent.path?, hm, hname] at hpath
      · next hname =>
          have hpath : e.path? = some (Path.join (fieldText metadata "namespace")
              (fieldText metadata "name")) := by
            simp [WatchEvent.path?, hm, hname]
          generalize Path.join (fieldText metadata "namespace")
            (fieldText metadata "name") = path at hpath ⊢
          have hrest := @takes_of_admits items e version path hpath
          unfold admits at hrest
          split
          · next current hcurrent =>
              rw [hcurrent] at hrest
              split
              · next hold =>
                  refine .kept (by simp) fun p hp hadmits => ?_
                  cases hpath.symm.trans hp
                  rw [admits, hcurrent] at hadmits
                  dsimp only at hadmits
                  rw [hadmits] at hold
                  cases hold
              · next hnew => exact hrest (by simpa using hnew)
          · next hcurrent =>
              rw [hcurrent] at hrest
              exact hrest rfl

theorem has_eq_false_iff {items : Partition} {path : String} :
    items.has path = false ↔ items.get? path = none :=
  Option.isSome_eq_false_iff.trans Option.isNone_iff_eq_none

/-- What is at a path after an event. -/
theorem Takes.get? {items : Partition} {e : WatchEvent} {version : String}
    {r : Except Fault Effect} (h : Takes items e version r) (p : String) :
    (match r with | .ok (.changed items') => items' | _ => items).get? p =
      if e.path? = some p ∧ items.admits p version = true then e.outcome?.getD (items.get? p)
      else items.get? p := by
  have hhere : ∀ {path : String} {x : Option Snapshot}, e.path? = some path →
      items.admits path version = true → e.outcome? = some x →
      (if p = path then x else items.get? p) =
        if e.path? = some p ∧ items.admits p version = true then e.outcome?.getD (items.get? p)
        else items.get? p := by
    intro path x hpath hadmits houtcome
    by_cases hp : p = path
    · subst hp
      rw [if_pos rfl, if_pos ⟨hpath, hadmits⟩, houtcome]
      rfl
    · rw [if_neg hp, if_neg fun h => hp (Option.some.inj (h.1.symm.trans hpath))]
  cases h with
  | wrote hpath hadmits hwrite hs =>
      dsimp only
      rw [Keyed.get?_set]
      exact hhere hpath hadmits (WatchEvent.outcome?_of_isWrite hwrite hs)
  | erased hpath hadmits hdeleted _ =>
      dsimp only
      rw [Keyed.get?_erase]
      exact hhere hpath hadmits (WatchEvent.outcome?_of_deleted hdeleted)
  | failed hnothing =>
      rcases hnothing with hnone | hnone
      · rw [hnone, if_neg (by simp)]
      · rw [hnone]
        exact (ite_self _).symm
  | @kept effect hkept hsame =>
      have hitems : (match (Except.ok effect : Except Fault Effect) with
          | .ok (.changed items') => items'
          | _ => items) = items := by
        cases effect with
        | changed items' => exact absurd rfl (hkept items')
        | bookmark | unnamed | outOfOrder _ _ | absent | ignored => rfl
      rw [hitems]
      split
      · next h =>
          rcases hsame p h.1 h.2 with hnone | ⟨hdeleted, habsent⟩
          · rw [hnone]
            rfl
          · rw [WatchEvent.outcome?_of_deleted hdeleted, has_eq_false_iff.1 habsent]
            rfl
      · rfl

end Partition

namespace Informer

/-- What an event does, at every path. -/
theorem get?_applyEvent (i : Informer) {e : WatchEvent} {v : String} (hv : e.version = .ok v)
    (p : String) :
    (i.applyEvent e).1.items.get? p =
      if e.path? = some p ∧ i.items.admits p v = true then e.outcome?.getD (i.items.get? p)
      else i.items.get? p := by
  rw [← (Partition.takes i.items e v).get? p]
  have ha := applies i e
  generalize (i.applyEvent e).1 = j at ha ⊢
  generalize (i.applyEvent e).2.2 = changed at ha
  cases ha with
  | unreadable hv' => rw [hv] at hv'; cases hv'
  | @refused v' fault hv' happly =>
      cases hv.symm.trans hv'
      rw [happly, seen_items]
  | @changed v' items' hv' happly =>
      cases hv.symm.trans hv'
      rw [happly]
  | @dropped v' effect hv' happly hkept =>
      cases hv.symm.trans hv'
      rw [happly, seen_items]
      cases effect with
      | changed items' => exact absurd rfl (hkept items')
      | bookmark | unnamed | outOfOrder _ _ | absent | ignored => rfl

theorem exists_version {e : WatchEvent} (hn : e.number?.isSome = true) :
    ∃ v, e.version = .ok v := by
  unfold WatchEvent.number? at hn
  cases hv : e.version with
  | error fault => rw [hv] at hn; cases hn
  | ok v => exact ⟨v, rfl⟩

/-- An event that changes the partition may change what is at its path. -/
theorem admits_of_changed {i : Informer} {e : WatchEvent} {p v : String}
    (hpath : e.path? = some p) (hv : e.version = .ok v)
    (hchanged : (i.applyEvent e).2.2 = .ok true) : i.items.admits p v = true := by
  have ha := applies i e
  rw [hchanged] at ha
  generalize (i.applyEvent e).1 = j at ha
  cases ha with
  | changed hv' happly =>
      cases hv.symm.trans hv'
      have htakes := Partition.takes i.items e v
      rw [happly] at htakes
      cases htakes with
      | wrote hpath' hadmits _ _ | erased hpath' hadmits _ _ =>
          cases hpath.symm.trans hpath'
          exact hadmits
      | kept hkept _ => exact absurd rfl (hkept _)

/-- Whether an event is a deletion at a path that is applied. -/
def deletes (i : Informer) (e : WatchEvent) (p : String) : Bool :=
  e.path? = some p && e.type = "DELETED" &&
    match (i.applyEvent e).2.2 with
    | .ok changed => changed
    | .error _ => false

theorem deletes_iff {i : Informer} {e : WatchEvent} {p : String} :
    i.deletes e p = true ↔
      e.path? = some p ∧ e.type = "DELETED" ∧ (i.applyEvent e).2.2 = .ok true := by
  unfold deletes
  cases (i.applyEvent e).2.2 with
  | error fault => simp
  | ok changed => simp [and_assoc]

/-- An event that is no write at a path and no deletion that is applied there leaves what is
there as it was. -/
theorem get?_of_not_puts {i : Informer} {e : WatchEvent} {p : String}
    (hn : e.number?.isSome = true) (hputs : e.puts p = false) (hdeletes : i.deletes e p = false) :
    (i.applyEvent e).1.items.get? p = i.items.get? p := by
  by_cases hchanged : (i.applyEvent e).2.2 = .ok true
  · obtain ⟨v, hv⟩ := exists_version hn
    rw [i.get?_applyEvent hv]
    split
    · next h =>
        have hentry : e.outcome? = none := by
          rw [WatchEvent.outcome?]
          split
          · next hwrite =>
              cases hs : Snapshot.ofRaw e.object with
              | error fault => rfl
              | ok s =>
                  rw [WatchEvent.puts_iff.2 ⟨h.1, hwrite, s, hs⟩] at hputs
                  cases hputs
          · split
            · next hdeleted =>
                rw [deletes_iff.2 ⟨h.1, hdeleted, hchanged⟩] at hdeletes
                cases hdeletes
            · rfl
        rw [hentry]
        rfl
    · rfl
  · rw [(applyEvent_view hchanged).items]

/-- After a deletion that is applied there is nothing at its path. -/
theorem get?_of_deletes {i : Informer} {e : WatchEvent} {p : String}
    (hn : e.number?.isSome = true) (h : i.deletes e p = true) :
    (i.applyEvent e).1.items.get? p = none := by
  obtain ⟨hpath, hdeleted, hchanged⟩ := deletes_iff.1 h
  obtain ⟨v, hv⟩ := exists_version hn
  rw [i.get?_applyEvent hv, if_pos ⟨hpath, admits_of_changed hpath hv hchanged⟩,
    WatchEvent.outcome?_of_deleted hdeleted]
  rfl

end Informer

/-! ## One event after another -/

/-- Of writes in the order in which they arrive, the one that has the greatest version, and of
several with that version the last. -/
def WatchEvent.Wins (e : WatchEvent) (ws : List WatchEvent) : Prop :=
  ∃ before after, ws = before ++ e :: after ∧
    (∀ x ∈ before, x.number ≤ e.number) ∧ ∀ x ∈ after, x.number < e.number

namespace WatchEvent

theorem Wins.mem {e : WatchEvent} {ws : List WatchEvent} (h : e.Wins ws) : e ∈ ws := by
  obtain ⟨before, after, rfl, -⟩ := h
  exact List.mem_append_right before List.mem_cons_self

/-- No write has a greater version than the winner. -/
theorem Wins.le {e x : WatchEvent} {ws : List WatchEvent} (h : e.Wins ws) (hx : x ∈ ws) :
    x.number ≤ e.number := by
  obtain ⟨before, after, rfl, hbefore, hafter⟩ := h
  rcases List.mem_append.1 hx with hx | hx
  · exact hbefore x hx
  · rcases List.mem_cons.1 hx with rfl | hx
    · exact Int.le_refl _
    · exact Int.le_of_lt (hafter x hx)

theorem wins_first (e : WatchEvent) : e.Wins [e] :=
  ⟨[], [], rfl, by simp, by simp⟩

/-- A write that is not older than the winner wins over it. -/
theorem Wins.replaced {e x : WatchEvent} {ws : List WatchEvent} (h : e.Wins ws)
    (hx : e.number ≤ x.number) : x.Wins (ws ++ [x]) :=
  ⟨ws, [], rfl, fun _ hy => Int.le_trans (h.le hy) hx, by simp⟩

/-- An older one does not. -/
theorem Wins.kept {e x : WatchEvent} {ws : List WatchEvent} (h : e.Wins ws)
    (hx : x.number < e.number) : e.Wins (ws ++ [x]) := by
  obtain ⟨before, after, rfl, hbefore, hafter⟩ := h
  refine ⟨before, after ++ [x], by simp, hbefore, fun y hy => ?_⟩
  rcases List.mem_append.1 hy with hy | hy
  · exact hafter y hy
  · rw [List.mem_singleton.1 hy]
    exact hx

/-- There is one winner. -/
theorem Wins.unique {e e' : WatchEvent} {ws : List WatchEvent} (h : e.Wins ws) (h' : e'.Wins ws) :
    e = e' := by
  obtain ⟨before, after, rfl, hbefore, hafter⟩ := h
  obtain ⟨before', after', heq, hbefore', hafter'⟩ := h'
  rcases List.append_eq_append_iff.1 heq with ⟨mid, rfl, hrest⟩ | ⟨mid, rfl, hrest⟩
  · cases mid with
    | nil => exact (List.cons.inj hrest).1
    | cons x mid =>
        obtain ⟨rfl, rfl⟩ := List.cons.inj hrest
        have hle := hbefore' e (by simp)
        have hlt := hafter e' (by simp)
        omega
  · cases mid with
    | nil => exact (List.cons.inj hrest).1.symm
    | cons x mid =>
        obtain ⟨rfl, rfl⟩ := List.cons.inj hrest
        have hle := hbefore e' (by simp)
        have hlt := hafter' e (by simp)
        omega

end WatchEvent

namespace Informer

/-- The informer after events in the order in which they arrive. -/
def applyAll (i : Informer) (es : List WatchEvent) : Informer :=
  es.foldl (fun i e => (i.applyEvent e).1) i

/-- The writes at a path since a deletion was last applied there, once an event has been added
to them. -/
def retold (i : Informer) (p : String) (ws : List WatchEvent) (e : WatchEvent) :
    List WatchEvent :=
  if e.puts p then ws ++ [e] else if i.deletes e p then [] else ws

/-- The writes at a path, in the order in which they arrive, since a deletion was last applied
there, or, if none was, since the beginning. -/
def writesAt (p : String) (i : Informer) (ws : List WatchEvent) :
    List WatchEvent → List WatchEvent
  | [] => ws
  | e :: es => writesAt p (i.applyEvent e).1 (i.retold p ws e) es

/-- What is at a path comes of writes: nothing of none, and else the object of the winner. -/
inductive Shows (i : Informer) (p : String) : List WatchEvent → Prop
  | nothing : i.items.get? p = none → Shows i p []
  | winner {ws : List WatchEvent} {e : WatchEvent} {s : Snapshot} :
      e.Wins ws → Snapshot.ofRaw e.object = .ok s → i.items.get? p = some s → Shows i p ws

/-- A write replaces what is not newer. -/
theorem Shows.puts {i : Informer} {p : String} {ws : List WatchEvent} {e : WatchEvent}
    (h : i.Shows p ws) (hws : ∀ x ∈ ws, x.number?.isSome = true) (hn : e.number?.isSome = true)
    (hputs : e.puts p = true) : (i.applyEvent e).1.Shows p (ws ++ [e]) := by
  obtain ⟨hpath, hwrite, s, hs⟩ := WatchEvent.puts_iff.1 hputs
  have hv := (WatchEvent.of_snapshot hs).1
  have hget := i.get?_applyEvent hv p
  rw [WatchEvent.outcome?_of_isWrite hwrite hs] at hget
  cases h with
  | nothing hnone =>
      have hadmits : i.items.admits p s.version = true := by rw [Partition.admits, hnone]
      rw [if_pos ⟨hpath, hadmits⟩] at hget
      exact .winner (WatchEvent.wins_first e) hs hget
  | @winner _ w current hwins hcurrent hsome =>
      have hadmits : i.items.admits p s.version = decide (w.number ≤ e.number) := by
        rw [Partition.admits, hsome]
        exact newerOrEqual_of_numbers (WatchEvent.parseInt_version hv hn)
          (WatchEvent.parseInt_version (WatchEvent.of_snapshot hcurrent).1 (hws w hwins.mem))
      by_cases hle : w.number ≤ e.number
      · rw [if_pos ⟨hpath, by rw [hadmits]; exact decide_eq_true hle⟩] at hget
        exact .winner (hwins.replaced hle) hs hget
      · rw [if_neg fun h => hle (of_decide_eq_true (hadmits ▸ h.2)), hsome] at hget
        exact .winner (hwins.kept (Int.not_le.1 hle)) hcurrent hget

/-- Whatever event arrives, what is at a path is what its writes say. -/
theorem Shows.applyEvent {i : Informer} {p : String} {ws : List WatchEvent} {e : WatchEvent}
    (h : i.Shows p ws) (hws : ∀ x ∈ ws, x.number?.isSome = true)
    (hn : e.number?.isSome = true) : (i.applyEvent e).1.Shows p (i.retold p ws e) := by
  unfold retold
  split
  · next hputs => exact h.puts hws hn hputs
  · next hputs =>
      split
      · next hdeletes => exact .nothing (get?_of_deletes hn hdeletes)
      · next hdeletes =>
          have hsame := get?_of_not_puts hn (by simpa using hputs) (by simpa using hdeletes)
          cases h with
          | nothing hnone => exact .nothing (hsame.trans hnone)
          | winner hwins hs hsome => exact .winner hwins hs (hsame.trans hsome)

theorem numbered_retold {i : Informer} {p : String} {ws : List WatchEvent} {e : WatchEvent}
    (hws : ∀ x ∈ ws, x.number?.isSome = true) (hn : e.number?.isSome = true) :
    ∀ x ∈ i.retold p ws e, x.number?.isSome = true := by
  intro x hx
  rw [retold] at hx
  split at hx
  · rcases List.mem_append.1 hx with hx | hx
    · exact hws x hx
    · rw [List.mem_singleton.1 hx]
      exact hn
  · split at hx
    · cases hx
    · exact hws x hx

theorem numbered_writesAt {i : Informer} {p : String} {ws es : List WatchEvent}
    (hws : ∀ x ∈ ws, x.number?.isSome = true) (hes : ∀ x ∈ es, x.number?.isSome = true) :
    ∀ x ∈ writesAt p i ws es, x.number?.isSome = true := by
  induction es generalizing i ws with
  | nil => exact hws
  | cons e es ih =>
      obtain ⟨hn, hes⟩ := List.forall_mem_cons.1 hes
      exact ih (numbered_retold hws hn) hes

theorem Shows.applyAll {i : Informer} {p : String} {ws es : List WatchEvent} (h : i.Shows p ws)
    (hws : ∀ x ∈ ws, x.number?.isSome = true) (hes : ∀ x ∈ es, x.number?.isSome = true) :
    (i.applyAll es).Shows p (writesAt p i ws es) := by
  induction es generalizing i ws with
  | nil => exact h
  | cons e es ih =>
      obtain ⟨hn, hes⟩ := List.forall_mem_cons.1 hes
      exact ih (h.applyEvent hws hn) (numbered_retold hws hn) hes

end Informer

/-! ## Well-formed events -/

theorem Value.orElse_record (fields : Fields) :
    (Value.record fields).orElse (.record []) = .record fields := by
  cases fields <;> rfl

/-- A snapshot can be taken of an object whose metadata is a record, and so are its labels if there
are any. -/
theorem Snapshot.ofRaw_record {fields metadata : Fields}
    (hmetadata : fields.get? "metadata" = some (.record metadata))
    (hlabels : ∀ v, metadata.get? "labels" = some v → ∃ labels, v = .record labels) :
    metadataOf (.record fields) = .ok metadata ∧ ∃ s, Snapshot.ofRaw (.record fields) = .ok s ∧
      s.ns = fieldText metadata "namespace" ∧ s.name = fieldText metadata "name" := by
  have hm : metadataOf (.record fields) = .ok metadata := by
    show fieldsOf (((fields.get? "metadata").getD .null).orElse (.record [])) = _
    rw [hmetadata, Option.getD_some, Value.orElse_record]
    rfl
  have htable : ∃ labelled,
      tableOf (((metadata.get? "labels").getD .null).orElse (.record [])) = .ok labelled := by
    cases hv : metadata.get? "labels" with
    | none => exact ⟨[], rfl⟩
    | some v =>
        obtain ⟨labels, rfl⟩ := hlabels v hv
        rw [Option.getD_some, Value.orElse_record]
        exact ⟨.ofFields labels, rfl⟩
  obtain ⟨labelled, htable⟩ := htable
  let s : Snapshot := {
    kind := ((fields.get? "kind").getD (.text "")).asText
    ns := fieldText metadata "namespace"
    name := fieldText metadata "name"
    version := fieldText metadata "resourceVersion"
    labelled := labelled
    raw := .record fields }
  refine ⟨hm, s, ?_, rfl, rfl⟩
  unfold Snapshot.ofRaw
  rw [hm]
  dsimp only [fieldsOf, bind, Except.bind]
  rw [htable]
  rfl

namespace WatchEvent

/-- Whether an event says of a named, well-formed object that it is there or not: metadata and
labels are records, and the version is a number. -/
structure WellFormed (e : WatchEvent) : Prop where
  type : e.isWrite = true ∨ e.type = "DELETED"
  object : ∃ fields metadata : Fields, e.object = .record fields ∧
    fields.get? "metadata" = some (.record metadata) ∧
    (∀ v, metadata.get? "labels" = some v → ∃ labels, v = .record labels) ∧
    (fieldText metadata "name").isEmpty = false
  number : e.number?.isSome = true

theorem WellFormed.snapshot {e : WatchEvent} (h : e.WellFormed) :
    ∃ s, Snapshot.ofRaw e.object = .ok s ∧ s.name.isEmpty = false := by
  obtain ⟨fields, metadata, hobject, hmetadata, hlabels, hname⟩ := h.object
  obtain ⟨-, s, hs, -, hsname⟩ := Snapshot.ofRaw_record hmetadata hlabels
  exact ⟨s, hobject ▸ hs, hsname ▸ hname⟩

theorem WellFormed.outcome? {e : WatchEvent} (h : e.WellFormed) : e.outcome? ≠ none := by
  obtain ⟨s, hs, -⟩ := h.snapshot
  rcases h.type with hwrite | hdeleted
  · rw [outcome?_of_isWrite hwrite hs]
    simp
  · rw [outcome?_of_deleted hdeleted]
    simp

/-- An event about a pod of the default namespace. -/
def ofPod (type name version : String) : WatchEvent :=
  { type := type
    object := .record [
      ("kind", .text "Pod"),
      ("metadata", .record [
        ("namespace", .text "default"), ("name", .text name),
        ("resourceVersion", .text version)])] }

theorem wellFormed_ofPod {type name version : String}
    (htype : (ofPod type name version).isWrite = true ∨ type = "DELETED")
    (hname : name.isEmpty = false)
    (hversion : (ofPod type name version).number?.isSome = true) :
    (ofPod type name version).WellFormed where
  type := htype
  object := by
    refine ⟨_, _, rfl, rfl, fun v hlabels => (by cases hlabels), ?_⟩
    show (if (!name.isEmpty) = true then name else "").isEmpty = false
    simp [hname]
  number := hversion

end WatchEvent

namespace Informer

/-- A well-formed event is applied or dropped; it never fails. -/
theorem applyEvent_ok (i : Informer) {e : WatchEvent} (h : e.WellFormed) :
    ∃ changed, (i.applyEvent e).2.2 = .ok changed := by
  obtain ⟨s, hs, hname⟩ := h.snapshot
  obtain ⟨hv, hpath⟩ := WatchEvent.of_snapshot hs
  rw [hname] at hpath
  have ha := applies i e
  generalize (i.applyEvent e).1 = j at ha
  generalize (i.applyEvent e).2.2 = changed at ha ⊢
  cases ha with
  | unreadable hv' => rw [hv] at hv'; cases hv'
  | refused hv' happly =>
      have htakes := Partition.takes i.items e s.version
      cases hv.symm.trans hv'
      rw [happly] at htakes
      cases htakes with
      | failed hnothing =>
          rcases hnothing with hnone | hnone
          · rw [hpath] at hnone
            cases hnone
          · exact absurd hnone h.outcome?
  | changed _ _ => exact ⟨true, rfl⟩
  | dropped _ _ _ => exact ⟨false, rfl⟩

/-! ## The order of writes -/

theorem writesAt_of_no_deletion {p : String} {i : Informer} {ws es : List WatchEvent}
    (hes : ∀ e ∈ es, e.type ≠ "DELETED") :
    writesAt p i ws es = ws ++ es.filter (·.puts p) := by
  induction es generalizing i ws with
  | nil => exact (List.append_nil ws).symm
  | cons e es ih =>
      obtain ⟨he, hes⟩ := List.forall_mem_cons.1 hes
      have hkeeps : i.deletes e p = false := by
        rw [Bool.eq_false_iff, Ne, deletes_iff]
        exact fun h => he h.2.1
      rw [writesAt, ih hes, retold, hkeeps, List.filter_cons]
      split
      · rw [List.append_assoc]
        rfl
      · rfl

/-- What is at a path depends on which writes there were and not on their order, if writes with
one version are the same. -/
theorem Shows.get?_eq {i j : Informer} {p : String} {ws ws' : List WatchEvent}
    (h : i.Shows p ws) (h' : j.Shows p ws') (hmem : ∀ x, x ∈ ws ↔ x ∈ ws')
    (hdistinct : ∀ a ∈ ws, ∀ b ∈ ws, a.number = b.number → a = b) :
    i.items.get? p = j.items.get? p := by
  cases h with
  | nothing hnone =>
      cases h' with
      | nothing hnone' => rw [hnone, hnone']
      | winner hwins' _ _ => exact absurd ((hmem _).2 hwins'.mem) List.not_mem_nil
  | @winner _ e s hwins hs hsome =>
      cases h' with
      | nothing _ => exact absurd ((hmem _).1 hwins.mem) List.not_mem_nil
      | @winner _ e' s' hwins' hs' hsome' =>
          have hle := hwins.le ((hmem _).2 hwins'.mem)
          have hge := hwins'.le ((hmem _).1 hwins.mem)
          cases hdistinct e hwins.mem e' ((hmem _).2 hwins'.mem) (Int.le_antisymm hge hle)
          cases hs.symm.trans hs'
          rw [hsome, hsome']

/-- Events with well-formed objects are applied one after another to an informer that holds
nothing. None of them fails. At the end there is nothing at a path at which nothing was written
since a deletion was last applied there; else there is the object of the write with the greatest
version since then, of several with that version the last to arrive. So without deletions, and
where no two writes at a path have the same version, their order does not matter. -/
theorem last_write_wins (i : Informer) (hempty : i.items = []) (es : List WatchEvent)
    (hes : ∀ e ∈ es, e.WellFormed) :
    (∀ past e rest, es = past ++ e :: rest →
        ∃ changed, ((i.applyAll past).applyEvent e).2.2 = .ok changed) ∧
      (∀ p, writesAt p i [] es = [] → (i.applyAll es).items.get? p = none) ∧
      (∀ p, writesAt p i [] es ≠ [] → ∃ (e : WatchEvent) (s : Snapshot),
        e.Wins (writesAt p i [] es) ∧ Snapshot.ofRaw e.object = .ok s ∧
          (i.applyAll es).items.get? p = some s) ∧
      ((∀ e ∈ es, e.type ≠ "DELETED") →
        (∀ a ∈ es, ∀ b ∈ es, a.path? = b.path? → a.number = b.number → a = b) →
        ∀ es', es'.Perm es → ∀ p,
          (i.applyAll es').items.get? p = (i.applyAll es).items.get? p) := by
  have hbegin : ∀ p, i.Shows p [] := fun p => .nothing (by rw [hempty]; rfl)
  have hshows : ∀ p, (i.applyAll es).Shows p (writesAt p i [] es) := fun p =>
    (hbegin p).applyAll (by simp) fun e he => (hes e he).number
  refine ⟨fun past e rest heq => ?_, fun p hnone => ?_, fun p hsome => ?_, ?_⟩
  · exact applyEvent_ok _ (hes e (heq ▸ List.mem_append_right past List.mem_cons_self))
  · have h := hshows p
    rw [hnone] at h
    cases h with
    | nothing h => exact h
    | winner hwins _ _ => exact absurd hwins.mem List.not_mem_nil
  · have h := hshows p
    generalize writesAt p i [] es = ws at h hsome ⊢
    cases h with
    | nothing _ => exact absurd rfl hsome
    | winner hwins hs hget => exact ⟨_, _, hwins, hs, hget⟩
  · intro hwrites hdistinct es' hperm p
    have hshows' : (i.applyAll es').Shows p (writesAt p i [] es') :=
      (hbegin p).applyAll (by simp) fun e he => (hes e (hperm.mem_iff.1 he)).number
    have h := hshows p
    rw [writesAt_of_no_deletion hwrites] at h
    rw [writesAt_of_no_deletion fun e he => hwrites e (hperm.mem_iff.1 he)] at hshows'
    refine hshows'.get?_eq h (fun x => ?_) fun a ha b hb => ?_
    · simp [hperm.mem_iff]
    · simp only [List.nil_append, List.mem_filter, hperm.mem_iff, WatchEvent.puts_iff] at ha hb
      exact hdistinct a ha.1 b hb.1 (ha.2.1.trans hb.2.1.symm)

open WatchEvent (ofPod) in
/-- Of the writes after the deletion the second has the version of the first, written otherwise,
and stays; and of two updates the newer stays, whichever is first. -/
theorem last_write_wins_out_of_order :
    (∃ s, Snapshot.ofRaw (ofPod "MODIFIED" "web" " +3").object = .ok s ∧
      ((new .pods "" {}).applyAll
        [ofPod "ADDED" "web" "10", ofPod "MODIFIED" "web" "9", ofPod "DELETED" "web" "11",
          ofPod "ADDED" "web" "3", ofPod "ADDED" "db" "4", ofPod "MODIFIED" "web" " +3",
          ofPod "MODIFIED" "web" "2"]).items.get? "default/web" = some s) ∧
    ∀ p, ((new .pods "" {}).applyAll
        [ofPod "MODIFIED" "web" "10", ofPod "ADDED" "web" "9"]).items.get? p =
      ((new .pods "" {}).applyAll
        [ofPod "ADDED" "web" "9", ofPod "MODIFIED" "web" "10"]).items.get? p := by
  constructor
  · have hes : ∀ e ∈ [ofPod "ADDED" "web" "10", ofPod "MODIFIED" "web" "9",
        ofPod "DELETED" "web" "11", ofPod "ADDED" "web" "3", ofPod "ADDED" "db" "4",
        ofPod "MODIFIED" "web" " +3", ofPod "MODIFIED" "web" "2"], e.WellFormed := by
      simp only [List.forall_mem_cons]
      refine ⟨?_, ?_, ?_, ?_, ?_, ?_, ?_, by simp⟩
      all_goals exact WatchEvent.wellFormed_ofPod (by decide) rfl rfl
    have hwrites : writesAt "default/web" (new .pods "" {}) []
        [ofPod "ADDED" "web" "10", ofPod "MODIFIED" "web" "9", ofPod "DELETED" "web" "11",
          ofPod "ADDED" "web" "3", ofPod "ADDED" "db" "4", ofPod "MODIFIED" "web" " +3",
          ofPod "MODIFIED" "web" "2"] =
        [ofPod "ADDED" "web" "3", ofPod "MODIFIED" "web" " +3", ofPod "MODIFIED" "web" "2"] := rfl
    obtain ⟨e, s, hwins, hs, hget⟩ := (last_write_wins (new .pods "" {}) rfl _ hes).2.2.1
      "default/web" (by rw [hwrites]; simp)
    rw [hwrites] at hwins
    have hwinner : (ofPod "MODIFIED" "web" " +3").Wins
        [ofPod "ADDED" "web" "3", ofPod "MODIFIED" "web" " +3", ofPod "MODIFIED" "web" "2"] :=
      ⟨[ofPod "ADDED" "web" "3"], [ofPod "MODIFIED" "web" "2"], rfl, by
        simp only [List.forall_mem_singleton]; decide, by
        simp only [List.forall_mem_singleton]; decide⟩
    cases hwins.unique hwinner
    exact ⟨s, hs, hget⟩
  · refine (last_write_wins (new .pods "" {}) rfl
      [ofPod "ADDED" "web" "9", ofPod "MODIFIED" "web" "10"] ?_).2.2.2 ?_ ?_ _
      (List.Perm.swap _ _ [])
    · simp only [List.forall_mem_cons]
      refine ⟨?_, ?_, by simp⟩
      all_goals exact WatchEvent.wellFormed_ofPod (by decide) rfl rfl
    · simp only [List.forall_mem_cons]
      exact ⟨by decide, by decide, by simp⟩
    · intro a ha b hb _ hsame
      have hne : (ofPod "ADDED" "web" "9").number ≠ (ofPod "MODIFIED" "web" "10").number := by
        decide
      simp only [List.mem_cons, List.not_mem_nil, or_false] at ha hb
      rcases ha with rfl | rfl <;> rcases hb with rfl | rfl
      · rfl
      · exact absurd hsame hne
      · exact absurd hsame.symm hne
      · rfl

end Informer

end LiveCluster
