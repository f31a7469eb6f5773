import LiveCluster.Proofs.Watch.Reaction

/-!
# The worker's records and the history

A worker remembers little: whether a listing is due, whether its watch has been
established, how many watches it opened and which timer runs. `Agrees` says that all
of this is what the history says. The timer is the delicate one: as long as it runs,
its watch is the one that is open, so an alarm that has an effect is always the alarm
of the watch that is open; and once it has run out that watch is established.
-/

namespace LiveCluster

open Informer (Command Signal Reacts reacts)

namespace Stage

theorem isStream_of_admits_event {g : Stage} {e : WatchEvent}
    (h : g.admits (.event e) = true) : g.isStream = true := by
  match g with
  | .awaiting (.watch _) | .awaiting .next => rfl

theorem created_of_admits {g : Stage} (h : g.admits .started = true) : g = .created := by
  match g with
  | .created => rfl

theorem awaiting_of_admits_listed {g : Stage} {items : List Value} {v : String}
    (h : g.admits (.listed items v) = true) : g = .awaiting .list := by
  match g with
  | .awaiting .list => rfl

theorem awaiting_of_admits_woke {g : Stage} (h : g.admits .woke = true) :
    ∃ d, g = .awaiting (.sleep d) := by
  match g with
  | .awaiting (.sleep d) => exact ⟨d, rfl⟩

theorem woke_of_admits {d : Float} {s : Signal} (h : (awaiting (.sleep d)).admits s = true) :
    s = .woke := by
  match s with
  | .woke => rfl

theorem isStream_of_admits_ended {g : Stage} (h : g.admits .ended = true) :
    g.isStream = true := by
  match g with
  | .awaiting (.watch _) | .awaiting .next => rfl

theorem awaiting_of_admits {g : Stage} {s : Signal} (h : g.admits s = true)
    (hs : s ≠ .started) : ∃ c, g = .awaiting c := by
  cases g with
  | created =>
      cases s with
      | started => exact absurd rfl hs
      | listed _ _ | listFailed _ | event _ | ended | watchFailed _ | woke => cases h
  | awaiting c => exact ⟨c, rfl⟩
  | cancelled => cases h

theorem isRunning_of_admits {g : Stage} {s : Signal} (h : g.admits s = true) :
    g.isRunning = true := by
  match g with
  | .created | .awaiting .list | .awaiting (.watch _) | .awaiting .next
  | .awaiting (.sleep _) => rfl

theorem isRunning_of_isStream {g : Stage} (h : g.isStream = true) : g.isRunning = true := by
  cases g with
  | created | cancelled => cases h
  | awaiting c =>
      cases c with
      | watch _ | next => rfl
      | list | sleep _ | crash _ => cases h

end Stage

namespace Worker

@[simp] theorem take_informer (k : Worker) (i : Informer) (c : Command) :
    (k.take i c).informer = i := by
  cases c <;> rfl

@[simp] theorem take_stage (k : Worker) (i : Informer) (c : Command) :
    (k.take i c).stage = .awaiting c := by
  cases c <;> rfl

/-- A command that opens no watch and belongs to none leaves no timer behind. -/
theorem take_timer {k : Worker} {i : Informer} {c : Command} (h : c.isStream = false) :
    (k.take i c).timer = none := by
  cases c with
  | watch _ | next => cases h
  | list | sleep _ | crash _ => rfl

theorem take_opened {k : Worker} {i : Informer} {c : Command} (h : c.isStream = false) :
    (k.take i c).opened = k.opened := by
  cases c with
  | watch _ | next => cases h
  | list | sleep _ | crash _ => rfl

theorem ring_stage (k : Worker) (watch : Nat) : (k.ring watch).stage = k.stage := by
  unfold ring
  split <;> rfl

/-- The alarm of a timer that does not run has no effect. -/
theorem ring_of_ne {k : Worker} {watch : Nat} (h : k.timer ≠ some watch) : k.ring watch = k :=
  if_neg h

theorem ring_of_eq {k : Worker} {watch : Nat} (h : k.timer = some watch) :
    k.ring watch = { k with informer := k.informer.establish.1, timer := none } :=
  if_pos h

/-- An alarm touches what failures bear on and nothing else of the informer. -/
theorem ring_frame (k : Worker) (watch : Nat) :
    (k.ring watch).informer =
      { k.informer with
        established := (k.ring watch).informer.established
        failures := (k.ring watch).informer.failures
        state := (k.ring watch).informer.state } := by
  unfold ring
  split
  · exact k.informer.establish_frame
  · rfl

end Worker

namespace Informer

@[simp] theorem Command.pausing_isStream (delay : Except Fault Float) :
    (Command.pausing delay).isStream = false := by
  cases delay <;> rfl

@[simp] theorem Command.pausing_isCall (delay : Except Fault Float) :
    (Command.pausing delay).isCall = false := by
  cases delay <;> rfl

/-- A worker that pauses calls nothing. -/
theorem Command.ne_pausing_of_isCall {c : Command} (h : c.isCall = true)
    (delay : Except Fault Float) : c ≠ .pausing delay := by
  rintro rfl
  rw [pausing_isCall] at h
  cases h

/-- A worker that pauses goes on as long as the pause can be computed. -/
theorem pausing_isRunning {config : WatchConfig} {n : Nat} :
    (Stage.awaiting (.pausing (backoffDelay config n))).isRunning = true ↔ n ≤ backoffLimit := by
  constructor
  · intro h
    apply Nat.le_of_not_lt
    intro hover
    rw [backoffDelay_eq_error config hover] at h
    cases h
  · intro h
    obtain ⟨d, hd⟩ := backoffDelay_eq_ok config h
    rw [hd]
    rfl

theorem establish_needList (i : Informer) : i.establish.1.needList = i.needList := by
  rw [establish_frame]

theorem establish_established (i : Informer) : i.establish.1.established = true := by
  rw [establish_informer]
  split
  · next h => exact h
  · rfl

/-- An event touches the version, the partition and its revision. -/
theorem applyEvent_frame (i : Informer) (e : WatchEvent) :
    (i.applyEvent e).1 =
      { i with
        items := (i.applyEvent e).1.items
        revision := (i.applyEvent e).1.revision
        version := (i.applyEvent e).1.version } := by
  have hseen : ∀ v, i.seen v = { i with version := (i.seen v).version } := by
    intro v
    unfold seen
    split <;> rfl
  generalize hr : (i.applyEvent e).2.2 = changed
  have ha := applies i e
  rw [hr] at ha
  generalize (i.applyEvent e).1 = j at ha
  cases ha with
  | unreadable _ => rfl
  | refused _ _ => rw [hseen]
  | changed _ _ => rw [hseen]
  | dropped _ _ _ => rw [hseen]

theorem told_event_needList (i : Informer) (e : WatchEvent) :
    (i.told (.event e)).needList = i.needList := by
  rw [told, applyEvent_frame]
  exact establish_needList i

theorem told_event_established (i : Informer) (e : WatchEvent) :
    (i.told (.event e)).established = true := by
  rw [told, applyEvent_frame]
  exact establish_established i

end Informer

theorem History.isOpen_of_concerns {past : History} {n : Nat} (h : past.concerns n = true) :
    History.isOpen past = true := by
  rw [concerns, Bool.and_eq_true] at h
  exact h.1

theorem History.opened_watch (i : Informer) (s : Signal) (v : String) (past : History) :
    History.opened (.did (.watch v) :: .heard i s :: past) = History.opened past + 1 := by
  rw [opened, List.countP_cons_of_pos rfl, List.countP_cons_of_neg (by simp [Act.opensWatch]),
    opened]

/-- The worker's records are what the history says. -/
structure Agrees (h : History) (k : Worker) : Prop where
  opened : k.opened = History.opened h
  isOpen : k.stage.isStream = History.isOpen h
  established : History.isOpen h = true → k.informer.established = History.established h
  /-- No listing is due while a watch is open. -/
  watching : History.isOpen h = true → k.informer.needList = false
  listing : k.stage = .awaiting .list → k.informer.needList = true
  /-- A timer that runs belongs to the watch that is open. -/
  timer : ∀ n, k.timer = some n → History.concerns h n = true
  /-- A watch whose timer has run out is established. -/
  armed : History.isOpen h = true → k.timer = none → History.established h = true

/-- An event comes from a watch that is open. -/
theorem Agrees.isOpen_of_event {past : History} {k : Worker} {e : WatchEvent} (h : Agrees past k)
    (ha : k.stage.admits (.event e) = true) : History.isOpen past = true :=
  h.isOpen ▸ Stage.isStream_of_admits_event ha

/-- The watch that ends is open. -/
theorem Agrees.isOpen_of_ended {past : History} {k : Worker} (h : Agrees past k)
    (ha : k.stage.admits .ended = true) : History.isOpen past = true :=
  h.isOpen ▸ Stage.isStream_of_admits_ended ha

theorem Agrees.timer_of_not_isStream {past : History} {k : Worker} (h : Agrees past k)
    (hk : k.stage.isStream = false) : k.timer = none := by
  cases htimer : k.timer with
  | none => rfl
  | some n =>
      have hopen := History.isOpen_of_concerns (h.timer n htimer)
      rw [← h.isOpen, hk] at hopen
      cases hopen

/-- A command that has nothing to do with a watch leaves little to agree on. -/
theorem Agrees.leave {past : History} {k : Worker} {i j : Informer} {s : Signal} {c : Command}
    (h : Agrees past k) (hc : c.isStream = false) (hl : c = .list → j.needList = true) :
    Agrees (.did c :: .heard i s :: past) (k.take j c) where
  opened := by
    rw [Worker.take_opened hc, h.opened]
    cases c with
    | watch _ => cases hc
    | list | next | sleep _ | crash _ => rfl
  isOpen := by rw [Worker.take_stage]; rfl
  established ho := by rw [History.isOpen, hc] at ho; cases ho
  watching ho := by rw [History.isOpen, hc] at ho; cases ho
  listing hs := by
    rw [Worker.take_stage] at hs
    rw [Worker.take_informer]
    exact hl (Stage.awaiting.inj hs)
  timer n hn := by rw [Worker.take_timer hc] at hn; cases hn
  armed ho := by rw [History.isOpen, hc] at ho; cases ho

/-- A watch is opened with its timer, not established. -/
theorem Agrees.open {past : History} {k : Worker} {i j : Informer} {s : Signal} {v : String}
    (h : Agrees past k) (hn : j.needList = false) (he : j.established = false) :
    Agrees (.did (.watch v) :: .heard i s :: past) (k.take j (.watch v)) where
  opened := by rw [History.opened_watch, ← h.opened]; rfl
  isOpen := rfl
  established _ := he
  watching _ := hn
  listing hs := by cases hs
  timer n hn := by
    cases hn
    rw [History.concerns, History.opened_watch, h.opened]
    exact beq_self_eq_true (History.opened past + 1)
  armed _ hn := by cases hn

/-- An event establishes the watch that is open and leaves it open. -/
theorem Agrees.event {past : History} {k : Worker} {i : Informer} {e : WatchEvent}
    (h : Agrees past k) (ha : k.stage.admits (.event e) = true) :
    Agrees (.did .next :: .heard i (.event e) :: past)
      (k.take (k.informer.told (.event e)) .next) where
  opened := h.opened
  isOpen := rfl
  established _ := k.informer.told_event_established e
  watching _ := (k.informer.told_event_needList e).trans (h.watching (h.isOpen_of_event ha))
  listing hs := by cases hs
  timer n hn := by
    have hc := h.timer n hn
    rw [History.concerns, Bool.and_eq_true] at hc ⊢
    exact ⟨rfl, hc.2⟩
  armed _ _ := rfl

/-- What the worker remembers agrees with the history after a turn. -/
theorem Agrees.turn {past : History} {k : Worker} {i j : Informer} {s : Signal} {c : Command}
    (h : Agrees past k) (ha : k.stage.admits s = true) (hr : Reacts k.informer s j c) :
    Agrees (.did c :: .heard i s :: past) (k.take j c) := by
  cases hr with
  | started => exact h.leave rfl fun _ => rfl
  | listed _ => exact h.open rfl rfl
  | event _ => exact h.event ha
  | gone _ _ => exact h.leave rfl fun _ => rfl
  | counted _ _ =>
      exact h.leave (Command.pausing_isStream _) fun hc =>
        absurd hc.symm (Command.ne_pausing_of_isCall rfl _)
  | closed _ =>
      exact h.leave (Command.pausing_isStream _) fun hc =>
        absurd hc.symm (Command.ne_pausing_of_isCall rfl _)
  | listing _ hn => exact h.leave rfl fun _ => hn
  | resuming _ hn => exact h.open hn rfl

/-- The alarm of the watch that is open, when its timer has stopped, comes after that watch
was established. -/
theorem Agrees.late {past : History} {k : Worker} {n : Nat} (h : Agrees past k)
    (hn : k.timer ≠ some n) (hc : History.concerns past n = true) :
    History.established past = true := by
  rw [History.concerns, Bool.and_eq_true, beq_iff_eq] at hc
  cases ht : k.timer with
  | none => exact h.armed hc.1 ht
  | some m =>
      have hm := h.timer m ht
      rw [History.concerns, Bool.and_eq_true, beq_iff_eq] at hm
      have : m = n := by omega
      exact absurd (this ▸ ht) hn

/-- An alarm has an effect only while its watch is open, and then that watch is established. -/
theorem Agrees.alarm {past : History} {k : Worker} (h : Agrees past k) (n : Nat) :
    Agrees (.alarm n :: past) (k.ring n) := by
  by_cases hn : k.timer = some n
  · have hc := h.timer n hn
    rw [Worker.ring_of_eq hn]
    exact {
      opened := h.opened
      isOpen := h.isOpen
      established := fun _ => by
        rw [History.established, hc]
        exact k.informer.establish_established
      watching := fun ho => (k.informer.establish_needList).trans (h.watching ho)
      listing := fun hs => (k.informer.establish_needList).trans (h.listing hs)
      timer := fun m hm => by cases hm
      armed := fun _ _ => by rw [History.established, hc]; rfl }
  · rw [Worker.ring_of_ne hn]
    exact {
      opened := h.opened
      isOpen := h.isOpen
      established := fun ho => by
        rw [h.established ho, History.established]
        cases hc : History.concerns past n with
        | true => rw [h.late hn hc]; rfl
        | false => rfl
      watching := h.watching
      listing := h.listing
      timer := h.timer
      armed := fun ho ht => by rw [History.established, h.armed ho ht, Bool.or_true] }

theorem Agrees.cancel {past : History} {k : Worker} (h : Agrees past k) :
    Agrees (.cancelled :: past) k.cancel where
  opened := h.opened
  isOpen := rfl
  established ho := by cases ho
  watching ho := by cases ho
  listing hs := by cases hs
  timer n hn := by cases hn
  armed ho := by cases ho

/-- What a worker remembers agrees with its history throughout its run. -/
theorem Run.agrees {i : Informer} {h : History} {k : Worker} (hrun : Run i h k) : Agrees h k := by
  induction hrun with
  | begin =>
      exact {
        opened := rfl
        isOpen := rfl
        established := fun ho => by cases ho
        watching := fun ho => by cases ho
        listing := fun hs => by cases hs
        timer := fun n hn => by cases hn
        armed := fun ho => by cases ho }
  | turn s _ ha ih => exact ih.turn ha (reacts _ s)
  | alarm n _ ih => exact ih.alarm n
  | cancel _ _ ih => exact ih.cancel

end LiveCluster
