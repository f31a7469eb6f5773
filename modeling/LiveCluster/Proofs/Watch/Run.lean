import LiveCluster.Watch.Informer

/-!
# Runs of a worker

The informer only reacts; what it reacts to comes from outside. A run puts the two
together: the worker is told what came of its last command, reacts, and carries the
next command out. Nothing is assumed about the outside but that an answer fits its
question: a listing comes back or fails, an open watch delivers, ends or fails, and
a pause ends.

Two things happen beside that. The alarm of a watch's timer may go off at any
moment, also for a watch that is long over; it has an effect only while that timer
runs, and the timer is started with the watch and stopped when the watch is left.
And the worker may be called off.

Here the worker stands alone. That one which is a task among many goes through such a
run and no other is shown for worlds as a whole.

A run keeps its history, newest act first. The definitions on histories below speak
of what was said and done and of nothing else: not of the counter, the flags or the
timer that the worker keeps for itself.
-/

namespace LiveCluster

namespace Informer

/-- Whether a signal is an answer to a command. -/
def Command.admits : Command → Signal → Bool
  | .list, .listed .. | .list, .listFailed _ => true
  | .watch _, .event _ | .watch _, .ended | .watch _, .watchFailed _ => true
  | .next, .event _ | .next, .ended | .next, .watchFailed _ => true
  | .sleep _, .woke => true
  | _, _ => false

/-- Whether a command reaches the cluster. -/
def Command.isCall : Command → Bool
  | .list | .watch _ => true
  | _ => false

/-- Whether a watch is open while the command is carried out. -/
def Command.isStream : Command → Bool
  | .watch _ | .next => true
  | _ => false

/-- The fault in what the worker is told: a call that raised, a listing with an object of
which no snapshot can be taken, or an event that cannot be applied. -/
def fault? (i : Informer) : Signal → Option Fault
  | .listFailed fault | .watchFailed fault => some fault
  | .listed items _ => match Partition.ofListing items [] with
    | .ok _ => none
    | .error fault => some fault
  | .event e => match (i.applyEvent e).2.2 with
    | .ok _ => none
    | .error fault => some fault
  | _ => none

end Informer

/-- What a worker is at. -/
inductive Stage where
  /-- It was made and has not begun. -/
  | created
  /-- It waits for what comes of a command. -/
  | awaiting (command : Informer.Command)
  /-- It was called off. -/
  | cancelled

namespace Stage

def admits : Stage → Informer.Signal → Bool
  | .created, .started => true
  | .awaiting c, s => c.admits s
  | _, _ => false

/-- Whether the worker goes on; one that was called off or crashed does not. -/
def isRunning : Stage → Bool
  | .awaiting (.crash _) | .cancelled => false
  | _ => true

def isStream : Stage → Bool
  | .awaiting c => c.isStream
  | _ => false

end Stage

/-- An informer with its worker. -/
structure Worker where
  informer : Informer
  stage : Stage := .created
  /-- How many watches the worker has opened. -/
  opened : Nat := 0
  /-- The watch whose timer runs. -/
  timer : Option Nat := none

namespace Worker

/-- A new worker of an informer. -/
def begin (i : Informer) : Worker :=
  { informer := { i with state := .watching } }

def isRunning (k : Worker) : Bool :=
  k.stage.isRunning

/-- The worker begins to carry a command out. A watch is opened with its timer, and the timer
is stopped with whatever is not part of that watch. -/
def take (k : Worker) (i : Informer) (c : Informer.Command) : Worker :=
  let k := { k with informer := i, stage := .awaiting c }
  match c with
  | .next => k
  | .watch _ => { k with opened := k.opened + 1, timer := some k.opened }
  | _ => { k with timer := none }

/-- The worker hears what came of its command, reacts, and turns to the next one. -/
def hear (k : Worker) (s : Informer.Signal) : Worker :=
  k.take (k.informer.react s).informer (k.informer.react s).command

/-- The alarm of a watch goes off. -/
def ring (k : Worker) (watch : Nat) : Worker :=
  if k.timer = some watch then { k with informer := k.informer.establish.1, timer := none }
  else k

/-- The worker is called off. -/
def cancel (k : Worker) : Worker :=
  { k with stage := .cancelled, timer := none }

end Worker

/-- What a history is made of. -/
inductive Act where
  /-- The worker was told something, in the state `before`. -/
  | heard (before : Informer) (signal : Informer.Signal)
  | did (command : Informer.Command)
  /-- The alarm of a watch went off; watches are counted from nought. -/
  | alarm (watch : Nat)
  | cancelled

/-- What was said and done, newest first. -/
abbrev History := List Act

/-- The runs of a worker that begins on an informer. -/
inductive Run (i : Informer) : History → Worker → Prop
  | begin : Run i [] (.begin i)
  | turn {past : History} {k : Worker} (s : Informer.Signal) :
      Run i past k → k.stage.admits s = true →
      Run i (.did (k.informer.react s).command :: .heard k.informer s :: past) (k.hear s)
  | alarm {past : History} {k : Worker} (watch : Nat) :
      Run i past k → Run i (.alarm watch :: past) (k.ring watch)
  | cancel {past : History} {k : Worker} :
      Run i past k → k.isRunning = true → Run i (.cancelled :: past) k.cancel

/-! ## What a history says -/

namespace Act

/-- Whether a watch is opened. -/
def opensWatch : Act → Bool
  | .did (.watch _) => true
  | _ => false

/-- Whether the cluster is called. -/
def isCall : Act → Bool
  | .did c => c.isCall
  | _ => false

/-- Whether a listing comes back and is taken over. -/
def relists : Act → Bool
  | .heard i (.listed items v) => (i.fault? (.listed items v)).isNone
  | _ => false

/-- Whether a listing is a failure: it raised, or some object of it is malformed. -/
def failsToList : Act → Bool
  | .heard _ (.listFailed _) => true
  | .heard i (.listed items v) => (i.fault? (.listed items v)).isSome
  | _ => false

/-- Whether a watch ends by raising. -/
def breaksWatch : Act → Bool
  | .heard _ (.watchFailed _) => true
  | .heard i (.event e) => (i.fault? (.event e)).isSome
  | _ => false

/-- Whether a watch ends normally. -/
def endsWatch : Act → Bool
  | .heard _ .ended => true
  | _ => false

/-- Whether the version that was asked for has expired. -/
def isGone : Act → Bool
  | .heard i s => ((i.fault? s).map Fault.isGone).getD false
  | _ => false

/-- The pause that begins, if one does. -/
def pause? : Act → Option Float
  | .did (.sleep d) => some d
  | _ => none

end Act

namespace History

/-- How many watches were opened. -/
def opened (h : History) : Nat :=
  h.countP Act.opensWatch

/-- Whether the watch that was opened last is still open. -/
def isOpen : History → Bool
  | .did c :: _ => c.isStream
  | .alarm _ :: past => isOpen past
  | _ => false

/-- Whether an alarm is the one of the watch that is open. -/
def concerns (past : History) (watch : Nat) : Bool :=
  past.isOpen && watch + 1 == past.opened

/-- Whether the watch that was opened last has been established: it delivered an event, or
its alarm went off while it was open. -/
def established : History → Bool
  | [] => false
  | .did (.watch _) :: _ => false
  | .heard _ (.event _) :: _ => true
  | .alarm watch :: past => concerns past watch || established past
  | _ :: past => established past

/-- Whether an act establishes the watch that is open. -/
def establishes (past : History) : Act → Bool
  | .heard _ (.event _) => !past.established
  | .alarm watch => past.concerns watch && !past.established
  | _ => false

/-- Whether an act counts as a failure: a call that raised for another reason than an expired
version, a listing or an event that is malformed, or the end of a watch that was not
established. -/
def counts (past : History) : Act → Bool
  | .heard _ (.listFailed fault) | .heard _ (.watchFailed fault) => !fault.isGone
  | .heard _ .ended => !past.established
  | .heard i s => (i.fault? s).isSome
  | _ => false

/-- The failures counted since a watch was last established, or, if none was, since a
beginning with `base` failures. -/
def failures (base : Nat) : History → Nat
  | [] => base
  | a :: past =>
    (if establishes past a then 0 else failures base past) + (if counts past a then 1 else 0)

/-- Whether something held of every act of a history and of what was before it. -/
def Always (p : Act → History → Prop) (h : History) : Prop :=
  ∀ a past, a :: past <:+ h → p a past

/-- The version of the newest listing or, if later events carried versions, of the newest of
these. -/
def version? : History → Option String
  | [] => none
  | .heard i (.listed items v) :: past =>
    if (i.fault? (.listed items v)).isNone then some v else version? past
  | .heard _ (.event e) :: past => match e.version with
    | .ok v => if v.isEmpty then version? past else (version? past).map fun _ => v
    | .error _ => version? past
  | _ :: past => version? past

theorem always_nil (p : Act → History → Prop) : Always p [] := by
  intro a past h
  exact absurd (List.suffix_nil.1 h) (by simp)

theorem always_cons {p : Act → History → Prop} {a : Act} {past : History} :
    Always p (a :: past) ↔ p a past ∧ Always p past := by
  constructor
  · intro h
    refine ⟨h a past (List.suffix_refl _), fun b before hb => ?_⟩
    exact h b before (hb.trans (List.suffix_cons a past))
  · rintro ⟨hnew, hpast⟩ b before hb
    rcases List.suffix_cons_iff.1 hb with heq | hb
    · cases heq
      exact hnew
    · exact hpast b before hb

end History

end LiveCluster
