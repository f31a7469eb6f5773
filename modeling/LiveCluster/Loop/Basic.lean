import LiveCluster.Fault
import LiveCluster.Sorting

/-!
# The loop that runs tasks

One task runs at a time, and it runs until it suspends itself or ends. Whoever lets
another task go on does not run it but puts a job at the end of a queue; jobs are
taken from the front. So the order in which tasks go on is the order in which they
were let go on, and nothing else decides it.

A suspended task waits for a signal, for another task to end, or for the last task
of a group to end. Cancelling a task calls its wait off, and where it waits for
other tasks passes the cancellation on to them; a task that is not suspended, or was
already let go on, hears of it when it next runs. A task that waits for the first of
several tasks counts its suspensions, so that a late notice about an earlier wait is
told apart from one about the present wait.

Time moves only from outside. A timer that has run out puts its alarm at the end of
the queue when the jobs that were there at its turn have run.
-/

namespace LiveCluster

abbrev TaskId := Nat
abbrev TimerId := Nat

/-- What a task waits for. -/
inductive Wait where
  /-- Nothing: it runs, or is about to. -/
  | none
  /-- A signal that has not been given. -/
  | signal
  /-- The signal was given; the task is about to go on. -/
  | woken
  /-- The wait was called off; the task is about to hear of it. -/
  | dropped
  /-- The end of another task. -/
  | task (other : TaskId)
  /-- The ends of several tasks, of which some have not been noticed yet. -/
  | group (members : List TaskId) (remaining : Nat) (calledOff : Bool)
  deriving Repr, DecidableEq

/-- Whom the end of a task concerns. -/
inductive Watcher where
  /-- A task that waits for this one. -/
  | waiter (t : TaskId)
  /-- A task that waits, in the given suspension, for the first of several. -/
  | any (t : TaskId) (turn : Nat)
  /-- A task that waits for a group. -/
  | member (t : TaskId)
  deriving Repr, DecidableEq

/-- What the queue holds. -/
inductive Job where
  | resume (t : TaskId)
  /-- One of the tasks that `t` waited for in the given suspension has ended. -/
  | notify (t : TaskId) (turn : Nat)
  /-- One member of the group that `t` waits for has ended. -/
  | tick (t : TaskId)
  | alarm (timer : TimerId)
  deriving Repr, DecidableEq

/-- The job by which a watcher hears that a task has ended. -/
def Watcher.job : Watcher → Job
  | .waiter t => .resume t
  | .any t turn => .notify t turn
  | .member t => .tick t

/-- What a timer does when it has run out. -/
inductive Alarm where
  | wake (t : TaskId)
  /-- The time limit of a task is over. -/
  | expire (t : TaskId)
  /-- The watch of an informer has been open long enough. -/
  | establish (informer : Nat)
  deriving Repr, DecidableEq

structure Timer where
  deadline : Float
  alarm : Alarm
  /-- Whether the alarm is already in the queue. -/
  due : Bool := false

/-- How a task ended. -/
inductive Ending (ρ : Type) where
  | returned (result : ρ)
  | failed (fault : Fault)
  | cancelled

/-- A time limit on a part of a task. -/
structure Limit where
  timer : TimerId
  /-- How often the task had been cancelled when the limit began. -/
  cancels : Nat
  expired : Bool := false

/-- A task stands at a point of its routine. -/
structure Task (π ρ : Type) where
  point : π
  wait : Wait := .none
  /-- How often the task has been suspended. -/
  turn : Nat := 0
  /-- Whether the task still has to hear that it was cancelled. -/
  mustCancel : Bool := false
  cancels : Nat := 0
  limit : Option Limit := none
  watchers : List Watcher := []
  ending : Option (Ending ρ) := none

/-- Whether a task goes on as planned or has been cancelled; a cancelled task is told
whether its signal had been given as well. -/
inductive Arrival where
  | on
  | cancelled (woken : Bool)
  deriving Repr, DecidableEq

structure Loop (π ρ : Type) where
  tasks : List (Task π ρ) := []
  ready : List Job := []
  /-- How many of the jobs run before timers are looked at again. -/
  round : Nat := 0
  timers : List (TimerId × Timer) := []
  nextTimer : TimerId := 0
  now : Float := 0.0

namespace Loop

variable {π ρ : Type}

def task? (l : Loop π ρ) (t : TaskId) : Option (Task π ρ) :=
  l.tasks[t]?

/-- Whether a task has ended; a task that was never made counts as ended. -/
def ended (l : Loop π ρ) (t : TaskId) : Bool :=
  match l.task? t with
  | some task => task.ending.isSome
  | none => true

/-- How a task ended, if it has. -/
def ending? (l : Loop π ρ) (t : TaskId) : Option (Ending ρ) :=
  (l.task? t).bind (·.ending)

def modify (l : Loop π ρ) (t : TaskId) (f : Task π ρ → Task π ρ) : Loop π ρ :=
  { l with tasks := l.tasks.modify t f }

/-- Puts a job at the end of the queue. -/
def schedule (l : Loop π ρ) (job : Job) : Loop π ρ :=
  { l with ready := l.ready ++ [job] }

def scheduleAll (l : Loop π ρ) (jobs : List Job) : Loop π ρ :=
  { l with ready := l.ready ++ jobs }

/-- Lets a task go on at a point without giving way to any other. -/
def goOn (l : Loop π ρ) (t : TaskId) (point : π) : Loop π ρ :=
  let l := l.modify t fun task => { task with point := point }
  { l with ready := .resume t :: l.ready, round := l.round + 1 }

/-- Makes a task, which begins when its turn in the queue comes. -/
def spawn (l : Loop π ρ) (point : π) : Loop π ρ × TaskId :=
  ({ l with
      tasks := l.tasks ++ [{ point := point }]
      ready := l.ready ++ [.resume l.tasks.length] },
    l.tasks.length)

/-- Suspends a task at a point. -/
def suspend (l : Loop π ρ) (t : TaskId) (point : π) (wait : Wait) : Loop π ρ :=
  l.modify t fun task => { task with point := point, wait := wait, turn := task.turn + 1 }

/-- Puts a task at the end of the queue, to go on at a point. -/
def giveWay (l : Loop π ρ) (t : TaskId) (point : π) : Loop π ρ :=
  (l.suspend t point .none).schedule (.resume t)

/-! ## Signals -/

/-- Whether a task waits for a signal that has not been given. -/
def awaitsSignal (l : Loop π ρ) (t : TaskId) : Bool :=
  match l.task? t with
  | some task => task.wait = .signal
  | none => false

/-- Gives a task the signal that it waits for, if it waits for one. -/
def wake (l : Loop π ρ) (t : TaskId) : Loop π ρ :=
  if l.awaitsSignal t then
    (l.modify t fun task => { task with wait := .woken }).schedule (.resume t)
  else l

/-- Gives the signal to the first task of a list that waits for one. The tasks after
it are left. -/
def wakeFirst (l : Loop π ρ) : List TaskId → Loop π ρ × List TaskId
  | [] => (l, [])
  | t :: rest => if l.awaitsSignal t then (l.wake t, rest) else l.wakeFirst rest

/-- Gives the signal to every task of a list that waits for one. -/
def wakeAll (l : Loop π ρ) (ts : List TaskId) : Loop π ρ :=
  ts.foldl wake l

/-! ## Cancellation -/

/-- Counts a cancellation that the task will hear of when it next runs. -/
def leaveWord (l : Loop π ρ) (t : TaskId) : Loop π ρ :=
  l.modify t fun task => { task with mustCancel := true, cancels := task.cancels + 1 }

/-- Cancels a task that waits for no other task. -/
def drop (l : Loop π ρ) (t : TaskId) : Loop π ρ :=
  if l.ended t then l
  else if l.awaitsSignal t then
    (l.modify t fun task =>
      { task with wait := .dropped, cancels := task.cancels + 1 }).schedule (.resume t)
  else l.leaveWord t

/-- Cancels a task; one that waits for others passes it on to those that go on. -/
def cancel (l : Loop π ρ) (t : TaskId) : Loop π ρ :=
  match l.task? t with
  | none => l
  | some task =>
    match task.wait with
    | .task other =>
      if l.ended other then l.leaveWord t
      else (l.drop other).modify t fun task => { task with cancels := task.cancels + 1 }
    | .group members remaining _ =>
      if members.all l.ended then l.leaveWord t
      else (members.foldl drop l).modify t fun task =>
        { task with wait := .group members remaining true, cancels := task.cancels + 1 }
    | _ => l.drop t

/-! ## Going on and ending -/

/-- How a task goes on after a wait. -/
def arrival (l : Loop π ρ) (task : Task π ρ) : Arrival :=
  if task.mustCancel then .cancelled (task.wait = .woken)
  else match task.wait with
    | .dropped => .cancelled false
    | .task other => match l.ending? other with
      | some .cancelled => .cancelled false
      | _ => .on
    | .group _ _ true => .cancelled false
    | _ => .on

/-- A task that has not ended goes on: at which point, and how. -/
def arrive (l : Loop π ρ) (t : TaskId) : Option (Loop π ρ × π × Arrival) :=
  match l.task? t with
  | none => none
  | some task =>
    if task.ending.isSome then none
    else some
      (l.modify t fun task => { task with wait := .none, mustCancel := false },
        task.point, l.arrival task)

/-- Ends a task; its watchers hear of it in the order in which they came. -/
def finish (l : Loop π ρ) (t : TaskId) (ending : Ending ρ) : Loop π ρ :=
  match l.task? t with
  | none => l
  | some task =>
    (l.modify t fun task =>
      { task with ending := some ending, wait := .none, limit := none, watchers := [] })
    |>.scheduleAll (task.watchers.map Watcher.job)

/-! ## Waiting for tasks -/

def addWatcher (l : Loop π ρ) (t : TaskId) (w : Watcher) : Loop π ρ :=
  l.modify t fun task => { task with watchers := task.watchers ++ [w] }

/-- Suspends a task until another has ended. -/
def awaitTask (l : Loop π ρ) (t : TaskId) (point : π) (other : TaskId) : Loop π ρ :=
  (l.suspend t point (.task other)).addWatcher other (.waiter t)

/-- How often a task has been suspended. -/
def turn (l : Loop π ρ) (t : TaskId) : Nat :=
  match l.task? t with
  | some task => task.turn
  | none => 0

/-- Has a task notified of the end of another; at once if that is past. -/
def watchOne (t : TaskId) (turn : Nat) (l : Loop π ρ) (other : TaskId) : Loop π ρ :=
  if l.ended other then l.schedule (.notify t turn)
  else l.addWatcher other (.any t turn)

/-- Suspends a task until the first of several others has ended. -/
def awaitAny (l : Loop π ρ) (t : TaskId) (point : π) (others : List TaskId) : Loop π ρ :=
  let l := l.suspend t point .signal
  others.foldl (watchOne t (l.turn t)) l

/-- Ends the watch of a task over others. -/
def unwatch (l : Loop π ρ) (t : TaskId) (others : List TaskId) : Loop π ρ :=
  let mine : Watcher → Bool
    | .any u _ => u = t
    | _ => false
  others.foldl (fun l other =>
    l.modify other fun task => { task with watchers := task.watchers.filter (!mine ·) }) l

/-- A notice about the end of a task, for a task that waited in the given
suspension. -/
def notify (l : Loop π ρ) (t : TaskId) (turn : Nat) : Loop π ρ :=
  if l.turn t = turn then l.wake t else l

/-- Suspends a task until all of several others have ended; there has to be one that
has not. -/
def awaitGroup (l : Loop π ρ) (t : TaskId) (point : π) (members : List TaskId) : Loop π ρ :=
  let going := members.filter (!l.ended ·)
  let l := l.suspend t point (.group members going.length false)
  going.foldl (fun l m => l.addWatcher m (.member t)) l

/-- A notice that one member of a task's group has ended. -/
def tick (l : Loop π ρ) (t : TaskId) : Loop π ρ :=
  match l.task? t with
  | none => l
  | some task =>
    match task.wait with
    | .group members remaining calledOff =>
      let l := l.modify t fun task =>
        { task with wait := .group members (remaining - 1) calledOff }
      if remaining ≤ 1 then l.schedule (.resume t) else l
    | _ => l

/-! ## Time -/

/-- How close to its deadline a timer counts as run out. -/
def tolerance : Float := 1e-9

/-- Starts a timer. -/
def startTimer (l : Loop π ρ) (delay : Float) (alarm : Alarm) : Loop π ρ × TimerId :=
  ({ l with
      timers := l.timers ++ [(l.nextTimer, { deadline := l.now + delay, alarm := alarm })]
      nextTimer := l.nextTimer + 1 },
    l.nextTimer)

/-- Starts a timer whose alarm is already in the queue. -/
def alarmNow (l : Loop π ρ) (alarm : Alarm) : Loop π ρ × TimerId :=
  ({ l with
      timers := l.timers ++ [(l.nextTimer, { deadline := l.now, alarm := alarm, due := true })]
      nextTimer := l.nextTimer + 1
      ready := l.ready ++ [.alarm l.nextTimer] },
    l.nextTimer)

def cancelTimer (l : Loop π ρ) (id : TimerId) : Loop π ρ :=
  { l with timers := l.timers.filter (·.1 ≠ id) }

/-- Takes the alarm of a timer that has run out and was not cancelled. -/
def takeAlarm? (l : Loop π ρ) (id : TimerId) : Option (Alarm × Loop π ρ) :=
  (l.timers.lookup id).map fun timer => (timer.alarm, l.cancelTimer id)

/-- Whether a timer has run out and its alarm is not in the queue yet. -/
def isDue (l : Loop π ρ) (timer : Timer) : Bool :=
  !timer.due && timer.deadline < l.now + tolerance

/-- The timers that have run out, by deadline and then by age. -/
def dueTimers (l : Loop π ρ) : List TimerId :=
  (sortBy (fun a b => decide (a.2.deadline ≤ b.2.deadline))
    (l.timers.filter fun (_, timer) => l.isDue timer)).map (·.1)

/-- Begins a round: the alarms of the timers that have run out join the queue, and
the round lasts as long as the queue now is. -/
def beginRound (l : Loop π ρ) : Loop π ρ :=
  let due := l.dueTimers
  let ready := l.ready ++ due.map Job.alarm
  { l with
    timers := l.timers.map fun (id, timer) =>
      if due.contains id then (id, { timer with due := true }) else (id, timer)
    ready := ready
    round := ready.length }

/-- The next deadline of a timer that has not run out. -/
def nextDeadline? (l : Loop π ρ) : Option Float :=
  l.timers.foldl (fun soonest (_, timer) =>
    if timer.due then soonest
    else match soonest with
      | some d => some (if timer.deadline < d then timer.deadline else d)
      | none => some timer.deadline) none

/-- Begins a time limit on a task. -/
def beginLimit (l : Loop π ρ) (t : TaskId) (delay : Float) : Loop π ρ :=
  let (l, id) :=
    if l.now + delay ≤ l.now then l.alarmNow (.expire t) else l.startTimer delay (.expire t)
  l.modify t fun task => { task with limit := some { timer := id, cancels := task.cancels } }

/-- The time limit of a task is over: the task is cancelled on account of it. -/
def expire (l : Loop π ρ) (t : TaskId) : Loop π ρ :=
  (l.cancel t).modify t fun task =>
    { task with limit := task.limit.map fun limit => { limit with expired := true } }

/-- Ends the time limit of a task, and says whether the cancellation that the task has
heard of, if any, was on account of the limit alone. -/
def endLimit (l : Loop π ρ) (t : TaskId) (cancelled : Bool) : Loop π ρ × Bool :=
  match l.task? t with
  | none => (l, false)
  | some task =>
    match task.limit with
    | none => (l, false)
    | some limit =>
      let l := (l.cancelTimer limit.timer).modify t fun task => { task with limit := none }
      if limit.expired then
        let l := l.modify t fun task => { task with cancels := task.cancels - 1 }
        (l, cancelled && decide (task.cancels - 1 ≤ limit.cancels))
      else (l, false)

end Loop

end LiveCluster
