import LiveCluster.Simulation.Operation
import LiveCluster.Simulation.Stopping

/-!
# Running the world

The world is settled when no task can go on without time passing or something coming
from outside. It is settled by running jobs from the front of the queue, round by
round; at the beginning of a round the timers that have run out are looked at. Letting
time pass goes from one deadline to the next and settles the world at each.
-/

namespace LiveCluster.Simulation

namespace World

/-- A task goes on from its point. -/
def runPoint (w : World) (t : TaskId) (p : Point) (a : Arrival) : World :=
  match p with
  | .worker i p => w.runWorker t i p a
  | .planning op plan => match a with
    | .on => carryOut t op plan w
    | .cancelled _ => w.finish t .cancelled
  | .syncing op i next => w.runSyncing t op i next a
  | .reporting call targets pods d => w.runReporting t call targets pods d a
  | .supervising call tasks pending => w.runSupervising t call tasks pending a
  | .clearing call cancelled => w.runClearing t call cancelled a
  | .stream s p => w.runStream t s p a
  | .giving s d => w.runGiving t s d a
  | .taking s => w.runTaking t s a
  | .awaitingClose s => w.runAwaitingClose t s a
  | .getting s collected race => w.runGetting t s collected race a
  | .stopping reason current rest => w.runStopping t reason current rest a
  | .stoppingScope f rid ns twice => w.runStoppingScope t f rid ns twice a
  | .stoppingFactory f => w.runStoppingFactory t f a
  | .application s => w.runApplication t s a
  | .closing => w.runClosing t a

/-- A timer has run out. -/
def ring (w : World) : Alarm → World
  | .wake t => w.withLoop (·.wake t)
  | .expire t => w.withLoop (·.expire t)
  | .establish i => w.establish i

/-- Runs a job. -/
def run (w : World) : Job → World
  | .resume t =>
    match w.loop.arrive t with
    | some (loop, p, a) => { w with loop := loop }.runPoint t p a
    | none => w
  | .notify t turn => w.withLoop (·.notify t turn)
  | .tick t => w.withLoop (·.tick t)
  | .alarm id =>
    match w.loop.takeAlarm? id with
    | some (alarm, loop) => { w with loop := loop }.ring alarm
    | none => w

/-- Begins a new round if the last one is over. -/
def nextRound (w : World) : World :=
  if w.loop.round = 0 then w.withLoop (·.beginRound) else w

/-- Takes the first job of the queue and runs it; none if the world is settled. -/
def step? (w : World) : Option World :=
  let w := w.nextRound
  match w.loop.ready with
  | [] => none
  | job :: rest =>
    some ({ w with loop := { w.loop with ready := rest, round := w.loop.round - 1 } }.run job)

/-- Runs jobs until the world is settled, but at most so many. -/
def settleWithin : Nat → World → World
  | 0, w => w
  | n + 1, w =>
    match w.step? with
    | some w => settleWithin n w
    | none => w

/-- How many jobs are run before a world that does not settle is left as it is. -/
def patience : Nat := 1000000

def settle (w : World) : World :=
  settleWithin patience w

/-- Lets time pass up to an instant, from deadline to deadline, of which there may be at
most so many. -/
def advanceWithin : Nat → World → Float → World
  | 0, w, _ => w
  | n + 1, w, target =>
    match w.loop.nextDeadline? with
    | some deadline =>
      if deadline < target + Loop.tolerance then
        let now := if w.loop.now < deadline then deadline else w.loop.now
        advanceWithin n (settle { w with loop := { w.loop with now := now } }) target
      else settle { w with loop := { w.loop with now := target } }
    | none => settle { w with loop := { w.loop with now := target } }

/-- Lets so much time pass. -/
def advance (w : World) (seconds : Float) : World :=
  advanceWithin patience w (w.loop.now + seconds)

end World

end LiveCluster.Simulation
