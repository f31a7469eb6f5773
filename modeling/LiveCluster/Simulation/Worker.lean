import LiveCluster.Simulation.Scope

/-!
# Workers

The worker of an informer carries out the informer's commands and tells it what came
of them. It lists when told to, unless listings of the kind are held back; it takes
what the watch delivers, one item at a time; and it sleeps. While a watch is open a
timer runs, after which the watch counts as established.
-/

namespace LiveCluster.Simulation

namespace World

/-- Tells the tasks that wait for an informer that it has been filled. -/
def announceSync (w : World) (i : InformerId) : World :=
  let x := w.informer i
  if x.cache.synced then
    { w.setInformer i { x with waiters := [] } with loop := w.loop.wakeAll x.waiters }
  else w

/-- What a listing comes to once it is not held back. -/
def listingOf (w : World) (x : Informer) : Informer.Signal :=
  .listed (w.cluster.objectsIn x.rid.kindText x.ns) w.cluster.version

/-- Lists the scope of an informer. -/
def callList (w : World) (t : TaskId) (i : InformerId) : World :=
  let x := (w.informer i).cache
  let kind := x.rid.kindText
  let w := w.record (.list kind x.ns)
  match w.cluster.takeListFault? kind with
  | some (fault, cluster) =>
    { w with cluster := cluster }.goOn t (.worker i (.signalled (.listFailed fault)))
  | none =>
    match w.cluster.held.get? kind with
    | some waiters =>
      let held := w.cluster.held.set kind (waiters ++ [t])
      { w with cluster := { w.cluster with held := held } }.await t (.worker i .held)
    | none => w.goOn t (.worker i (.signalled (w.listingOf x)))

/-- What an item of a watch means to the informer. -/
def signalOf : FeedItem → Informer.Signal
  | .event e => .event e
  | .ended => .ended
  | .failed fault => .watchFailed fault

/-- Takes the next item of an informer's watch, or waits for one. -/
def takeFeed (w : World) (t : TaskId) (i : InformerId) : World :=
  let scope := (w.informer i).cache.key
  let feed := w.cluster.feed scope
  match feed.take? w.loop with
  | some (item, feed, loop) =>
    { w with cluster := w.cluster.setFeed scope feed, loop := loop }.goOn t
      (.worker i (.signalled (signalOf item)))
  | none =>
    let feed := { feed with takers := feed.takers ++ [t] }
    { w with cluster := w.cluster.setFeed scope feed }.await t (.worker i .watching)

/-- Starts the timer of an informer's watch. -/
def startTimer (w : World) (i : InformerId) : World :=
  let x := w.informer i
  let (loop, timer) := w.loop.startTimer x.cache.config.establishedAfter (.establish i)
  { w.setInformer i { x with timer := some timer } with loop := loop }

/-- Opens a watch of an informer's scope. -/
def openWatch (w : World) (t : TaskId) (i : InformerId) (version : String) : World :=
  let x := (w.informer i).cache
  let w := (w.startTimer i).record (.watch x.rid.kindText x.ns version x.config.watchTimeout)
  w.takeFeed t i

/-- Has a worker sleep. -/
def fallAsleep (w : World) (t : TaskId) (i : InformerId) (delay : Float) : World :=
  if delay ≤ 0.0 then w.withLoop (·.giveWay t (.worker i (.asleep none)))
  else
    let (loop, timer) := w.loop.startTimer delay (.wake t)
    { w with loop := loop }.await t (.worker i (.asleep (some timer)))

/-- Stops the timer of an informer's watch with any command that does not belong to it. -/
def leaveWatch (w : World) (i : InformerId) : Informer.Command → World
  | .next => w
  | _ => w.stopTimer i

/-- The worker of an informer carries a command out. -/
def execute (w : World) (t : TaskId) (i : InformerId) : Informer.Command → World
  | .list => w.callList t i
  | .watch version => w.openWatch t i version
  | .next => w.takeFeed t i
  | .sleep delay => w.fallAsleep t i delay
  | .crash fault => w.finish t (.failed fault)

/-- The informer reacts to a signal, and the worker carries the command out. -/
def signal (w : World) (t : TaskId) (i : InformerId) (s : Informer.Signal) : World :=
  let x := w.informer i
  let reaction := x.cache.react s
  let w := (w.setInformer i { x with cache := reaction.informer }).leaveWatch i reaction.command
  ((w.announceSync i).tellAll reaction.notes).execute t i reaction.command

/-- A cancelled worker leaves what it waits for. -/
def withdraw (w : World) (t : TaskId) (i : InformerId) (woken : Bool) : WorkerPoint → World
  | .signalled _ => w.stopTimer i
  | .held =>
    let kind := (w.informer i).cache.rid.kindText
    let held := w.cluster.held.map fun (k, waiters) =>
      if k = kind then (k, waiters.filter (· ≠ t)) else (k, waiters)
    { w with cluster := { w.cluster with held := held } }
  | .watching =>
    let scope := (w.informer i).cache.key
    let (feed, loop) := (w.cluster.feed scope).leaveTakers w.loop t woken
    { w with cluster := w.cluster.setFeed scope feed, loop := loop }.stopTimer i
  | .asleep none => w
  | .asleep (some id) => w.withLoop (·.cancelTimer id)

/-- The worker of an informer goes on. -/
def runWorker (w : World) (t : TaskId) (i : InformerId) (p : WorkerPoint) : Arrival → World
  | .cancelled woken => (w.withdraw t i woken p).finish t .cancelled
  | .on => match p with
    | .signalled s => w.signal t i s
    | .held => w.signal t i (w.listingOf (w.informer i).cache)
    | .watching => w.takeFeed t i
    | .asleep _ => w.signal t i .woke

/-- The watch of an informer has been open long enough. -/
def establish (w : World) (i : InformerId) : World :=
  let x := w.informer i
  let (cache, notes) := x.cache.establish
  (w.setInformer i { x with cache := cache, timer := none }).tellAll notes

end World

end LiveCluster.Simulation
