import LiveCluster.Access.Registry
import LiveCluster.Application
import LiveCluster.Log.Measures
import LiveCluster.Loop.Basic
import LiveCluster.Watch.Informer

/-!
# The points of routines

Every task runs a routine, and between two of its steps it stands at a point. A point
is plain data: which routine it is, whatever the routine has to remember, and what it
waits for. Nothing else of a task survives a step, so these types list everything
that a suspended task can know.
-/

namespace LiveCluster.Simulation

abbrev InformerId := Nat
abbrev FactoryId := Nat
abbrev RegistryId := Nat
abbrev SinkId := Nat

/-- What can be seen of an informer. -/
structure InformerView where
  cache : Informer
  running : Bool
  delay : Except Fault Float

/-- What can be seen of an accessor. -/
structure AccessorView where
  accessor : Accessor
  /-- The number of the accessor, in the order in which accessors were first seen. -/
  index : Nat
  /-- Whether it reads the caches that requests are about. -/
  sharesFactory : Bool

/-- What a request gives. -/
inductive Report where
  | nothing
  | truth (b : Bool)
  | text (s : String)
  | texts (ss : List String)
  | value (v : Value)
  /-- The class of the accessor lacks the capability. -/
  | unsupported
  | snapshot (object : Option Snapshot)
  | raw (object : Option Snapshot)
  | rows (objects : List Snapshot)
  | scope (state : CacheState) (revision : Nat)
  | informer (view : InformerView)
  | accessor (view : AccessorView)
  | selector (name : String) (selector : Selector)
  | event (event : Option LogEvent)
  | events (events : List LogEvent)
  | sink (closed : Bool) (size : Nat)
  | samples (samples : List Measures.Sample)

/-- What follows a plan: a report, or the streams of a tail. -/
inductive Next where
  | report (report : Report)
  | tail (start : TailStart)

/-- An operation by plan: whose caches it reads, and which sink it closes when it
ends, however it ends. -/
structure Operation where
  factory : FactoryId
  sink : Option SinkId := none
  /-- Whether tasks can be made. -/
  inLoop : Bool := true

/-- Where the worker of an informer stands. -/
inductive WorkerPoint where
  /-- About to react. -/
  | signalled (signal : Informer.Signal)
  /-- Its listing is held back. -/
  | held
  /-- Its watch has nothing to deliver. -/
  | watching
  /-- It pauses; without a timer when it only gives way to others. -/
  | asleep (timer : Option TimerId)

/-- An event on its way into a sink, and whether its task has waited for room. -/
structure Delivery where
  event : LogEvent
  waited : Bool := false

/-- A tail with its pods resolved. -/
structure TailCall where
  sink : SinkId
  pods : List Snapshot
  options : TailOptions

/-- The streams of a tail, and the task that waits for its sink to be closed. -/
structure TailTasks where
  streams : List TaskId
  closer : TaskId

/-- One stream and where it delivers. -/
structure Stream where
  sink : SinkId
  target : TailTarget
  options : TailOptions

/-- Where a stream stands. -/
inductive StreamPoint where
  | opening
  | reading
  /-- It delivers an event, which is its last if it is a failure. -/
  | delivering (delivery : Delivery) (last : Bool)

/-- The two tasks that race for a consumer: one takes the next event, the other waits
for the sink to be closed. -/
structure Race where
  taker : TaskId
  closer : TaskId

/-- What stopping informers is for. -/
inductive StopReason where
  | informer
  | factory (informers : Nat)
  /-- A factory is stopped because the application stops. -/
  | application (informers : Nat)

/-- Where a task stands. -/
inductive Point where
  | worker (informer : InformerId) (point : WorkerPoint)
  /-- About to carry out a plan. -/
  | planning (op : Operation) (plan : Plan Next)
  /-- Waiting for the first listing of an informer, in the middle of a plan. -/
  | syncing (op : Operation) (informer : InformerId) (next : Except Fault Bool → Plan Next)
  /-- Telling the sink of a pod that cannot be tailed. -/
  | reporting (call : TailCall) (targets : List TailTarget) (pods : List Snapshot)
      (delivery : Delivery)
  /-- Waiting for the streams of a tail, of which some have not been seen to end, or for
  the sink to be closed. -/
  | supervising (call : TailCall) (tasks : TailTasks) (pending : List TaskId)
  /-- Waiting for the cancelled streams of a tail, which may have been cancelled too. -/
  | clearing (call : TailCall) (cancelled : Bool)
  | stream (stream : Stream) (point : StreamPoint)
  /-- Putting an event into a sink. -/
  | giving (sink : SinkId) (delivery : Delivery)
  /-- Taking an event out of a sink that may be empty. -/
  | taking (sink : SinkId)
  /-- Waiting for a sink to be closed. -/
  | awaitingClose (sink : SinkId)
  /-- Getting the next event of a sink, or all of them after those collected. -/
  | getting (sink : SinkId) (collected : Option (List LogEvent)) (race : Option Race)
  /-- Stopping informers one after another; of the current one, the worker has been told. -/
  | stopping (reason : StopReason) (current : Option (InformerId × TaskId))
      (rest : List InformerId)
  /-- About to stop the informer of a scope, once or twice. -/
  | stoppingScope (factory : FactoryId) (rid : ResourceId) (ns : String) (twice : Bool)
  /-- About to stop a factory. -/
  | stoppingFactory (factory : FactoryId)
  /-- The application is about to react. -/
  | application (signal : Application.Signal)
  /-- Waiting for the connection of the application to be closed. -/
  | closing

end LiveCluster.Simulation
