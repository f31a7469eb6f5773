import LiveCluster.Simulation.Cluster
import LiveCluster.Simulation.Point
import LiveCluster.Tail.Sink

/-!
# The world

The tasks, the caches, sinks and accessors that they share, the cluster that they talk
to, and a journal of what they did.
-/

namespace LiveCluster.Simulation

/-- An informer and the tasks that belong to it. -/
structure Watched where
  cache : Informer
  worker : Option TaskId := none
  /-- The tasks that wait for the first listing. -/
  waiters : List TaskId := []
  /-- The timer after which the present watch counts as established. -/
  timer : Option TimerId := none
  deriving Inhabited

/-- The caches of a program: an informer per scope. -/
structure Factory where
  config : WatchConfig := {}
  informers : Keyed InformerId := []
  stopped : Bool := false
  deriving Inhabited

/-- A registry and whose caches its accessors read. -/
structure Accessors where
  registry : Registry
  factory : FactoryId
  deriving Inhabited

/-- What the tasks did, in order. -/
structure Journal where
  calls : List ClusterCall := []
  /-- The log streams that have ended or were torn down: namespace, pod, container. -/
  closed : List (List String) := []
  records : List LogRecord := []
  lines : List LogLine := []
  deriving Inhabited

/-- Where records go. Before a log is set up they are kept as they are. A component
keeps the setup that holds when it first writes. -/
structure LogOutput where
  setup : Option LogSetup := none
  components : Keyed LogSetup := []
  deriving Inhabited

/-- An application and where its configuration comes from, if not from its maker. -/
structure Launched where
  app : Application
  environment : Except Fault Config
  deriving Inhabited

structure World where
  loop : Loop Point Report := {}
  cluster : Cluster := {}
  clock : Instant
  informers : List Watched := []
  factories : List Factory := []
  registries : List Accessors := []
  sinks : List Sink := []
  application : Option Launched := none
  output : LogOutput := {}
  measures : Measures := {}
  /-- The tasks whose streams have their logs open. -/
  openLogs : List TaskId := []
  journal : Journal := {}
  deriving Inhabited

namespace World

/-! ## The journal -/

def record (w : World) (call : ClusterCall) : World :=
  { w with journal := { w.journal with calls := w.journal.calls ++ [call] } }

/-- Writes a record to a log, or keeps it if there is none. -/
def write (w : World) (setup : Option LogSetup) (r : LogRecord) : World :=
  match setup with
  | none => { w with journal := { w.journal with records := w.journal.records ++ [r] } }
  | some setup =>
    { w with journal := { w.journal with lines := w.journal.lines ++ (setup.write r).toList } }

/-- The log of a component. -/
def logOf (w : World) (component : String) : World × Option LogSetup :=
  match w.output.setup with
  | none => (w, none)
  | some current =>
    match w.output.components.get? component with
    | some setup => (w, some setup)
    | none =>
      ({ w with output :=
          { w.output with components := w.output.components.set component current } },
        some current)

def tell (w : World) : Note → World
  | .log r =>
    let (w, setup) := w.logOf r.component
    w.write setup r
  | .count counter => { w with measures := w.measures.count counter }
  | .stale scope on => { w with measures := w.measures.setStale scope on }

def tellAll (w : World) (notes : List Note) : World :=
  notes.foldl tell w

/-! ## Tasks -/

def withLoop (w : World) (f : Loop Point Report → Loop Point Report) : World :=
  { w with loop := f w.loop }

/-- Lets a task go on at a point without giving way. -/
def goOn (w : World) (t : TaskId) (point : Point) : World :=
  w.withLoop (·.goOn t point)

/-- Suspends a task at a point until it is given a signal. -/
def await (w : World) (t : TaskId) (point : Point) : World :=
  w.withLoop (·.suspend t point .signal)

def spawn (w : World) (point : Point) : World × TaskId :=
  let (loop, t) := w.loop.spawn point
  ({ w with loop := loop }, t)

def finish (w : World) (t : TaskId) (ending : Ending Report) : World :=
  w.withLoop (·.finish t ending)

def report (w : World) (t : TaskId) (report : Report) : World :=
  w.finish t (.returned report)

/-! ## Sinks -/

def sink (w : World) (s : SinkId) : Sink :=
  (w.sinks[s]?).getD {}

def setSink (w : World) (s : SinkId) (sink : Sink) : World :=
  { w with sinks := w.sinks.set s sink }

def closeSink (w : World) (s : SinkId) : World :=
  let (sink, loop) := (w.sink s).close w.loop
  { w.setSink s sink with loop := loop }

/-! ## Informers -/

def informer (w : World) (i : InformerId) : Watched :=
  (w.informers[i]?).getD default

def setInformer (w : World) (i : InformerId) (x : Watched) : World :=
  { w with informers := w.informers.set i x }

/-- Whether the worker of an informer goes on. -/
def isRunning (w : World) (i : InformerId) : Bool :=
  match (w.informer i).worker with
  | some t => !w.loop.ended t
  | none => false

/-- Cancels the timer of an informer's watch. -/
def stopTimer (w : World) (i : InformerId) : World :=
  match (w.informer i).timer with
  | none => w
  | some timer =>
    { w.setInformer i { w.informer i with timer := none } with
      loop := w.loop.cancelTimer timer }

end World

end LiveCluster.Simulation
