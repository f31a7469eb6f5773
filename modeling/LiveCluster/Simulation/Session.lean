import LiveCluster.Simulation.Request
import LiveCluster.Simulation.Run

/-!
# Sessions

A session is a world and the names by which a user speaks of its sinks and calls. A
request is answered at once if it needs no task; otherwise a task begins, and its
answer may come in a later step. After every request the world is settled.
-/

namespace LiveCluster.Simulation

structure Session where
  world : World
  /-- The caches that requests are about. -/
  factory : FactoryId := 0
  sinks : Keyed SinkId := []
  /-- The calls that have not been answered. -/
  pending : Keyed TaskId := []
  /-- The accessors seen so far; those that belong to no registry are seen once. -/
  seen : List (Option (RegistryId × Nat)) := []
  deriving Inhabited

/-- The answer to a request. -/
inductive Answer where
  | ended (ending : Ending Report)
  | pending

/-- What a step brought. -/
structure StepReport where
  answer : Answer
  /-- The earlier calls that were answered in this step, by name. -/
  done : List (String × Ending Report)
  journal : Journal

/-- What a request leads to before tasks run. -/
inductive Beginning where
  | answered (result : Except Fault Report)
  | task (t : TaskId)

namespace Session

/-- A session with caches, accessors and tails as configured. -/
def new (watch : WatchConfig) (tail : TailConfig) (clock : Instant)
    (clusterScoped : Option (List String)) : Session :=
  let cluster : Cluster := match clusterScoped with
    | some kinds => { clusterScoped := kinds }
    | none => {}
  { world := {
      clock := clock
      cluster := cluster
      factories := [{ config := watch }]
      registries := [{ registry := .new tail, factory := 0 }] } }

def withWorld (s : Session) (w : World) : Session :=
  { s with world := w }

def tailConfig (s : Session) : TailConfig :=
  match s.world.registries with
  | accessors :: _ => accessors.registry.tailer
  | [] => {}

/-- A request that only changes the world. -/
def changed (s : Session) (w : World) : Session × Beginning :=
  (s.withWorld w, .answered (.ok .nothing))

/-- A request that is answered by looking. -/
def shown (s : Session) (r : Report) : Session × Beginning :=
  (s, .answered (.ok r))

def refused (s : Session) (fault : Fault) : Session × Beginning :=
  (s, .answered (.error fault))

/-- A request that a task answers. -/
def begun (s : Session) (p : Point) : Session × Beginning :=
  let (w, t) := s.world.spawn p
  (s.withWorld w, .task t)

/-- A request that a plan answers. -/
def planned (s : Session) (plan : Plan Next) (sink : Option SinkId := none)
    (inLoop : Bool := true) : Session × Beginning :=
  s.begun (.planning { factory := s.factory, sink := sink, inLoop := inLoop } plan)

/-- The plan whose result is a report. -/
def reporting {α : Type} (plan : Plan α) (report : α → Report) : Plan Next := do
  return .report (report (← plan))

def sinkOf (s : Session) (name : String) : SinkId :=
  (s.sinks.get? name).getD s.world.sinks.length

/-- Makes a sink of a name. -/
def addSink (s : Session) (name : String) (limit : Int) : Session × Beginning :=
  let i := s.world.sinks.length
  { s with sinks := s.sinks.set name i }.changed
    { s.world with sinks := s.world.sinks ++ [Sink.new limit] }

/-! ## The script -/

/-- Holds listings of a kind back. -/
def hold (w : World) (kind : String) : World :=
  if w.cluster.held.has kind then w
  else { w with cluster := { w.cluster with held := w.cluster.held.set kind [] } }

/-- Lets the listings of a kind go. -/
def letGo (w : World) (kind : String) : World :=
  let waiters := (w.cluster.held.get? kind).getD []
  { w with
    cluster := { w.cluster with held := w.cluster.held.erase kind }
    loop := w.loop.wakeAll waiters }

/-- Adds an item to the watch of a scope. -/
def addFeed (w : World) (scope : String) (item : FeedItem) : World :=
  let (feed, loop) := (w.cluster.feed scope).give w.loop item
  { w with cluster := w.cluster.setFeed scope feed, loop := loop }

/-- Adds an item to the log of a container. -/
def addLog (path container : String) (w : World) (item : LogItem) : World :=
  let (log, loop) := (w.cluster.log path container).give w.loop item
  { w with cluster := w.cluster.setLog path container log, loop := loop }

def script (s : Session) : Request → World
  | .objects rid items =>
    let c := s.world.cluster
    { s.world with cluster := { c with objects := c.objects.set rid.kindText items } }
  | .failLists rid faults =>
    let c := s.world.cluster
    let faults := (c.listFaults.get? rid.kindText).getD [] ++ faults
    { s.world with cluster := { c with listFaults := c.listFaults.set rid.kindText faults } }
  | .hold rid => hold s.world rid.kindText
  | .letGo rid => letGo s.world rid.kindText
  | .feed rid ns item => addFeed s.world (rid.scopeKey ns) item
  | .log path container items closing =>
    let w := items.foldl (addLog path container) s.world
    match closing with
    | some name => w.closeSink (s.sinkOf name)
    | none => w
  | .deny verbs => { s.world with cluster := { s.world.cluster with denied := verbs } }
  | .failReviews fault =>
    { s.world with cluster := { s.world.cluster with reviewFault := fault } }
  | .failMutations fault =>
    { s.world with cluster := { s.world.cluster with mutationFault := fault } }
  | .version v => { s.world with cluster := { s.world.cluster with version := v } }
  | _ => s.world

/-! ## Accessors -/

/-- The accessor of a kind, from the application if there is one, with its registry and
number. -/
def findAccessor (s : Session) (rid : ResourceId) :
    Session × Except Fault (RegistryId × Nat × Accessor) :=
  let registry : Except Fault RegistryId := match s.world.application with
    | none => .ok 0
    | some launched => launched.app.accessors
  match registry with
  | .error fault => (s, .error fault)
  | .ok r =>
    let accessors := (s.world.registries[r]?).getD default
    let (registry, (number, accessor), notes) := accessors.registry.accessor rid
    let registries := s.world.registries.set r { accessors with registry := registry }
    (s.withWorld ({ s.world with registries := registries }.tellAll notes),
      .ok (r, number, accessor))

/-- The accessor of a kind, or another one of its class that cannot tail. -/
def takeAccessor (s : Session) (rid : ResourceId) (withoutTailer : Bool) :
    Session × Except Fault (Option (RegistryId × Nat) × FactoryId × Accessor) :=
  match s.findAccessor rid with
  | (s, .error fault) => (s, .error fault)
  | (s, .ok (r, number, accessor)) =>
    let f := ((s.world.registries[r]?).getD default).factory
    if withoutTailer then (s, .ok (none, f, { accessor with tailer := none }))
    else (s, .ok (some (r, number), f, accessor))

/-- The number by which an accessor is known to the user. -/
def indexOf (s : Session) (identity : Option (RegistryId × Nat)) : Session × Nat :=
  match identity with
  | none => ({ s with seen := s.seen ++ [none] }, s.seen.length)
  | some _ =>
    let i := s.seen.findIdx (· == identity)
    if i < s.seen.length then (s, i)
    else ({ s with seen := s.seen ++ [identity] }, s.seen.length)

/-- What an accessor is asked to do as a plan, with the sink that it is given; nothing if
its class lacks the capability. -/
def planOf (s : Session) (a : Accessor) : Access → Option (Plan Next × Option SinkId)
  | .get path => some (reporting (a.get path) fun object => .snapshot (some object), none)
  | .list ns selector => some (reporting (a.list ns selector) .rows, none)
  | .object path => some (reporting (a.getInstance path) .value, none)
  | .selector path => some (reporting (a.selector path) fun (object, selector) =>
      .selector (Decoded.name object) selector, none)
  | .containers path => some (reporting (a.containers path) .texts, none)
  | .happy path => some (reporting (a.isHappy path) .truth, none)
  | .stale ns => some (reporting (a.isStale ns) .truth, none)
  | .fresh ns => some (reporting (a.requireFresh ns) fun () => .nothing, none)
  | .prime path => some (reporting (a.prime path) .truth, none)
  | .delete path options => some (reporting (a.delete path options) fun () => .nothing, none)
  | .restart path => do
    let kind ← a.accessorClass.kind?
    if a.accessorClass.supports .restart then
      some (reporting (a.restart kind path) fun () => .nothing, none)
    else none
  | .resolve path => do
    let kind ← a.accessorClass.kind?
    if a.accessorClass.supports .resolvePod then
      some (reporting (a.resolvePod kind path) .text, none)
    else none
  | .tail sink options => do
    let kind ← a.accessorClass.kind?
    if a.accessorClass.supports .tailLogs then
      some (do return .tail (← a.tail kind options), some (s.sinkOf sink))
    else none

def access (s : Session) (rid : ResourceId) (withoutTailer : Bool) (what : Access)
    (inLoop : Bool) : Session × Beginning :=
  match s.takeAccessor rid withoutTailer with
  | (s, .error fault) => s.refused fault
  | (s, .ok (_, f, accessor)) =>
    match s.planOf accessor what with
    | none => s.shown .unsupported
    | some (plan, sink) =>
      s.begun (.planning { factory := f, sink := sink, inLoop := inLoop } plan)

/-! ## Requests -/

/-- What can be seen of an informer. -/
def viewOf (w : World) (i : InformerId) : InformerView :=
  let cache := (w.informer i).cache
  { cache := cache
    running := w.isRunning i
    delay := Informer.backoffDelay cache.config cache.failures }

/-- Takes every event out of a sink that is there now. -/
def takeAll (i : SinkId) : Nat → World → World × List LogEvent
  | 0, w => (w, [])
  | n + 1, w => match w.takeEvent? i with
    | none => (w, [])
    | some (w, event) =>
      let (w, events) := takeAll i n w
      (w, event :: events)

/-- The application, unless there is none. -/
def app (s : Session) : Option Application :=
  s.world.application.map (·.app)

/-- Makes an application. A connection that is handed in has the number before all those that are
made. -/
def launched (s : Session) (l : Launch) : World :=
  { s.world with
    application := some {
      app := .new l.config (if l.injected then some 0 else none) clientClass
      environment := l.environment }
    cluster := { s.world.cluster with
      connectFault := l.connectFault
      closeFault := l.closeFault
      closeHangs := l.closeHangs } }

/-- The name and task of a call that has not been answered. -/
def cancelled (s : Session) (call : String) : World :=
  match s.pending.get? call with
  | some t => s.world.withLoop (·.cancel t)
  | none => s.world

/-- Begins a request. -/
def begin (s : Session) (r : Request) (inLoop : Bool) : Session × Beginning :=
  let w := s.world
  let f := s.factory
  match r with
  | .advance seconds => s.changed (w.advance seconds)
  | .ensureWatch rid ns =>
    match w.ensureWatch f rid ns inLoop with
    | (w, .ok i) => (s.withWorld w).shown (.text (w.informer i).cache.key)
    | (w, .error fault) => (s.withWorld w).refused fault
  | .waitSynced rid ns timeout => s.planned (reporting (Plan.synced rid ns timeout) .truth)
  | .get rid path =>
    let (w, object) := w.get f rid path inLoop
    (s.withWorld w).shown (.snapshot object)
  | .raw rid path =>
    let (w, object) := w.get f rid path inLoop
    (s.withWorld w).shown (.raw object)
  | .list rid ns selector =>
    let (w, objects) := w.list f rid ns selector inLoop
    (s.withWorld w).shown (.rows objects)
  | .state rid ns =>
    let (state, revision) := w.scopeState f rid ns
    s.shown (.scope state revision)
  | .scopes => s.shown (.texts (w.activeScopes f))
  | .forward verb rid ns name body propagation grace =>
    match Forward.ofVerb verb name body propagation grace with
    | .ok m => s.planned (reporting (Forward.mutation m rid ns name) .value)
    | .error fault => s.refused fault
  | .stop => s.begun (.stoppingFactory f)
  | .informer rid ns =>
    match w.ensureWatch f rid ns inLoop with
    | (w, .ok i) => (s.withWorld w).shown (.informer (viewOf w i))
    | (w, .error fault) => (s.withWorld w).refused fault
  | .stopInformer rid ns twice => s.begun (.stoppingScope f rid ns twice)
  | .allows subject ns verbs => s.planned (reporting (Gate.permits ns subject verbs) .truth)
  | .require rid ns verb => s.planned (reporting (Gate.require ns rid verb) fun () => .nothing)
  | .register rid c =>
    s.changed { w with registries := w.registries.modify 0 fun accessors =>
      { accessors with registry := accessors.registry.register rid c } }
  | .accessor rid withoutTailer =>
    match s.takeAccessor rid withoutTailer with
    | (s, .error fault) => s.refused fault
    | (s, .ok (identity, f, accessor)) =>
      let (s, index) := s.indexOf identity
      s.shown (.accessor ⟨accessor, index, f = s.factory⟩)
  | .access rid withoutTailer what => s.access rid withoutTailer what inLoop
  | .sink name limit => s.addSink name (limit.getD Sink.defaultLimit)
  | .put sink event => s.begun (.giving (s.sinkOf sink) { event := event })
  | .next sink => s.begun (.getting (s.sinkOf sink) none none)
  | .all sink => s.begun (.getting (s.sinkOf sink) (some []) none)
  | .awaitClose sink => s.begun (.awaitingClose (s.sinkOf sink))
  | .close sink => s.changed (w.closeSink (s.sinkOf sink))
  | .sinkState sink =>
    let x := w.sink (s.sinkOf sink)
    s.shown (.sink x.closed x.size)
  | .drain sink =>
    let i := s.sinkOf sink
    let (w, events) := takeAll i (w.sink i).size w
    (s.withWorld w).shown (.events events)
  | .tail sink ns selector options =>
    let plan : Plan TailStart := match selector with
      | some selector => Tailer.ofSelector s.tailConfig ns selector options
      | none => Plan.fail (.misfit (.noAttribute Value.null.kindWord "is_empty"))
    s.planned (do return .tail (← plan)) (some (s.sinkOf sink))
  | .tailPod sink path options =>
    s.planned (do return .tail (← Tailer.ofPath s.tailConfig path options))
      (some (s.sinkOf sink))
  | .cancel call => s.changed (s.cancelled call)
  | .samples => s.shown (.samples w.measures.samples)
  | .launch l => s.changed (s.launched l)
  | .start => s.begun (.application .start)
  | .quit => s.begun (.application .stop)
  | .running => s.shown (.truth ((s.app.map (·.running)).getD false))
  | .applicationSink name =>
    s.addSink name ((s.app.map (·.sinkSize)).getD Sink.defaultLimit)
  | .applicationScopes =>
    match (s.app.getD {}).caches with
    | .error fault => s.refused fault
    | .ok f => { s with factory := f }.shown (.texts (w.activeScopes f))
  | request => s.changed (s.script request)

/-- How the tasks of calls have ended, for those that have. -/
def answeredOf (l : Loop Point Report) (calls : Keyed TaskId) : List (String × Ending Report) :=
  calls.filterMap fun (name, t) => (l.ending? t).map fun ending => (name, ending)

/-- The answer to a request so far. -/
def answerOf (l : Loop Point Report) : Beginning → Answer
  | .answered (.ok report) => .ended (.returned report)
  | .answered (.error fault) => .ended (.failed fault)
  | .task t => match l.ending? t with
    | some ending => .ended ending
    | none => .pending

/-- Carries out a request, under a name by which an answer that is pending can be told
later. -/
def perform (s : Session) (name : String) (r : Request) (inLoop : Bool) :
    Session × StepReport :=
  let earlier := s.pending
  let s := s.withWorld { s.world with journal := {} }
  let (s, beginning) := s.begin r inLoop
  let w := s.world.settle
  let answer := answerOf w.loop beginning
  let done := answeredOf w.loop earlier
  let pending := earlier.filter fun (_, t) => !w.loop.ended t
  let pending := match beginning, answer with
    | .task t, .pending => Keyed.set pending name t
    | _, _ => pending
  ({ s with world := w, pending := pending },
    { answer := answer
      done := sortBy (fun a b => decide (a.1 ≤ b.1)) done
      journal := w.journal })

/-- A step whose arguments make no request. -/
def misstep (s : Session) (fault : Fault) : Session × StepReport :=
  let s := s.withWorld { s.world with journal := {} }
  (s, { answer := .ended (.failed fault), done := [], journal := {} })

end Session

end LiveCluster.Simulation
