import LiveCluster.Simulation.Scope

/-!
# Starting and stopping

Stopping an informer cancels its worker and waits for it. A factory stops its
informers one after another, and serves nobody from then on; a worker that had failed
makes the stop fail. The application reacts to what came of its last command, and each
command is carried out here.
-/

namespace LiveCluster.Simulation

namespace World

/-- An informer's worker has ended. -/
def markStopped (w : World) (i : InformerId) : World :=
  let x := w.informer i
  let (cache, notes) := x.cache.stopped
  (w.setInformer i { x with cache := cache }).tellAll notes

/-- The informers are stopped. -/
def allStopped (w : World) (t : TaskId) : StopReason → World
  | .informer => w.report t .nothing
  | .factory n =>
    (w.tell (.info Forward.component "factory_stopped" [("informers", .int n)])).report t .nothing
  | .application n =>
    let w := w.tell (.info Forward.component "factory_stopped" [("informers", .int n)])
    (w.withLoop fun l => (l.endLimit t false).1).goOn t
      (.application (.factoryStopped .completed))

/-- A worker had failed. -/
def stopFailed (w : World) (t : TaskId) (fault : Fault) : StopReason → World
  | .informer | .factory _ => w.finish t (.failed fault)
  | .application _ =>
    (w.withLoop fun l => (l.endLimit t false).1).goOn t
      (.application (.factoryStopped (.raised fault)))

/-- Stops the informers of a list. -/
def stopNext (w : World) (t : TaskId) (reason : StopReason) : List InformerId → World
  | [] => w.allStopped t reason
  | i :: rest =>
    let x := w.informer i
    match x.worker with
    | none => w.stopNext t reason rest
    | some worker =>
      let w := w.setInformer i { x with worker := none }
      match w.loop.ending? worker with
      | some (.failed fault) => w.stopFailed t fault reason
      | some _ => (w.markStopped i).stopNext t reason rest
      | none =>
        w.withLoop fun l =>
          (l.cancel worker).awaitTask t (.stopping reason (some (i, worker)) rest) worker

/-- The worker of the current informer has ended. A cancellation of the stop itself
counts as one of the worker. -/
def runStopping (w : World) (t : TaskId) (reason : StopReason) :
    Option (InformerId × TaskId) → List InformerId → Arrival → World
  | none, _, .cancelled _ => w.finish t .cancelled
  | none, rest, .on => w.stopNext t reason rest
  | some (i, _), rest, .cancelled _ => (w.markStopped i).stopNext t reason rest
  | some (i, worker), rest, .on =>
    match w.loop.ending? worker with
    | some (.failed fault) => w.stopFailed t fault reason
    | _ => (w.markStopped i).stopNext t reason rest

/-- Stops the informer of a scope, which is watched first if it was not. -/
def runStoppingScope (w : World) (t : TaskId) (f : FactoryId) (rid : ResourceId) (ns : String)
    (twice : Bool) : Arrival → World
  | .cancelled _ => w.finish t .cancelled
  | .on =>
    match w.ensureWatch f rid ns with
    | (w, .error fault) => w.finish t (.failed fault)
    | (w, .ok i) => w.stopNext t .informer (if twice then [i, i] else [i])

/-- Takes the informers of a factory, which serves nobody from then on. -/
def shutFactory (w : World) (f : FactoryId) : World × List InformerId :=
  let x := w.factory f
  (w.setFactory f { x with stopped := true, informers := [] }, Keyed.entries x.informers)

/-- Stops a factory, unless that was done before. -/
def runStoppingFactory (w : World) (t : TaskId) (f : FactoryId) : Arrival → World
  | .cancelled _ => w.finish t .cancelled
  | .on =>
    if (w.factory f).stopped then w.report t .nothing
    else
      let (w, informers) := w.shutFactory f
      w.stopNext t (.factory informers.length) informers

/-! ## The application -/

/-- Connects to the cluster. -/
def connect (w : World) (config : ConnectionConfig) : World × Except Fault ClientId :=
  let (cluster, result) := w.cluster.connect
  ({ w with cluster := cluster }.record (.connect config), result)

/-- Builds the caches and accessors of an application. -/
def build (w : World) (config : Config) : World × FactoryId × RegistryId :=
  let f := w.factories.length
  let r := w.registries.length
  ({ w with
      factories := w.factories ++ [({ config := config.watch } : Factory)]
      registries := w.registries ++
        [({ registry := .new config.tail, factory := f } : Accessors)] },
    f, r)

/-- What closing the connection comes to, if it comes to an end. -/
def closeOutcome (c : Cluster) : Option Application.Outcome :=
  if c.closeHangs then none
  else match c.closeFault with
    | none => some .completed
    | some .timedOut => some .timedOut
    | some fault => some (.raised fault)

/-- Carries out a command of the application. -/
def obey (w : World) (t : TaskId) (environment : Except Fault Config) :
    Application.Command → World
  | .load => w.goOn t (.application (.loaded environment))
  | .connect config =>
    let (w, result) := w.connect config
    w.goOn t (.application (.connected result))
  | .build _ config =>
    let (w, f, r) := w.build config
    w.goOn t (.application (.built f r))
  | .stopFactory f =>
    if (w.factory f).stopped then w.goOn t (.application (.factoryStopped .completed))
    else
      let w := w.withLoop (·.beginLimit t (Float.ofNat Application.grace))
      let (w, informers) := w.shutFactory f
      w.stopNext t (.application informers.length) informers
  | .closeClient _ =>
    let w := w.record .close
    match closeOutcome w.cluster with
    | some outcome => w.goOn t (.application (.clientClosed outcome))
    | none =>
      (w.withLoop (·.beginLimit t (Float.ofNat Application.grace))).await t .closing
  | .finish (.ok ()) => w.report t .nothing
  | .finish (.error fault) => w.finish t (.failed fault)

/-- Whether a signal belongs to the start, where the log is set up. -/
def setsUpLog : Application.Signal → Bool
  | .start | .loaded _ => true
  | _ => false

/-- The application reacts to a signal. -/
def runApplication (w : World) (t : TaskId) (s : Application.Signal) : Arrival → World
  | .cancelled _ => w.finish t .cancelled
  | .on =>
    match w.application with
    | none => w.report t .nothing
    | some launched =>
      let reaction := launched.app.react s
      let w := { w with application := some { launched with app := reaction.app } }
      let w := if setsUpLog s && reaction.app.log.isSome then
          { w with output := { w.output with setup := reaction.app.log } }
        else w
      -- what is told after the end of a run goes to the log that was set up last
      let log := reaction.log.or w.output.setup
      let w := reaction.records.foldl (fun w r => w.write log r) w
      w.obey t launched.environment reaction.command

/-- Closing the connection was called off, by its time limit or from outside. -/
def runClosing (w : World) (t : TaskId) : Arrival → World
  | .on => w.report t .nothing
  | .cancelled _ =>
    let (loop, timedOut) := w.loop.endLimit t true
    let w := { w with loop := loop }
    if timedOut then w.goOn t (.application (.clientClosed .timedOut))
    else w.finish t .cancelled

end World

end LiveCluster.Simulation
