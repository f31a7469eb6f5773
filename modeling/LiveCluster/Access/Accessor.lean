import LiveCluster.Access.Capability
import LiveCluster.Access.Forward
import LiveCluster.Access.Gate
import LiveCluster.Restart
import LiveCluster.Tail.Tailer

/-!
# Accessors

An accessor offers what can be done with the objects of one kind. It holds the kind
and the class, and nothing that changes, so it can be shared by all callers. Reading
never waits; what has to wait for a cache, or asks the cluster, says so by being a
plan that does.

A workload resolves its pods through its label selector. One without a usable
selector is refused, since a missing selector must never come to mean all pods. A
mutation is made only after the cluster allowed it, and once.
-/

namespace LiveCluster

structure Accessor where
  /-- The kind; it names no object. -/
  rid : ResourceId
  accessorClass : AccessorClass
  /-- How logs are tailed, where the accessor can tail logs. -/
  tailer : Option TailConfig := none
  deriving Inhabited

namespace Accessor

def component : String := "dao.accessor"

def workloadComponent : String := "dao.workloads"

/-- The fault of asking an accessor for what its class does not have. -/
def lacks (a : Accessor) (member : String) : Fault :=
  .misfit (.noAttribute a.accessorClass.name member)

/-- The namespace in a path. -/
def nsOf (path : String) : String :=
  (Path.split path).1

/-- Whether what is served for a namespace comes from a stale cache. -/
def isStale (a : Accessor) (ns : String) : Plan Bool :=
  Plan.stale a.rid ns

/-- Fails where data would come from a stale cache. -/
def requireFresh (a : Accessor) (ns : String) : Plan Unit := do
  if ← a.isStale ns then Plan.fail (.staleCache a.rid.kindText ns)

/-- Waits for the cache that holds a path. -/
def prime (a : Accessor) (path : String) : Plan Bool :=
  Plan.synced a.rid (nsOf path) none

/-- The cached object at a path. -/
def get (a : Accessor) (path : String) : Plan Snapshot := do
  match ← Plan.object a.rid path with
  | some object => return object
  | none => Plan.fail (.notFound a.rid.kindText path)

/-- The cached objects of a namespace. -/
def list (a : Accessor) (ns : String) (selector : Option Selector) : Plan (List Snapshot) :=
  Plan.objects a.rid ns selector

/-- Deletes an object, if the cluster allows it. A policy for dependent objects needs a
kind that supports one. -/
def delete (a : Accessor) (path : String) (options : DeleteOptions) : Plan Unit := do
  if options.propagation.isSome && !a.accessorClass.supports .cascadeDelete then
    Plan.fail (.badArgument (.cascade a.rid.kindText))
  else
    let (ns, name) := Path.split path
    let propagation := options.propagation.map Propagation.name
    Gate.require ns a.rid "delete"
    let _ ← Forward.mutation (.delete name propagation options.graceSeconds) a.rid ns name
    Plan.tell (.info component "resource_deleted"
      [("resource", .text a.rid.kindText), ("path", .text path),
        ("propagation", Value.ofText? propagation)])

/-- The object at a path, decoded as a kind. -/
def decoded (a : Accessor) (kind : Kind) (path : String) : Plan Value := do
  let object ← a.get path
  match kind.decode object.raw with
  | .ok v => return v
  | .error problems => Plan.fail (.undecodable kind.word path problems)

/-- The decoded object at a path, for classes that decode. -/
def getInstance (a : Accessor) (path : String) : Plan Value :=
  match a.accessorClass.kind? with
  | some kind => a.decoded kind path
  | none => Plan.fail (a.lacks "get_instance")

/-- A decoded workload and the selector of its pods, which must not be empty. -/
def selectorOf (a : Accessor) (kind : Kind) (path : String) : Plan (Value × Selector) := do
  let object ← a.decoded kind path
  let selector ← Plan.known (Selector.ofLabels (Decoded.matchLabels object))
  if selector.isEmpty then Plan.fail (.noSelector a.rid.kindText path)
  else return (object, selector)

/-- The workload at a path and the selector of its pods, for classes of workloads. -/
def selector (a : Accessor) (path : String) : Plan (Value × Selector) :=
  match a.accessorClass.workload? with
  | some kind => a.selectorOf kind path
  | none => Plan.fail (a.lacks "selector")

/-- The containers of the pod at a path, for the class of pods. -/
def containers (a : Accessor) (path : String) : Plan (List String) :=
  match a.accessorClass with
  | .typed .pod => do return Decoded.containers (← a.decoded .pod path)
  | _ => Plan.fail (a.lacks "containers")

/-- Whether the daemon set at a path runs everywhere, for the class of daemon sets. -/
def isHappy (a : Accessor) (path : String) : Plan Bool :=
  match a.accessorClass with
  | .typed .daemonSet => do return Decoded.isHappy (← a.decoded .daemonSet path)
  | _ => Plan.fail (a.lacks "is_happy")

/-- Restarts the workload at a path, if the cluster allows it. -/
def restart (a : Accessor) (kind : Kind) (path : String) : Plan Unit := do
  let _ ← a.prime path
  let (object, _) ← a.selectorOf kind path
  let (ns, name) := Path.split path
  Gate.require ns a.rid "patch"
  let patch ← Plan.known (Restart.patch kind object (← Plan.now))
  let _ ← Forward.mutation (.patch name patch) a.rid ns name
  Plan.tell (.info workloadComponent "rollout_restarted"
    [("resource", .text a.rid.kindText), ("path", .text path)])

/-- The path of the pod that stands for a workload: the first of its pods. -/
def resolvePod (a : Accessor) (kind : Kind) (path : String) : Plan String := do
  let _ ← a.prime path
  let (_, selector) ← a.selectorOf kind path
  let ns := nsOf path
  let _ ← Plan.synced .pods ns none
  match Tailer.sorted (← Plan.objects .pods ns (some selector)) with
  | pod :: _ => return pod.path
  | [] => Plan.fail (.notFound ResourceId.pods.kindText
      (path ++ " (" ++ selector.render ++ ")"))

/-- Finds the pods of a workload whose logs are to be tailed. -/
def tailWorkload (a : Accessor) (kind : Kind) (options : TailOptions) : Plan TailStart := do
  let _ ← a.prime options.path
  let (_, selector) ← a.selectorOf kind options.path
  match a.tailer with
  | none => Plan.fail (.badState (.noTailer a.rid.kindText))
  | some config => Tailer.ofSelector config (nsOf options.path) selector options

/-- Finds the pod whose logs are to be tailed. -/
def tailPod (a : Accessor) (options : TailOptions) : Plan TailStart :=
  match a.tailer with
  | none => Plan.fail (.badState (.noTailer "pod"))
  | some config => Tailer.ofPath config options.path { options with multiPods := false }

/-- What the logs of an object are tailed from. -/
def tail (a : Accessor) (kind : Kind) (options : TailOptions) : Plan TailStart :=
  if kind.isWorkload then a.tailWorkload kind options else a.tailPod options

end Accessor

end LiveCluster
