import LiveCluster.Access.Plan
import LiveCluster.Config.Basic
import LiveCluster.Schema.Kind
import LiveCluster.Sorting
import LiveCluster.Tail.Event

/-!
# What is tailed

A tail follows the logs of a fixed set of pods: those that a selector selects in a
namespace when the tail starts, or one pod by its path. An empty selector is refused
and an empty set of pods is an error, so that nobody mistakes either for silence.
Every container of every pod makes one stream, unless the caller asks for one
container by name.
-/

namespace LiveCluster

/-- The pods of a tail and the options that hold for all of its streams. -/
structure TailStart where
  pods : List Snapshot
  options : TailOptions
  deriving Inhabited

/-- One stream of a tail. -/
structure TailTarget where
  pod : Snapshot
  container : String
  deriving Inhabited

namespace Tailer

def component : String := "dao.logs"

/-- Objects by path, in the order of code points. -/
def sorted (objects : List Snapshot) : List Snapshot :=
  sortBy (fun a b => decide (a.path ≤ b.path)) objects

/-- The options with the configured number of lines, where none is asked for. -/
def withDefaults (config : TailConfig) (options : TailOptions) : TailOptions :=
  if options.tailLines.isNone && config.tailLines ≠ 0 then
    { options with tailLines := some config.tailLines }
  else options

/-- Finds the pods that a selector selects in a namespace. -/
def ofSelector (config : TailConfig) (ns : String) (selector : Selector)
    (options : TailOptions) : Plan TailStart := do
  if selector.isEmpty then
    Plan.fail (.noSelector ResourceId.pods.kindText options.path)
  else
    let _ ← Plan.synced .pods ns none
    let pods := sorted (← Plan.objects .pods ns (some selector))
    if pods.isEmpty then
      Plan.fail (.notFound ResourceId.pods.kindText
        (options.path ++ " (" ++ selector.render ++ ")"))
    else
      let options := { options with multiPods := decide (1 < pods.length) }
      return ⟨pods, withDefaults config options⟩

/-- Finds one pod. -/
def ofPath (config : TailConfig) (path : String) (options : TailOptions) :
    Plan TailStart := do
  let _ ← Plan.synced .pods (Path.split path).1 none
  match ← Plan.object .pods path with
  | none => Plan.fail (.notFound ResourceId.pods.kindText path)
  | some pod => return ⟨[pod], withDefaults config { options with path := path }⟩

/-- The containers of a pod whose logs are wanted. -/
def containers (pod : Snapshot) (options : TailOptions) : Except Fault (List String) :=
  match options.container with
  | some name =>
    if name.isEmpty then named pod else .ok [name]
  | none => named pod
where
  /-- The containers that the pod's specification names. -/
  named (pod : Snapshot) : Except Fault (List String) :=
    match Kind.pod.decode pod.raw with
    | .ok object => .ok (Decoded.containers object)
    | .error problems => .error (.undecodable Kind.pod.word pod.path problems)

/-- The streams of a pod. -/
def targets (pod : Snapshot) (options : TailOptions) : Except Fault (List TailTarget) :=
  (containers pod options).map fun names => names.map fun name => ⟨pod, name⟩

/-- What is told of a stream that failed, or of a pod that cannot have one. -/
def streamError (pod : Snapshot) (container : String) (fault : Fault) : List Note :=
  [.count .streamErrors,
    .warning component "log_stream_error"
      [("pod", .text pod.path), ("container", .text container),
        ("error", .text fault.message)]]

end Tailer

end LiveCluster
