import LiveCluster.Instant
import LiveCluster.Schema.Kind

/-!
# Rollout restarts

A restart writes the current second into an annotation of the pod template. The
controller sees the template change and replaces its pods. The patch carries that
one annotation and nothing else, so it says nothing about the object; the object
only decides whether it may be restarted at all.
-/

namespace LiveCluster.Restart

/-- The annotation that a restart writes. -/
def annotation : String := "kubectl.kubernetes.io/restartedAt"

/-- A record with one field. -/
def single (name : String) (v : Value) : Value :=
  .record [(name, v)]

/-- The patch that writes the second of an instant into the pod template. -/
def templatePatch (now : Instant) : Except Fault Value := do
  let stamp ← now.stamp
  return single "spec" (single "template" (single "metadata" (single "annotations"
    (single annotation (.text stamp)))))

/-- Why a decoded object must not be restarted, if there is a reason. -/
def refusal? (kind : Kind) (object : Value) : Option RestartRefusal :=
  match kind with
  | .deployment =>
    if Decoded.paused object then some (.paused (Decoded.name object)) else none
  | .daemonSet =>
    if Decoded.updatesOnDelete object then some (.onDelete "daemonset" (Decoded.name object))
    else none
  | .statefulSet =>
    if Decoded.updatesOnDelete object then some (.onDelete "statefulset" (Decoded.name object))
    else none
  | _ => none

/-- The patch that restarts a decoded object. -/
def patch (kind : Kind) (object : Value) (now : Instant) : Except Fault Value :=
  match refusal? kind object with
  | some why => .error (.restartRefused why)
  | none => templatePatch now

end LiveCluster.Restart
