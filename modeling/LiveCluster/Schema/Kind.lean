import LiveCluster.Schema.Shape

/-!
# The kinds whose objects are decoded

Six kinds have a shape: pods, and the five workloads that own pods. A shape
mentions only the fields that accessors read; decoding keeps all others. The
questions that accessors ask of a decoded object are the functions below, and each
reads the normal form, where every mentioned field is present.
-/

namespace LiveCluster

inductive Kind where
  | pod
  | deployment
  | daemonSet
  | statefulSet
  | replicaSet
  | job
  deriving Repr, DecidableEq, Inhabited

namespace Kind

/-- The kind's name in messages. -/
def word : Kind → String
  | .pod => "Pod"
  | .deployment => "Deployment"
  | .daemonSet => "DaemonSet"
  | .statefulSet => "StatefulSet"
  | .replicaSet => "ReplicaSet"
  | .job => "Job"

def all : List Kind :=
  [.pod, .deployment, .daemonSet, .statefulSet, .replicaSet, .job]

/-- Whether the kind owns pods through a selector. -/
def isWorkload : Kind → Bool
  | .pod => false
  | _ => true

end Kind

namespace Shape

/-- A field with one name that has to be there. -/
def required (name : String) (shape : Shape) : Slot × Shape :=
  (⟨name, name, none⟩, shape)

/-- A field with two names and a value for when it is missing. -/
def field (inner outer : String) (shape : Shape) (fallback : Value) : Slot × Shape :=
  (⟨inner, outer, some fallback⟩, shape)

/-- What stands for a missing record: one in which every field is missing. -/
def nothing : Value := .record []

def metadata : Shape :=
  .model [
    required "name" .text,
    field "namespace" "namespace" .text (.text ""),
    field "uid" "uid" .text (.text ""),
    field "resource_version" "resourceVersion" .text (.text ""),
    field "labels" "labels" .texts nothing,
    field "annotations" "annotations" .texts nothing]

def labelSelector : Shape :=
  .model [field "match_labels" "matchLabels" (.optional .texts) .null]

def container : Shape :=
  .model [
    required "name" .text,
    field "image" "image" .text (.text "")]

def podSpec : Shape :=
  .model [
    field "containers" "containers" (.list container) (.list []),
    field "init_containers" "initContainers" (.list container) (.list []),
    field "node_name" "nodeName" .text (.text "")]

def templateMetadata : Shape :=
  .model [
    field "labels" "labels" .texts nothing,
    field "annotations" "annotations" .texts nothing]

def podTemplate : Shape :=
  .model [
    field "metadata" "metadata" templateMetadata nothing,
    field "spec" "spec" podSpec nothing]

def updateStrategy : Shape :=
  .model [field "type" "type" .text (.text "RollingUpdate")]

/-- The fields that the specification of every workload has. -/
def workloadSlots : List (Slot × Shape) := [
  field "selector" "selector" (.optional labelSelector) .null,
  field "template" "template" podTemplate nothing]

/-- The specification of a kind. -/
def spec : Kind → Shape
  | .pod => podSpec
  | .deployment => .model (workloadSlots ++ [
      field "paused" "paused" .truth (.bool false),
      field "replicas" "replicas" (.optional .whole) .null])
  | .daemonSet => .model (workloadSlots ++ [
      field "update_strategy" "updateStrategy" updateStrategy nothing])
  | .statefulSet => .model (workloadSlots ++ [
      field "update_strategy" "updateStrategy" updateStrategy nothing,
      field "replicas" "replicas" (.optional .whole) .null])
  | .replicaSet => .model (workloadSlots ++ [
      field "replicas" "replicas" (.optional .whole) .null])
  | .job => .model (workloadSlots ++ [
      field "parallelism" "parallelism" (.optional .whole) .null])

end Shape

/-- The shape of an object of a kind. -/
def Kind.shape (kind : Kind) : Shape :=
  .model [
    Shape.field "api_version" "apiVersion" .text (.text ""),
    Shape.field "kind" "kind" .text (.text ""),
    Shape.required "metadata" Shape.metadata,
    Shape.field "status" "status" .record Shape.nothing,
    Shape.field "spec" "spec" (Shape.spec kind) Shape.nothing]

/-- Decodes a raw object of a kind. -/
def Kind.decode (kind : Kind) (raw : Value) : Except (List Problem) Value :=
  kind.shape.decode raw

namespace Decoded

/-- The name of a decoded object. -/
def name (object : Value) : String :=
  (object.at? ["metadata", "name"]).asText

/-- The labels that a decoded workload selects its pods by, none where it gives none. -/
def matchLabels (object : Value) : Value :=
  (object.at? ["spec", "selector", "matchLabels"]).orElse (.record [])

/-- The names of the containers of a decoded pod, in order. -/
def containers (pod : Value) : List String :=
  match pod.at? ["spec", "containers"] with
  | .list items => items.map fun c => (c.at? ["name"]).asText
  | _ => []

/-- Whether a decoded deployment is paused. -/
def paused (object : Value) : Bool :=
  (object.at? ["spec", "paused"]).truthy

/-- Whether a decoded object is updated only when its pods are deleted. -/
def updatesOnDelete (object : Value) : Bool :=
  (object.at? ["spec", "updateStrategy", "type"]).asText == "OnDelete"

/-- Whether as many pods of a decoded daemon set are scheduled as it wants. -/
def isHappy (object : Value) : Bool :=
  let count (name : String) : Value := match object.at? ["status"] with
    | .record fields => (Keyed.get? fields name).getD (.int 0)
    | _ => .int 0
  (count "desiredNumberScheduled").same (count "currentNumberScheduled")

end Decoded

end LiveCluster
