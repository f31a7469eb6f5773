import LiveCluster.Resource.Id

/-!
# Calls to the cluster's API

The kinds that the API serves by classes of their own are bound to a class and to
the name that its methods use; every other kind goes through the class for custom
objects, which takes group, version and plural as arguments. Which method a request
reaches depends on the kind, on whether it lives in namespaces, and, for listings,
on whether a namespace was asked for.
-/

namespace LiveCluster.Transport

/-- How a kind is served. -/
structure Binding where
  api : String
  model : String
  namespaced : Bool := true
  deriving Repr, DecidableEq

/-- The kinds with classes of their own. -/
def bindings : List (String × Binding) := [
  ("v1/pods", ⟨"CoreV1Api", "pod", true⟩),
  ("v1/services", ⟨"CoreV1Api", "service", true⟩),
  ("v1/endpoints", ⟨"CoreV1Api", "endpoints", true⟩),
  ("v1/configmaps", ⟨"CoreV1Api", "config_map", true⟩),
  ("v1/secrets", ⟨"CoreV1Api", "secret", true⟩),
  ("v1/serviceaccounts", ⟨"CoreV1Api", "service_account", true⟩),
  ("v1/events", ⟨"CoreV1Api", "event", true⟩),
  ("v1/persistentvolumeclaims", ⟨"CoreV1Api", "persistent_volume_claim", true⟩),
  ("v1/resourcequotas", ⟨"CoreV1Api", "resource_quota", true⟩),
  ("v1/persistentvolumes", ⟨"CoreV1Api", "persistent_volume", false⟩),
  ("v1/namespaces", ⟨"CoreV1Api", "namespace", false⟩),
  ("v1/nodes", ⟨"CoreV1Api", "node", false⟩),
  ("apps/v1/deployments", ⟨"AppsV1Api", "deployment", true⟩),
  ("apps/v1/daemonsets", ⟨"AppsV1Api", "daemon_set", true⟩),
  ("apps/v1/statefulsets", ⟨"AppsV1Api", "stateful_set", true⟩),
  ("apps/v1/replicasets", ⟨"AppsV1Api", "replica_set", true⟩),
  ("batch/v1/jobs", ⟨"BatchV1Api", "job", true⟩),
  ("batch/v1/cronjobs", ⟨"BatchV1Api", "cron_job", true⟩)]

/-- One call of one method: its positional and its named arguments. -/
structure ApiCall where
  api : String
  method : String
  args : List Value
  options : Fields := []
  deriving Inhabited

/-- A connection: how long a request may take, and which kinds without a binding
live outside namespaces. -/
structure Client where
  timeout : Int := 30
  clusterScoped : List String := []
  deriving Repr, Inhabited

/-- What a request does to a kind. -/
inductive Mutation where
  | create (body : Value)
  | patch (name : String) (body : Value)
  | delete (name : String) (propagation : Option String) (grace : Option Int)
  deriving Inhabited

namespace Mutation

def word : Mutation → String
  | .create _ => "create"
  | .patch .. => "patch"
  | .delete .. => "delete"

/-- The object that the mutation concerns. -/
def name? : Mutation → Option String
  | .create _ => none
  | .patch name _ => some name
  | .delete name _ _ => some name

end Mutation

namespace Client

/-- How a kind is served, if it has a class of its own. -/
def binding? (rid : ResourceId) : Option Binding :=
  bindings.lookup rid.kindText

/-- Whether objects of a kind live in namespaces. -/
def isNamespaced (c : Client) (rid : ResourceId) : Bool :=
  match binding? rid with
  | some b => b.namespaced
  | none => !c.clusterScoped.contains rid.kindText

def customApi : String := "CustomObjectsApi"

/-- The method that lists a scope, and its positional arguments. -/
def listCall (c : Client) (rid : ResourceId) (ns : String) : ApiCall :=
  match binding? rid with
  | some b =>
    if !b.namespaced then ⟨b.api, "list_" ++ b.model, [], []⟩
    else if ns.isEmpty then ⟨b.api, "list_" ++ b.model ++ "_for_all_namespaces", [], []⟩
    else ⟨b.api, "list_namespaced_" ++ b.model, [.text ns], []⟩
  | none =>
    if !ns.isEmpty && c.isNamespaced rid then
      ⟨customApi, "list_namespaced_custom_object",
        [.text rid.group, .text rid.version, .text ns, .text rid.resource], []⟩
    else
      ⟨customApi, "list_cluster_custom_object",
        [.text rid.group, .text rid.version, .text rid.resource], []⟩

/-- The named argument that bounds the time of a request. -/
def timeLimit (c : Client) : String × Value :=
  ("_request_timeout", .int c.timeout)

/-- The call that lists a scope. -/
def list (c : Client) (rid : ResourceId) (ns : String) : ApiCall :=
  { c.listCall rid ns with options := [c.timeLimit] }

/-- The call that watches a scope: the listing's, told where to resume and when to
close, where these are given. -/
def watch (c : Client) (rid : ResourceId) (ns version : String) (timeout : Option Int) : ApiCall :=
  let resume := if version.isEmpty then [] else [("resource_version", Value.text version)]
  let close := match timeout with
    | some n => if n = 0 then [] else [("timeout_seconds", Value.int n)]
    | none => []
  { c.listCall rid ns with
    options := [("allow_watch_bookmarks", .bool true)] ++ resume ++ close }

/-- The positional arguments that name the object of a mutation. -/
def objectArgs (m : Mutation) : List Value :=
  (m.name?.map Value.text).toList

/-- The body of a mutation: a positional argument, or for deletions a named one. -/
def bodyArgs : Mutation → List Value × Fields
  | .create body => ([body], [])
  | .patch _ body => ([body], [])
  | .delete _ propagation grace =>
    ([], [("body", .record [("propagation_policy", Value.ofText? propagation),
      ("grace_period_seconds", Value.ofInt? grace)])])

/-- The named arguments of a mutation of a kind with a class of its own. -/
def typedOptions (c : Client) : Mutation → Fields
  | .patch .. =>
    [("_content_type", .text "application/strategic-merge-patch+json"), c.timeLimit]
  | _ => [c.timeLimit]

/-- The call that a mutation makes. -/
def mutate (c : Client) (rid : ResourceId) (ns : String) (m : Mutation) : ApiCall :=
  let (body, named) := bodyArgs m
  match binding? rid with
  | some b =>
    if b.namespaced then
      ⟨b.api, m.word ++ "_namespaced_" ++ b.model, objectArgs m ++ [.text ns] ++ body,
        named ++ c.typedOptions m⟩
    else
      ⟨b.api, m.word ++ "_" ++ b.model, objectArgs m ++ body, named ++ c.typedOptions m⟩
  | none =>
    if c.isNamespaced rid then
      ⟨customApi, m.word ++ "_namespaced_custom_object",
        [.text rid.group, .text rid.version, .text ns, .text rid.resource]
          ++ objectArgs m ++ body, named⟩
    else
      ⟨customApi, m.word ++ "_cluster_custom_object",
        [.text rid.group, .text rid.version, .text rid.resource] ++ objectArgs m ++ body,
        named⟩

/-- The call that asks whether the current identity may do something. -/
def review (c : Client) (ns group resource verb : String) : ApiCall :=
  ⟨"AuthorizationV1Api", "create_self_subject_access_review",
    [.record [("namespace", if ns.isEmpty then .null else .text ns), ("verb", .text verb),
      ("group", .text group), ("resource", .text resource)]],
    [c.timeLimit]⟩

end Client

end LiveCluster.Transport
