import LiveCluster.Config.Basic
import LiveCluster.Snapshot
import LiveCluster.Tail.Event
import LiveCluster.Text.Blank
import LiveCluster.Text.Utf8
import LiveCluster.Transport.Call
import LiveCluster.Transport.Generator
import LiveCluster.Watch.Partition

/-!
# Exchanges with the cluster's API

An exchange is a call, what came back for it, and what is made of that. Three kinds
of failure belong to the transport and become transport failures: an answer with a
status, a broken connection, and a timeout. Every other failure passes through
unchanged. A stream can fail while it is opened or while it is read, and whatever
happens, what was opened is closed: a watch is stopped, after its stream was left if
it had been entered, and a log response is released.
-/

namespace LiveCluster.Transport

/-- What the outside sees of an exchange. -/
inductive Mark where
  | call (call : ApiCall)
  | sanitize
  | exit
  | stop
  | release
  | close
  | loadInCluster
  | loadKubeconfig (file context : Option String)

/-- What comes back for a call: a plain value, one that has to be made plain first, or
a failure. -/
inductive Reply where
  | plain (v : Value)
  | wrapped (v : Value)
  | failed (fault : Fault)

/-- The transport failure that a failure during an action becomes. -/
def transportFault (action : String) : Fault → Fault
  | .api status reason =>
    .transport (action ++ " failed: " ++ status.asText ++ " " ++ reason.asText) status
  | .timedOut => .transport (action ++ " timed out") .null
  | .client message => .transport (action ++ " failed: " ++ message) .null
  | other => other

/-- A call and the plain value that comes back. -/
def exchange (call : ApiCall) (action : String) : Reply → List Mark × Except Fault Value
  | .plain v => ([.call call], .ok v)
  | .wrapped v => ([.call call, .sanitize], .ok v)
  | .failed fault => ([.call call], .error (transportFault action fault))

/-- The items of a value: a list's, the characters of a text, the names of a record. -/
def itemsOf : Value → Except Fault (List Value)
  | .list items => .ok items
  | .text s => .ok (s.toList.map fun c => .text (String.ofList [c]))
  | .record fields => .ok (fields.map fun (name, _) => .text name)
  | other => .error (.misfit (.notIterable other.kindWord))

/-- The objects of a listing, and the version of the collection. -/
def readListing (data : Value) : Except Fault (List Value × String) := do
  let fields ← fieldsOf data
  let metadata := ((fields.get? "metadata").getD .null).orElse (.record [])
  let items ← itemsOf (((fields.get? "items").getD .null).orElse (.list []))
  return (items, fieldText (← fieldsOf metadata) "resourceVersion")

/-- Lists a scope. -/
def list (c : Client) (rid : ResourceId) (ns : String) (reply : Reply) :
    List Mark × Except Fault (List Value × String) :=
  let (marks, data) := exchange (c.list rid ns) ("list " ++ rid.kindText) reply
  (marks, data.bind readListing)

/-- What a mutation is called in failures. -/
def actionOf (rid : ResourceId) (m : Mutation) : String :=
  m.word ++ " " ++ rid.kindText ++ (match m.name? with
    | some name => " " ++ name
    | none => "")

/-- Mutates the cluster. -/
def mutate (c : Client) (rid : ResourceId) (ns : String) (m : Mutation) (reply : Reply) :
    List Mark × Except Fault Value :=
  exchange (c.mutate rid ns m) (actionOf rid m) reply

/-- Asks for a review; no answer counts as a denial. -/
def review (c : Client) (ns group resource verb : String)
    (reply : Except Fault (Option Bool)) : List Mark × Except Fault Bool :=
  ([.call (c.review ns group resource verb)],
    match reply with
    | .ok allowed => .ok (allowed.getD false)
    | .error fault =>
      .error (transportFault ("access review " ++ verb ++ " " ++ resource) fault))

/-- What a stream brings: nothing because it could not be opened, or items and, at
the end, possibly a failure. -/
inductive Feed (α : Type) where
  | refused (fault : Fault)
  | items (items : List α) (failure : Option Fault)

/-- The event that a raw item of a watch stands for; an item of type `ERROR` is a
failure with the status that it carries. -/
def readWatchItem (rid : ResourceId) (item : Fields) : Except Fault WatchEvent := do
  let type := (item.get? "type").getD .null
  let raw := ((item.get? "raw_object").getD .null).orElse (.record [])
  match type with
  | .text "ERROR" =>
    let fields ← fieldsOf raw
    let message := ((fields.get? "message").getD (.text "")).asText
    .error (.transport ("watch " ++ rid.kindText ++ " error: " ++ message)
      ((fields.get? "code").getD .null))
  | type => return ⟨type.asText, raw⟩

/-- The watch of a scope. The stream is left before the watch is stopped. -/
def watching (c : Client) (rid : ResourceId) (ns version : String) (timeout : Option Int)
    (feed : Feed Fields) : Generator Mark WatchEvent :=
  .ensuring .stop <| .translating (transportFault ("watch " ++ rid.kindText)) <|
    .marked (.call (c.watch rid ns version timeout)) <|
      .waiting (match feed with
        | .refused fault => .raised fault
        | .items items failure => .ensuring .exit (.each (readWatchItem rid) failure items)) []

/-- Watches a scope, for a consumer that takes all events or the given number. -/
def watch (c : Client) (rid : ResourceId) (ns version : String) (timeout : Option Int)
    (take : Option Nat) (feed : Feed Fields) : List Mark × List WatchEvent × Option Fault :=
  (watching c rid ns version timeout feed).run take

/-- The call that opens a container's log. -/
def logCall (ns pod container : String) (options : TailOptions) : ApiCall :=
  let optional (name : String) : Option Int → Fields
    | some n => [(name, .int n)]
    | none => []
  ⟨"CoreV1Api", "read_namespaced_pod_log", [.text pod, .text ns],
    [("container", .text container), ("follow", .bool !options.previous),
      ("previous", .bool options.previous), ("timestamps", .bool options.timestamps),
      ("_preload_content", .bool false)]
    ++ optional "tail_lines" options.tailLines
    ++ optional "since_seconds" options.sinceSeconds⟩

/-- The line that a chunk of log bytes holds, without the line break at its end. -/
def lineOf (chunk : List UInt8) : String :=
  String.ofList (Text.dropEndWhile (fun c => c == '\r' || c == '\n') (Text.decode chunk))

/-- The log of a container. There is a response to release only once it was obtained. -/
def following (ns pod container : String) (options : TailOptions) (feed : Feed (List UInt8)) :
    Generator Mark String :=
  let translate := transportFault ("logs " ++ ns ++ "/" ++ pod ++ ":" ++ container)
  .marked (.call (logCall ns pod container options)) <|
    .waiting (match feed with
      | .refused fault => .raised (translate fault)
      | .items chunks failure =>
        .ensuring .release <| .translating translate <|
          .each (fun chunk => .ok (lineOf chunk)) failure chunks) []

/-- Streams the log of a container, for a consumer that takes all lines or the given
number. -/
def streamLogs (ns pod container : String) (options : TailOptions) (take : Option Nat)
    (feed : Feed (List UInt8)) : List Mark × List String × Option Fault :=
  (following ns pod container options feed).run take

/-- A text, if it is not empty. -/
def nonEmpty? (s : String) : Option String :=
  if s.isEmpty then none else some s

/-- Connects from inside the cluster, or else by a kubeconfig file; the given results
are what the two ways come to. -/
def connect (config : ConnectionConfig) (inCluster kubeconfig : Option Fault) :
    List Mark × Except Fault Client :=
  let client : Client := { timeout := config.requestTimeout }
  match inCluster with
  | none => ([.loadInCluster], .ok client)
  | some (.configuration _) =>
    let marks := [.loadInCluster,
      .loadKubeconfig (nonEmpty? config.kubeconfig) (nonEmpty? config.context)]
    match kubeconfig with
    | none => (marks, .ok client)
    | some fault => (marks, .error fault)
  | some fault => ([.loadInCluster], .error fault)

end LiveCluster.Transport
