import LiveCluster.Loop.Channel
import LiveCluster.Resource.Id
import LiveCluster.Tail.Event
import LiveCluster.Transport.Call
import LiveCluster.Watch.Informer

/-!
# A scripted cluster

A cluster whose every answer is laid down beforehand: the objects that listings
return, the faults that they raise first, what watches and log streams deliver, what
reviews deny, and what mutations raise. Items of a watch or a log wait in a channel of
their scope or container, which outlives the streams that read it.
-/

namespace LiveCluster

/-- A request that reached the cluster. -/
inductive ClusterCall where
  | list (kind ns : String)
  | watch (kind ns version : String) (timeout : Int)
  | mutate (kind ns : String) (mutation : Transport.Mutation)
  | review (ns group resource verb : String)
  | streamLogs (ns pod container : String) (options : TailOptions)
  | close
  | connect (config : ConnectionConfig)

/-- What a watch delivers. -/
inductive FeedItem where
  | event (event : WatchEvent)
  | ended
  | failed (fault : Fault)
  deriving Inhabited

/-- What a log stream delivers. -/
inductive LogItem where
  | line (text : String)
  | ended
  | failed (fault : Fault)
  deriving Inhabited

/-- The class of the connections to a cluster that answers as it was told to. -/
def clientClass : String := "ScriptedCluster"

structure Cluster where
  /-- The kinds without namespaces. -/
  clusterScoped : List String := ["v1/nodes", "v1/namespaces", "v1/persistentvolumes"]
  objects : Keyed (List Value) := []
  /-- The version of every listing. -/
  version : String := "100"
  /-- The faults that the next listings of a kind raise. -/
  listFaults : Keyed (List Fault) := []
  /-- The kinds whose listings are held back, with the tasks that wait for them. -/
  held : Keyed (List TaskId) := []
  feeds : Keyed (Channel FeedItem) := []
  /-- The logs of the containers of the pods at a path. -/
  logs : Keyed (Keyed (Channel LogItem)) := []
  denied : List String := []
  reviewFault : Option Fault := none
  mutationFault : Option Fault := none
  connectFault : Option Fault := none
  /-- How many connections were made. -/
  connections : Nat := 0
  closeFault : Option Fault := none
  /-- Whether closing the connection never comes to an end. -/
  closeHangs : Bool := false
  deriving Inhabited

namespace Cluster

def namespaced (c : Cluster) (rid : ResourceId) : Bool :=
  !c.clusterScoped.contains rid.kindText

/-- Whether a raw object lives in a namespace. -/
def livesIn (ns : String) (raw : Value) : Bool :=
  match raw.at? ["metadata", "namespace"] with
  | .text s => s == ns
  | _ => false

/-- The objects of a kind in a namespace, or in all of them. -/
def objectsIn (c : Cluster) (kind ns : String) : List Value :=
  let all := (c.objects.get? kind).getD []
  if ns.isEmpty then all else all.filter (livesIn ns)

/-- The next fault of the listings of a kind, which is used up. -/
def takeListFault? (c : Cluster) (kind : String) : Option (Fault × Cluster) :=
  match c.listFaults.get? kind with
  | some (fault :: rest) => some (fault, { c with listFaults := c.listFaults.set kind rest })
  | _ => none

def feed (c : Cluster) (scope : String) : Channel FeedItem :=
  (c.feeds.get? scope).getD {}

def setFeed (c : Cluster) (scope : String) (feed : Channel FeedItem) : Cluster :=
  { c with feeds := c.feeds.set scope feed }

def log (c : Cluster) (path container : String) : Channel LogItem :=
  ((c.logs.get? path).bind (·.get? container)).getD {}

def setLog (c : Cluster) (path container : String) (log : Channel LogItem) : Cluster :=
  { c with logs := c.logs.set path (((c.logs.get? path).getD []).set container log) }

/-- What a mutation comes to. -/
def outcome (c : Cluster) (m : Transport.Mutation) : Except Fault Value :=
  match c.mutationFault with
  | some fault => .error fault
  | none => match m with
    | .create body => .ok body
    | .patch _ body => .ok body
    | .delete .. => .ok (.record [("status", .text "Success")])

/-- What a review comes to. -/
def allows (c : Cluster) (verb : String) : Except Fault Bool :=
  match c.reviewFault with
  | some fault => .error fault
  | none => .ok (!c.denied.contains verb)

/-- What an attempt to connect comes to: the number of a connection that was not there before. -/
def connect (c : Cluster) : Cluster × Except Fault Nat :=
  match c.connectFault with
  | some fault => (c, .error fault)
  | none => ({ c with connections := c.connections + 1 }, .ok (c.connections + 1))

theorem clusterScoped_connect (c : Cluster) : c.connect.1.clusterScoped = c.clusterScoped := by
  unfold connect
  split
  · rfl
  · rfl

end Cluster

end LiveCluster
