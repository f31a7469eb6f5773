import LiveCluster.Access.Registry
import LiveCluster.Application
import LiveCluster.Simulation.Cluster

/-!
# Requests

Everything that can be asked of a session: to script the cluster, to let time pass, and
to use the caches, the gate, accessors, sinks, tails and the application.
-/

namespace LiveCluster.Simulation

/-- What is asked of an accessor. -/
inductive Access where
  | get (path : String)
  | list (ns : String) (selector : Option Selector)
  | object (path : String)
  | selector (path : String)
  | containers (path : String)
  | happy (path : String)
  | stale (ns : String)
  | fresh (ns : String)
  | prime (path : String)
  | delete (path : String) (options : DeleteOptions)
  | restart (path : String)
  | resolve (path : String)
  | tail (sink : String) (options : TailOptions)

/-- What a new application is given. -/
structure Launch where
  /-- Its configuration, if it does not read one from its environment. -/
  config : Option Config
  environment : Except Fault Config
  /-- Whether it is handed a connection. -/
  injected : Bool
  connectFault : Option Fault
  closeFault : Option Fault
  closeHangs : Bool

inductive Request where
  /-- Replaces the objects of a kind. -/
  | objects (rid : ResourceId) (items : List Value)
  | failLists (rid : ResourceId) (faults : List Fault)
  | hold (rid : ResourceId)
  | letGo (rid : ResourceId)
  /-- Adds an item to the watch of a scope. -/
  | feed (rid : ResourceId) (ns : String) (item : FeedItem)
  /-- Adds items to the log of a container; closes a sink before any task runs. -/
  | log (path container : String) (items : List LogItem) (closing : Option String)
  | deny (verbs : List String)
  | failReviews (fault : Option Fault)
  | failMutations (fault : Option Fault)
  | version (version : String)
  | advance (seconds : Float)
  | ensureWatch (rid : ResourceId) (ns : String)
  | waitSynced (rid : ResourceId) (ns : String) (timeout : Option Float)
  | get (rid : ResourceId) (path : String)
  | raw (rid : ResourceId) (path : String)
  | list (rid : ResourceId) (ns : String) (selector : Option Selector)
  | state (rid : ResourceId) (ns : String)
  | scopes
  | forward (verb : String) (rid : ResourceId) (ns name : String) (body : Value)
      (propagation : Option String) (grace : Option Int)
  | stop
  | informer (rid : ResourceId) (ns : String)
  | stopInformer (rid : ResourceId) (ns : String) (twice : Bool)
  | allows (subject : Gate.Subject) (ns : String) (verbs : List String)
  | require (rid : ResourceId) (ns verb : String)
  | register (rid : ResourceId) (accessorClass : AccessorClass)
  | accessor (rid : ResourceId) (withoutTailer : Bool)
  | access (rid : ResourceId) (withoutTailer : Bool) (what : Access)
  /-- Makes a sink with room for so many events, or for the usual number. -/
  | sink (name : String) (limit : Option Int)
  | put (sink : String) (event : LogEvent)
  | next (sink : String)
  | all (sink : String)
  | awaitClose (sink : String)
  | close (sink : String)
  | sinkState (sink : String)
  | drain (sink : String)
  | tail (sink ns : String) (selector : Option Selector) (options : TailOptions)
  | tailPod (sink path : String) (options : TailOptions)
  | cancel (call : String)
  | samples
  | launch (launch : Launch)
  | start
  | quit
  | running
  | applicationSink (name : String)
  /-- Turns to the caches of the application. -/
  | applicationScopes

end LiveCluster.Simulation
