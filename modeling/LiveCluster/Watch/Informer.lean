import LiveCluster.Config.Basic
import LiveCluster.Resource.Id
import LiveCluster.Watch.Partition

/-!
# Informers

An informer keeps the partition of one scope fresh: it lists the scope, watches it
from the version of the listing, applies what the watch delivers, and starts over
when either fails. Here it is a state that reacts to signals. Each signal says what
came of the last command, and the reaction is a new state, notes, and the next
command; nothing here waits or calls anything.

A watch that closed normally is resumed from the last version seen. A watch that
broke is followed by a new listing, at once when the version had expired and
otherwise after a pause that doubles with each failure in a row. Failures are
forgotten only when a watch is established: when it delivers its first event, or
has stayed open long enough. As many failures in a row as the threshold says make
the cache stale; readers go on reading it.
-/

namespace LiveCluster

inductive CacheState where
  | unwatched
  | watching
  | stale
  deriving Repr, DecidableEq, Inhabited

def CacheState.name : CacheState → String
  | .unwatched => "unwatched"
  | .watching => "watching"
  | .stale => "stale"

structure Informer where
  /-- The kind that is watched; it names no object. -/
  rid : ResourceId
  ns : String
  config : WatchConfig
  items : Partition := []
  /-- Grows by one with every change of the partition. -/
  revision : Nat := 0
  /-- The version from which the next watch resumes. -/
  version : String := ""
  /-- Failures in a row. -/
  failures : Nat := 0
  /-- Whether the current watch counts as established. -/
  established : Bool := false
  state : CacheState := .unwatched
  /-- Whether a listing has succeeded. -/
  synced : Bool := false
  /-- Whether the next round begins with a listing. -/
  needList : Bool := true
  deriving Inhabited

namespace Informer

/-- A new informer for the kind that an identifier names. -/
def new (rid : ResourceId) (ns : String) (config : WatchConfig) : Informer :=
  { rid := rid.kindOnly, ns := ns, config := config }

/-- The scope that the informer serves. -/
def key (i : Informer) : String :=
  i.rid.scopeKey i.ns

/-- What comes next: a call, a wait, or the end of the worker. -/
inductive Command where
  | list
  | watch (version : String)
  | next
  | sleep (delay : Float)
  | crash (fault : Fault)

/-- What came of the last command. -/
inductive Signal where
  | started
  | listed (items : List Value) (version : String)
  | listFailed (fault : Fault)
  | event (event : WatchEvent)
  | ended
  | watchFailed (fault : Fault)
  | woke

/-- What a reaction gives. -/
structure Reaction where
  informer : Informer
  notes : List Note
  command : Command

def component : String := "watch.informer"

/-- The longest row of failures for which the doubled pause can still be computed. -/
def backoffLimit : Nat := 1024

/-- The pause after the given number of failures in a row, between nothing and the
configured maximum. Past the limit the doubling leaves the range of numbers. -/
def backoffDelay (config : WatchConfig) (failures : Int) : Except Fault Float :=
  if failures ≤ 0 then .ok 0.0
  else if failures > backoffLimit then .error (.misfit .floatRange)
  else
    let delay := config.backoffBase * Float.ofNat (Nat.pow 2 (failures.toNat - 1))
    .ok (if delay < config.backoffMax then delay else config.backoffMax)

/-- The current watch counts as established; failures are forgotten. -/
def establish (i : Informer) : Informer × List Note :=
  if i.established then (i, [])
  else
    let recovered :=
      if i.failures ≠ 0 || i.state ≠ .watching then
        [.info component "informer_recovered"
          [("scope", .text i.key), ("after_failures", .int i.failures)]]
      else []
    ({ i with established := true, failures := 0, state := .watching },
      recovered ++ [.stale i.key false])

/-- Counts a failure and says how long to pause. -/
def countFailure (i : Informer) (fault : Fault) : Informer × List Note × Except Fault Float :=
  let failures := i.failures + 1
  let counted := .count (.watchFailures i.rid.kindText)
  let fields : Fields :=
    [("scope", .text i.key), ("failures", .int failures), ("error", .text fault.message)]
  let delay := backoffDelay i.config failures
  if (failures : Int) ≥ i.config.staleThreshold && i.state ≠ .stale then
    ({ i with failures := failures, state := .stale },
      [counted, .stale i.key true, .warning component "cache_stale" fields], delay)
  else
    ({ i with failures := failures },
      [counted, .info component "watch_resubscribe_failed" fields], delay)

/-- The next round: a listing if one is due, else a watch from the last version. -/
def proceed (i : Informer) (notes : List Note) : Reaction :=
  if i.needList then ⟨i, notes, .list⟩
  else ⟨{ i with established := false }, notes, .watch i.version⟩

/-- Counts a failure and pauses; a pause that cannot be computed ends the worker. -/
def pause (i : Informer) (notes : List Note) (fault : Fault) : Reaction :=
  let (i, counted, delay) := i.countFailure fault
  match delay with
  | .ok d => ⟨i, notes ++ counted, .sleep d⟩
  | .error e => ⟨i, notes ++ counted, .crash e⟩

/-- Reacts to a failure that asks for a new listing. -/
def recover (i : Informer) (notes : List Note) (fault : Fault) : Reaction :=
  let i := { i with needList := true }
  if fault.isGone then
    i.proceed (notes ++
      [.info component "watch_resource_version_expired" [("scope", .text i.key)]])
  else if fault.isTransport then i.pause notes fault
  else
    i.pause (notes ++ [.error component "informer_unexpected_error"
      [("scope", .text i.key), ("error", .text fault.message)]]) fault

/-- The failure of a watch that closed before it was established. -/
def closedEarly : Fault :=
  .transport "watch stream closed before it was established" .null

/-- Takes over a listing. -/
def relist (i : Informer) (items : List Value) (version : String) :
    Except Fault (Informer × List Note) := do
  let items ← Partition.ofListing items []
  let listed := .debug component "informer_listed"
    [("scope", .text i.key), ("count", .int items.length), ("resource_version", .text version)]
  return ({ i with
    items := items
    revision := i.revision + 1
    version := version
    synced := true }, [listed])

/-- Applies an event; says whether the partition changed. -/
def applyEvent (i : Informer) (e : WatchEvent) : Informer × List Note × Except Fault Bool :=
  match e.version with
  | .error fault => (i, [], .error fault)
  | .ok version =>
    let i := if version.isEmpty then i else { i with version := version }
    let counted := .count (.watchEvents i.rid.kindText e.type)
    match i.items.apply e version with
    | .error fault => (i, [counted], .error fault)
    | .ok (.changed items) =>
      ({ i with items := items, revision := i.revision + 1 }, [counted], .ok true)
    | .ok (.outOfOrder path current) =>
      (i, [counted, .debug component "watch_event_out_of_order"
        [("scope", .text i.key), ("path", .text path), ("incoming", .text version),
          ("current", .text current)]], .ok false)
    | .ok .ignored =>
      (i, [counted, .debug component "watch_event_ignored"
        [("scope", .text i.key), ("type", .text e.type)]], .ok false)
    | .ok _ => (i, [counted], .ok false)

/-- The worker's reaction to what came of its last command. -/
def react (i : Informer) : Signal → Reaction
  | .started => { i with needList := true }.proceed []
  | .listed items version =>
    match i.relist items version with
    | .ok (i, notes) => { i with needList := false }.proceed notes
    | .error fault => i.recover [] fault
  | .listFailed fault => i.recover [] fault
  | .event e =>
    let (i, established) := i.establish
    let (i, applied, changed) := i.applyEvent e
    match changed with
    | .ok _ => ⟨i, established ++ applied, .next⟩
    | .error fault => i.recover (established ++ applied) fault
  | .ended =>
    if i.established then
      i.proceed [.debug component "watch_stream_ended"
        [("scope", .text i.key), ("resource_version", .text i.version)]]
    else
      let paused := i.pause [] closedEarly
      match paused.command with
      -- a pause that cannot be computed counts as a failure of its own
      | .crash fault => paused.informer.recover paused.notes fault
      | _ => paused
  | .watchFailed fault => i.recover [] fault
  | .woke => i.proceed []

/-- The informer as it is after its worker has been stopped. -/
def stopped (i : Informer) : Informer × List Note :=
  ({ i with state := .unwatched },
    [.stale i.key false, .debug component "informer_stopped" [("scope", .text i.key)]])

end Informer

end LiveCluster
