import LiveCluster.Log.Record
import LiveCluster.Resource.Version
import LiveCluster.Selector
import LiveCluster.Snapshot

/-!
# Cache partitions

The partition of a scope maps the path of every object in it to the object's
snapshot, in the order in which the objects came to be known. It changes in two
ways. A listing replaces it as a whole. An event changes one entry, unless it is
older than what is there, concerns nothing that is there, or is of a type that
changes nothing.
-/

namespace LiveCluster

/-- One change pushed by the cluster. -/
structure WatchEvent where
  type : String
  object : Value
  deriving Inhabited

/-- The version that an event's object carries. -/
def WatchEvent.version (e : WatchEvent) : Except Fault String := do
  return fieldText (← metadataOf e.object) "resourceVersion"

/-- Objects of a scope by path. -/
abbrev Partition := Keyed Snapshot

namespace Partition

/-- The partition of a listing; unnamed objects are left out, and of two objects at
one path the later one is kept. -/
def ofListing : List Value → Partition → Except Fault Partition
  | [], p => .ok p
  | raw :: rest, p => do
    let s ← Snapshot.ofRaw raw
    ofListing rest (if s.name.isEmpty then p else p.set s.path s)

/-- Whether an object lives in a namespace, or in any where none is given, and a selector
selects it, where one is given. -/
def belongs (ns : String) (selector : Option Selector) (object : Snapshot) : Bool :=
  (ns.isEmpty || object.ns == ns) &&
    match selector with
    | some s => s.selects object.labels
    | none => true

theorem belongs_none_iff {ns : String} {object : Snapshot} :
    belongs ns none object = true ↔ ns = "" ∨ object.ns = ns := by
  simp [belongs]

/-- The objects of a namespace that a selector selects, in their order. -/
def select (p : Partition) (ns : String) (selector : Option Selector) : List Snapshot :=
  p.entries.filter (belongs ns selector)

/-- What an event does to a partition. -/
inductive Effect where
  | changed (partition : Partition)
  | bookmark
  | unnamed
  | outOfOrder (path current : String)
  | absent
  | ignored

/-- Applies an event whose object carries the given version. -/
def apply (p : Partition) (e : WatchEvent) (version : String) : Except Fault Effect := do
  if e.type = "BOOKMARK" then return .bookmark
  let metadata ← metadataOf e.object
  let name := fieldText metadata "name"
  if name.isEmpty then return .unnamed
  let path := Path.join (fieldText metadata "namespace") name
  match p.get? path with
  | some current =>
    if !newerOrEqual version current.version then
      return .outOfOrder path current.version
  | none => pure ()
  if e.type = "ADDED" || e.type = "MODIFIED" then
    return .changed (p.set path (← Snapshot.ofRaw e.object))
  else if e.type = "DELETED" then
    return if p.has path then .changed (p.erase path) else .absent
  else return .ignored

end Partition

end LiveCluster
