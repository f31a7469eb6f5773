import LiveCluster.Simulation.World

/-!
# Scopes

A factory keeps one informer per scope that was asked for. A scope is a kind in a
namespace, or in all of them; a kind without namespaces has one scope. A namespace is
served by its own informer if there is one, and else by the one of all namespaces if
there is one, so that no object is watched twice without need. Reading a scope that
nothing serves starts a watch and finds nothing yet.
-/

namespace LiveCluster.Simulation

/-- The fault of starting a worker where no task runs. -/
def noLoop : Fault := .badState (.stated "no running event loop")

namespace World

def factory (w : World) (f : FactoryId) : Factory :=
  (w.factories[f]?).getD default

def setFactory (w : World) (f : FactoryId) (x : Factory) : World :=
  { w with factories := w.factories.set f x }

/-- The namespace of a kind's scope. -/
def scopeNamespace (w : World) (rid : ResourceId) (ns : String) : String :=
  Forward.scopeNamespace (w.cluster.namespaced rid) ns

/-- The informer that serves a scope. -/
def lookup (w : World) (f : FactoryId) (rid : ResourceId) (ns : String) : Option InformerId :=
  let ns := w.scopeNamespace rid ns
  let informers := (w.factory f).informers
  match informers.get? (rid.scopeKey ns) with
  | some i => some i
  | none => if ns.isEmpty then none else informers.get? (rid.scopeKey "")

/-- Starts the worker of an informer, unless it runs. -/
def startWorker (w : World) (i : InformerId) : World :=
  if w.isRunning i then w
  else
    let x := w.informer i
    let (w, t) := w.spawn (.worker i (.signalled .started))
    w.setInformer i { x with cache := { x.cache with state := .watching }, worker := some t }

/-- Makes the informer of a scope. -/
def addInformer (w : World) (f : FactoryId) (rid : ResourceId) (ns : String) :
    World × InformerId :=
  let x := w.factory f
  let cache := Informer.new rid ns x.config
  let i := w.informers.length
  let w := { w with informers := w.informers ++ [({ cache := cache } : Watched)] }
  let w := w.setFactory f { x with informers := x.informers.set cache.key i }
  (w.tell (.info Forward.component "watch_started" [("scope", .text cache.key)]), i)

/-- The informer that serves a scope; it is made if there is none. -/
def findInformer (w : World) (f : FactoryId) (rid : ResourceId) (ns : String) :
    World × InformerId :=
  match w.lookup f rid ns with
  | some i => (w, i)
  | none => w.addInformer f rid (w.scopeNamespace rid ns)

/-- Sees to it that a scope is watched. `inLoop` says whether tasks can be made. -/
def ensureWatch (w : World) (f : FactoryId) (rid : ResourceId) (ns : String)
    (inLoop : Bool := true) : World × Except Fault InformerId :=
  if (w.factory f).stopped then (w, .error (.badState .factoryStopped))
  else
    let (w, i) := w.findInformer f rid ns
    if inLoop then (w.startWorker i, .ok i)
    else if w.isRunning i then (w, .ok i)
    else
      let x := w.informer i
      (w.setInformer i { x with cache := { x.cache with state := .watching } },
        .error noLoop)

/-- Starts a watch on the first read of a scope, where that is possible. -/
def ensureLazily (w : World) (f : FactoryId) (rid : ResourceId) (ns : String)
    (inLoop : Bool) : World :=
  if (w.factory f).stopped || !inLoop then w else (w.ensureWatch f rid ns).1

/-- The cached object at a path. -/
def get (w : World) (f : FactoryId) (rid : ResourceId) (path : String)
    (inLoop : Bool := true) : World × Option Snapshot :=
  let ns := (Path.split path).1
  match w.lookup f rid ns with
  | some i => (w, (w.informer i).cache.items.get? path)
  | none => (w.ensureLazily f rid ns inLoop, none)

/-- The cached objects of a scope, in cache order. -/
def list (w : World) (f : FactoryId) (rid : ResourceId) (ns : String)
    (selector : Option Selector) (inLoop : Bool := true) : World × List Snapshot :=
  let ns := w.scopeNamespace rid ns
  match w.lookup f rid ns with
  | some i => (w, (w.informer i).cache.items.select ns selector)
  | none => (w.ensureLazily f rid ns inLoop, [])

/-- The state of the cache that serves a scope, and its revision. -/
def scopeState (w : World) (f : FactoryId) (rid : ResourceId) (ns : String) :
    CacheState × Nat :=
  match w.lookup f rid ns with
  | some i => ((w.informer i).cache.state, (w.informer i).cache.revision)
  | none => (.unwatched, 0)

/-- The scopes whose workers go on, in the order in which they were first asked for. -/
def activeScopes (w : World) (f : FactoryId) : List String :=
  Keyed.keys ((w.factory f).informers.filter fun (_, i) => w.isRunning i)

/-! ## What readers find -/

variable {w : World} {f : FactoryId} {rid : ResourceId} {ns path : String} {inLoop : Bool}
  {o : Snapshot}

theorem get_eq_some_iff : (w.get f rid path inLoop).2 = some o ↔
    ∃ i, w.lookup f rid (Path.split path).1 = some i ∧
      (w.informer i).cache.items.get? path = some o := by
  unfold get
  dsimp only
  split
  · next i hi => simp [hi]
  · next hnone => simp [hnone]

/-- Once the namespace of a scope was found, finding it again makes no difference. -/
theorem lookup_scopeNamespace (w : World) (f : FactoryId) (rid : ResourceId) (ns : String) :
    w.lookup f rid (w.scopeNamespace rid ns) = w.lookup f rid ns := by
  have hsame : w.scopeNamespace rid (w.scopeNamespace rid ns) = w.scopeNamespace rid ns := by
    unfold scopeNamespace Forward.scopeNamespace
    split <;> rfl
  unfold lookup
  rw [hsame]

theorem mem_list_iff {selector : Option Selector} : o ∈ (w.list f rid ns selector inLoop).2 ↔
    ∃ i, w.lookup f rid ns = some i ∧ o ∈ (w.informer i).cache.items.entries ∧
      Partition.belongs (w.scopeNamespace rid ns) selector o = true := by
  unfold list
  dsimp only
  rw [lookup_scopeNamespace]
  split
  · next i hi => simp [hi, Partition.select]
  · next hnone => simp [hnone]

end World

end LiveCluster.Simulation
