import LiveCluster.Access.Accessor

/-!
# The registry of accessors

The registry hands out one accessor per kind. The class of an accessor is the one
that was last registered for the kind, or the kind's own class, or the general one.
An accessor is made when it is first asked for and handed out from then on, until
another class is registered for its kind. Accessors are numbered as they are made, so
that two of them can be told apart.
-/

namespace LiveCluster

structure Registry where
  classes : Keyed AccessorClass
  accessors : Keyed (Nat × Accessor) := []
  /-- How many accessors were made. -/
  made : Nat := 0
  tailer : TailConfig := {}
  deriving Inhabited

namespace Registry

def component : String := "dao.registry"

/-- The classes of the kinds that have one of their own. -/
def ownClasses : Keyed AccessorClass :=
  [(ResourceId.pods.kindText, .typed .pod),
   (ResourceId.deployments.kindText, .typed .deployment),
   (ResourceId.daemonSets.kindText, .typed .daemonSet),
   (ResourceId.statefulSets.kindText, .typed .statefulSet),
   (ResourceId.replicaSets.kindText, .typed .replicaSet),
   (ResourceId.jobs.kindText, .typed .job)]

/-- A registry in which nothing has been registered, for accessors that tail as
configured. -/
def new (tailer : TailConfig) : Registry :=
  { classes := ownClasses, tailer := tailer }

/-- Registers a class for a kind; an accessor that was handed out for it is no more. -/
def register (r : Registry) (rid : ResourceId) (c : AccessorClass) : Registry :=
  { r with
    classes := r.classes.set rid.kindText c
    accessors := r.accessors.erase rid.kindText }

/-- The class of the accessors of a kind. -/
def classOf (r : Registry) (rid : ResourceId) : AccessorClass :=
  (r.classes.get? rid.kindText).getD .generic

/-- The accessor of a kind, with its number. -/
def accessor (r : Registry) (rid : ResourceId) : Registry × (Nat × Accessor) × List Note :=
  match r.accessors.get? rid.kindText with
  | some found => (r, found, [])
  | none =>
    let made : Nat × Accessor :=
      (r.made, { rid := rid.kindOnly, accessorClass := r.classOf rid, tailer := some r.tailer })
    ({ r with
        accessors := r.accessors.set rid.kindText made
        made := r.made + 1 },
      made,
      [.debug component "accessor_created"
        [("resource", .text rid.kindText), ("accessor", .text made.2.accessorClass.name)]])

end Registry

end LiveCluster
