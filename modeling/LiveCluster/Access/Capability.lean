import LiveCluster.Schema.Kind

/-!
# Capabilities

What can be done with the objects of a kind beyond looking at them and deleting them
plainly. A class of accessors declares its capabilities once and for all, and callers
ask for them instead of trying. Pods and workloads can be deleted with a policy for
what depends on them and can have their logs tailed; workloads can name a pod that
stands for them; and the workloads whose controller replaces pods can be restarted.
-/

namespace LiveCluster

inductive Capability where
  | cascadeDelete
  | resolvePod
  | restart
  | tailLogs
  deriving Repr, DecidableEq, Inhabited

def Capability.name : Capability → String
  | .cascadeDelete => "cascade_delete"
  | .resolvePod => "resolve_pod"
  | .restart => "restart"
  | .tailLogs => "tail_logs"

/-- What becomes of the objects that depend on a deleted one. -/
inductive Propagation where
  | orphan
  | background
  | foreground
  deriving Repr, DecidableEq, Inhabited

def Propagation.name : Propagation → String
  | .orphan => "Orphan"
  | .background => "Background"
  | .foreground => "Foreground"

/-- Reads the name of a policy. -/
def Propagation.ofName (name : String) : Except Fault Propagation :=
  match [Propagation.orphan, .background, .foreground].find? (·.name == name) with
  | some p => .ok p
  | none => .error (.badArgument (.propagation name))

structure DeleteOptions where
  propagation : Option Propagation := none
  graceSeconds : Option Int := none
  deriving Repr, Inhabited

/-- The classes of accessors: one for kinds about which nothing special is known, and
one for each kind whose objects are decoded. -/
inductive AccessorClass where
  | generic
  | typed (kind : Kind)
  deriving Repr, DecidableEq, Inhabited

namespace AccessorClass

def name : AccessorClass → String
  | .generic => "Generic"
  | .typed kind => kind.word

def all : List AccessorClass :=
  .generic :: Kind.all.map .typed

/-- The capabilities of a class, by name. -/
def capabilities : AccessorClass → List Capability
  | .generic => []
  | .typed .pod => [.cascadeDelete, .tailLogs]
  | .typed .replicaSet | .typed .job => [.cascadeDelete, .resolvePod, .tailLogs]
  | .typed _ => [.cascadeDelete, .resolvePod, .restart, .tailLogs]

def supports (c : AccessorClass) (capability : Capability) : Bool :=
  c.capabilities.contains capability

/-- The kind that a class decodes its objects as. -/
def kind? : AccessorClass → Option Kind
  | .generic => none
  | .typed kind => some kind

/-- The kind that a class decodes its objects as, if its objects own pods. -/
def workload? : AccessorClass → Option Kind
  | .typed kind => if kind.isWorkload then some kind else none
  | .generic => none

end AccessorClass

end LiveCluster
