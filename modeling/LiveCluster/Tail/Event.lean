import LiveCluster.Fault

/-!
# Log events

A tail request says which object's logs are wanted and how. What it delivers is a
sequence of events, each from one container: a line, or the failure that ended the
container's stream. Where several pods are tailed together, a shown line says where
it comes from.
-/

namespace LiveCluster

structure TailOptions where
  /-- The path of the object whose logs are wanted. -/
  path : String := ""
  container : Option String := none
  sinceSeconds : Option Int := none
  tailLines : Option Int := none
  previous : Bool := false
  timestamps : Bool := false
  /-- Whether more than one pod is tailed. -/
  multiPods : Bool := false
  deriving Repr, Inhabited

inductive LogEvent where
  | line (pod container text : String) (multiPods : Bool)
  | failure (pod container : String) (fault : Fault)
  deriving Inhabited

/-- The event as a user sees it. -/
def LogEvent.render : LogEvent → String
  | .line pod container text multiPods =>
    if multiPods then pod ++ ":" ++ container ++ " " ++ text else text
  | .failure pod container fault =>
    pod ++ ":" ++ container ++ " log stream failed: " ++ fault.message

end LiveCluster
