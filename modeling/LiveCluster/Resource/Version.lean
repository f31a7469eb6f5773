import LiveCluster.Number.Numeral

/-!
# Resource versions

The cluster stamps every state of an object with a version. Versions are opaque
texts, but in practice they are whole numbers, and then the greater one is the
later one. Where either is missing or no number, no order is known, and the
incoming state is taken.
-/

namespace LiveCluster

/-- Whether a state with version `incoming` may replace one with version `current`. -/
def newerOrEqual (incoming current : String) : Bool :=
  if incoming.isEmpty || current.isEmpty then true
  else match Number.parseInt incoming, Number.parseInt current with
    | .ok m, .ok n => decide (n ≤ m)
    | _, _ => true

end LiveCluster
