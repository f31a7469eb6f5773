import LiveCluster.Log.Record
import LiveCluster.Sorting

/-!
# Measures

The running totals of every counter that was ever stepped, and the gauge of every
scope for which it was ever set. The count of stream errors has no labels and is
there from the start.
-/

namespace LiveCluster

namespace Counter

def name : Counter → String
  | .watchEvents .. => "kubedeck_watch_events_total"
  | .watchFailures _ => "kubedeck_watch_failures_total"
  | .mutations .. => "kubedeck_mutations_total"
  | .streamErrors => "kubedeck_log_stream_errors_total"

def labels : Counter → Keyed String
  | .watchEvents resource type => [("resource", resource), ("type", type)]
  | .watchFailures resource => [("resource", resource)]
  | .mutations verb resource outcome =>
    [("outcome", outcome), ("resource", resource), ("verb", verb)]
  | .streamErrors => []

end Counter

structure Measures where
  counters : List (Counter × Nat) := [(.streamErrors, 0)]
  stale : Keyed Bool := []
  deriving Inhabited

namespace Measures

/-- Steps a counter in a list of totals. -/
def bump (c : Counter) : List (Counter × Nat) → List (Counter × Nat)
  | [] => [(c, 1)]
  | (d, n) :: rest => if d = c then (d, n + 1) :: rest else (d, n) :: bump c rest

def count (m : Measures) (c : Counter) : Measures :=
  { m with counters := bump c m.counters }

def setStale (m : Measures) (scope : String) (on : Bool) : Measures :=
  { m with stale := m.stale.set scope on }

/-- A reading: the name of the measure, its labels, and its value. -/
abbrev Sample := String × Keyed String × Nat

/-- The order of readings: by name, then by labels. -/
def Sample.le (a b : Sample) : Bool :=
  let key (s : Sample) : List String := s.1 :: s.2.1.flatMap fun (k, v) => [k, v]
  !(key b).lex (key a)

/-- Every reading, in order. -/
def samples (m : Measures) : List Sample :=
  let totals := m.counters.map fun (c, n) => (c.name, c.labels, n)
  let gauges := m.stale.map fun (scope, on) =>
    ("kubedeck_cache_stale", [("scope", scope)], if on then 1 else 0)
  sortBy Sample.le (totals ++ gauges)

end Measures

end LiveCluster
