/-!
# Configuration

What can be configured, with the values that hold when nothing is said: the
connection to the cluster, the watching of caches, the tailing of logs, and the
program's own log. Times are in seconds.
-/

namespace LiveCluster

structure ConnectionConfig where
  kubeconfig : String := ""
  context : String := ""
  requestTimeout : Int := 30
  deriving Repr, Inhabited

structure WatchConfig where
  backoffBase : Float := 0.5
  backoffMax : Float := 30.0
  staleThreshold : Int := 3
  watchTimeout : Int := 300
  syncTimeout : Float := 10.0
  /-- How long a watch has to stay open to count as established without an event. -/
  establishedAfter : Float := 5.0
  deriving Repr, Inhabited

structure TailConfig where
  sinkSize : Int := 1000
  tailLines : Int := 100
  deriving Repr, Inhabited

structure LogConfig where
  level : String := "info"
  format : String := "json"
  deriving Repr, Inhabited

structure Config where
  connection : ConnectionConfig := {}
  watch : WatchConfig := {}
  tail : TailConfig := {}
  log : LogConfig := {}
  deriving Repr, Inhabited

end LiveCluster
