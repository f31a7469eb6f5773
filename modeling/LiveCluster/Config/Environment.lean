import LiveCluster.Config.Basic
import LiveCluster.Fault
import LiveCluster.Number.FloatNumeral
import LiveCluster.Text.Case

/-!
# Configuration from the environment

Every setting has a variable, a default and, for numbers, two bounds to which the
value is clamped: first from below, then from above. The longest backoff is bounded
from below by the shortest. Settings are read in a fixed order, and the first one
that cannot be read is the one reported.

A clamp keeps its value unless the bound is strictly better, so a value that no
comparison holds for passes through it.
-/

namespace LiveCluster

/-- Variables and their texts. -/
abbrev Environment := Keyed String

namespace Environment

/-- The text of a setting. -/
def setting (env : Environment) (key default : String) : String :=
  (env.get? ("KUBEDECK_" ++ key)).getD default

/-- A whole number between two bounds. -/
def clampInt (low high n : Int) : Int :=
  let n := if low > n then low else n
  if high < n then high else n

/-- A floating-point number between two bounds. -/
def clampFloat (low high x : Float) : Float :=
  let x := if low > x then low else x
  if high < x then high else x

/-- A whole-number setting. -/
def intSetting (env : Environment) (key : String) (default low high : Int) :
    Except Fault Int :=
  let text := env.setting key (toString default)
  match Number.parseInt text with
  | .ok n => .ok (clampInt low high n)
  | .error .malformed => .error (.badArgument (.integer text))
  | .error (.tooLong digits) => .error (.badArgument (.integerTooLong digits))

/-- A floating-point setting. -/
def floatSetting (env : Environment) (key : String) (default low high : Float) :
    Except Fault Float :=
  match env.get? ("KUBEDECK_" ++ key) with
  | none => .ok (clampFloat low high default)
  | some text =>
    match Number.parseFloat? text with
    | some x => .ok (clampFloat low high x)
    | none => .error (.badArgument (.float text))

/-- The names of log levels that may be configured. -/
def logLevels : List String := ["debug", "info", "warning", "error"]

/-- The names of log formats. -/
def logFormats : List String := ["json", "console"]

/-- A setting that is one of a few words, whatever its case. -/
def wordSetting (env : Environment) (key default : String) (words : List String)
    (refuse : String → BadArgument) : Except Fault String :=
  let text := env.setting key default
  let word := Text.lower text
  if words.contains word then .ok word else .error (.badArgument (refuse text))

/-- The whole configuration. -/
def config (env : Environment) : Except Fault Config := do
  let backoffBase ← env.floatSetting "WATCH_BACKOFF_BASE" 0.5 0.0 60.0
  let requestTimeout ← env.intSetting "REQUEST_TIMEOUT" 30 1 300
  let backoffMax ← env.floatSetting "WATCH_BACKOFF_MAX" 30.0 backoffBase 600.0
  let staleThreshold ← env.intSetting "WATCH_STALE_THRESHOLD" 3 1 100
  let watchTimeout ← env.intSetting "WATCH_TIMEOUT" 300 10 3600
  let syncTimeout ← env.floatSetting "SYNC_TIMEOUT" 10.0 0.1 300.0
  let establishedAfter ← env.floatSetting "WATCH_ESTABLISHED_AFTER" 5.0 0.0 600.0
  let sinkSize ← env.intSetting "LOG_SINK_SIZE" 1000 1 100000
  let tailLines ← env.intSetting "LOG_TAIL_LINES" 100 0 100000
  let level ← env.wordSetting "LOG_LEVEL" "info" logLevels .logLevel
  let format ← env.wordSetting "LOG_FORMAT" "json" logFormats .logFormat
  return {
    connection := {
      kubeconfig := env.setting "KUBECONFIG" ""
      context := env.setting "CONTEXT" ""
      requestTimeout := requestTimeout }
    watch := {
      backoffBase := backoffBase
      backoffMax := backoffMax
      staleThreshold := staleThreshold
      watchTimeout := watchTimeout
      syncTimeout := syncTimeout
      establishedAfter := establishedAfter }
    tail := { sinkSize := sinkSize, tailLines := tailLines }
    log := { level := level, format := format } }

end Environment

end LiveCluster
