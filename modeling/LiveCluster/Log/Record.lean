import LiveCluster.Value

/-!
# Log records and measures

Components do not write logs or count anything themselves: they hand out notes,
and whoever runs them decides where these go. A note is a log record, a step of a
counter, or a setting of the gauge that shows whether a cache is stale.
-/

namespace LiveCluster

inductive Level where
  | debug
  | info
  | warning
  | error
  | critical
  deriving Repr, DecidableEq, Inhabited

namespace Level

def name : Level → String
  | .debug => "debug"
  | .info => "info"
  | .warning => "warning"
  | .error => "error"
  | .critical => "critical"

/-- The severity, for comparison with a threshold. -/
def rank : Level → Nat
  | .debug => 10
  | .info => 20
  | .warning => 30
  | .error => 40
  | .critical => 50

end Level

/-- One event of one component, with its circumstances. -/
structure LogRecord where
  level : Level
  component : String
  event : String
  fields : Fields := []
  deriving Inhabited

/-- What is counted. -/
inductive Counter where
  | watchEvents (resource type : String)
  | watchFailures (resource : String)
  | mutations (verb resource outcome : String)
  | streamErrors
  deriving Repr, DecidableEq

inductive Note where
  | log (record : LogRecord)
  | count (counter : Counter)
  | stale (scope : String) (on : Bool)

namespace Note

def debug (component event : String) (fields : Fields) : Note :=
  .log ⟨.debug, component, event, fields⟩

def info (component event : String) (fields : Fields) : Note :=
  .log ⟨.info, component, event, fields⟩

def warning (component event : String) (fields : Fields) : Note :=
  .log ⟨.warning, component, event, fields⟩

def error (component event : String) (fields : Fields) : Note :=
  .log ⟨.error, component, event, fields⟩

end Note

end LiveCluster
