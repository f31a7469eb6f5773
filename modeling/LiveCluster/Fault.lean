import LiveCluster.Value

/-!
# What can go wrong

A fault records its cause; the wording is in one place, `Fault.message`. Faults
fall into three groups. Those that callers are meant to tell apart (an object that
is not cached, a permission denied, a transport failure with its status) carry
what the caller needs. Those that say an argument or a state is unusable carry
the reason. The rest come from outside, through the transport, and are passed on
with the words they brought.
-/

namespace LiveCluster

/-- What is wrong with a value at some place of an object that is being decoded. -/
inductive ProblemKind where
  | missing
  | stringType
  | intType
  | intParsing
  | intParsingSize
  | intFromFloat
  | finiteNumber
  | boolType
  | boolParsing
  | dictType
  | listType
  | modelType
  deriving Repr, DecidableEq

/-- The stable code of a kind of problem. -/
def ProblemKind.code : ProblemKind → String
  | .missing => "missing"
  | .stringType => "string_type"
  | .intType => "int_type"
  | .intParsing => "int_parsing"
  | .intParsingSize => "int_parsing_size"
  | .intFromFloat => "int_from_float"
  | .finiteNumber => "finite_number"
  | .boolType => "bool_type"
  | .boolParsing => "bool_parsing"
  | .dictType => "dict_type"
  | .listType => "list_type"
  | .modelType => "model_type"

/-- A problem and the path to the value that has it. -/
structure Problem where
  path : List String
  kind : ProblemKind
  deriving Repr, DecidableEq

/-- The path of a problem in one text. -/
def Problem.place (p : Problem) : String :=
  String.intercalate "." p.path

/-- Why an argument cannot be used. -/
inductive BadArgument where
  | resourceId (text : String)
  | selectorTerm (text : String)
  | integer (text : String)
  | integerTooLong (digits : Nat)
  | float (text : String)
  | logLevel (text : String)
  | logFormat (text : String)
  | propagation (text : String)
  | verb (text : String)
  | cascade (resource : String)
  | pairLength (index length : Nat)
  | stated (message : String)
  deriving Repr, DecidableEq

/-- Why a component cannot be used now. -/
inductive BadState where
  | factoryStopped
  | noTailer (owner : String)
  | notStarted
  | stated (message : String)
  deriving Repr, DecidableEq

/-- Why a value does not fit where it stands. -/
inductive Misfit where
  | noAttribute (kind member : String)
  | notIterable (kind : String)
  | notPair (index : Nat)
  | unhashable (kind : String)
  | noEntry (key : String)
  | floatRange
  | dateRange
  deriving Repr, DecidableEq

/-- Why an object cannot be rolled out. -/
inductive RestartRefusal where
  | paused (deployment : String)
  | onDelete (kind name : String)
  deriving Repr, DecidableEq

/-- The kinds of fault that carry nothing but a message of their maker. -/
inductive PlainFault where
  | general
  | decode
  | staleCache
  | restart
  | sinkClosed
  deriving Repr, DecidableEq

inductive Fault where
  | notFound (resource path : String)
  | forbidden (verb resource ns : String)
  | noSelector (resource path : String)
  | undecodable (kind path : String) (problems : List Problem)
  | transport (message : String) (status : Value)
  | staleCache (resource ns : String)
  | restartRefused (why : RestartRefusal)
  | sinkClosed
  | plain (kind : PlainFault) (message : String)
  | invalid (problems : List Problem)
  | badArgument (why : BadArgument)
  | badState (why : BadState)
  | misfit (why : Misfit)
  | startFailed (component : String) (cause : Fault)
  | api (status reason : Value)
  | client (message : String)
  | timedOut
  | configuration (message : String)
  deriving Inhabited

/-- The first `n` characters of a text. -/
def firstChars (n : Nat) (s : String) : String :=
  String.ofList (s.toList.take n)

def BadArgument.message : BadArgument → String
  | .resourceId text => "invalid resource identifier: " ++ Text.quoted text
  | .selectorTerm text => "invalid selector term: " ++ Text.quoted text
  | .integer text =>
    "invalid literal for int() with base 10: " ++ firstChars 200 (Text.quoted text)
  | .integerTooLong digits =>
    "Exceeds the limit (4300 digits) for integer string conversion: value has "
      ++ toString digits ++ " digits; use sys.set_int_max_str_digits() to increase the limit"
  | .float text => "could not convert string to float: " ++ Text.quoted text
  | .logLevel text => "Invalid log level: " ++ text
  | .logFormat text =>
    "Invalid log format: " ++ text ++ ". Must be one of ('json', 'console')"
  | .propagation text => Text.quoted text ++ " is not a valid Propagation"
  | .verb text => Text.quoted text ++ " is not a valid Verb"
  | .cascade resource => resource ++ " does not support cascading deletion"
  | .pairLength index length =>
    "dictionary update sequence element #" ++ toString index ++ " has length "
      ++ toString length ++ "; 2 is required"
  | .stated message => message

def BadState.message : BadState → String
  | .factoryStopped => "factory is stopped"
  | .noTailer owner => owner ++ " accessor was built without a log tailer"
  | .notStarted => "kubedeck is not started"
  | .stated message => message

def Misfit.message : Misfit → String
  | .noAttribute kind member =>
    Text.quoted kind ++ " object has no attribute " ++ Text.quoted member
  | .notIterable kind => Text.quoted kind ++ " object is not iterable"
  | .notPair index =>
    "cannot convert dictionary update sequence element #" ++ toString index
      ++ " to a sequence"
  | .unhashable kind => "unhashable type: " ++ Text.quoted kind
  | .noEntry key => Text.quoted key
  | .floatRange => "int too large to convert to float"
  | .dateRange => "date value out of range"

def RestartRefusal.message : RestartRefusal → String
  | .paused deployment =>
    "can't restart paused deployment " ++ Text.quoted deployment
      ++ " (run rollout resume first)"
  | .onDelete kind name =>
    "can't restart " ++ kind ++ " " ++ Text.quoted name
      ++ " with the OnDelete update strategy"

namespace Fault

/-- The wording of a fault. -/
def message : Fault → String
  | .notFound resource path => resource ++ " " ++ Text.quoted path ++ " not found"
  | .forbidden verb resource ns =>
    "not authorized to " ++ verb ++ " " ++ resource
      ++ (if ns.isEmpty then "" else " in namespace " ++ Text.quoted ns)
  | .noSelector resource path =>
    "no valid selector found on " ++ resource ++ " " ++ Text.quoted path
  | .undecodable kind path _ =>
    "expecting " ++ kind ++ " resource at " ++ Text.quoted path
  | .transport text _ => text
  | .staleCache resource ns =>
    resource ++ " cache for " ++ (if ns.isEmpty then "all namespaces" else ns)
      ++ " is stale"
  | .restartRefused why => why.message
  | .sinkClosed => "log sink is closed"
  | .plain _ text => text
  | .invalid _ => ""
  | .badArgument why => why.message
  | .badState why => why.message
  | .misfit why => why.message
  | .startFailed component cause =>
    "Component '" ++ component ++ "' failed to start: " ++ cause.message
  | .api status reason =>
    "(" ++ status.asText ++ ")\nReason: " ++ reason.asText ++ "\n"
  | .client text => text
  | .timedOut => ""
  | .configuration text => text

/-- Whether a status is the one of an expired resource version. -/
def goneStatus (status : Value) : Bool :=
  status.same (.int 410)

/-- Whether the fault says that the requested resource version has expired. -/
def isGone : Fault → Bool
  | .transport _ status => goneStatus status
  | _ => false

/-- Whether the fault is a failure of the transport. -/
def isTransport : Fault → Bool
  | .transport .. => true
  | _ => false

/-- Whether the fault belongs to the family that callers are meant to tell apart. -/
def isDomain : Fault → Bool
  | .notFound .. | .forbidden .. | .noSelector .. | .undecodable .. | .transport ..
  | .staleCache .. | .restartRefused .. | .sinkClosed | .plain .. => true
  | _ => false

end Fault

end LiveCluster
