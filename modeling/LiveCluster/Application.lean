import LiveCluster.Config.Basic
import LiveCluster.Fault
import LiveCluster.Log.Setup
import LiveCluster.Tail.Sink

/-!
# The application

The application owns the components and their lives. It starts them in the order in
which they need each other: configuration, log, connection, and then the caches with
all that stands on them. It stops them in the reverse order, and a component that
fails to stop, or takes too long, keeps none of the others from being stopped.

A connection that was handed in is used and never closed. One that the application
made is closed when it stops, and the next start makes another.

The application is a state that reacts to signals. A reaction gives records for the
log and the next command; the signal that follows says what came of it.
-/

namespace LiveCluster

/-- A connection, by its number. -/
abbrev ClientId := Nat

/-- The connection of an application, the caches that it has built, and the accessors that stand
on them, by their numbers. -/
structure Application where
  config : Option Config := none
  ownsClient : Bool := true
  client : Option ClientId := none
  /-- The class of its connections: of the one that was handed in, or else of those it makes. -/
  clientClass : String := ""
  factory : Option Nat := none
  registry : Option Nat := none
  running : Bool := false
  /-- The log of the run, from the start to the end of the stop. -/
  log : Option LogSetup := none
  deriving Inhabited

namespace Application

/-- A new application, with a configuration and a connection if these were handed in. -/
def new (config : Option Config) (injected : Option ClientId) (clientClass : String) :
    Application :=
  { config := config
    ownsClient := injected.isNone
    client := injected
    clientClass := clientClass }

def component : String := "app"

def version : String := "0.3.0"

/-- How long a component may take to stop, in seconds. -/
def grace : Nat := 15

/-- What the application wants done next. -/
inductive Command where
  | load
  | connect (config : ConnectionConfig)
  | build (client : ClientId) (config : Config)
  | stopFactory (factory : Nat)
  | closeClient (client : ClientId)
  | finish (result : Except Fault Unit)

/-- What came of stopping a component. -/
inductive Outcome where
  | completed
  | raised (fault : Fault)
  | timedOut

/-- What has happened. -/
inductive Signal where
  | start
  | loaded (result : Except Fault Config)
  | connected (result : Except Fault ClientId)
  | built (factory registry : Nat)
  | stop
  | factoryStopped (outcome : Outcome)
  | clientClosed (outcome : Outcome)

structure Reaction where
  app : Application
  /-- The log that the records go to. -/
  log : Option LogSetup
  records : List LogRecord
  command : Command

/-- A record about the application itself. -/
def about (level : Level) (event : String) (fields : Fields := []) : LogRecord :=
  ⟨level, component, event, fields⟩

/-- The record about a component that did not stop as it should. -/
def complaint (name : String) : Outcome → List LogRecord
  | .completed => []
  | .raised fault => [about .error "component stop raised an error"
      [("component", .text name), ("error", .text fault.message)]]
  | .timedOut => [about .warning "component stop timed out"
      [("component", .text name), ("timeout", .int grace)]]

/-- Reacts without anything to log. -/
def silently (app : Application) (command : Command) : Reaction :=
  ⟨app, app.log, [], command⟩

/-- Begins the run with a configuration. -/
def begin (app : Application) (config : Config) : Reaction :=
  match LogSetup.ofNames config.log.level config.log.format with
  | .error fault => app.silently (.finish (.error fault))
  | .ok setup =>
    let app := { app with log := some setup }
    let starting := about .info "kubedeck starting" [("version", .text version)]
    match app.client with
    | some client =>
      ⟨app, app.log, [starting, about .debug "using injected cluster client"
        [("client", .text app.clientClass)]], .build client config⟩
    | none =>
      ⟨app, app.log, [starting, about .debug "starting k8s client"], .connect config.connection⟩

/-- The run is over. -/
def conclude (app : Application) (records : List LogRecord) : Reaction :=
  ⟨{ app with log := none }, app.log, records ++ [about .info "kubedeck stopped"],
    .finish (.ok ())⟩

/-- The caches are stopped; a connection of the application's own is closed next. -/
def disconnect (app : Application) (records : List LogRecord) : Reaction :=
  let app := { app with factory := none }
  match app.client with
  | some client =>
    if app.ownsClient then ⟨app, app.log, records, .closeClient client⟩
    else app.conclude records
  | none => app.conclude records

def react (app : Application) : Signal → Reaction
  | .start =>
    if app.running then app.silently (.finish (.ok ()))
    else match app.config with
      | none => app.silently .load
      | some config => app.begin config
  | .loaded (.error fault) => app.silently (.finish (.error fault))
  | .loaded (.ok config) => { app with config := some config }.begin config
  | .connected (.error fault) =>
    app.silently (.finish (.error (.startFailed "k8s_client" fault)))
  | .connected (.ok client) =>
    { app with client := some client }.silently (.build client (app.config.getD {}))
  | .built factory registry =>
    let app := { app with factory := some factory, registry := some registry, running := true }
    ⟨app, app.log, [about .info "kubedeck started"], .finish (.ok ())⟩
  | .stop =>
    if !app.running && app.log.isNone then app.silently (.finish (.ok ()))
    else
      let stopping := about .info "kubedeck shutting down"
      let app := { app with running := false, registry := none }
      match app.factory with
      | some factory => ⟨app, app.log, [stopping], .stopFactory factory⟩
      | none => app.disconnect [stopping]
  | .factoryStopped outcome => app.disconnect (complaint "factory" outcome)
  | .clientClosed outcome =>
    { app with client := none }.conclude (complaint "k8s_client" outcome)

/-- The fault of asking for what only a running application has. -/
def notStarted : Fault := .badState .notStarted

/-- The caches of a running application. -/
def caches (app : Application) : Except Fault Nat :=
  match app.factory with
  | some factory => .ok factory
  | none => .error notStarted

/-- The accessors of a running application. -/
def accessors (app : Application) : Except Fault Nat :=
  match app.registry with
  | some registry => .ok registry
  | none => .error notStarted

/-- The room of the sinks that the application makes. -/
def sinkSize (app : Application) : Int :=
  match app.config with
  | some config => config.tail.sinkSize
  | none => Sink.defaultLimit

end Application

end LiveCluster
