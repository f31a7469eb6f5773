import LiveCluster.Application
import LiveCluster.Proofs.Config.Bounds

/-!
# The course of a call

A call to start or to stop the application goes back and forth between it and its
surroundings: each reaction gives a command, what came of that is the next signal, and
the reaction that finishes the call is the last. What an answer says is open each time, so
the courses of a call are all the ways in which its parts can succeed or fail.

Between two calls an application is at rest: idle, or running with a client. Every course
from there ends at rest again, and `Effect` lists the courses by what they come to.
-/

namespace LiveCluster.Application

/-- The signals that can answer a command. -/
inductive Answers : Command → Signal → Prop
  | load (env : Environment) : Answers .load (.loaded env.config)
  | connect (config : ConnectionConfig) (result : Except Fault ClientId) :
      Answers (.connect config) (.connected result)
  | build (client : ClientId) (config : Config) (factory registry : Nat) :
      Answers (.build client config) (.built factory registry)
  | stopFactory (factory : Nat) (outcome : Outcome) :
      Answers (.stopFactory factory) (.factoryStopped outcome)
  | closeClient (client : ClientId) (outcome : Outcome) :
      Answers (.closeClient client) (.clientClosed outcome)

/-- A command and what came of it. -/
abbrev Exchange := Command × Signal

/-- The courses from a signal on: the exchanges, the application after them, and the result. -/
inductive Course : Application → Signal → List Exchange → Application → Except Fault Unit → Prop
  | finished {app : Application} {s : Signal} {result : Except Fault Unit} :
      (app.react s).command = .finish result → Course app s [] (app.react s).app result
  | answered {app after : Application} {s answer : Signal} {exchanges : List Exchange}
      {result : Except Fault Unit} :
      Answers (app.react s).command answer →
      Course (app.react s).app answer exchanges after result →
      Course app s (((app.react s).command, answer) :: exchanges) after result

variable {app next after : Application} {s : Signal} {command : Command}
  {exchanges : List Exchange} {result ending : Except Fault Unit} {injected : Option ClientId}
  {client : ClientId} {config : Config}

theorem Course.of_finish (h : Course app s exchanges after result)
    (hnext : (app.react s).app = next) (hcommand : (app.react s).command = .finish ending) :
    exchanges = [] ∧ after = next ∧ result = ending := by
  cases h with
  | finished hfinish =>
      rw [hcommand] at hfinish
      cases hfinish
      exact ⟨rfl, hnext, rfl⟩
  | answered hanswer _ =>
      rw [hcommand] at hanswer
      cases hanswer

theorem Course.of_command (h : Course app s exchanges after result)
    (hnext : (app.react s).app = next) (hcommand : (app.react s).command = command)
    (hgoes : ∀ ending, command ≠ .finish ending) :
    ∃ answer rest, exchanges = (command, answer) :: rest ∧ Answers command answer ∧
      Course next answer rest after result := by
  cases h with
  | finished hfinish => exact absurd (hcommand.symm.trans hfinish) (hgoes _)
  | answered hanswer hrest =>
      rw [hcommand] at hanswer ⊢
      rw [hnext] at hrest
      exact ⟨_, _, rfl, hanswer, hrest⟩

/-! ## Every call comes to an end -/

/-- How many answers can still come after a signal. -/
def Signal.distance : Signal → Nat
  | .start => 3
  | .loaded _ | .stop => 2
  | .connected _ | .factoryStopped _ => 1
  | .built .. | .clientClosed _ => 0

/-- How many answers can come to a command and the commands after it. -/
def Command.distance : Command → Nat
  | .load => 3
  | .connect _ | .stopFactory _ => 2
  | .build .. | .closeClient _ => 1
  | .finish _ => 0

theorem Answers.distance_lt {answer : Signal} (h : Answers command answer) :
    answer.distance < command.distance := by
  cases h with
  | load | connect | build | stopFactory | closeClient => exact Nat.lt_succ_self _

theorem distance_begin : (app.begin config).command.distance ≤ 2 := by
  unfold begin
  cases LogSetup.ofNames config.log.level config.log.format with
  | error fault => exact Nat.zero_le _
  | ok setup =>
      dsimp only
      cases app.client with
      | none => exact Nat.le_refl _
      | some _ => exact Nat.le_succ _

theorem distance_disconnect (records : List LogRecord) :
    (app.disconnect records).command.distance ≤ 1 := by
  unfold disconnect
  dsimp only
  split
  · split
    · exact Nat.le_refl _
    · exact Nat.zero_le _
  · exact Nat.zero_le _

theorem distance_react : (app.react s).command.distance ≤ s.distance := by
  cases s with
  | start =>
      rw [react]
      split
      · exact Nat.zero_le _
      · split
        · exact Nat.le_refl _
        · exact Nat.le_succ_of_le distance_begin
  | loaded result =>
      cases result with
      | error fault => exact Nat.zero_le _
      | ok config => exact distance_begin
  | connected result =>
      cases result with
      | error fault => exact Nat.zero_le _
      | ok client => exact Nat.le_refl _
  | built | clientClosed => exact Nat.zero_le _
  | stop =>
      rw [react]
      split
      · exact Nat.zero_le _
      · dsimp only
        split
        · exact Nat.le_refl _
        · exact Nat.le_succ_of_le (distance_disconnect _)
  | factoryStopped outcome => exact distance_disconnect _

/-- Surroundings that have an answer to every command that does not finish a call. -/
def Obliging (answer : Command → Signal) : Prop :=
  ∀ command, (∃ ending, command = .finish ending) ∨ Answers command (answer command)

/-- Whatever is answered, there is a course with these answers. -/
theorem exists_course {answer : Command → Signal} (hanswer : Obliging answer) (app : Application)
    (s : Signal) : ∃ exchanges after result, Course app s exchanges after result ∧
      ∀ exchange ∈ exchanges, exchange.2 = answer exchange.1 := by
  induction hn : s.distance using Nat.strongRecOn generalizing s app with
  | ind n ih =>
    obtain ⟨ending, hfinish⟩ | hanswers := hanswer (app.react s).command
    · exact ⟨[], _, ending, .finished hfinish, by simp⟩
    · have hlt : (answer (app.react s).command).distance < n :=
        hn ▸ Nat.lt_of_lt_of_le hanswers.distance_lt distance_react
      obtain ⟨exchanges, after, result, hcourse, hfollows⟩ := ih _ hlt (app.react s).app _ rfl
      exact ⟨_, after, result, .answered hanswers hcourse,
        List.forall_mem_cons.2 ⟨rfl, hfollows⟩⟩

/-! ## At rest -/

/-- The application is not running: of what it needs it has at most the client handed in. -/
structure Idle (injected : Option ClientId) (app : Application) : Prop where
  owns : app.ownsClient = injected.isNone
  running : app.running = false
  holds : app.client = injected
  factory : app.factory = none
  registry : app.registry = none

/-- The application is running with a client, which is the one that was handed in, if any. -/
structure Running (injected : Option ClientId) (client : ClientId) (app : Application) : Prop where
  owns : app.ownsClient = injected.isNone
  running : app.running = true
  holds : app.client = some client
  handed : injected = none ∨ injected = some client
  factory : app.factory.isSome = true
  registry : app.registry.isSome = true

theorem Idle.not_running {other : Option ClientId} (hidle : Idle injected app) :
    ¬ Running other client app := by
  intro hrunning
  cases hidle.running.symm.trans hrunning.running

/-! ## Starting -/

/-- The log can be written in the form and from the level that are configured. -/
def Writable (config : Config) : Prop :=
  ∃ setup, LogSetup.ofNames config.log.level config.log.format = .ok setup

/-- The forms are those that an environment can configure; any level will do but for two. -/
theorem ofNames_ok_iff {level form : String} :
    (∃ setup, LogSetup.ofNames level form = .ok setup) ↔
      form ∈ Environment.logFormats ∧ LogSetup.misnomers.lookup (LogSetup.upper level) = none := by
  have hforms : form ∈ Environment.logFormats ↔ form = "json" ∨ form = "console" := by
    simp [Environment.logFormats]
  rw [hforms]
  unfold LogSetup.ofNames LogSetup.thresholdOf
  cases LogSetup.misnomers.lookup (LogSetup.upper level) <;> split <;> simp_all [Except.map]

/-- The environment cannot configure a form or a level of the log that there is not. -/
theorem writable_of_environment {env : Environment} (h : env.config = .ok config) :
    Writable config := by
  unfold Environment.config at h
  iterate 9 obtain ⟨_, -, h⟩ := ok_of_bind h
  obtain ⟨level, hlevel, h⟩ := ok_of_bind h
  obtain ⟨format, hformat, h⟩ := ok_of_bind h
  cases h
  have hlevels : ∀ level ∈ Environment.logLevels,
      LogSetup.misnomers.lookup (LogSetup.upper level) = none := by decide
  exact ofNames_ok_iff.2 ⟨Environment.mem_of_wordSetting hformat,
    hlevels level (Environment.mem_of_wordSetting hlevel)⟩

/-- The courses of a start from where the configuration is there. -/
inductive Begun (injected : Option ClientId) (config : Config) :
    List Exchange → Application → Except Fault Unit → Prop
  /-- The log cannot be written in the form and from the level that are configured. -/
  | unwritable {after : Application} {fault : Fault} :
      LogSetup.ofNames config.log.level config.log.format = .error fault →
      Idle injected after → Begun injected config [] after (.error fault)
  | refused {after : Application} {cause : Fault} :
      injected = none → Idle injected after →
      Begun injected config [(.connect config.connection, .connected (.error cause))] after
        (.error (.startFailed "k8s_client" cause))
  | handed {after : Application} {client : ClientId} {factory registry : Nat} :
      injected = some client → Running injected client after →
      Begun injected config [(.build client config, .built factory registry)] after (.ok ())
  | connected {after : Application} {client : ClientId} {factory registry : Nat} :
      injected = none → Running injected client after →
      Begun injected config [(.connect config.connection, .connected (.ok client)),
        (.build client config, .built factory registry)] after (.ok ())

/-- The courses of a start of an application that is not running. A configuration that it has loaded
it keeps. -/
inductive Started (injected : Option ClientId) (app : Application) :
    List Exchange → Application → Except Fault Unit → Prop
  | unloaded {after : Application} {env : Environment} {fault : Fault} :
      app.config = none → env.config = .error fault → after.config = none → Idle injected after →
      Started injected app [(.load, .loaded (.error fault))] after (.error fault)
  | loaded {after : Application} {env : Environment} {config : Config}
      {exchanges : List Exchange} {result : Except Fault Unit} :
      app.config = none → env.config = .ok config → after.config = some config →
      Begun injected config exchanges after result →
      Started injected app ((.load, .loaded (.ok config)) :: exchanges) after result
  | configured {after : Application} {config : Config} {exchanges : List Exchange}
      {result : Except Fault Unit} :
      app.config = some config → after.config = some config →
      Begun injected config exchanges after result →
      Started injected app exchanges after result

theorem begin_unwritable {fault : Fault}
    (h : LogSetup.ofNames config.log.level config.log.format = .error fault) :
    app.begin config = app.silently (.finish (.error fault)) := by
  simp only [begin, h]

theorem begin_held {setup : LogSetup}
    (h : LogSetup.ofNames config.log.level config.log.format = .ok setup)
    (hclient : app.client = some client) :
    (app.begin config).app = { app with log := some setup } ∧
      (app.begin config).command = .build client config := by
  simp [begin, h, hclient]

theorem begin_free {setup : LogSetup}
    (h : LogSetup.ofNames config.log.level config.log.format = .ok setup)
    (hclient : app.client = none) :
    (app.begin config).app = { app with log := some setup } ∧
      (app.begin config).command = .connect config.connection := by
  simp [begin, h, hclient]

/-- What is left of a start when there is a client. -/
theorem Course.of_build (h : Course app s exchanges after result)
    (hnext : (app.react s).app = next) (hcommand : (app.react s).command = .build client config)
    (howns : next.ownsClient = injected.isNone) (hholds : next.client = some client)
    (hhanded : injected = none ∨ injected = some client) :
    ∃ factory registry, exchanges = [(.build client config, .built factory registry)] ∧
      result = .ok () ∧ Running injected client after ∧ after.config = next.config := by
  obtain ⟨answer, rest, rfl, hanswer, hrest⟩ := h.of_command hnext hcommand nofun
  cases hanswer with
  | build _ _ factory registry =>
      obtain ⟨rfl, rfl, rfl⟩ := hrest.of_finish rfl rfl
      exact ⟨factory, registry, rfl, rfl, ⟨howns, rfl, hholds, hhanded, rfl, rfl⟩, rfl⟩

/-- What is left of a start when there is a configuration. -/
theorem Idle.begun {before : Application} (hidle : Idle injected app)
    (hconfig : app.config = some config) (hreact : before.react s = app.begin config)
    (h : Course before s exchanges after result) :
    Begun injected config exchanges after result ∧ after.config = some config := by
  cases hsetup : LogSetup.ofNames config.log.level config.log.format with
  | error fault =>
      rw [begin_unwritable hsetup] at hreact
      obtain ⟨rfl, rfl, rfl⟩ := h.of_finish
        (congrArg Reaction.app hreact) (congrArg Reaction.command hreact)
      exact ⟨.unwritable hsetup hidle, hconfig⟩
  | ok setup =>
      cases injected with
      | some client =>
          obtain ⟨hnext, hcommand⟩ := begin_held hsetup hidle.holds
          rw [← hreact] at hnext hcommand
          obtain ⟨factory, registry, rfl, rfl, hrunning, hafter⟩ :=
            h.of_build hnext hcommand hidle.owns hidle.holds (.inr rfl)
          exact ⟨.handed rfl hrunning, hafter.trans hconfig⟩
      | none =>
          obtain ⟨hnext, hcommand⟩ := begin_free hsetup hidle.holds
          rw [← hreact] at hnext hcommand
          obtain ⟨answer, rest, rfl, hanswer, hrest⟩ := h.of_command hnext hcommand nofun
          cases hanswer with
          | connect _ result =>
              cases result with
              | error cause =>
                  obtain ⟨rfl, rfl, rfl⟩ := hrest.of_finish rfl rfl
                  exact ⟨.refused rfl ⟨hidle.owns, hidle.running, hidle.holds, hidle.factory,
                    hidle.registry⟩, hconfig⟩
              | ok client =>
                  have hbuild :
                      Command.build client (app.config.getD {}) = .build client config := by
                    rw [hconfig, Option.getD_some]
                  obtain ⟨factory, registry, rfl, rfl, hrunning, hafter⟩ :=
                    hrest.of_build rfl hbuild hidle.owns rfl (.inl rfl)
                  exact ⟨.connected rfl hrunning, hafter.trans hconfig⟩

theorem react_start_load (hrunning : app.running = false) (hconfig : app.config = none) :
    app.react .start = app.silently .load := by
  simp [react, hrunning, hconfig]

theorem react_start_begin (hrunning : app.running = false) (hconfig : app.config = some config) :
    app.react .start = app.begin config := by
  simp [react, hrunning, hconfig]

theorem Idle.started (hidle : Idle injected app) (h : Course app .start exchanges after result) :
    Started injected app exchanges after result := by
  cases hconfig : app.config with
  | some config =>
      obtain ⟨hbegun, hafter⟩ :=
        hidle.begun hconfig (react_start_begin hidle.running hconfig) h
      exact .configured hconfig hafter hbegun
  | none =>
      have hreact := react_start_load hidle.running hconfig
      have hnext : (app.react .start).app = app := congrArg Reaction.app hreact
      obtain ⟨answer, rest, rfl, hanswer, hrest⟩ :=
        h.of_command hnext (congrArg Reaction.command hreact) nofun
      cases hanswer with
      | load env =>
          show Started injected app ((.load, _) :: rest) after result
          cases hload : env.config with
          | error fault =>
              rw [hload] at hrest
              obtain ⟨rfl, rfl, rfl⟩ := hrest.of_finish rfl rfl
              exact .unloaded hconfig hload hconfig hidle
          | ok config =>
              rw [hload] at hrest
              have hloaded : Idle injected { app with config := some config } :=
                ⟨hidle.owns, hidle.running, hidle.holds, hidle.factory, hidle.registry⟩
              obtain ⟨hbegun, hafter⟩ := hloaded.begun rfl rfl hrest
              exact .loaded hconfig hload hafter hbegun

/-- A running application has nothing to start. -/
theorem Running.started (hrunning : Running injected client app)
    (h : Course app .start exchanges after result) :
    exchanges = [] ∧ after = app ∧ result = .ok () := by
  have hreact : app.react .start = app.silently (.finish (.ok ())) := by
    simp [react, hrunning.running]
  exact h.of_finish (congrArg Reaction.app hreact) (congrArg Reaction.command hreact)

/-! ## Stopping -/

theorem disconnect_own {records : List LogRecord} (hclient : app.client = some client)
    (howns : app.ownsClient = true) :
    app.disconnect records =
      ⟨{ app with factory := none }, app.log, records, .closeClient client⟩ := by
  simp [disconnect, hclient, howns]

theorem disconnect_handed {records : List LogRecord} (howns : app.ownsClient = false) :
    app.disconnect records = { app with factory := none }.conclude records := by
  cases hclient : app.client with
  | none | some _ => simp [disconnect, hclient, howns]

theorem disconnect_free {records : List LogRecord} (hclient : app.client = none) :
    app.disconnect records = { app with factory := none }.conclude records := by
  simp [disconnect, hclient]

/-- What a stop does about the client: it closes its own, and leaves one alone that was handed
in. -/
inductive Parting (client : ClientId) : Option ClientId → List Exchange → Prop
  | own (outcome : Outcome) :
      Parting client none [(.closeClient client, .clientClosed outcome)]
  | handed : Parting client (some client) []

/-- What is left of a stop when the caches are stopped, whatever came of that. -/
theorem Running.parting (hrunning : Running injected client app) {before : Application}
    {records : List LogRecord}
    (hreact : before.react s = disconnect { app with running := false, registry := none } records)
    (h : Course before s exchanges after result) :
    Parting client injected exchanges ∧ Idle injected after ∧ after.config = app.config ∧
      result = .ok () := by
  obtain rfl | rfl := hrunning.handed
  · have hreact := hreact.trans (disconnect_own hrunning.holds hrunning.owns)
    obtain ⟨answer, rest, rfl, hanswer, hrest⟩ := h.of_command
      (congrArg Reaction.app hreact) (congrArg Reaction.command hreact) nofun
    cases hanswer with
    | closeClient _ outcome =>
        obtain ⟨rfl, rfl, rfl⟩ := hrest.of_finish rfl rfl
        exact ⟨.own outcome, ⟨hrunning.owns, rfl, rfl, rfl, rfl⟩, rfl, rfl⟩
  · have hreact := hreact.trans (disconnect_handed hrunning.owns)
    obtain ⟨rfl, rfl, rfl⟩ := h.of_finish
      (congrArg Reaction.app hreact) (congrArg Reaction.command hreact)
    exact ⟨.handed, ⟨hrunning.owns, rfl, hrunning.holds, rfl, rfl⟩, rfl, rfl⟩

theorem Running.stopped (hrunning : Running injected client app)
    (h : Course app .stop exchanges after result) :
    ∃ factory outcome parting,
      exchanges = (.stopFactory factory, .factoryStopped outcome) :: parting ∧
        Parting client injected parting ∧ Idle injected after ∧ after.config = app.config ∧
          result = .ok () := by
  obtain ⟨factory, hfactory⟩ := Option.isSome_iff_exists.1 hrunning.factory
  have hreact : app.react .stop = ⟨{ app with running := false, registry := none }, app.log,
      [about .info "kubedeck shutting down"], .stopFactory factory⟩ := by
    simp [react, hrunning.running, hfactory]
  obtain ⟨answer, rest, rfl, hanswer, hrest⟩ := h.of_command
    (congrArg Reaction.app hreact) (congrArg Reaction.command hreact) nofun
  cases hanswer with
  | stopFactory _ outcome =>
      exact ⟨factory, outcome, rest, rfl, hrunning.parting rfl hrest⟩

/-- An application that is not running has nothing to stop. -/
theorem Idle.stopped (hidle : Idle injected app) (h : Course app .stop exchanges after result) :
    exchanges = [] ∧ Idle injected after ∧ after.config = app.config ∧ result = .ok () := by
  cases hlog : app.log with
  | none =>
      have hreact : app.react .stop = app.silently (.finish (.ok ())) := by
        simp [react, hidle.running, hlog]
      obtain ⟨rfl, rfl, rfl⟩ := h.of_finish
        (congrArg Reaction.app hreact) (congrArg Reaction.command hreact)
      exact ⟨rfl, hidle, rfl, rfl⟩
  | some setup =>
      -- a start has failed after its log was set up, and the log is what there is to end
      let left := { app with running := false, registry := none }
      have hreact : app.react .stop = left.disconnect [about .info "kubedeck shutting down"] := by
        simp [react, hidle.running, hidle.factory, hlog, left]
      have hconclude : app.react .stop =
          { left with factory := none }.conclude [about .info "kubedeck shutting down"] := by
        cases injected with
        | none => exact hreact.trans (disconnect_free hidle.holds)
        | some _ => exact hreact.trans (disconnect_handed hidle.owns)
      obtain ⟨rfl, rfl, rfl⟩ := h.of_finish
        (congrArg Reaction.app hconclude) (congrArg Reaction.command hconclude)
      exact ⟨rfl, ⟨hidle.owns, rfl, hidle.holds, rfl, rfl⟩, rfl, rfl⟩

end LiveCluster.Application
