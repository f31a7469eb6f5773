import LiveCluster.Proofs.Application.Courses
import LiveCluster.Simulation.Session

/-!
# The life of an application

An application lives from call to call. A client of its own is there exactly while it runs:
the start connects it, the next stop closes it, and between the two there are only starts
that reach nothing. A client that was handed in is there all the time. A start that fails
leaves nothing behind that could keep the next one from succeeding.

The laws are about every lifetime: any calls, in any order, each of them taking any course.
-/

namespace LiveCluster.Application

/-- What is asked of an application. -/
inductive Asked where
  | start
  | stop

def Asked.signal : Asked → Signal
  | .start => .start
  | .stop => .stop

/-- A call that has come to its end. -/
structure Call where
  asked : Asked
  exchanges : List Exchange
  result : Except Fault Unit

/-- The calls so far, and the application after them. -/
inductive Lifetime (given : Option Config) (injected : Option ClientId) :
    List Call → Application → Prop
  | new (clientClass : String) : Lifetime given injected [] (.new given injected clientClass)
  | call {past : List Call} {app after : Application} (call : Call) :
      Lifetime given injected past app →
      Course app call.asked.signal call.exchanges after call.result →
      Lifetime given injected (past ++ [call]) after

/-- A start that reaches nothing. -/
def Call.Repeats (call : Call) : Prop :=
  call.asked = .start ∧ call.exchanges = []

/-- In the call a client is connected. -/
def Call.Connects (client : ClientId) (call : Call) : Prop :=
  ∃ config, (.connect config, .connected (.ok client)) ∈ call.exchanges

/-- A stop that stops the caches, whatever comes of it, and then closes a client. -/
def Call.Closes (client : ClientId) (call : Call) : Prop :=
  call.asked = .stop ∧ ∃ factory stopped closed, call.exchanges =
    [(.stopFactory factory, .factoryStopped stopped), (.closeClient client, .clientClosed closed)]

/-- A client was connected, and since then nothing was reached. -/
def Opened (client : ClientId) (calls : List Call) : Prop :=
  ∃ earlier start repeats, calls = earlier ++ start :: repeats ∧ start.Connects client ∧
    ∀ call ∈ repeats, call.Repeats

/-- The first call that reaches anything closes a client. -/
def ClosedNext (client : ClientId) (calls : List Call) : Prop :=
  ∃ repeats stop later, calls = repeats ++ stop :: later ∧ (∀ call ∈ repeats, call.Repeats) ∧
    stop.Closes client

variable {given : Option Config} {injected : Option ClientId} {app after : Application}
  {past : List Call} {client : ClientId} {exchanges : List Exchange} {result : Except Fault Unit}
  {config : Config}

/-! ## One call -/

/-- What a call comes to. -/
inductive Effect (injected : Option ClientId) (app after : Application) : Call → Prop
  | started {exchanges : List Exchange} {client : ClientId} :
      Idle injected app → Started injected app exchanges after (.ok ()) →
      Running injected client after → Effect injected app after ⟨.start, exchanges, .ok ()⟩
  | failed {exchanges : List Exchange} {fault : Fault} :
      Idle injected app → Started injected app exchanges after (.error fault) →
      Idle injected after → Effect injected app after ⟨.start, exchanges, .error fault⟩
  | repeated {client : ClientId} :
      Running injected client app → after = app → Effect injected app after ⟨.start, [], .ok ()⟩
  | stopped {client : ClientId} {factory : Nat} {outcome : Outcome} {parting : List Exchange} :
      Running injected client app → Parting client injected parting → Idle injected after →
      after.config = app.config → Effect injected app after
        ⟨.stop, (.stopFactory factory, .factoryStopped outcome) :: parting, .ok ()⟩
  | rested :
      Idle injected app → Idle injected after → after.config = app.config →
      Effect injected app after ⟨.stop, [], .ok ()⟩

/-- Between two calls an application is idle or running. -/
def AtRest (injected : Option ClientId) (app : Application) : Prop :=
  Idle injected app ∨ ∃ client, Running injected client app

theorem Begun.atRest (h : Begun injected config exchanges after result) :
    (∃ fault, result = .error fault ∧ Idle injected after) ∨
      ∃ client, result = .ok () ∧ Running injected client after := by
  cases h with
  | unwritable _ hidle => exact .inl ⟨_, rfl, hidle⟩
  | refused _ hidle => exact .inl ⟨_, rfl, hidle⟩
  | handed _ hrunning => exact .inr ⟨_, rfl, hrunning⟩
  | connected _ hrunning => exact .inr ⟨_, rfl, hrunning⟩

theorem Started.atRest (h : Started injected app exchanges after result) :
    (∃ fault, result = .error fault ∧ Idle injected after) ∨
      ∃ client, result = .ok () ∧ Running injected client after := by
  cases h with
  | unloaded _ _ _ hidle => exact .inl ⟨_, rfl, hidle⟩
  | loaded _ _ _ hbegun => exact hbegun.atRest
  | configured _ _ hbegun => exact hbegun.atRest

theorem AtRest.effect (hrest : AtRest injected app) {call : Call}
    (h : Course app call.asked.signal call.exchanges after call.result) :
    Effect injected app after call := by
  obtain ⟨asked, exchanges, result⟩ := call
  cases asked with
  | start =>
      obtain hidle | ⟨client, hrunning⟩ := hrest
      · have hstarted := hidle.started h
        obtain ⟨fault, rfl, hafter⟩ | ⟨client, rfl, hafter⟩ := hstarted.atRest
        · exact .failed hidle hstarted hafter
        · exact .started hidle hstarted hafter
      · obtain ⟨rfl, rfl, rfl⟩ := hrunning.started h
        exact .repeated hrunning rfl
  | stop =>
      obtain hidle | ⟨client, hrunning⟩ := hrest
      · obtain ⟨rfl, hafter, hconfig, rfl⟩ := hidle.stopped h
        exact .rested hidle hafter hconfig
      · obtain ⟨factory, outcome, parting, rfl, hparting, hafter, hconfig, rfl⟩ :=
          hrunning.stopped h
        exact .stopped hrunning hparting hafter hconfig

theorem Effect.atRest {call : Call} (h : Effect injected app after call) :
    AtRest injected after := by
  cases h with
  | started _ _ hafter => exact .inr ⟨_, hafter⟩
  | failed _ _ hafter => exact .inl hafter
  | repeated hrunning hafter => exact .inr ⟨_, hafter ▸ hrunning⟩
  | stopped _ _ hafter _ => exact .inl hafter
  | rested _ hafter _ => exact .inl hafter

theorem Lifetime.atRest (h : Lifetime given injected past app) : AtRest injected app := by
  induction h with
  | new => exact .inl ⟨rfl, rfl, rfl, rfl, rfl⟩
  | call _ _ hcourse ih => exact (ih.effect hcourse).atRest

/-! ## What a start reaches -/

theorem Begun.of_connects {conn : ConnectionConfig}
    (h : Begun injected config exchanges after result)
    (hmem : (.connect conn, .connected (.ok client)) ∈ exchanges) :
    Running injected client after := by
  cases h with
  | unwritable | refused | handed => simp at hmem
  | connected _ hrunning =>
      obtain ⟨-, rfl⟩ : _ ∧ client = _ := by simpa using hmem
      exact hrunning

theorem Started.of_connects {conn : ConnectionConfig}
    (h : Started injected app exchanges after result)
    (hmem : (.connect conn, .connected (.ok client)) ∈ exchanges) :
    Running injected client after := by
  cases h with
  | unloaded => simp at hmem
  | loaded _ _ _ hbegun => exact hbegun.of_connects (by simpa using hmem)
  | configured _ _ hbegun => exact hbegun.of_connects hmem

theorem Begun.not_closes {outcome : Outcome} (h : Begun injected config exchanges after result) :
    (.closeClient client, .clientClosed outcome) ∉ exchanges := by
  cases h with
  | unwritable | refused | handed | connected => simp

/-- A start does not close a client. -/
theorem Started.not_closes {outcome : Outcome} (h : Started injected app exchanges after result) :
    (.closeClient client, .clientClosed outcome) ∉ exchanges := by
  cases h with
  | unloaded => simp
  | loaded _ _ _ hbegun => simpa using hbegun.not_closes
  | configured _ _ hbegun => exact hbegun.not_closes

theorem Begun.connects (h : Begun none config exchanges after result)
    (hrunning : Running none client after) :
    ∃ conn, (.connect conn, .connected (.ok client)) ∈ exchanges := by
  cases h with
  | unwritable _ hidle => exact absurd hrunning hidle.not_running
  | refused _ hidle => exact absurd hrunning hidle.not_running
  | handed hinjected _ => cases hinjected
  | connected _ hafter =>
      cases hafter.holds.symm.trans hrunning.holds
      exact ⟨_, List.mem_cons_self⟩

/-- Without a client that was handed in, a start that succeeds connects one. -/
theorem Started.connects (h : Started none app exchanges after result)
    (hrunning : Running none client after) :
    ∃ conn, (.connect conn, .connected (.ok client)) ∈ exchanges := by
  cases h with
  | unloaded _ _ _ hidle => exact absurd hrunning hidle.not_running
  | loaded _ _ _ hbegun =>
      obtain ⟨conn, hmem⟩ := hbegun.connects hrunning
      exact ⟨conn, List.mem_cons_of_mem _ hmem⟩
  | configured _ _ hbegun => exact hbegun.connects hrunning

/-! ## A client of its own -/

/-- Where a place of a list that has grown by one is: at its new end, or before that. -/
theorem append_singleton_eq_append_cons {α : Type} {past before later : List α} {last x : α}
    (h : past ++ [last] = before ++ x :: later) :
    (later = [] ∧ past = before ∧ last = x) ∨
      ∃ between, later = between ++ [last] ∧ past = before ++ x :: between := by
  obtain rfl | ⟨between, final, rfl⟩ := List.eq_nil_or_concat later
  · obtain ⟨hbefore, hlast⟩ := List.append_inj' h rfl
    exact .inl ⟨rfl, hbefore, List.singleton_inj.1 hlast⟩
  · have h : past ++ [last] = (before ++ x :: between) ++ [final] := by simpa using h
    obtain ⟨hbefore, hlast⟩ := List.append_inj' h rfl
    exact .inr ⟨between, by simpa using hlast.symm, hbefore⟩

theorem Effect.of_connects {call : Call} (h : Effect injected app after call)
    (hconnects : call.Connects client) : Running injected client after := by
  obtain ⟨conn, hmem⟩ := hconnects
  cases h with
  | started _ hstarted _ => exact hstarted.of_connects hmem
  | failed _ hstarted _ => exact hstarted.of_connects hmem
  | repeated | rested => cases hmem
  | stopped _ hparting _ _ =>
      cases hparting with
      | own | handed => simp at hmem

/-- After a client was connected, the next call repeats the start or closes the client. -/
theorem Effect.of_running {call : Call} (h : Effect none app after call)
    (hrunning : Running none client app) :
    call.Repeats ∧ after = app ∨ call.Closes client := by
  cases h with
  | started hidle _ _ => exact absurd hrunning hidle.not_running
  | failed hidle _ _ => exact absurd hrunning hidle.not_running
  | rested hidle _ _ => exact absurd hrunning hidle.not_running
  | repeated _ hafter => exact .inl ⟨⟨rfl, rfl⟩, hafter⟩
  | stopped h hparting _ _ =>
      cases h.holds.symm.trans hrunning.holds
      cases hparting with
      | own outcome => exact .inr ⟨rfl, _, _, outcome, rfl⟩

theorem Effect.of_closes {call : Call} {outcome : Outcome} (h : Effect none app after call)
    (hmem : (.closeClient client, .clientClosed outcome) ∈ call.exchanges) :
    Running none client app ∧ call.Closes client := by
  cases h with
  | started _ hstarted _ => exact absurd hmem hstarted.not_closes
  | failed _ hstarted _ => exact absurd hmem hstarted.not_closes
  | repeated | rested => cases hmem
  | stopped hrunning hparting _ _ =>
      cases hparting with
      | own closed =>
          obtain ⟨rfl, -⟩ : client = _ ∧ _ := by simpa using hmem
          exact ⟨hrunning, rfl, _, _, closed, rfl⟩

/-- The client that is held was connected by the last call that reached anything. -/
theorem Lifetime.opened (h : Lifetime given none past app) (hclient : app.client = some client) :
    Opened client past := by
  induction h with
  | new => cases hclient
  | call call h hcourse ih =>
      cases h.atRest.effect hcourse with
      | started _ hstarted hafter =>
          cases hafter.holds.symm.trans hclient
          exact ⟨_, _, [], rfl, hstarted.connects hafter, by simp⟩
      | failed _ _ hafter => cases hafter.holds.symm.trans hclient
      | repeated _ hafter =>
          rw [hafter] at hclient
          obtain ⟨earlier, start, repeats, rfl, hconnects, hrepeats⟩ := ih hclient
          exact ⟨earlier, start, repeats ++ [⟨.start, [], .ok ()⟩], by simp, hconnects,
            List.forall_mem_append.2 ⟨hrepeats, List.forall_mem_singleton.2 ⟨rfl, rfl⟩⟩⟩
      | stopped _ _ hafter _ => cases hafter.holds.symm.trans hclient
      | rested _ hafter _ => cases hafter.holds.symm.trans hclient

/-- A client that was connected is still held, or the first call since then that reached anything
has closed it. -/
theorem Lifetime.connected (h : Lifetime given none past app) {before later : List Call}
    {call : Call} (hpast : past = before ++ call :: later) (hconnects : call.Connects client) :
    (Running none client app ∧ ∀ call ∈ later, call.Repeats) ∨ ClosedNext client later := by
  induction h generalizing later with
  | new => simp at hpast
  | call last h hcourse ih =>
      have heffect := h.atRest.effect hcourse
      obtain ⟨rfl, rfl, rfl⟩ | ⟨between, rfl, hbefore⟩ := append_singleton_eq_append_cons hpast
      · exact .inl ⟨heffect.of_connects hconnects, by simp⟩
      · obtain ⟨hrunning, hrepeats⟩ | ⟨repeats, stop, rest, rfl, hrepeats, hcloses⟩ := ih hbefore
        · obtain ⟨hlast, hafter⟩ | hcloses := heffect.of_running hrunning
          · exact .inl ⟨hafter ▸ hrunning,
              List.forall_mem_append.2 ⟨hrepeats, List.forall_mem_singleton.2 hlast⟩⟩
          · exact .inr ⟨between, last, [], rfl, hrepeats, hcloses⟩
        · exact .inr ⟨repeats, stop, rest ++ [last], by simp, hrepeats, hcloses⟩

/-- What is closed is the client that was connected last. -/
theorem Lifetime.closed (h : Lifetime given none past app) {before later : List Call}
    {call : Call} {outcome : Outcome} (hpast : past = before ++ call :: later)
    (hmem : (.closeClient client, .clientClosed outcome) ∈ call.exchanges) :
    call.Closes client ∧ Opened client before := by
  induction h generalizing later with
  | new => simp at hpast
  | call last h hcourse ih =>
      obtain ⟨rfl, rfl, rfl⟩ | ⟨between, rfl, hbefore⟩ := append_singleton_eq_append_cons hpast
      · obtain ⟨hrunning, hcloses⟩ := (h.atRest.effect hcourse).of_closes hmem
        exact ⟨hcloses, h.opened hrunning.holds⟩
      · exact ih hbefore

/-! ## A client that was handed in -/

/-- A command that makes and closes no client, and builds on no other. -/
def Command.Spares (client : ClientId) : Command → Prop
  | .connect _ | .closeClient _ => False
  | .build other _ => other = client
  | .load | .stopFactory _ | .finish _ => True

theorem Begun.spares (h : Begun (some client) config exchanges after result) :
    ∀ exchange ∈ exchanges, exchange.1.Spares client := by
  cases h with
  | unwritable => simp
  | refused hinjected _ | connected hinjected _ => cases hinjected
  | handed hinjected _ =>
      cases hinjected
      exact List.forall_mem_singleton.2 rfl

theorem Started.spares (h : Started (some client) app exchanges after result) :
    ∀ exchange ∈ exchanges, exchange.1.Spares client := by
  cases h with
  | unloaded => exact List.forall_mem_singleton.2 trivial
  | loaded _ _ _ hbegun => exact List.forall_mem_cons.2 ⟨trivial, hbegun.spares⟩
  | configured _ _ hbegun => exact hbegun.spares

theorem Effect.spares {call : Call} (h : Effect (some client) app after call) :
    ∀ exchange ∈ call.exchanges, exchange.1.Spares client := by
  cases h with
  | started _ hstarted _ => exact hstarted.spares
  | failed _ hstarted _ => exact hstarted.spares
  | repeated | rested => simp
  | stopped _ hparting _ _ =>
      cases hparting with
      | handed => exact List.forall_mem_singleton.2 trivial

theorem Lifetime.spares (h : Lifetime given (some client) past app) :
    ∀ call ∈ past, ∀ exchange ∈ call.exchanges, exchange.1.Spares client := by
  induction h with
  | new => simp
  | call call h hcourse ih =>
      exact List.forall_mem_append.2
        ⟨ih, List.forall_mem_singleton.2 (h.atRest.effect hcourse).spares⟩

theorem AtRest.holds (h : AtRest (some client) app) : app.client = some client := by
  obtain hidle | ⟨other, hrunning⟩ := h
  · exact hidle.holds
  · obtain hinjected | hinjected := hrunning.handed
    · cases hinjected
    · exact hrunning.holds.trans hinjected.symm

theorem Begun.builds (h : Begun injected config exchanges after (.ok ()))
    (hrunning : Running injected client after) :
    ∃ factory registry, (.build client config, .built factory registry) ∈ exchanges := by
  cases h with
  | handed _ hafter =>
      cases hafter.holds.symm.trans hrunning.holds
      exact ⟨_, _, List.mem_singleton_self _⟩
  | connected _ hafter =>
      cases hafter.holds.symm.trans hrunning.holds
      exact ⟨_, _, List.mem_cons_of_mem _ (List.mem_singleton_self _)⟩

theorem Started.builds (h : Started injected app exchanges after (.ok ()))
    (hrunning : Running injected client after) :
    ∃ config factory registry, (.build client config, .built factory registry) ∈ exchanges := by
  cases h with
  | loaded _ _ _ hbegun =>
      obtain ⟨factory, registry, hmem⟩ := hbegun.builds hrunning
      exact ⟨_, factory, registry, List.mem_cons_of_mem _ hmem⟩
  | configured _ _ hbegun => exact ⟨_, hbegun.builds hrunning⟩

/-! ## Starting again -/

/-- A start keeps the configuration that there was, or has one from the environment. -/
theorem Started.configured_or (h : Started injected app exchanges after result)
    (hafter : after.config = some config) : app.config = some config ∨ Writable config := by
  cases h with
  | unloaded _ _ hnone _ => cases hnone.symm.trans hafter
  | loaded _ hload hsome _ =>
      cases hsome.symm.trans hafter
      exact .inr (writable_of_environment hload)
  | configured hbefore hsome _ => exact .inl (hbefore.trans (hsome.symm.trans hafter))

/-- A configuration that was not handed in comes from the environment. -/
theorem Lifetime.configured (h : Lifetime given injected past app)
    (hconfig : app.config = some config) : given = some config ∨ Writable config := by
  induction h with
  | new => exact .inl hconfig
  | call call h hcourse ih =>
      cases h.atRest.effect hcourse with
      | started _ hstarted _ => exact (hstarted.configured_or hconfig).elim ih .inr
      | failed _ hstarted _ => exact (hstarted.configured_or hconfig).elim ih .inr
      | repeated _ hafter => exact ih (hafter ▸ hconfig)
      | stopped _ _ _ hafter => exact ih (hafter.symm.trans hconfig)
      | rested _ _ hafter => exact ih (hafter.symm.trans hconfig)

theorem Begun.failure {fault : Fault} (h : Begun injected config exchanges after (.error fault))
    (hwritable : Writable config) :
    ∃ conn cause, (.connect conn, .connected (.error cause)) ∈ exchanges := by
  cases h with
  | unwritable hsetup _ =>
      obtain ⟨setup, hwritable⟩ := hwritable
      cases hsetup.symm.trans hwritable
  | refused _ _ => exact ⟨_, _, List.mem_singleton_self _⟩

/-- A start fails by what fails in it. -/
theorem Started.failure {fault : Fault} (h : Started injected app exchanges after (.error fault))
    (hwritable : ∀ config, app.config = some config → Writable config) :
    (.load, .loaded (.error fault)) ∈ exchanges ∨
      ∃ conn cause, (.connect conn, .connected (.error cause)) ∈ exchanges := by
  cases h with
  | unloaded => exact .inl (List.mem_singleton_self _)
  | loaded _ hload _ hbegun =>
      obtain ⟨conn, cause, hmem⟩ := hbegun.failure (writable_of_environment hload)
      exact .inr ⟨conn, cause, List.mem_cons_of_mem _ hmem⟩
  | configured hconfig _ hbegun => exact .inr (hbegun.failure (hwritable _ hconfig))

/-- Surroundings in which a configuration is loaded and a connection is made. -/
def Welcoming (answer : Command → Signal) : Prop :=
  Obliging answer ∧ (∀ fault, answer .load ≠ .loaded (.error fault)) ∧
    ∀ conn fault, answer (.connect conn) ≠ .connected (.error fault)

theorem AtRest.idle (h : AtRest injected app) (hrunning : app.running = false) :
    Idle injected app := by
  obtain hidle | ⟨client, h⟩ := h
  · exact hidle
  · cases h.running.symm.trans hrunning

/-- A start succeeds where it can load and connect. -/
theorem Idle.startable (hidle : Idle injected app)
    (hwritable : ∀ config, app.config = some config → Writable config)
    {answer : Command → Signal} (hwelcoming : Welcoming answer) :
    ∃ exchanges after, Course app .start exchanges after (.ok ()) ∧
      ∀ exchange ∈ exchanges, exchange.2 = answer exchange.1 := by
  obtain ⟨hobliging, hload, hconnect⟩ := hwelcoming
  obtain ⟨exchanges, after, result, hcourse, hfollows⟩ := exists_course hobliging app .start
  cases result with
  | ok _ => exact ⟨exchanges, after, hcourse, hfollows⟩
  | error fault =>
      obtain hmem | ⟨conn, cause, hmem⟩ := (hidle.started hcourse).failure hwritable
      · exact absurd (hfollows _ hmem).symm (hload fault)
      · exact absurd (hfollows _ hmem).symm (hconnect conn cause)

/-! ## The laws -/

/-- The client of an application to which none was handed. -/
structure KeepsOwn (past : List Call) (app : Application) : Prop where
  held : app.client.isSome = app.running
  opened : ∀ client, app.client = some client → Opened client past
  /-- Every client that was connected is held, or the next stop has closed it. -/
  connected : ∀ before call later client, past = before ++ call :: later → call.Connects client →
    (app.client = some client ∧ ∀ call ∈ later, call.Repeats) ∨ ClosedNext client later
  /-- Every client that was closed was connected before, and not closed since then. -/
  closed : ∀ before call later client outcome, past = before ++ call :: later →
    (.closeClient client, .clientClosed outcome) ∈ call.exchanges →
      call.Closes client ∧ Opened client before

/-- The client of an application to which it was handed. -/
structure KeepsHanded (client : ClientId) (past : List Call) (app : Application) : Prop where
  held : app.client = some client
  spared : ∀ call ∈ past, ∀ exchange ∈ call.exchanges, exchange.1.Spares client
  used : app.running = false → ∀ exchanges after, Course app .start exchanges after (.ok ()) →
    ∃ config factory registry, (.build client config, .built factory registry) ∈ exchanges

/-- What the next call can come to. -/
structure TakesCalls (given : Option Config) (app : Application) : Prop where
  ends : ∀ answer, Obliging answer → ∀ asked : Asked, ∃ exchanges after result,
    Course app asked.signal exchanges after result ∧
      ∀ exchange ∈ exchanges, exchange.2 = answer exchange.1
  repeated : app.running = true → ∀ exchanges after result,
    Course app .start exchanges after result → exchanges = [] ∧ after = app ∧ result = .ok ()
  rested : app.running = false → ∀ exchanges after result,
    Course app .stop exchanges after result →
      exchanges = [] ∧ after.running = false ∧ result = .ok ()
  started : ∀ exchanges after, Course app .start exchanges after (.ok ()) → after.running = true
  failed : ∀ exchanges after fault, Course app .start exchanges after (.error fault) →
    after.running = false
  /-- Also after starts that failed, the next one succeeds where it can load and connect. Only a
  configuration that was handed in with a form or a level of the log that there is not fails every
  start. -/
  again : (∀ config, given = some config → Writable config) → app.running = false →
    ∀ answer, Welcoming answer → ∃ exchanges after, Course app .start exchanges after (.ok ()) ∧
      ∀ exchange ∈ exchanges, exchange.2 = answer exchange.1

/-- What only a running application has. -/
structure Serves (app : Application) : Prop where
  caches : app.caches = .error notStarted ↔ app.running = false
  accessors : app.accessors = .error notStarted ↔ app.running = false
  found : ∀ (session : Simulation.Session) rid, session.app = some app →
    ((session.findAccessor rid).2 = .error notStarted ↔ app.running = false)

theorem Lifetime.keepsOwn (h : Lifetime given none past app) : KeepsOwn past app where
  held := by
    obtain hidle | ⟨client, hrunning⟩ := h.atRest
    · rw [hidle.holds, hidle.running, Option.isSome_none]
    · rw [hrunning.holds, hrunning.running, Option.isSome_some]
  opened _ hclient := h.opened hclient
  connected _ _ _ _ hpast hconnects :=
    (h.connected hpast hconnects).imp_left fun ⟨hrunning, hrepeats⟩ => ⟨hrunning.holds, hrepeats⟩
  closed _ _ _ _ _ hpast hmem := h.closed hpast hmem

theorem Lifetime.keepsHanded (h : Lifetime given (some client) past app) :
    KeepsHanded client past app where
  held := h.atRest.holds
  spared := h.spares
  used := by
    intro hrunning exchanges after hcourse
    have hstarted := (h.atRest.idle hrunning).started hcourse
    obtain ⟨fault, hresult, -⟩ | ⟨other, -, hafter⟩ := hstarted.atRest
    · cases hresult
    · have hother : some other = some client :=
        hafter.holds.symm.trans (AtRest.holds (.inr ⟨other, hafter⟩))
      cases hother
      exact hstarted.builds hafter

theorem Lifetime.takesCalls (h : Lifetime given injected past app) : TakesCalls given app where
  ends _ hanswer asked := exists_course hanswer app asked.signal
  repeated := by
    intro hrunning exchanges after result hcourse
    obtain hidle | ⟨client, h⟩ := h.atRest
    · cases hidle.running.symm.trans hrunning
    · exact h.started hcourse
  rested := by
    intro hrunning exchanges after result hcourse
    obtain ⟨hexchanges, hafter, -, hresult⟩ := (h.atRest.idle hrunning).stopped hcourse
    exact ⟨hexchanges, hafter.running, hresult⟩
  started := by
    intro exchanges after hcourse
    have heffect : Effect injected app after ⟨.start, exchanges, .ok ()⟩ :=
      h.atRest.effect hcourse
    cases heffect with
    | started _ _ hafter => exact hafter.running
    | repeated hrunning hafter => exact hafter ▸ hrunning.running
  failed := by
    intro exchanges after fault hcourse
    have heffect : Effect injected app after ⟨.start, exchanges, .error fault⟩ :=
      h.atRest.effect hcourse
    cases heffect with
    | failed _ _ hafter => exact hafter.running
  again := by
    intro hgiven hrunning answer hwelcoming
    refine (h.atRest.idle hrunning).startable (fun config hconfig => ?_) hwelcoming
    exact (h.configured hconfig).elim (hgiven config) id

theorem AtRest.serves (h : AtRest injected app) : Serves app := by
  have haccessors : app.accessors = .error notStarted ↔ app.running = false := by
    obtain hidle | ⟨client, hrunning⟩ := h
    · simp [accessors, hidle.registry, hidle.running]
    · obtain ⟨registry, hregistry⟩ := Option.isSome_iff_exists.1 hrunning.registry
      simp [accessors, hregistry, hrunning.running]
  refine ⟨?_, haccessors, ?_⟩
  · obtain hidle | ⟨client, hrunning⟩ := h
    · simp [caches, hidle.factory, hidle.running]
    · obtain ⟨factory, hfactory⟩ := Option.isSome_iff_exists.1 hrunning.factory
      simp [caches, hfactory, hrunning.running]
  · intro session rid happ
    obtain ⟨launched, hlaunched, rfl⟩ := Option.map_eq_some_iff.1 happ
    rw [← haccessors]
    unfold Simulation.Session.findAccessor
    rw [hlaunched]
    cases hregistry : launched.app.accessors with
    | error fault => simp [hregistry]
    | ok registry => simp [hregistry]

/-- Whatever was called, and however it went: a client of its own is held exactly while the
application runs, and closed once, by the next stop; a client that was handed in is used and never
closed; calls that ask for what is already so reach nothing; a start that fails can be tried again;
and only a running application serves anybody. -/
theorem lifecycle (h : Lifetime given injected past app) :
    (injected = none → KeepsOwn past app) ∧
      (∀ client, injected = some client → KeepsHanded client past app) ∧
        TakesCalls given app ∧ Serves app := by
  refine ⟨?_, ?_, h.takesCalls, h.atRest.serves⟩
  · intro hinjected
    subst hinjected
    exact h.keepsOwn
  · intro client hinjected
    subst hinjected
    exact h.keepsHanded

/-- A start that fails to connect, one that connects, and a stop in which the caches fail to
stop. -/
def retried : List Call := [
  ⟨.start, [(.connect {}, .connected (.error .timedOut))],
    .error (.startFailed "k8s_client" .timedOut)⟩,
  ⟨.start, [(.connect {}, .connected (.ok 7)), (.build 7 {}, .built 0 0)], .ok ()⟩,
  ⟨.stop, [(.stopFactory 0, .factoryStopped (.raised .timedOut)),
    (.closeClient 7, .clientClosed .completed)], .ok ()⟩]

theorem lifecycle_retried :
    ∃ app, Lifetime (some {}) none retried app ∧ app.running = false ∧ KeepsOwn retried app := by
  have hnew : Lifetime (some {}) none [] (.new (some {}) none "") := .new ""
  have hfailed := hnew.call retried[0] (.answered (.connect {} (.error .timedOut)) (.finished rfl))
  have hstarted := hfailed.call retried[1]
    (.answered (.connect {} (.ok 7)) (.answered (.build 7 {} 0 0) (.finished rfl)))
  have hstopped := hstarted.call retried[2]
    (.answered (.stopFactory 0 (.raised .timedOut))
      (.answered (.closeClient 7 .completed) (.finished rfl)))
  exact ⟨_, hstopped, rfl, (lifecycle hstopped).1 rfl⟩

end LiveCluster.Application
