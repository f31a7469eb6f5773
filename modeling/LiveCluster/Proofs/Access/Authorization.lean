import LiveCluster.Proofs.Access.Mandate
import LiveCluster.Proofs.Access.Together

/-!
# Nothing is changed without permission

Deleting an object and restarting a workload are the operations of an accessor that
change the cluster. Both ask for their permission at the time, and both are bound by
what they are told: `heeds_delete` and `heeds_restart` go through their plans once.

Any number of such invocations may go on at the same time, in any order and with any
answers. They share nothing but the surroundings that answer them, so what passes in
one of them is what its own plan allows.
-/

namespace LiveCluster

variable {m : Mandate}

/-! ## The gate and the forwarding of mutations -/

theorem heeds_require {f : Unit → Plan Unit} (hf : (f ()).Spends m) :
    ((Gate.require m.ns m.rid m.verb).bind f).Heeds m := by
  refine .review ?_ ?_ fun fault => ?_
  · exact hf
  · exact .tell (.done)
  · exact .done

theorem spends_mutation {mutation : Transport.Mutation} {ns name : String}
    {f : Value → Plan Unit} (hsends : m.sends mutation) (hf : ∀ v, (f v).Settled (.ok ())) :
    ((Forward.mutation mutation m.rid ns name).bind f).Spends m := by
  refine .ask rfl (fun _ => rfl) fun namespaced => ?_
  refine .mutate rfl hsends (fun v => ?_) fun fault => ?_
  · exact .tell (.tell (hf v))
  · cases fault with
    | transport message status => exact .tell (.tell .done)
    | _ => exact .done

/-! ## Workloads -/

/-- What the object that is in the cache makes of a workload: decoded, with the selector of its
pods, or the reason why it cannot be used. -/
def Accessor.usable (a : Accessor) (kind : Kind) (path : String) :
    Option Snapshot → Except Fault (Value × Selector)
  | none => .error (.notFound a.rid.kindText path)
  | some object =>
    match kind.decode object.raw with
    | .error problems => .error (.undecodable kind.word path problems)
    | .ok v =>
      match Selector.ofLabels (Decoded.matchLabels v) with
      | .error fault => .error fault
      | .ok selector =>
        if selector.isEmpty then .error (.noSelector a.rid.kindText path) else .ok (v, selector)

/-- A workload is looked up once, and nothing is asked besides. -/
theorem Accessor.selectorOf_bind {α : Type} (a : Accessor) (kind : Kind) (path : String)
    (f : Value × Selector → Plan α) :
    (a.selectorOf kind path).bind f = .ask (.object a.rid path) fun object =>
      match a.usable kind path object with
      | .error fault => .done (.error fault)
      | .ok x => f x := by
  refine congrArg (Plan.ask (.object a.rid path)) (funext fun object => ?_)
  cases object with
  | none => rfl
  | some object =>
      rw [usable]
      dsimp only [Plan.bind, pure]
      cases kind.decode object.raw with
      | error problems => rfl
      | ok v =>
          dsimp only [Plan.bind, bind, Plan.known]
          cases Selector.ofLabels (Decoded.matchLabels v) with
          | error fault => rfl
          | ok selector =>
              dsimp only [Plan.bind]
              split <;> rfl

/-- A workload that is asked about first has to be usable. -/
theorem heeds_selectorOf {a : Accessor} {kind : Kind} {path : String}
    {f : Value × Selector → Plan Unit}
    (hunfit : ∀ object, m.unfit object = match a.usable kind path object with
      | .error fault => some fault
      | .ok _ => none)
    (hf : ∀ x, (f x).Heeds m) : ((a.selectorOf kind path).bind f).Heeds m := by
  rw [Accessor.selectorOf_bind]
  refine .ask rfl (fun object _ => ?_) fun object fault hobjects => ?_
  · cases a.usable kind path object with
    | error fault => exact .fails fault
    | ok x => exact hf x
  · have hreason := (hunfit object).symm.trans hobjects
    cases husable : a.usable kind path object with
    | error fault' =>
        rw [husable] at hreason
        cases hreason
        exact .done
    | ok x =>
        rw [husable] at hreason
        cases hreason

/-! ## The operations that change the cluster -/

/-- An operation of an accessor that changes the cluster. -/
inductive Invocation where
  | delete (a : Accessor) (path : String) (options : DeleteOptions)
  | restart (a : Accessor) (kind : Kind) (path : String)

namespace Invocation

def plan : Invocation → Plan Unit
  | .delete a path options => a.delete path options
  | .restart a kind path => a.restart kind path

/-- What an operation may do, and which permission it needs. -/
def mandate : Invocation → Mandate
  | .delete a path options => {
    ns := (Path.split path).1
    rid := a.rid
    verb := "delete"
    sends := (· = .delete (Path.split path).2 (options.propagation.map Propagation.name)
      options.graceSeconds)
    unfit := fun _ => none }
  | .restart a kind path => {
    ns := (Path.split path).1
    rid := a.rid
    verb := "patch"
    sends := fun m => ∃ object now patch, Restart.patch kind object now = .ok patch ∧
      m = .patch (Path.split path).2 patch
    unfit := fun object => match a.usable kind path object with
      | .error fault => some fault
      | .ok _ => none }

theorem heeds_delete (a : Accessor) (path : String) (options : DeleteOptions) :
    (a.delete path options).Heeds (mandate (.delete a path options)) := by
  unfold Accessor.delete
  split
  · exact .fails _
  · exact heeds_require (spends_mutation rfl fun _ => .tell .done)

theorem heeds_restart (a : Accessor) (kind : Kind) (path : String) :
    (a.restart kind path).Heeds (mandate (.restart a kind path)) := by
  refine .wait fun r => ?_
  cases r with
  | error fault => exact .fails fault
  | ok synced =>
      refine heeds_selectorOf (fun _ => rfl) fun x => ?_
      refine heeds_require (.ask rfl (fun _ => rfl) fun now => ?_)
      show Plan.Spends _ ((Plan.known (Restart.patch kind x.1 now)).bind _)
      cases hpatch : Restart.patch kind x.1 now with
      | error fault => exact .fails fault
      | ok patch => exact spends_mutation ⟨x.1, now, patch, hpatch, rfl⟩ fun _ => .tell .done

theorem heeds (i : Invocation) : i.plan.Heeds i.mandate := by
  cases i with
  | delete a path options => exact heeds_delete a path options
  | restart a kind path => exact heeds_restart a kind path

/-- A plan that looks at an object before all else. -/
inductive Looks (rid : ResourceId) (path : String) : Plan Unit → Prop
  | fails (fault : Fault) : Looks rid path (.done (.error fault))
  | wait {rid' : ResourceId} {ns : String} {timeout : Option Float}
      {next : Except Fault Bool → Plan Unit} :
      (∀ r, Looks rid path (next r)) → Looks rid path (.sync rid' ns timeout next)
  | look (next : Option Snapshot → Plan Unit) : Looks rid path (.ask (.object rid path) next)

theorem looks_restart (a : Accessor) (kind : Kind) (path : String) :
    Looks a.rid path (a.restart kind path) := by
  refine .wait fun r => ?_
  cases r with
  | error fault => exact .fails fault
  | ok synced => exact .look _

/-- Such a plan asks the cluster for nothing before it has seen the object. -/
theorem seen_of_follows {rid : ResourceId} {path : String} {p : Plan Unit} {es : List Exchange}
    {st : Stance Unit} (hp : Looks rid path p) (h : p.Follows es st) :
    (∃ object, .told (.object rid path) object ∈ es) ∨
      Exchange.calls es = [] ∧ (st = .cancelled ∨ (∃ q, st = .ready q ∧ Looks rid path q) ∨
        ∃ next, st = .asking (.object rid path) next) := by
  induction h with
  | start => exact .inr ⟨rfl, .inr (.inl ⟨p, rfl, hp⟩)⟩
  | @move es new st st' _ hm ih =>
      rcases ih with ⟨object, hseen⟩ | ⟨hcalls, rfl | ⟨q, rfl, hq⟩ | ⟨next, rfl⟩⟩
      · exact .inl ⟨object, List.mem_append_left _ hseen⟩
      · cases hm
      · cases hq with
        | fails fault => cases hm
        | wait hnext =>
            cases hm with
            | wait _ _ _ _ r =>
                refine .inr ⟨?_, .inr (.inl ⟨_, rfl, hnext r⟩)⟩
                rw [Exchange.calls_append, hcalls]
                rfl
            | cancelWait _ _ _ _ => exact .inr ⟨by rwa [List.append_nil], .inl rfl⟩
        | look next =>
            cases hm with
            | ask _ _ =>
                exact .inr ⟨(Mandate.calls_append_asked rfl).trans hcalls, .inr (.inr ⟨_, rfl⟩)⟩
      · cases hm with
        | answer _ _ object =>
            exact .inl ⟨object, List.mem_append_right _ (List.mem_singleton.2 rfl)⟩
        | cancelCall _ hcall => cases hcall

/-! ## Many operations at a time -/

/-- What has passed in operations that go on at the same time, each known by its number, and
where they stand. Any of them may move at any time, and new ones may begin. -/
inductive Running : List (Nat × Exchange) → List (Invocation × Stance Unit) → Prop
  | idle : Running [] []
  | begins {trace : List (Nat × Exchange)} {calls : List (Invocation × Stance Unit)}
      (i : Invocation) : Running trace calls → Running trace (calls ++ [(i, .ready i.plan)])
  | moves {trace : List (Nat × Exchange)} {calls : List (Invocation × Stance Unit)} {n : Nat}
      {i : Invocation} {st st' : Stance Unit} {new : List Exchange} :
      Running trace calls → calls[n]? = some (i, st) → st.Moves new st' →
      Running (trace ++ new.map fun e => (n, e)) (calls.set n (i, st'))

variable {trace : List (Nat × Exchange)} {calls : List (Invocation × Stance Unit)} {n : Nat}
  {i : Invocation} {st : Stance Unit}

/-- Operations that go on at the same time are plans that do. -/
theorem Running.together (h : Running trace calls) :
    Plan.Together trace (calls.map fun call => (call.1.plan, call.2)) := by
  induction h with
  | idle => exact .idle
  | begins i _ ih =>
      rw [List.map_append]
      exact ih.begins i.plan
  | @moves trace calls k i st st' new _ hk hmoves ih =>
      rw [List.map_set]
      exact ih.moves (by rw [List.getElem?_map, hk]; rfl) hmoves

/-- What passes in one operation is what its own plan allows. -/
theorem Running.follows (h : Running trace calls) (hn : calls[n]? = some (i, st)) :
    i.plan.Follows (history n trace) st := by
  have hplan : (calls.map fun call => (call.1.plan, call.2))[n]? = some (i.plan, st) := by
    rw [List.getElem?_map, hn]
    rfl
  exact h.together.follows hplan

/-- Whatever goes on besides, of each operation it holds: before it sends a mutation it has asked
for its permission, once, and was told that it has it; it sends no other mutation. If it is
denied, or asking fails, it sends none, and all that is left is to fail with that. It asks for
nothing if a policy for dependent objects is not supported, and for a restart not before it has
seen that the workload can be used. And where its mutation fails, it fails with the same
fault. -/
theorem authorization (h : Running trace calls) (hn : calls[n]? = some (i, st)) :
    (∀ before rid ns mutation after,
        history n trace = before ++ .asked (.mutate rid ns mutation) :: after →
        rid = i.mandate.rid ∧ i.mandate.sends mutation ∧
          Exchange.calls before =
            [.asked i.mandate.review, .told i.mandate.review (.ok true)] ∧
          ∀ e ∈ after, e.isMutation = false) ∧
      (∀ ns group resource verb,
        .told (.review ns group resource verb) (.ok false) ∈ history n trace →
        st.Settled (.error (.forbidden i.mandate.verb i.mandate.rid.kindText i.mandate.ns)) ∧
          ∀ e ∈ history n trace, e.isMutation = false) ∧
      (∀ ns group resource verb fault,
        .told (.review ns group resource verb) (.error fault) ∈ history n trace →
        st.Settled (.error fault) ∧ ∀ e ∈ history n trace, e.isMutation = false) ∧
      (∀ a kind path, i = .restart a kind path →
        (Exchange.calls (history n trace) ≠ [] →
          ∃ object x, .told (.object a.rid path) object ∈ history n trace ∧
            a.usable kind path object = .ok x) ∧
        ∀ object fault, .told (.object a.rid path) object ∈ history n trace →
          a.usable kind path object = .error fault →
          st.Settled (.error fault) ∧ Exchange.calls (history n trace) = []) ∧
      (∀ a path options, i = .delete a path options → options.propagation.isSome = true →
        a.accessorClass.supports .cascadeDelete = false →
        st.Settled (.error (.badArgument (.cascade a.rid.kindText))) ∧
          Exchange.calls (history n trace) = []) ∧
      ∀ rid ns mutation fault,
        .told (.mutate rid ns mutation) (.error fault) ∈ history n trace →
        st.Settled (.error fault) := by
  have hfollows := h.follows hn
  have hstage := Mandate.stage_of_follows i.heeds hfollows
  refine ⟨?_, ?_, ?_, ?_, ?_, ?_⟩
  · exact fun before rid ns mutation after hes => hstage.of_mutation hes
  · exact fun ns group resource verb hmem => hstage.of_review hmem rfl
  · exact fun ns group resource verb fault hmem => hstage.of_review hmem rfl
  · rintro a kind path rfl
    have hunusable : ∀ object fault, .told (.object a.rid path) object ∈ history n trace →
        a.usable kind path object = .error fault →
        st.Settled (.error fault) ∧ Exchange.calls (history n trace) = [] := by
      intro object fault hmem husable
      refine hstage.of_unfit hmem ?_
      show (match a.usable kind path object with | .error fault => some fault | .ok _ => none) = _
      rw [husable]
    refine ⟨fun hcalls => ?_, hunusable⟩
    rcases seen_of_follows (looks_restart a kind path) hfollows with ⟨object, hseen⟩ | ⟨hnone, -⟩
    · cases husable : a.usable kind path object with
      | error fault => exact absurd (hunusable object fault hseen husable).2 hcalls
      | ok x => exact ⟨object, x, hseen, husable⟩
    · exact absurd hnone hcalls
  · rintro a path options rfl hpropagation hsupports
    have hrefused : plan (.delete a path options) =
        .done (.error (.badArgument (.cascade a.rid.kindText))) := by
      show Accessor.delete a path options = _
      rw [Accessor.delete, if_pos (by simp [hpropagation, hsupports])]
      rfl
    rw [hrefused] at hfollows
    obtain ⟨hnothing, rfl⟩ := hfollows.of_done
    exact ⟨.done, by rw [hnothing, Exchange.calls_nil]⟩
  · exact fun rid ns mutation fault hmem => hstage.of_failure hmem

/-- Two deletions at a time: permissions change between the two reviews, so one is carried out
and the other is refused. -/
theorem authorization_interleaved :
    ∃ trace calls st st', Running trace calls ∧
      calls = [(.delete { rid := .pods, accessorClass := .typed .pod } "default/web" {}, st),
        (.delete { rid := .pods, accessorClass := .typed .pod } "default/db" {}, st')] ∧
      (∃ before after, history 0 trace =
          before ++ .asked (.mutate .pods "default" (.delete "web" none none)) :: after ∧
        Exchange.calls before = [.asked (.review "default" "" "pods" "delete"),
          .told (.review "default" "" "pods" "delete") (.ok true)]) ∧
      st'.Settled (.error (.forbidden "delete" "v1/pods" "default")) := by
  let a : Accessor := { rid := .pods, accessorClass := .typed .pod }
  let web : Invocation := .delete a "default/web" {}
  let db : Invocation := .delete a "default/db" {}
  have hasked := (((Running.idle.begins web).begins db).moves (n := 0) rfl (.ask _ _)).moves
    (n := 1) rfl (.ask _ _)
  have htold := (hasked.moves (n := 0) rfl (.answer _ _ (.ok true : Except Fault Bool))).moves
    (n := 1) rfl (.answer _ _ (.ok false : Except Fault Bool))
  have hsent := ((htold.moves (n := 0) rfl (.ask _ _)).moves (n := 0) rfl
    (.answer _ _ (true : Bool))).moves (n := 0) rfl (.ask _ _)
  refine ⟨_, _, _, _, hsent, rfl, ?_, ?_⟩
  · refine ⟨[_, _, _, _], [], rfl, ?_⟩
    exact ((authorization hsent (n := 0) rfl).1 _ _ _ _ [] rfl).2.2.1
  · exact ((authorization hsent (n := 1) rfl).2.1 _ _ _ _ (.tail _ (.head _))).1

end Invocation

end LiveCluster
