import LiveCluster.Proofs.Access.Exchange

/-!
# Plans that have to be allowed what they do

A mandate says which mutation a plan may send and which permission it needs for that.
The plan has to ask for the permission once, and what it does next is settled by the
answer: `Heeds` holds of a plan that has not asked yet, `Spends` of one that has been
told that it may go on, and `Settled` of one that has only its result left. They follow
the plan question by question, whatever the answers are.

`Mandate.Stage` tells how far such a plan has come from what has passed. That a move
leads from stage to stage is `Stage.moves`; everything else is read off the stages.
-/

namespace LiveCluster

/-- What a plan may do to the cluster, and what it needs for that. -/
structure Mandate where
  ns : String
  rid : ResourceId
  verb : String
  /-- The mutations that may be sent. -/
  sends : Transport.Mutation → Prop
  /-- Why nothing is to be done at all about the object that is in the cache. -/
  unfit : Option Snapshot → Option Fault

namespace Mandate

/-- The question whether the cluster allows what is to be done. -/
def review (m : Mandate) : Ask :=
  .review m.ns m.rid.group m.rid.resource m.verb

/-- What comes of being denied. -/
def denial (m : Mandate) : Fault :=
  .forbidden m.verb m.rid.kindText m.ns

/-- What the answer of the cluster to that question makes of the plan, if it ends it. -/
def verdict (m : Mandate) : Except Fault Bool → Option Fault
  | .ok true => none
  | .ok false => some m.denial
  | .error fault => some fault

/-- Why the answer to a question ends the plan before it has asked for its permission. -/
def objection (m : Mandate) : (q : Ask) → q.Answer → Option Fault
  | .object _ _, object => m.unfit object
  | _, _ => none

end Mandate

namespace Plan

/-- A plan that was allowed to send its mutation sends it once, or fails. -/
inductive Spends (m : Mandate) : Plan Unit → Prop
  | fails (fault : Fault) : Spends m (.done (.error fault))
  | ask {q : Ask} {next : q.Answer → Plan Unit} :
      q.isCall = false → (∀ a, m.objection q a = none) → (∀ a, Spends m (next a)) →
      Spends m (.ask q next)
  | mutate {rid : ResourceId} {ns : String} {mutation : Transport.Mutation}
      {next : Except Fault Value → Plan Unit} :
      rid = m.rid → m.sends mutation → (∀ v, (next (.ok v)).Settled (.ok ())) →
      (∀ fault, (next (.error fault)).Settled (.error fault)) →
      Spends m (.ask (.mutate rid ns mutation) next)

/-- A plan that asks for its permission before it sends a mutation. -/
inductive Heeds (m : Mandate) : Plan Unit → Prop
  | fails (fault : Fault) : Heeds m (.done (.error fault))
  | ask {q : Ask} {next : q.Answer → Plan Unit} :
      q.isCall = false → (∀ a, m.objection q a = none → Heeds m (next a)) →
      (∀ a fault, m.objection q a = some fault → (next a).Settled (.error fault)) →
      Heeds m (.ask q next)
  | wait {rid : ResourceId} {ns : String} {timeout : Option Float}
      {next : Except Fault Bool → Plan Unit} :
      (∀ r, Heeds m (next r)) → Heeds m (.sync rid ns timeout next)
  | review {next : Except Fault Bool → Plan Unit} :
      (next (.ok true)).Spends m → (next (.ok false)).Settled (.error m.denial) →
      (∀ fault, (next (.error fault)).Settled (.error fault)) →
      Heeds m (.ask m.review next)

end Plan

namespace Mandate

variable (m : Mandate)

/-- Whether no object was found that is unfit. -/
def Fit (es : List Exchange) : Prop :=
  ∀ q a, .told q a ∈ es → m.objection q a = none

/-- How far a plan has come that asks for its permission, from what has passed. -/
inductive Stage (es : List Exchange) (st : Stance Unit) : Prop
  | early : Exchange.calls es = [] → m.Fit es →
      (st = .cancelled ∨ st.Idly (Plan.Heeds m)) → Stage es st
  /-- The object is unfit. -/
  | unfit {fault : Fault} : Exchange.calls es = [] →
      (∀ q a fault', .told q a ∈ es → m.objection q a = some fault' → fault' = fault) →
      st.Settled (.error fault) → Stage es st
  | reviewing : Exchange.calls es = [.asked m.review] → m.Fit es →
      (st = .cancelled ∨ ∃ next, st = .asking m.review next ∧ Plan.Heeds m (.ask m.review next)) →
      Stage es st
  /-- The permission was denied, or asking for it failed. -/
  | stopped {answer : Except Fault Bool} {fault : Fault} :
      Exchange.calls es = [.asked m.review, .told m.review answer] → m.Fit es →
      m.verdict answer = some fault → st.Settled (.error fault) → Stage es st
  | allowed : Exchange.calls es = [.asked m.review, .told m.review (.ok true)] → m.Fit es →
      st.Idly (Plan.Spends m) → Stage es st
  | mutating {ns : String} {mutation : Transport.Mutation} :
      Exchange.calls es = [.asked m.review, .told m.review (.ok true),
        .asked (.mutate m.rid ns mutation)] →
      m.Fit es → m.sends mutation →
      (st = .cancelled ∨ ∃ next, st = .asking (.mutate m.rid ns mutation) next ∧
        Plan.Spends m (.ask (.mutate m.rid ns mutation) next)) →
      Stage es st
  /-- The mutation was sent and answered. -/
  | spent {ns : String} {mutation : Transport.Mutation} {answer : Except Fault Value} :
      Exchange.calls es = [.asked m.review, .told m.review (.ok true),
        .asked (.mutate m.rid ns mutation), .told (.mutate m.rid ns mutation) answer] →
      m.Fit es → m.sends mutation → st.Settled (answer.map fun _ => ()) → Stage es st

variable {m}

theorem Fit.append {es new : List Exchange} (h : m.Fit es) (hnew : m.Fit new) :
    m.Fit (es ++ new) := fun q a hmem =>
  (List.mem_append.1 hmem).elim (h q a) (hnew q a)

theorem fit_asked (q : Ask) : m.Fit [.asked q] := fun _ _ hmem => by
  cases List.mem_singleton.1 hmem

theorem fit_waited (r : Except Fault Bool) : m.Fit [.waited r] := fun _ _ hmem => by
  cases List.mem_singleton.1 hmem

theorem fit_told {q : Ask} {a : q.Answer} (h : m.objection q a = none) : m.Fit [.told q a] :=
  fun _ _ hmem => by
    cases List.mem_singleton.1 hmem
    exact h

theorem calls_append_asked {es : List Exchange} {q : Ask} (h : q.isCall = false) :
    Exchange.calls (es ++ [.asked q]) = Exchange.calls es := by
  rw [Exchange.calls_append]
  simp [Exchange.calls, Exchange.isCall, h]

theorem calls_append_told {es : List Exchange} {q : Ask} {a : q.Answer} (h : q.isCall = false) :
    Exchange.calls (es ++ [.told q a]) = Exchange.calls es := by
  rw [Exchange.calls_append]
  simp [Exchange.calls, Exchange.isCall, h]

theorem calls_append_call {es : List Exchange} {e : Exchange} (h : e.isCall = true) :
    Exchange.calls (es ++ [e]) = Exchange.calls es ++ [e] := by
  rw [Exchange.calls_append]
  simp [Exchange.calls, h]

/-- What passes of a plan that is settled is neither a call nor a reason to fail. -/
theorem settled_moves (m : Mandate) (es : List Exchange) {r : Except Fault Unit}
    {new : List Exchange} {st st' : Stance Unit} (h : st.Settled r) (hm : st.Moves new st') :
    st'.Settled r ∧ Exchange.calls (es ++ new) = Exchange.calls es ∧ m.Fit new := by
  obtain ⟨hsettled, note, rfl | rfl⟩ := h.moves hm
  · exact ⟨hsettled, calls_append_asked rfl, fit_asked _⟩
  · exact ⟨hsettled, calls_append_told rfl, fit_told rfl⟩

theorem Stage.of_early {es new : List Exchange} {st st' : Stance Unit}
    (hcalls : Exchange.calls es = []) (hfit : m.Fit es) (hst : st.Idly (Plan.Heeds m))
    (hm : st.Moves new st') : m.Stage (es ++ new) st' := by
  cases hm with
  | ask q next =>
      by_cases hq : q.isCall = false
      · exact .early ((calls_append_asked hq).trans hcalls) (hfit.append (fit_asked q))
          (.inr ⟨hq, hst⟩)
      · cases hst with
        | ask hq' _ _ => exact absurd hq' hq
        | review htrue hfalse herror =>
            refine .reviewing ?_ (hfit.append (fit_asked _))
              (.inr ⟨_, rfl, .review htrue hfalse herror⟩)
            rw [calls_append_call rfl, hcalls]
            rfl
  | answer q next a =>
      obtain ⟨hq, hst⟩ := hst
      cases hst with
      | ask _ hheeds hends =>
          have hcalls' := (calls_append_told (a := a) hq).trans hcalls
          cases ha : m.objection q a with
          | none => exact .early hcalls' (hfit.append (fit_told ha)) (.inr (hheeds a ha))
          | some fault =>
              refine .unfit hcalls' (fun q' a' fault' hmem hobjects => ?_) (hends a fault ha)
              rcases List.mem_append.1 hmem with hold | hnew
              · rw [hfit q' a' hold] at hobjects
                cases hobjects
              · cases List.mem_singleton.1 hnew
                exact Option.some.inj (hobjects.symm.trans ha)
      | review _ _ _ => cases hq
  | wait rid ns timeout next r =>
      cases hst with
      | wait hst =>
          refine .early ?_ (hfit.append (fit_waited r)) (.inr (hst r))
          rw [Exchange.calls_append, hcalls]
          rfl
  | cancelCall next hcall =>
      rw [hst.1] at hcall
      cases hcall
  | cancelWait rid ns timeout next =>
      rw [List.append_nil]
      exact .early hcalls hfit (.inl rfl)

theorem Stage.of_reviewing {es new : List Exchange} {next : Except Fault Bool → Plan Unit}
    {st' : Stance Unit} (hcalls : Exchange.calls es = [.asked m.review]) (hfit : m.Fit es)
    (hnext : Plan.Heeds m (.ask m.review next))
    (hm : (Stance.asking m.review next).Moves new st') : m.Stage (es ++ new) st' := by
  have hfit' : ∀ a, m.Fit (es ++ [.told m.review a]) := fun a => hfit.append (fit_told rfl)
  have hcalls' : ∀ a, Exchange.calls (es ++ [.told m.review a]) =
      [.asked m.review, .told m.review a] := fun a => by
    rw [calls_append_call rfl, hcalls]
    rfl
  cases hnext with
  | ask hq _ _ => cases hq
  | review htrue hfalse herror =>
      cases hm with
      | answer _ _ a =>
          match a with
          | .ok true => exact .allowed (hcalls' _) (hfit' _) htrue
          | .ok false => exact .stopped (hcalls' _) (hfit' _) rfl hfalse
          | .error fault => exact .stopped (hcalls' _) (hfit' _) rfl (herror fault)
      | cancelCall _ _ =>
          rw [List.append_nil]
          exact .reviewing hcalls hfit (.inl rfl)

theorem Stage.of_allowed {es new : List Exchange} {st st' : Stance Unit}
    (hcalls : Exchange.calls es = [.asked m.review, .told m.review (.ok true)])
    (hfit : m.Fit es) (hst : st.Idly (Plan.Spends m)) (hm : st.Moves new st') :
    m.Stage (es ++ new) st' := by
  cases hm with
  | ask q next =>
      by_cases hq : q.isCall = false
      · exact .allowed ((calls_append_asked hq).trans hcalls) (hfit.append (fit_asked q))
          ⟨hq, hst⟩
      · cases hst with
        | ask hq' _ _ => exact absurd hq' hq
        | mutate hrid hsends hok herror =>
            subst hrid
            refine .mutating ?_ (hfit.append (fit_asked _)) hsends
              (.inr ⟨_, rfl, .mutate rfl hsends hok herror⟩)
            rw [calls_append_call rfl, hcalls]
            rfl
  | answer q next a =>
      obtain ⟨hq, hst⟩ := hst
      cases hst with
      | ask _ hnone hspends =>
          exact .allowed ((calls_append_told hq).trans hcalls) (hfit.append (fit_told (hnone a)))
            (hspends a)
      | mutate _ _ _ _ => cases hq
  | wait rid ns timeout next r => cases hst
  | cancelCall next hcall =>
      rw [hst.1] at hcall
      cases hcall
  | cancelWait rid ns timeout next => cases hst

theorem Stage.of_mutating {es new : List Exchange} {ns : String} {mutation : Transport.Mutation}
    {next : Except Fault Value → Plan Unit} {st' : Stance Unit}
    (hcalls : Exchange.calls es = [.asked m.review, .told m.review (.ok true),
      .asked (.mutate m.rid ns mutation)])
    (hfit : m.Fit es) (hsends : m.sends mutation)
    (hnext : Plan.Spends m (.ask (.mutate m.rid ns mutation) next))
    (hm : (Stance.asking (.mutate m.rid ns mutation) next).Moves new st') :
    m.Stage (es ++ new) st' := by
  cases hnext with
  | ask hq _ _ => cases hq
  | mutate _ _ hok herror =>
      cases hm with
      | answer _ _ a =>
          have hcalls' : Exchange.calls (es ++ [.told (.mutate m.rid ns mutation) a]) =
              [.asked m.review, .told m.review (.ok true), .asked (.mutate m.rid ns mutation),
                .told (.mutate m.rid ns mutation) a] := by
            rw [calls_append_call rfl, hcalls]
            rfl
          refine .spent hcalls' (hfit.append (fit_told rfl)) hsends ?_
          · cases a with
            | ok v => exact hok v
            | error fault => exact herror fault
      | cancelCall _ _ =>
          rw [List.append_nil]
          exact .mutating hcalls hfit hsends (.inl rfl)

/-- A move leads from stage to stage. -/
theorem Stage.moves {es new : List Exchange} {st st' : Stance Unit} (h : m.Stage es st)
    (hm : st.Moves new st') : m.Stage (es ++ new) st' := by
  cases h with
  | early hcalls hfit hst =>
      rcases hst with rfl | hst
      · cases hm
      · exact .of_early hcalls hfit hst hm
  | unfit hcalls hfault hst =>
      obtain ⟨hst', hcalls', hfit⟩ := settled_moves m es hst hm
      refine .unfit (hcalls'.trans hcalls) (fun q a fault' hmem hobjects => ?_) hst'
      rcases List.mem_append.1 hmem with hold | hnew
      · exact hfault q a fault' hold hobjects
      · rw [hfit q a hnew] at hobjects
        cases hobjects
  | reviewing hcalls hfit hst =>
      rcases hst with rfl | ⟨next, rfl, hnext⟩
      · cases hm
      · exact .of_reviewing hcalls hfit hnext hm
  | stopped hcalls hfit hanswer hst =>
      obtain ⟨hst', hcalls', hfit'⟩ := settled_moves m es hst hm
      exact .stopped (hcalls'.trans hcalls) (hfit.append hfit') hanswer hst'
  | allowed hcalls hfit hst => exact .of_allowed hcalls hfit hst hm
  | mutating hcalls hfit hsends hst =>
      rcases hst with rfl | ⟨next, rfl, hnext⟩
      · cases hm
      · exact .of_mutating hcalls hfit hsends hnext hm
  | spent hcalls hfit hsends hst =>
      obtain ⟨hst', hcalls', hfit'⟩ := settled_moves m es hst hm
      exact .spent (hcalls'.trans hcalls) (hfit.append hfit') hsends hst'

/-- So whatever passes, a plan that asks for its permission is at one of the stages. -/
theorem stage_of_follows {p : Plan Unit} {es : List Exchange} {st : Stance Unit}
    (hp : p.Heeds m) (h : p.Follows es st) : m.Stage es st := by
  induction h with
  | start => exact .early rfl (fun _ _ hmem => absurd hmem List.not_mem_nil) (.inr hp)
  | move _ hm ih => exact ih.moves hm

/-! ## What the stages say -/

/-- A list is split at the only place where something holds in one way. -/
theorem split_unique {α : Type} {P : α → Bool} {before before' after after' : List α} {x y : α}
    (h : before ++ x :: after = before' ++ y :: after') (hx : P x = true)
    (hbefore : ∀ z ∈ before', P z = false) (hafter : ∀ z ∈ after', P z = false) :
    before = before' ∧ x = y ∧ after = after' := by
  rcases List.append_eq_append_iff.1 h with ⟨mid, rfl, hrest⟩ | ⟨mid, rfl, hrest⟩
  · cases mid with
    | nil =>
        obtain ⟨rfl, rfl⟩ := List.cons.inj hrest
        exact ⟨(List.append_nil _).symm, rfl, rfl⟩
    | cons z mid =>
        obtain ⟨rfl, -⟩ := List.cons.inj hrest
        rw [hbefore x (by simp)] at hx
        cases hx
  · cases mid with
    | nil =>
        obtain ⟨rfl, rfl⟩ := List.cons.inj hrest
        exact ⟨List.append_nil _, rfl, rfl⟩
    | cons z mid =>
        obtain ⟨-, rfl⟩ := List.cons.inj hrest
        rw [hafter x (by simp)] at hx
        cases hx

variable {es before after : List Exchange} {st : Stance Unit}

/-- Either no mutation was sent, or one was, and nothing but the permission came before. -/
theorem Stage.mutations (h : m.Stage es st) :
    (∀ e ∈ Exchange.calls es, e.isMutation = false) ∨
      ∃ ns mutation tail, m.sends mutation ∧ (∀ e ∈ tail, Exchange.isMutation e = false) ∧
        Exchange.calls es = [.asked m.review, .told m.review (.ok true)] ++
          .asked (.mutate m.rid ns mutation) :: tail := by
  cases h with
  | early hcalls | unfit hcalls | reviewing hcalls | stopped hcalls | allowed hcalls =>
      rw [hcalls]
      exact .inl (by simp [Exchange.isMutation, review, Ask.isMutation])
  | @mutating ns mutation hcalls hfit hsends =>
      exact .inr ⟨ns, mutation, [], hsends, by simp, hcalls⟩
  | @spent ns mutation answer hcalls hfit hsends =>
      exact .inr ⟨ns, mutation, [.told (.mutate m.rid ns mutation) answer], hsends,
        by simp [Exchange.isMutation], hcalls⟩

/-- Before a mutation there was the permission and nothing else; and there is one at most. -/
theorem Stage.of_mutation {rid : ResourceId} {ns : String} {mutation : Transport.Mutation}
    (h : m.Stage es st) (hes : es = before ++ .asked (.mutate rid ns mutation) :: after) :
    rid = m.rid ∧ m.sends mutation ∧
      Exchange.calls before = [.asked m.review, .told m.review (.ok true)] ∧
      ∀ e ∈ after, e.isMutation = false := by
  have hsplit : Exchange.calls es =
      Exchange.calls before ++ .asked (.mutate rid ns mutation) :: Exchange.calls after := by
    rw [hes, Exchange.calls_append]
    rfl
  rcases h.mutations with hnone | ⟨ns', mutation', tail, hsends, htail, hcalls⟩
  · have hmem : Exchange.asked (.mutate rid ns mutation) ∈ Exchange.calls es := by
      rw [hsplit]
      exact List.mem_append_right _ List.mem_cons_self
    cases hnone _ hmem
  · rw [hsplit] at hcalls
    obtain ⟨hbefore, heq, hafter⟩ := split_unique (P := Exchange.isMutation) hcalls rfl
      (by simp [Exchange.isMutation, review, Ask.isMutation]) htail
    cases heq
    exact ⟨rfl, hsends, hbefore, Exchange.not_isMutation_of_calls (hafter ▸ htail)⟩

/-- A review that does not allow what was asked for settles what comes of the plan. -/
theorem Stage.of_review {ns group resource verb : String} {answer : Except Fault Bool}
    {fault : Fault} (h : m.Stage es st)
    (hmem : .told (.review ns group resource verb) answer ∈ es)
    (hverdict : m.verdict answer = some fault) :
    st.Settled (.error fault) ∧ ∀ e ∈ es, e.isMutation = false := by
  have hcall := Exchange.mem_calls hmem rfl
  have hallowed : Exchange.told (.review ns group resource verb) answer ≠
      .told m.review (.ok true) := by
    intro heq
    cases heq
    cases hverdict
  cases h with
  | early hcalls | unfit hcalls | reviewing hcalls =>
      rw [hcalls] at hcall
      simp [review] at hcall
  | allowed hcalls | mutating hcalls | spent hcalls =>
      rw [hcalls] at hcall
      simp [hallowed] at hcall
  | @stopped answer' fault' hcalls hfit hverdict' hst =>
      rw [hcalls] at hcall
      have heq : Exchange.told (.review ns group resource verb) answer =
          .told m.review answer' := by simpa using hcall
      cases heq
      cases hverdict.symm.trans hverdict'
      refine ⟨hst, Exchange.not_isMutation_of_calls ?_⟩
      rw [hcalls]
      simp [Exchange.isMutation, review, Ask.isMutation]

/-- An object that is unfit settles what comes of the plan, and the cluster is never asked. -/
theorem Stage.of_unfit {rid : ResourceId} {path : String} {object : Option Snapshot}
    {fault : Fault} (h : m.Stage es st) (hmem : .told (.object rid path) object ∈ es)
    (hunfit : m.unfit object = some fault) :
    st.Settled (.error fault) ∧ Exchange.calls es = [] := by
  cases h with
  | unfit hcalls hfault hst => exact ⟨hfault _ _ fault hmem hunfit ▸ hst, hcalls⟩
  | early _ hfit | reviewing _ hfit | stopped _ hfit | allowed _ hfit | mutating _ hfit
  | spent _ hfit =>
      have hnone : m.unfit object = none := hfit _ _ hmem
      rw [hunfit] at hnone
      cases hnone

/-- The fault of a mutation is the fault of the plan. -/
theorem Stage.of_failure {rid : ResourceId} {ns : String} {mutation : Transport.Mutation}
    {fault : Fault} (h : m.Stage es st)
    (hmem : .told (.mutate rid ns mutation) (.error fault) ∈ es) :
    st.Settled (.error fault) := by
  have hcall := Exchange.mem_calls hmem rfl
  cases h with
  | early hcalls | unfit hcalls | reviewing hcalls | stopped hcalls | allowed hcalls
  | mutating hcalls =>
      rw [hcalls] at hcall
      simp [review] at hcall
  | @spent ns' mutation' answer hcalls hfit hsends hst =>
      rw [hcalls] at hcall
      have heq : Exchange.told (.mutate rid ns mutation) (.error fault) =
          .told (.mutate m.rid ns' mutation') answer := by
        simpa [review] using hcall
      cases heq
      exact hst

end Mandate

end LiveCluster
