import LiveCluster.Access.Accessor

/-!
# What passes between a plan and its surroundings

A plan that is carried out asks its questions one after another. Its surroundings may
answer each of them in any way and at any time, and between a question and its answer
anything else may happen: other plans are carried out, permissions change. So nothing
is assumed of the answers. `Plan.Follows` is said of what may have passed when a plan
has come to stand somewhere; `of_done`, `of_ask` and `of_sync` say what passes first.

Only questions for the cluster and waits for a cache suspend a plan, so only then can
it be cancelled.
-/

namespace LiveCluster

/-- Whether a question goes to the cluster, which takes its time to answer. -/
def Ask.isCall : Ask → Bool
  | .review .. | .mutate .. => true
  | _ => false

def Ask.isMutation : Ask → Bool
  | .mutate .. => true
  | _ => false

/-- What passes between a plan and its surroundings. -/
inductive Exchange where
  | asked (question : Ask)
  | told (question : Ask) (answer : question.Answer)
  /-- A wait for a cache is over. -/
  | waited (result : Except Fault Bool)

namespace Exchange

/-- Whether something passes between a plan and the cluster. -/
def isCall : Exchange → Bool
  | .asked q | .told q _ => q.isCall
  | .waited _ => false

/-- Whether a mutation is sent to the cluster. -/
def isMutation : Exchange → Bool
  | .asked q => q.isMutation
  | _ => false

/-- What passes between a plan and the cluster. -/
def calls (es : List Exchange) : List Exchange :=
  es.filter isCall

@[simp] theorem calls_nil : calls [] = [] := rfl

theorem calls_append (es es' : List Exchange) : calls (es ++ es') = calls es ++ calls es' :=
  List.filter_append ..

theorem isCall_of_isMutation {e : Exchange} (h : e.isMutation = true) : e.isCall = true := by
  cases e with
  | asked q => cases q <;> first | rfl | cases h
  | told q a => cases h
  | waited result => cases h

theorem mem_calls {es : List Exchange} {e : Exchange} (h : e ∈ es) (hcall : e.isCall = true) :
    e ∈ calls es :=
  List.mem_filter.2 ⟨h, hcall⟩

/-- Mutations are among the calls. -/
theorem not_isMutation_of_calls {es : List Exchange}
    (h : ∀ e ∈ calls es, e.isMutation = false) : ∀ e ∈ es, e.isMutation = false := by
  intro e he
  rw [Bool.eq_false_iff]
  intro hmutation
  rw [h e (mem_calls he (isCall_of_isMutation hmutation))] at hmutation
  cases hmutation

end Exchange

/-- Where a plan stands that is carried out. -/
inductive Stance (α : Type) where
  /-- It goes on as this plan, or waits for a cache if that begins with a wait. -/
  | ready (plan : Plan α)
  | asking (question : Ask) (next : question.Answer → Plan α)
  | cancelled

namespace Stance

variable {α : Type}

/-- How a plan goes on, and what passes then. -/
inductive Moves : Stance α → List Exchange → Stance α → Prop
  | ask (q : Ask) (next : q.Answer → Plan α) :
      Moves (.ready (.ask q next)) [.asked q] (.asking q next)
  | answer (q : Ask) (next : q.Answer → Plan α) (a : q.Answer) :
      Moves (.asking q next) [.told q a] (.ready (next a))
  | wait (rid : ResourceId) (ns : String) (timeout : Option Float)
      (next : Except Fault Bool → Plan α) (r : Except Fault Bool) :
      Moves (.ready (.sync rid ns timeout next)) [.waited r] (.ready (next r))
  | cancelCall {q : Ask} (next : q.Answer → Plan α) :
      q.isCall = true → Moves (.asking q next) [] .cancelled
  | cancelWait (rid : ResourceId) (ns : String) (timeout : Option Float)
      (next : Except Fault Bool → Plan α) :
      Moves (.ready (.sync rid ns timeout next)) [] .cancelled

end Stance

namespace Plan

variable {α β : Type}

/-- What may have passed when a plan has come to stand somewhere. -/
inductive Follows (p : Plan α) : List Exchange → Stance α → Prop
  | start : Follows p [] (.ready p)
  | move {es new : List Exchange} {st st' : Stance α} :
      Follows p es st → st.Moves new st' → Follows p (es ++ new) st'

namespace Follows

variable {es : List Exchange} {st : Stance α}

/-- A plan that is over lets nothing pass any more. -/
theorem of_done {r : Except Fault α} (h : (Plan.done r).Follows es st) :
    es = [] ∧ st = .ready (.done r) := by
  induction h with
  | start => exact ⟨rfl, rfl⟩
  | move _ hmoves ih =>
      obtain ⟨-, rfl⟩ := ih
      cases hmoves

/-- A question is answered before anything else passes. -/
theorem of_ask {q : Ask} {next : q.Answer → Plan α} (h : (Plan.ask q next).Follows es st) :
    es = [] ∧ st = .ready (.ask q next) ∨
      es = [.asked q] ∧ (st = .asking q next ∨ st = .cancelled) ∨
      ∃ a es', es = .asked q :: .told q a :: es' ∧ (next a).Follows es' st := by
  induction h with
  | start => exact .inl ⟨rfl, rfl⟩
  | move _ hmoves ih =>
      rcases ih with ⟨rfl, rfl⟩ | ⟨rfl, rfl | rfl⟩ | ⟨a, es', rfl, hfollows⟩
      · cases hmoves
        exact .inr (.inl ⟨rfl, .inl rfl⟩)
      · cases hmoves with
        | answer _ _ a => exact .inr (.inr ⟨a, [], rfl, .start⟩)
        | cancelCall => exact .inr (.inl ⟨rfl, .inr rfl⟩)
      · cases hmoves
      · exact .inr (.inr ⟨a, _, rfl, hfollows.move hmoves⟩)

/-- A wait is over before anything else passes. -/
theorem of_sync {rid : ResourceId} {ns : String} {timeout : Option Float}
    {next : Except Fault Bool → Plan α} (h : (Plan.sync rid ns timeout next).Follows es st) :
    es = [] ∧ (st = .ready (.sync rid ns timeout next) ∨ st = .cancelled) ∨
      ∃ r es', es = .waited r :: es' ∧ (next r).Follows es' st := by
  induction h with
  | start => exact .inl ⟨rfl, .inl rfl⟩
  | move _ hmoves ih =>
      rcases ih with ⟨rfl, rfl | rfl⟩ | ⟨r, es', rfl, hfollows⟩
      · cases hmoves with
        | wait _ _ _ _ r => exact .inr ⟨r, [], rfl, .start⟩
        | cancelWait => exact .inl ⟨rfl, .inr rfl⟩
      · cases hmoves
      · exact .inr ⟨r, _, rfl, hfollows.move hmoves⟩

end Follows

/-- A plan that only has to write to the log before its result. -/
inductive Settled (r : Except Fault α) : Plan α → Prop
  | done : Settled r (.done r)
  | tell {note : Note} {next : Unit → Plan α} :
      Settled r (next ()) → Settled r (.ask (.tell note) next)

/-- There is one result then. -/
theorem Settled.unique {r r' : Except Fault α} {p : Plan α} (h : p.Settled r)
    (h' : p.Settled r') : r = r' := by
  induction h with
  | done =>
      cases h'
      rfl
  | tell _ ih =>
      cases h' with
      | tell h' => exact ih h'

end Plan

namespace Stance

variable {α : Type}

/-- Whether a property holds of the plan that is left, and the cluster is not asked at present. -/
def Idly (P : Plan α → Prop) : Stance α → Prop
  | .ready p => P p
  | .asking q next => q.isCall = false ∧ P (.ask q next)
  | .cancelled => False

/-- Whether all that is left to do is to write to the log and to end with a result. -/
def Settled (r : Except Fault α) (st : Stance α) : Prop :=
  st.Idly (Plan.Settled r)

theorem Settled.unique {r r' : Except Fault α} {st : Stance α} (h : st.Settled r)
    (h' : st.Settled r') : r = r' := by
  cases st with
  | ready p => exact Plan.Settled.unique h h'
  | asking q next => exact Plan.Settled.unique h.2 h'.2
  | cancelled => cases h

/-- Nothing passes then but notes, and the result stays what it is. -/
theorem Settled.moves {r : Except Fault α} {st st' : Stance α} {new : List Exchange}
    (h : st.Settled r) (hm : st.Moves new st') :
    st'.Settled r ∧ ∃ note, new = [.asked (.tell note)] ∨ new = [.told (.tell note) ()] := by
  cases hm with
  | ask q next =>
      cases h with
      | tell hnext => exact ⟨⟨rfl, .tell hnext⟩, _, .inl rfl⟩
  | answer q next a =>
      cases h.2 with
      | tell hnext => exact ⟨hnext, _, .inr rfl⟩
  | wait rid ns timeout next r => cases h
  | @cancelCall q next hcall =>
      rw [h.1] at hcall
      cases hcall
  | cancelWait rid ns timeout next => cases h

end Stance

end LiveCluster
