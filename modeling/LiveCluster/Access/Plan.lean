import LiveCluster.Fault
import LiveCluster.Instant
import LiveCluster.Log.Record
import LiveCluster.Resource.Id
import LiveCluster.Selector
import LiveCluster.Snapshot
import LiveCluster.Transport.Call

/-!
# Plans

What an operation on the cluster does is written as a plan: questions to its
surroundings, one after another, each of which may depend on the answers so far, and
a result. A plan does nothing by itself, so what it does can be said of every way in
which its surroundings may answer.

All questions but one are answered on the spot. The one that is not asks for the
cache of a scope to be filled for the first time, and an operation may be cancelled
while it waits for that.
-/

namespace LiveCluster

/-- A question that is answered on the spot. -/
inductive Ask where
  /-- The cached object at a path. -/
  | object (rid : ResourceId) (path : String)
  /-- The cached objects of a scope that a selector selects, or all of them. -/
  | objects (rid : ResourceId) (ns : String) (selector : Option Selector)
  /-- Whether the cache that serves a scope is stale. -/
  | stale (rid : ResourceId) (ns : String)
  /-- Whether the objects of a kind live in namespaces. -/
  | namespaced (rid : ResourceId)
  /-- Whether the cluster allows something. -/
  | review (ns group resource verb : String)
  | mutate (rid : ResourceId) (ns : String) (mutation : Transport.Mutation)
  | now
  | tell (note : Note)

/-- What the answer to a question is. -/
@[reducible] def Ask.Answer : Ask → Type
  | .object .. => Option Snapshot
  | .objects .. => List Snapshot
  | .stale .. => Bool
  | .namespaced _ => Bool
  | .review .. => Except Fault Bool
  | .mutate .. => Except Fault Value
  | .now => Instant
  | .tell _ => Unit

inductive Plan (α : Type) where
  | done (result : Except Fault α)
  | ask (question : Ask) (next : question.Answer → Plan α)
  /-- Waits until the cache of a scope has been filled once, for the given time or as
  long as is configured, and says whether it was. -/
  | sync (rid : ResourceId) (ns : String) (timeout : Option Float)
      (next : Except Fault Bool → Plan α)

namespace Plan

variable {α β : Type}

/-- One plan after another; a fault ends both. -/
def bind : Plan α → (α → Plan β) → Plan β
  | .done (.ok a), f => f a
  | .done (.error fault), _ => .done (.error fault)
  | .ask question next, f => .ask question fun answer => (next answer).bind f
  | .sync rid ns timeout next, f => .sync rid ns timeout fun answer => (next answer).bind f

instance : Monad Plan where
  pure a := .done (.ok a)
  bind := bind

/-- A plan that is followed by its result alone is itself. -/
theorem bind_pure (p : Plan α) : p.bind (fun a => .done (.ok a)) = p := by
  induction p with
  | done result => cases result <;> rfl
  | ask question next ih => rw [bind, funext ih]
  | sync rid ns timeout next ih => rw [bind, funext ih]

/-- Of three plans in a row it does not matter which two are taken together. -/
theorem bind_assoc {γ : Type} (p : Plan α) (f : α → Plan β) (g : β → Plan γ) :
    (p.bind f).bind g = p.bind fun a => (f a).bind g := by
  induction p with
  | done result => cases result <;> rfl
  | ask question next ih => rw [bind, bind, bind, funext ih]
  | sync rid ns timeout next ih => rw [bind, bind, bind, funext ih]

instance : LawfulMonad Plan :=
  LawfulMonad.mk' Plan bind_pure (fun _ _ => rfl) bind_assoc

/-- Fails. -/
def fail (fault : Fault) : Plan α :=
  .done (.error fault)

/-- What is known without asking. -/
def known (result : Except Fault α) : Plan α :=
  .done result

/-- Asks a question. -/
def asking (question : Ask) : Plan question.Answer :=
  .ask question fun answer => .done (.ok answer)

def object (rid : ResourceId) (path : String) : Plan (Option Snapshot) :=
  asking (.object rid path)

def objects (rid : ResourceId) (ns : String) (selector : Option Selector) :
    Plan (List Snapshot) :=
  asking (.objects rid ns selector)

def stale (rid : ResourceId) (ns : String) : Plan Bool :=
  asking (.stale rid ns)

def namespaced (rid : ResourceId) : Plan Bool :=
  asking (.namespaced rid)

def review (ns group resource verb : String) : Plan Bool :=
  .ask (.review ns group resource verb) .done

def now : Plan Instant :=
  asking .now

def tell (note : Note) : Plan Unit :=
  asking (.tell note)

/-- Waits for the first listing of a scope. -/
def synced (rid : ResourceId) (ns : String) (timeout : Option Float) : Plan Bool :=
  .sync rid ns timeout .done

end Plan

end LiveCluster
