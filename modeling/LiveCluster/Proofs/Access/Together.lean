import LiveCluster.Proofs.Access.Exchange

/-!
# Plans that are carried out at the same time

Any number of plans may be carried out at the same time, and each of them moves when it
likes. They share nothing but the surroundings that answer them. So whatever else has
passed, earlier or in between, what passes in one of them is what this plan allows by
itself, and `Plan.Together.follows` hands over to what is known of single plans.
-/

namespace LiveCluster

namespace Invocation

/-- What has passed in one operation. -/
def history (n : Nat) (trace : List (Nat × Exchange)) : List Exchange :=
  trace.filterMap fun (k, e) => if k = n then some e else none

theorem history_append (n : Nat) (trace trace' : List (Nat × Exchange)) :
    history n (trace ++ trace') = history n trace ++ history n trace' :=
  List.filterMap_append ..

theorem history_own (n : Nat) (new : List Exchange) :
    history n (new.map fun e => (n, e)) = new := by
  induction new with
  | nil => rfl
  | cons e rest ih =>
      rw [List.map_cons, history, List.filterMap_cons]
      dsimp only
      rw [if_pos rfl]
      exact congrArg (e :: ·) ih

theorem history_other {n k : Nat} (h : k ≠ n) (new : List Exchange) :
    history n (new.map fun e => (k, e)) = [] := by
  rw [history, List.filterMap_map]
  exact List.filterMap_eq_nil_iff.2 fun e _ => if_neg h

/-- Nothing has passed in an operation that has not begun. -/
theorem history_later {n : Nat} {trace : List (Nat × Exchange)} (h : ∀ x ∈ trace, x.1 < n) :
    history n trace = [] := by
  rw [history, List.filterMap_eq_nil_iff]
  intro x hx
  exact if_neg (Nat.ne_of_lt (h x hx))

end Invocation

namespace Plan

open Invocation (history history_append history_own history_other history_later)

variable {α : Type}

/-- What has passed in plans that are carried out at the same time, each known by its number, and
where they stand. Any of them may move at any time, and new ones may begin. -/
inductive Together : List (Nat × Exchange) → List (Plan α × Stance α) → Prop
  | idle : Together [] []
  | begins {trace : List (Nat × Exchange)} {plans : List (Plan α × Stance α)} (p : Plan α) :
      Together trace plans → Together trace (plans ++ [(p, .ready p)])
  | moves {trace : List (Nat × Exchange)} {plans : List (Plan α × Stance α)} {n : Nat}
      {p : Plan α} {st st' : Stance α} {new : List Exchange} :
      Together trace plans → plans[n]? = some (p, st) → st.Moves new st' →
      Together (trace ++ new.map fun e => (n, e)) (plans.set n (p, st'))

variable {trace : List (Nat × Exchange)} {plans : List (Plan α × Stance α)} {n : Nat}
  {p : Plan α} {st : Stance α}

theorem Together.lt (h : Together trace plans) : ∀ x ∈ trace, x.1 < plans.length := by
  induction h with
  | idle => simp
  | begins p _ ih =>
      intro x hx
      rw [List.length_append]
      exact Nat.lt_add_right _ (ih x hx)
  | @moves trace plans k p st st' new _ hk _ ih =>
      intro x hx
      rw [List.length_set]
      rcases List.mem_append.1 hx with hx | hx
      · exact ih x hx
      · obtain ⟨e, -, rfl⟩ := List.mem_map.1 hx
        exact (List.getElem?_eq_some_iff.1 hk).1

/-- What passes in one plan is what it allows by itself. -/
theorem Together.follows (h : Together trace plans) (hn : plans[n]? = some (p, st)) :
    p.Follows (history n trace) st := by
  induction h generalizing p st with
  | idle => cases hn
  | @begins trace plans q h ih =>
      rw [List.getElem?_append] at hn
      split at hn
      · exact ih hn
      · next hlt =>
          rw [List.getElem?_singleton] at hn
          split at hn
          · cases hn
            rw [history_later fun x hx => Nat.lt_of_lt_of_le (h.lt x hx) (Nat.le_of_not_lt hlt)]
            exact .start
          · cases hn
  | @moves trace plans k q st₀ st' new _ hk hmoves ih =>
      rw [history_append]
      by_cases hkn : k = n
      · subst hkn
        rw [List.getElem?_set_self', hk] at hn
        cases hn
        rw [history_own]
        exact (ih hk).move hmoves
      · rw [List.getElem?_set_ne hkn] at hn
        rw [history_other hkn, List.append_nil]
        exact ih hn

end Plan

end LiveCluster
