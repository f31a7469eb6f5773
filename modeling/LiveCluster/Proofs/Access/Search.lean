import LiveCluster.Proofs.Access.Authorization
import LiveCluster.Proofs.Access.Labels

/-!
# Looking for the pods of a workload

Who wants the pods of a workload, be it to tail them or to name one of them, does the same:
the workload is looked up, and if it can be used its pods are looked up by its selector. What is
made of the pods is all that differs. So it is said once what passes on the way.
-/

namespace LiveCluster

variable {α : Type}

/-! ## The search -/

namespace Accessor

/-- Looks for the pods of a workload, unless it is refused, and ends with what is made of them. -/
def search (a : Accessor) (kind : Kind) (path : String) (refusal : Option Fault)
    (finish : Selector → List Snapshot → Except Fault α) : Plan α :=
  .sync a.rid (nsOf path) none fun
    | .error fault => .done (.error fault)
    | .ok _ => .ask (.object a.rid path) fun object =>
      match a.usable kind path object with
      | .error fault => .done (.error fault)
      | .ok (_, selector) =>
        match refusal with
        | some fault => .done (.error fault)
        | none => .sync .pods (nsOf path) none fun
          | .error fault => .done (.error fault)
          | .ok _ => .ask (.objects .pods (nsOf path) (some selector)) fun rows =>
            .done (finish selector rows)

variable {a : Accessor} {kind : Kind} {path : String} {refusal : Option Fault}
  {finish : Selector → List Snapshot → Except Fault α} {es : List Exchange} {st : Stance α}

/-- A plan has not got to its last question, and is over only if a cache could not be watched. -/
def Unmet (es : List Exchange) (st : Stance α) : Prop :=
  ∀ result, st = .ready (.done result) →
    ∃ fault, result = .error fault ∧ .waited (.error fault) ∈ es

/-- What is at the path of a workload is of no use, or it is and the search is refused. -/
def Unfit (a : Accessor) (kind : Kind) (path : String) (refusal : Option Fault)
    (object : Option Snapshot) (fault : Fault) : Prop :=
  a.usable kind path object = .error fault ∨
    (∃ x, a.usable kind path object = .ok x) ∧ refusal = some fault

/-- How far a search is, and what has passed. -/
inductive Searched (a : Accessor) (kind : Kind) (path : String) (refusal : Option Fault)
    (finish : Selector → List Snapshot → Except Fault α) : List Exchange → Stance α → Prop
  | unread {es : List Exchange} {st : Stance α}
      (passed : ∀ e ∈ es, (∃ r, e = .waited r) ∨ e = .asked (.object a.rid path))
      (unmet : Unmet es st) : Searched a kind path refusal finish es st
  | unfit {r : Except Fault Bool} {object : Option Snapshot} {fault : Fault}
      (reason : Unfit a kind path refusal object fault) :
      Searched a kind path refusal finish
        [.waited r, .asked (.object a.rid path), .told (.object a.rid path) object]
        (.ready (.done (.error fault)))
  | unlisted {r : Except Fault Bool} {object : Option Snapshot} {v : Value} {selector : Selector}
      {es : List Exchange} {st : Stance α} (usable : a.usable kind path object = .ok (v, selector))
      (passed : ∀ e ∈ es, (∃ r, e = .waited r) ∨
        e = .asked (.objects .pods (nsOf path) (some selector)))
      (unmet : Unmet es st) : Searched a kind path refusal finish
        (.waited r :: .asked (.object a.rid path) :: .told (.object a.rid path) object :: es) st
  | listed {r r' : Except Fault Bool} {object : Option Snapshot} {v : Value} {selector : Selector}
      {rows : List Snapshot} (usable : a.usable kind path object = .ok (v, selector))
      (accepted : refusal = none) : Searched a kind path refusal finish
        [.waited r, .asked (.object a.rid path), .told (.object a.rid path) object, .waited r',
          .asked (.objects .pods (nsOf path) (some selector)),
          .told (.objects .pods (nsOf path) (some selector)) rows]
        (.ready (.done (finish selector rows)))

/-- Every plan that is a search gets on like one. -/
theorem searched_of_follows (h : (a.search kind path refusal finish).Follows es st) :
    Searched a kind path refusal finish es st := by
  rcases h.of_sync with ⟨rfl, rfl | rfl⟩ | ⟨r, es, rfl, hprimed⟩
  · exact .unread (by simp) (by simp [Unmet])
  · exact .unread (by simp) (by simp [Unmet])
  cases r with
  | error fault =>
      obtain ⟨rfl, rfl⟩ := hprimed.of_done
      exact .unread (by simp) (by simp [Unmet])
  | ok primed =>
      rcases hprimed.of_ask with ⟨rfl, rfl⟩ | ⟨rfl, rfl | rfl⟩ | ⟨object, es, rfl, hread⟩
      · exact .unread (by simp) (by simp [Unmet])
      · exact .unread (by simp) (by simp [Unmet])
      · exact .unread (by simp) (by simp [Unmet])
      cases husable : a.usable kind path object with
      | error fault =>
          rw [husable] at hread
          obtain ⟨rfl, rfl⟩ := hread.of_done
          exact .unfit (.inl husable)
      | ok x =>
          obtain ⟨v, selector⟩ := x
          rw [husable] at hread
          cases refusal with
          | some fault =>
              obtain ⟨rfl, rfl⟩ := hread.of_done
              exact .unfit (.inr ⟨⟨_, husable⟩, rfl⟩)
          | none =>
              rcases hread.of_sync with ⟨rfl, rfl | rfl⟩ | ⟨r', es, rfl, hfilled⟩
              · exact .unlisted husable (by simp) (by simp [Unmet])
              · exact .unlisted husable (by simp) (by simp [Unmet])
              cases r' with
              | error fault =>
                  obtain ⟨rfl, rfl⟩ := hfilled.of_done
                  exact .unlisted husable (by simp) (by simp [Unmet])
              | ok filled =>
                  rcases hfilled.of_ask with ⟨rfl, rfl⟩ | ⟨rfl, rfl | rfl⟩ | ⟨rows, es, rfl, hlast⟩
                  · exact .unlisted husable (by simp) (by simp [Unmet])
                  · exact .unlisted husable (by simp) (by simp [Unmet])
                  · exact .unlisted husable (by simp) (by simp [Unmet])
                  · obtain ⟨rfl, rfl⟩ := hlast.of_done
                    exact .listed husable rfl

/-! ## What follows from where a search is -/

/-- Whoever is told of pods has asked for those that the workload's selector selects, and ends with
what is made of them. -/
theorem Searched.told_pods (h : Searched a kind path refusal finish es st) {rid : ResourceId}
    {ns : String} {wanted : Option Selector} {rows : List Snapshot}
    (htold : .told (.objects rid ns wanted) rows ∈ es) :
    rid = .pods ∧ ns = nsOf path ∧ ∃ object v selector, wanted = some selector ∧
      .told (.object a.rid path) object ∈ es ∧ a.usable kind path object = .ok (v, selector) ∧
      refusal = none ∧ st = .ready (.done (finish selector rows)) := by
  cases h with
  | unread hpassed => rcases hpassed _ htold with ⟨r, hr⟩ | hr <;> cases hr
  | unfit => simp at htold
  | unlisted husable hpassed =>
      simp only [List.mem_cons, reduceCtorEq, Exchange.told.injEq, false_and, false_or] at htold
      rcases hpassed _ htold with ⟨r, hr⟩ | hr <;> cases hr
  | @listed r r' object v selector rows' husable haccepted =>
      have hsame : (Exchange.told (.objects rid ns wanted) rows) =
          .told (.objects .pods (nsOf path) (some selector)) rows' := by
        simpa using htold
      cases hsame
      exact ⟨rfl, rfl, object, v, selector, rfl, by simp, husable, haccepted, rfl⟩

/-- Whoever is told of a workload of no use fails for that reason, and asks for no pods. -/
theorem Searched.of_unfit (h : Searched a kind path refusal finish es st)
    {object : Option Snapshot} {fault : Fault} (htold : .told (.object a.rid path) object ∈ es)
    (hunfit : a.usable kind path object = .error fault) :
    st = .ready (.done (.error fault)) ∧
      ∀ rid ns wanted, .asked (.objects rid ns wanted) ∉ es := by
  have hsame : ∀ {object' : Option Snapshot},
      (Exchange.told (.object a.rid path) object) = .told (.object a.rid path) object' →
      a.usable kind path object' = .error fault := by
    rintro _ ⟨⟩
    exact hunfit
  cases h with
  | unread hpassed => rcases hpassed _ htold with ⟨r, hr⟩ | hr <;> cases hr
  | unfit hreason =>
      have husable := hsame (by simpa using htold)
      rw [Unfit, husable] at hreason
      obtain hfault | ⟨⟨x, hx⟩, -⟩ := hreason
      · cases hfault
        exact ⟨rfl, by simp⟩
      · cases hx
  | unlisted husable hpassed =>
      simp only [List.mem_cons, reduceCtorEq, false_or] at htold
      rcases htold with htold | htold
      · cases husable.symm.trans (hsame htold)
      · rcases hpassed _ htold with ⟨r, hr⟩ | hr <;> cases hr
  | listed husable =>
      have hunusable := hsame (by simpa using htold)
      cases husable.symm.trans hunusable

/-- A search that is over could not watch a cache, has found nothing that it could use, or has been
told of the pods. -/
theorem Searched.of_over (h : Searched a kind path refusal finish es st) {result : Except Fault α}
    (hst : st = .ready (.done result)) :
    (∃ fault, result = .error fault ∧ .waited (.error fault) ∈ es) ∨
      (∃ object fault, result = .error fault ∧ .told (.object a.rid path) object ∈ es ∧
        Unfit a kind path refusal object fault) ∨
      ∃ selector rows, .told (.objects .pods (nsOf path) (some selector)) rows ∈ es ∧
        finish selector rows = result := by
  cases h with
  | unread _ hunmet => exact .inl (hunmet result hst)
  | @unfit r object fault hreason =>
      refine .inr (.inl ⟨object, fault, ?_, by simp, hreason⟩)
      cases hst
      rfl
  | unlisted _ _ hunmet =>
      obtain ⟨fault, hfault, hmem⟩ := hunmet result hst
      exact .inl ⟨fault, hfault, by simp [hmem]⟩
  | @listed r r' object v selector rows =>
      exact .inr (.inr ⟨selector, rows, by simp, by simpa using hst⟩)

/-- A search that succeeds has been told of the pods. -/
theorem Searched.of_success (h : Searched a kind path refusal finish es st) {x : α}
    (hst : st = .ready (.done (.ok x))) : ∃ selector rows,
      .told (.objects .pods (nsOf path) (some selector)) rows ∈ es ∧
      finish selector rows = .ok x := by
  rcases h.of_over hst with ⟨fault, hfault, -⟩ | ⟨object, fault, hfault, -⟩ | hlisted
  · cases hfault
  · cases hfault
  · exact hlisted

/-! ## The operations that look for pods -/

/-- Why an accessor cannot tail, if it cannot. -/
def noTailer (a : Accessor) : Option Fault :=
  match a.tailer with
  | none => some (.badState (.noTailer a.rid.kindText))
  | some _ => none

/-- That a workload has no pods. -/
def podless (path : String) (selector : Selector) : Fault :=
  .notFound ResourceId.pods.kindText (path ++ " (" ++ selector.render ++ ")")

/-- What a tail makes of the pods that it finds. -/
def tailOf (config : TailConfig) (options : TailOptions) (selector : Selector)
    (rows : List Snapshot) : Except Fault TailStart :=
  if rows.isEmpty then .error (podless options.path selector)
  else .ok ⟨Tailer.sorted rows,
    Tailer.withDefaults config { options with multiPods := decide (1 < rows.length) }⟩

/-- The path of the pod that is to stand for the others. -/
def firstOf (path : String) (selector : Selector) (rows : List Snapshot) : Except Fault String :=
  match Tailer.sorted rows with
  | pod :: _ => .ok pod.path
  | [] => .error (podless path selector)

theorem isEmpty_of_usable {object : Option Snapshot} {v : Value} {selector : Selector}
    (h : a.usable kind path object = .ok (v, selector)) : selector.isEmpty = false := by
  unfold usable at h
  split at h
  · cases h
  · split at h
    · cases h
    · split at h
      · cases h
      · split at h
        · cases h
        · next hsome =>
            cases h
            simpa using hsome

/-- A workload that can be used names labels, and its pods are selected by them. -/
theorem labels_of_usable {object : Option Snapshot} {v : Value} {selector : Selector}
    (hkind : kind.isWorkload = true) (h : a.usable kind path object = .ok (v, selector)) :
    ∃ workload labels, object = some workload ∧ kind.decode workload.raw = .ok v ∧
      Decoded.matchLabels v = .ofTexts labels ∧ labels ≠ [] ∧ selector = .ofPairs labels := by
  have hsome := isEmpty_of_usable h
  unfold usable at h
  split at h
  · cases h
  · next workload =>
      split at h
      · cases h
      · next v' hdecode =>
          obtain ⟨labels, hlabels⟩ := Decoded.matchLabels_eq hkind hdecode
          rw [hlabels, Selector.ofLabels_ofTexts] at h
          dsimp only at h
          split at h
          · cases h
          · cases h
            rw [Selector.isEmpty_ofPairs] at hsome
            exact ⟨workload, labels, rfl, hdecode, hlabels, by simpa using hsome, rfl⟩

/-- A workload that names no labels cannot be used. -/
theorem usable_of_unselective {workload : Snapshot} {v : Value}
    (hdecode : kind.decode workload.raw = .ok v)
    (hnone : v.at? ["spec", "selector", "matchLabels"] = .null ∨
      v.at? ["spec", "selector", "matchLabels"] = .record []) :
    a.usable kind path (some workload) = .error (.noSelector a.rid.kindText path) := by
  have hlabels : Decoded.matchLabels v = .record [] := by
    rw [Decoded.matchLabels]
    rcases hnone with hnone | hnone <;> rw [hnone] <;> rfl
  unfold usable
  dsimp only
  rw [hdecode]
  dsimp only
  rw [hlabels]
  rfl

/-- A plan that primes a workload and then looks it up. -/
theorem prime_bind {f : Value × Selector → Plan α}
    (hf : ∀ object v selector, a.usable kind path object = .ok (v, selector) → f (v, selector) =
      match refusal with
      | some fault => .done (.error fault)
      | none => .sync .pods (nsOf path) none fun
        | .error fault => .done (.error fault)
        | .ok _ => .ask (.objects .pods (nsOf path) (some selector)) fun rows =>
          .done (finish selector rows)) :
    (a.prime path).bind (fun _ => (a.selectorOf kind path).bind f) =
      a.search kind path refusal finish := by
  refine congrArg (Plan.sync a.rid (nsOf path) none) (funext fun r => ?_)
  cases r with
  | error fault => rfl
  | ok primed =>
      dsimp only [Plan.bind]
      rw [selectorOf_bind]
      refine congrArg (Plan.ask (.object a.rid path)) (funext fun object => ?_)
      cases husable : a.usable kind path object with
      | error fault => rfl
      | ok x => exact hf object x.1 x.2 husable

theorem tailWorkload_eq_search (options : TailOptions) : a.tailWorkload kind options =
    a.search kind options.path a.noTailer (tailOf (a.tailer.getD {}) options) := by
  refine prime_bind fun object v selector husable => ?_
  dsimp only [noTailer]
  cases a.tailer with
  | none => rfl
  | some config =>
      dsimp only
      unfold Tailer.ofSelector
      rw [isEmpty_of_usable husable, if_neg (by decide)]
      refine congrArg (Plan.sync .pods (nsOf options.path) none) (funext fun r => ?_)
      cases r with
      | error fault => rfl
      | ok filled =>
          refine congrArg (Plan.ask (.objects .pods (nsOf options.path) (some selector)))
            (funext fun rows => ?_)
          have hlength : (Tailer.sorted rows).length = rows.length := (sortBy_perm _ rows).length_eq
          have hempty : (Tailer.sorted rows).isEmpty = rows.isEmpty := by
            cases rows <;> cases hsorted : Tailer.sorted _ <;> simp_all
          dsimp only [Plan.bind, bind]
          rw [hempty, hlength, tailOf, Option.getD_some]
          split <;> rfl

theorem resolvePod_eq_search : a.resolvePod kind path =
    a.search kind path none (firstOf path) := by
  refine prime_bind fun object v selector husable => ?_
  refine congrArg (Plan.sync .pods (nsOf path) none) (funext fun r => ?_)
  cases r with
  | error fault => rfl
  | ok filled =>
      refine congrArg (Plan.ask (.objects .pods (nsOf path) (some selector)))
        (funext fun rows => ?_)
      dsimp only [Plan.bind, bind]
      rw [firstOf]
      cases Tailer.sorted rows <;> rfl

/-- What becomes of the result does not matter to the search. -/
theorem search_map {β : Type} (g : α → β) :
    (a.search kind path refusal finish).bind (fun x => .done (.ok (g x))) =
      a.search kind path refusal fun selector rows => (finish selector rows).map g := by
  refine congrArg (Plan.sync a.rid (nsOf path) none) (funext fun r => ?_)
  cases r with
  | error fault => rfl
  | ok primed =>
      refine congrArg (Plan.ask (.object a.rid path)) (funext fun object => ?_)
      dsimp only
      cases a.usable kind path object with
      | error fault => rfl
      | ok x =>
          cases refusal with
          | some fault => rfl
          | none =>
              refine congrArg (Plan.sync .pods (nsOf path) none) (funext fun r => ?_)
              cases r with
              | error fault => rfl
              | ok filled =>
                  refine congrArg (Plan.ask _) (funext fun rows => ?_)
                  show (Plan.done (finish x.2 rows)).bind _ = _
                  cases finish x.2 rows <;> rfl

end Accessor

end LiveCluster
