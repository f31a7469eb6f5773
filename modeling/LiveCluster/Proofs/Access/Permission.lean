import LiveCluster.Proofs.Access.Mandate
import LiveCluster.Proofs.Access.Together

/-!
# The gate fails closed

A request for several verbs has them reviewed one after another, and each answer decides
whether there is a next review. Only the answer yes leads on; any other answer is what
comes of the whole request, and the verbs that are left are not asked about. Where no
verb is left the request is allowed if there was one at all.

The cluster may answer each review as it likes at the time. `Gate.Stage` tells how far a
request has come from what has passed between it and the cluster; nothing else enters
there, and no earlier request in particular.
-/

namespace LiveCluster.Gate

open Invocation (history)
open Exchange (calls)

variable {ns : String} {rid : ResourceId} {verbs : List String}

/-- The question whether a verb is allowed on a kind. -/
def review (ns : String) (rid : ResourceId) (verb : String) : Ask :=
  .review ns rid.group rid.resource verb

/-- What passes when a verb is reviewed. -/
def reviewed (ns : String) (rid : ResourceId) (verb : String) (answer : Except Fault Bool) :
    List Exchange :=
  [.asked (review ns rid verb), .told (review ns rid verb) answer]

/-- What passes when verbs are reviewed one after another and all of them are allowed. -/
def cleared (ns : String) (rid : ResourceId) (verbs : List String) : List Exchange :=
  verbs.flatMap fun verb => reviewed ns rid verb (.ok true)

theorem cleared_concat (before : List String) (verb : String) :
    cleared ns rid (before ++ [verb]) =
      cleared ns rid before ++ reviewed ns rid verb (.ok true) := by
  simp [cleared]

/-- Two things pass for each verb. -/
theorem length_cleared (verbs : List String) :
    (cleared ns rid verbs).length = 2 * verbs.length := by
  induction verbs with
  | nil => rfl
  | cons verb rest ih =>
      rw [cleared, List.flatMap_cons, ← cleared, List.length_append, ih]
      simp only [reviewed, List.length_cons, List.length_nil]
      omega

/-- All reviews in it were answered with yes. -/
theorem eq_true_of_mem_cleared {ns' group resource verb : String} {answer : Except Fault Bool}
    (h : .told (.review ns' group resource verb) answer ∈ cleared ns rid verbs) :
    answer = .ok true := by
  obtain ⟨verb', -, hmem⟩ := List.mem_flatMap.1 h
  rw [reviewed, List.mem_cons, List.mem_singleton] at hmem
  rcases hmem with heq | heq
  · cases heq
  · cases heq
    rfl

/-- How a request goes on when a review is answered: with the verbs that are left if the verb is
allowed, and else with nothing but that answer. -/
structure Turns (ns : String) (rid : ResourceId) (rest : List String)
    (next : Except Fault Bool → Plan Bool) : Prop where
  allowed : next (.ok true) = allVerbs ns rid true rest
  stopped : ∀ answer, answer ≠ .ok true → (next answer).Settled answer

theorem allVerbs_cons (ns : String) (rid : ResourceId) (asked : Bool) (verb : String)
    (rest : List String) :
    ∃ next, allVerbs ns rid asked (verb :: rest) = .ask (review ns rid verb) next ∧
      Turns ns rid rest next := by
  refine ⟨_, rfl, rfl, ?_⟩
  intro answer hanswer
  cases answer with
  | error fault => exact .done
  | ok allowed =>
      cases allowed with
      | true => exact absurd rfl hanswer
      | false => exact .tell .done

/-- How far a request has come, from what has passed between it and the cluster. -/
inductive Stage (ns : String) (rid : ResourceId) (verbs : List String) :
    List Exchange → Stance Bool → Prop
  /-- Some verbs are allowed, and the next one is due. -/
  | due {before after : List String} : verbs = before ++ after →
      Stage ns rid verbs (cleared ns rid before)
        (.ready (allVerbs ns rid (!before.isEmpty) after))
  /-- A verb is being reviewed, or was when the request was cancelled. -/
  | reviewing {before after : List String} {verb : String} {st : Stance Bool} :
      verbs = before ++ verb :: after →
      (st = .cancelled ∨ ∃ next, st = .asking (review ns rid verb) next ∧ Turns ns rid after next) →
      Stage ns rid verbs (cleared ns rid before ++ [.asked (review ns rid verb)]) st
  /-- A verb was denied, or its review failed. -/
  | stopped {before after : List String} {verb : String} {answer : Except Fault Bool}
      {st : Stance Bool} :
      verbs = before ++ verb :: after → answer ≠ .ok true → st.Settled answer →
      Stage ns rid verbs (cleared ns rid before ++ reviewed ns rid verb answer) st

variable {es new : List Exchange} {st st' : Stance Bool}

/-- A move leads from stage to stage. -/
theorem Stage.moves (h : Stage ns rid verbs es st) (hm : st.Moves new st') :
    Stage ns rid verbs (es ++ calls new) st' := by
  cases h with
  | @due before after hverbs =>
      cases after with
      | nil => cases hm
      | cons verb after =>
          obtain ⟨next, hplan, hnext⟩ := allVerbs_cons ns rid (!before.isEmpty) verb after
          rw [hplan] at hm
          cases hm with
          | ask _ _ => exact .reviewing hverbs (.inr ⟨next, rfl, hnext⟩)
  | @reviewing before after verb _ hverbs hst =>
      rcases hst with rfl | ⟨next, rfl, hnext⟩
      · cases hm
      · cases hm with
        | answer _ _ answer =>
            rw [List.append_assoc]
            by_cases hanswer : answer = .ok true
            · subst hanswer
              have hbefore : verbs = (before ++ [verb]) ++ after := by simpa using hverbs
              have hasked : (!(before ++ [verb]).isEmpty) = true := by simp
              have hdue : Stage ns rid verbs _ _ := .due hbefore
              rw [cleared_concat, hasked] at hdue
              rw [hnext.allowed]
              exact hdue
            · exact .stopped hverbs hanswer (hnext.stopped answer hanswer)
        | cancelCall _ _ => exact (List.append_nil _).symm ▸ .reviewing hverbs (.inl rfl)
  | stopped hverbs hanswer hst =>
      obtain ⟨hst', note, rfl | rfl⟩ := hst.moves hm
      · exact (List.append_nil _).symm ▸ .stopped hverbs hanswer hst'
      · exact (List.append_nil _).symm ▸ .stopped hverbs hanswer hst'

/-- So whatever passes, a request is at one of the stages. -/
theorem stage_of_follows (h : (allows ns rid verbs).Follows es st) :
    Stage ns rid verbs (calls es) st := by
  induction h with
  | start =>
      have hdue : Stage ns rid verbs (cleared ns rid []) _ := .due rfl
      exact hdue
  | @move es new st st' _ hm ih =>
      rw [Exchange.calls_append]
      exact ih.moves hm

/-! ## What the stages say -/

/-- Reviews that were not all answered with yes are told from those that were. -/
theorem Stage.of_cleared (h : Stage ns rid verbs (cleared ns rid verbs) st) :
    st = .ready (.done (.ok (!verbs.isEmpty))) := by
  generalize hes : cleared ns rid verbs = es at h
  have hlength := congrArg List.length hes
  rw [length_cleared] at hlength
  cases h with
  | @due before after hverbs =>
      rw [length_cleared, hverbs, List.length_append] at hlength
      have hafter : after = [] := List.eq_nil_of_length_eq_zero (by omega)
      rw [hverbs, hafter, List.append_nil]
      rfl
  | reviewing hverbs hst =>
      rw [List.length_append, length_cleared, List.length_singleton] at hlength
      omega
  | @stopped before after verb answer _ hverbs hanswer hst =>
      refine absurd ?_ hanswer
      have hmem : .told (review ns rid verb) answer ∈ cleared ns rid verbs := by
        rw [hes]
        exact List.mem_append_right _ (List.mem_cons_of_mem _ List.mem_cons_self)
      exact eq_true_of_mem_cleared hmem

/-- A request is allowed exactly if it has verbs and each of them was reviewed and allowed. -/
theorem Stage.settled_true_iff (h : Stage ns rid verbs es st) :
    st.Settled (.ok true) ↔ verbs ≠ [] ∧ es = cleared ns rid verbs := by
  constructor
  · intro hst
    cases h with
    | @due before after hverbs =>
        cases after with
        | nil =>
            rw [List.append_nil] at hverbs
            subst hverbs
            have hasked : Except.ok (ε := Fault) true = .ok (!verbs.isEmpty) := hst.unique .done
            refine ⟨?_, rfl⟩
            rintro rfl
            cases hasked
        | cons verb after =>
            obtain ⟨next, hplan, -⟩ := allVerbs_cons ns rid (!before.isEmpty) verb after
            rw [hplan] at hst
            cases hst
    | reviewing hverbs hst' =>
        rcases hst' with rfl | ⟨next, rfl, -⟩
        · cases hst
        · cases hst.1
    | stopped hverbs hanswer hst' => exact absurd (hst'.unique hst) hanswer
  · rintro ⟨hne, rfl⟩
    have hnonempty : (!verbs.isEmpty) = true := by simpa using hne
    rw [h.of_cleared, hnonempty]
    exact .done

/-- The first answer other than yes is the last there is, and it is what comes of the request. -/
theorem Stage.of_answer {ns' group resource verb : String} {answer : Except Fault Bool}
    (h : Stage ns rid verbs es st) (hmem : .told (.review ns' group resource verb) answer ∈ es)
    (hanswer : answer ≠ .ok true) :
    ∃ before after, verbs = before ++ verb :: after ∧
      es = cleared ns rid before ++ reviewed ns rid verb answer ∧ st.Settled answer := by
  cases h with
  | due hverbs => exact absurd (eq_true_of_mem_cleared hmem) hanswer
  | reviewing hverbs hst =>
      rcases List.mem_append.1 hmem with hmem | hmem
      · exact absurd (eq_true_of_mem_cleared hmem) hanswer
      · cases List.mem_singleton.1 hmem
  | @stopped before after verb' answer' _ hverbs hanswer' hst =>
      rcases List.mem_append.1 hmem with hmem | hmem
      · exact absurd (eq_true_of_mem_cleared hmem) hanswer
      · rw [reviewed, List.mem_cons, List.mem_singleton] at hmem
        rcases hmem with heq | heq
        · cases heq
        · cases heq
          exact ⟨before, after, hverbs, rfl, hst⟩

/-- As long as nothing is settled there is a next verb. It is about to be reviewed, or it is
being reviewed, unless the request was cancelled meanwhile. -/
theorem Stage.settled_or_pending (h : Stage ns rid verbs es st) :
    (∃ result, st.Settled result) ∨ ∃ before verb after, verbs = before ++ verb :: after ∧
      (es = cleared ns rid before ∧ (∃ next, st = .ready (.ask (review ns rid verb) next)) ∨
        es = cleared ns rid before ++ [.asked (review ns rid verb)] ∧
          (st = .cancelled ∨ ∃ next, st = .asking (review ns rid verb) next)) := by
  cases h with
  | @due before after hverbs =>
      cases after with
      | nil => exact .inl ⟨_, .done⟩
      | cons verb after =>
          obtain ⟨next, hplan, -⟩ := allVerbs_cons ns rid (!before.isEmpty) verb after
          exact .inr ⟨before, verb, after, hverbs, .inl ⟨rfl, next, congrArg Stance.ready hplan⟩⟩
  | @reviewing before after verb _ hverbs hst =>
      refine .inr ⟨before, verb, after, hverbs, .inr ⟨rfl, ?_⟩⟩
      exact hst.imp id fun ⟨next, hasking, _⟩ => ⟨next, hasking⟩
  | stopped _ _ hst => exact .inl ⟨_, hst⟩

variable {trace : List (Nat × Exchange)} {plans : List (Plan Bool × Stance Bool)} {n : Nat}
  {subject : Subject}

/-- Any number of requests may have been made before, or be made at the same time. Of each request
for verbs on a kind, or on a text that names one, it holds: it is allowed exactly if it has verbs,
and each of them was reviewed in this request, in order, and allowed. The first review that is
answered otherwise, with no or with a fault, is the last, and its answer is what comes of the
request. Without verbs nothing is reviewed or allowed. And as long as nothing is settled, a verb is
due or under review, or was when the request was cancelled. -/
theorem fails_closed (h : Plan.Together trace plans)
    (hn : plans[n]? = some (permits ns subject verbs, st)) (hrid : subject.read = .ok rid) :
    (st.Settled (.ok true) ↔
        verbs ≠ [] ∧ calls (history n trace) = cleared ns rid verbs) ∧
      (∀ ns' group resource verb answer,
        .told (.review ns' group resource verb) answer ∈ history n trace → answer ≠ .ok true →
        ∃ before after, verbs = before ++ verb :: after ∧
          calls (history n trace) = cleared ns rid before ++ reviewed ns rid verb answer ∧
          st.Settled answer) ∧
      (verbs = [] → st.Settled (.ok false) ∧ calls (history n trace) = []) ∧
      ((∃ result, st.Settled result) ∨ ∃ before verb after, verbs = before ++ verb :: after ∧
        (calls (history n trace) = cleared ns rid before ∧
            (∃ next, st = .ready (.ask (review ns rid verb) next)) ∨
          calls (history n trace) = cleared ns rid before ++ [.asked (review ns rid verb)] ∧
            (st = .cancelled ∨ ∃ next, st = .asking (review ns rid verb) next))) := by
  have hplan : permits ns subject verbs = allows ns rid verbs := by
    rw [permits, hrid]
    rfl
  have hfollows := h.follows hn
  rw [hplan] at hfollows
  have hstage := stage_of_follows hfollows
  refine ⟨hstage.settled_true_iff, ?_, ?_, hstage.settled_or_pending⟩
  · intro ns' group resource verb answer hmem hanswer
    exact hstage.of_answer (Exchange.mem_calls hmem rfl) hanswer
  · rintro rfl
    have hnothing : calls (history n trace) = [] := by
      generalize calls (history n trace) = es at hstage
      cases hstage with
      | due hverbs => rw [(List.nil_eq_append_iff.1 hverbs).1]; rfl
      | reviewing hverbs _ => simp at hverbs
      | stopped hverbs _ _ => simp at hverbs
    rw [hnothing] at hstage
    refine ⟨?_, hnothing⟩
    rw [Stage.of_cleared hstage]
    exact .done

/-- Deleting is denied to one request, which does not go on to its other verb, and allowed to
another one afterwards. -/
theorem fails_closed_changing :
    ∃ trace st st', Plan.Together trace
        [(permits "a" (.written "v1/pods") ["delete", "get"], st),
          (permits "a" (.kind .pods) ["get", "delete"], st')] ∧
      st.Settled (.ok false) ∧
      calls (history 0 trace) = reviewed "a" .pods "delete" (.ok false) ∧
      st'.Settled (.ok true) ∧
      calls (history 1 trace) = cleared "a" .pods ["get", "delete"] := by
  have hbegun := (Plan.Together.idle.begins
    (permits "a" (.written "v1/pods") ["delete", "get"])).begins
    (permits "a" (.kind .pods) ["get", "delete"])
  have hlook := (hbegun.moves (n := 1) rfl (.ask _ _)).moves (n := 1) rfl
    (.answer _ _ (.ok true : Except Fault Bool))
  have hdenied := (hlook.moves (n := 0) rfl (.ask _ _)).moves (n := 0) rfl
    (.answer _ _ (.ok false : Except Fault Bool))
  have hallowed := (hdenied.moves (n := 1) rfl (.ask _ _)).moves (n := 1) rfl
    (.answer _ _ (.ok true : Except Fault Bool))
  refine ⟨_, _, _, hallowed, ?_, rfl, ?_, rfl⟩
  · have hread : (Subject.written "v1/pods").read = .ok .pods := rfl
    have hfirst := (fails_closed hallowed (n := 0) rfl hread).2.1 "a" "" "pods" "delete"
      (.ok false) (.tail _ (.head _)) (by simp)
    obtain ⟨_, _, _, _, hsettled⟩ := hfirst
    exact hsettled
  · exact (fails_closed hallowed (n := 1) rfl rfl).1.2 ⟨by simp, rfl⟩

end LiveCluster.Gate
