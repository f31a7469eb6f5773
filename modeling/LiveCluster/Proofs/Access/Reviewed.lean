import LiveCluster.Proofs.Access.Authorization

/-!
# Where a permission is reviewed and where it is used

A path may name a namespace although its kind has none. The review of a permission takes
the namespace of the path as it stands. The mutation goes out through the scope of its
kind, where a namespace is dropped that the kind does not have. So the two agree exactly
where nothing is dropped.

With which namespace a mutation goes out hangs on one answer of the surroundings, whether
the kind lives in namespaces. `Plan.Aims` follows a plan through all the answers that are
true to the kinds, and by `Plan.Aims.of_follows` such a plan sends its mutations nowhere
else, whatever passes besides.
-/

namespace LiveCluster

variable {α β : Type} {namespaced : ResourceId → Bool} {ns : String}

/-- Whether an answer is true to which kinds live in namespaces. -/
def Ask.TrueTo (namespaced : ResourceId → Bool) : (q : Ask) → q.Answer → Prop
  | .namespaced rid, answer => answer = namespaced rid
  | _, _ => True

/-- Whether a mutation goes to a namespace, or to none where its kind has none. -/
def Ask.Aimed (namespaced : ResourceId → Bool) (ns : String) : Ask → Prop
  | .mutate rid used _ => used = Forward.scopeNamespace (namespaced rid) ns
  | _ => True

/-- Whether all mutations of a plan go there, as long as it is told the truth about kinds. -/
def Plan.Aims (namespaced : ResourceId → Bool) (ns : String) : Plan α → Prop
  | .done _ => True
  | .ask q next =>
    q.Aimed namespaced ns ∧ ∀ answer, q.TrueTo namespaced answer → (next answer).Aims namespaced ns
  | .sync _ _ _ next => ∀ result, (next result).Aims namespaced ns

/-- The same of what is left of a plan that is carried out. -/
def Stance.Aims (namespaced : ResourceId → Bool) (ns : String) : Stance α → Prop
  | .ready p => p.Aims namespaced ns
  | .asking q next => ∀ answer, q.TrueTo namespaced answer → (next answer).Aims namespaced ns
  | .cancelled => True

namespace Plan.Aims

theorem bind {p : Plan α} {f : α → Plan β} (hp : p.Aims namespaced ns)
    (hf : ∀ a, (f a).Aims namespaced ns) : (p.bind f).Aims namespaced ns := by
  induction p with
  | done result =>
      cases result with
      | ok a => exact hf a
      | error fault => trivial
  | ask q next ih =>
      obtain ⟨haimed, hnext⟩ := hp
      refine ⟨haimed, ?_⟩
      intro answer htrue
      exact ih answer (hnext answer htrue)
  | sync rid ns' timeout next ih =>
      intro result
      exact ih result (hp result)

/-- Whatever passes, a plan sends its mutations where it aims. -/
theorem of_follows {p : Plan α} {es : List Exchange} {st : Stance α} (hp : p.Aims namespaced ns)
    (h : p.Follows es st)
    (htrue : ∀ rid answer, .told (.namespaced rid) answer ∈ es → answer = namespaced rid) :
    st.Aims namespaced ns ∧ ∀ q, .asked q ∈ es → q.Aimed namespaced ns := by
  induction h with
  | start => exact ⟨hp, by simp⟩
  | @move es new st st' _ hm ih =>
      have hbefore := ih fun rid answer hmem =>
        htrue rid answer (List.mem_append_left _ hmem)
      obtain ⟨hst, hasked⟩ := hbefore
      have hkept : (∀ q, .asked q ∈ new → q.Aimed namespaced ns) →
          ∀ q, .asked q ∈ es ++ new → q.Aimed namespaced ns := by
        intro hnew q hmem
        rcases List.mem_append.1 hmem with hold | hnow
        · exact hasked q hold
        · exact hnew q hnow
      cases hm with
      | ask q next =>
          obtain ⟨haimed, hnext⟩ := hst
          refine ⟨hnext, hkept ?_⟩
          intro q' hmem
          cases List.mem_singleton.1 hmem
          exact haimed
      | answer q next a =>
          refine ⟨hst a ?_, hkept (by simp)⟩
          cases q with
          | namespaced rid => exact htrue rid a (by simp)
          | _ => trivial
      | wait rid ns' timeout next r => exact ⟨hst r, hkept (by simp)⟩
      | cancelCall next hcall => exact ⟨trivial, hkept (by simp)⟩
      | cancelWait rid ns' timeout next => exact ⟨trivial, hkept (by simp)⟩

theorem tell (note : Note) : (Plan.tell note).Aims namespaced ns := ⟨trivial, fun _ _ => trivial⟩

/-- Asking for a permission sends nothing. -/
theorem require (ns' : String) (rid : ResourceId) (verb : String) :
    (Gate.require ns' rid verb).Aims namespaced ns := by
  refine ⟨trivial, ?_⟩
  intro answer _
  cases answer with
  | error fault => trivial
  | ok allowed =>
      cases allowed with
      | true => trivial
      | false => exact ⟨trivial, fun _ _ => trivial⟩

/-- A mutation is forwarded through the scope of its kind. -/
theorem mutation (m : Transport.Mutation) (rid : ResourceId) (name : String) :
    (Forward.mutation m rid ns name).Aims namespaced ns := by
  refine ⟨trivial, ?_⟩
  intro answer htrue
  have hanswer : answer = namespaced rid := htrue
  subst hanswer
  refine ⟨rfl, ?_⟩
  intro outcome _
  cases outcome with
  | ok result => exact ((tell _).bind fun _ => (tell _).bind fun _ => trivial)
  | error fault =>
      cases fault with
      | transport message status => exact ((tell _).bind fun _ => (tell _).bind fun _ => trivial)
      | _ => trivial

end Plan.Aims

namespace Invocation

/-- The path that an operation was called with. -/
def path : Invocation → String
  | .delete _ path _ => path
  | .restart _ _ path => path

theorem aims (i : Invocation) : i.plan.Aims namespaced (Path.split i.path).1 := by
  cases i with
  | delete a path options =>
      show (Accessor.delete a path options).Aims namespaced _
      unfold Accessor.delete
      split
      · trivial
      · exact (Plan.Aims.require _ _ _).bind fun _ =>
          (Plan.Aims.mutation _ _ _).bind fun _ => Plan.Aims.tell _
  | restart a kind path =>
      intro primed
      cases primed with
      | error fault => trivial
      | ok synced =>
          show ((a.selectorOf kind path).bind _).Aims namespaced _
          rw [Accessor.selectorOf_bind]
          refine ⟨trivial, ?_⟩
          intro object _
          dsimp only
          cases a.usable kind path object with
          | error fault => trivial
          | ok x =>
              refine (Plan.Aims.require _ _ _).bind fun _ => ?_
              refine Plan.Aims.bind (p := Plan.now) ⟨trivial, fun _ _ => trivial⟩ fun now => ?_
              refine Plan.Aims.bind (p := Plan.known _) trivial fun patch => ?_
              exact (Plan.Aims.mutation _ _ _).bind fun _ => Plan.Aims.tell _

/-- A permission is asked for in the namespace of the path. -/
theorem mandate_ns (i : Invocation) : i.mandate.ns = (Path.split i.path).1 := by
  cases i <;> rfl

variable {trace : List (Nat × Exchange)} {calls : List (Invocation × Stance Unit)} {n : Nat}
  {i : Invocation} {st : Stance Unit}

/-- Whatever goes on besides, before an operation sends its mutation it was told that it may, in
the namespace of its path and on the kind that it mutates, and the mutation goes to that namespace
if the kind has namespaces and to none if not. So the permission was reviewed where it is used
exactly if the kind has namespaces or the path names none. -/
theorem reviewed_where_used (h : Running trace calls) (hn : calls[n]? = some (i, st))
    (htrue : ∀ rid answer, .told (.namespaced rid) answer ∈ history n trace →
      answer = namespaced rid)
    {before after : List Exchange} {rid : ResourceId} {used : String}
    {mutation : Transport.Mutation}
    (hsent : history n trace = before ++ .asked (.mutate rid used mutation) :: after) :
    ∃ reviewed verb,
      Exchange.calls before = [.asked (.review reviewed rid.group rid.resource verb),
        .told (.review reviewed rid.group rid.resource verb) (.ok true)] ∧
      reviewed = (Path.split i.path).1 ∧
      used = (if namespaced rid then reviewed else "") ∧
      (reviewed = used ↔ namespaced rid = true ∨ reviewed = "") := by
  have hfollows := h.follows hn
  obtain ⟨hrid, -, hcalls, -⟩ := (Mandate.stage_of_follows i.heeds hfollows).of_mutation hsent
  have hused : used = if namespaced rid then i.mandate.ns else "" := by
    rw [mandate_ns]
    refine (i.aims.of_follows hfollows htrue).2 (.mutate rid used mutation) ?_
    rw [hsent]
    exact List.mem_append_right _ List.mem_cons_self
  refine ⟨i.mandate.ns, i.mandate.verb, ?_, i.mandate_ns, hused, ?_⟩
  · rw [hcalls, hrid]
    rfl
  · rw [hused]
    cases namespaced rid with
    | true => simp
    | false => simp

/-! ## Deletions that are allowed -/

/-- What passes in a deletion that is allowed, up to its mutation, by what is told of its kind. -/
def deletion (a : Accessor) (path : String) (answer : Bool) : List Exchange :=
  let review : Ask := .review (Path.split path).1 a.rid.group a.rid.resource "delete"
  [.asked review, .told review (.ok true : Except Fault Bool), .asked (.namespaced a.rid),
    .told (.namespaced a.rid) answer,
    .asked (.mutate a.rid (Forward.scopeNamespace answer (Path.split path).1)
      (.delete (Path.split path).2 none none))]

/-- Every deletion that is allowed comes to send its mutation. -/
theorem running_deletion (a : Accessor) (path : String) (answer : Bool) :
    ∃ st, Running ((deletion a path answer).map fun e => (0, e)) [(.delete a path {}, st)] := by
  have hasked := (Running.idle.begins (.delete a path {})).moves (n := 0) rfl (.ask _ _)
  have htold := hasked.moves (n := 0) rfl (.answer _ _ (.ok true : Except Fault Bool))
  have hkind := (htold.moves (n := 0) rfl (.ask _ _)).moves (n := 0) rfl (.answer _ _ answer)
  exact ⟨_, hkind.moves (n := 0) rfl (.ask _ _)⟩

/-- What is told of a kind in it is true if the answer is. -/
theorem true_of_deletion {a : Accessor} {path : String} {answer : Bool}
    (h : answer = namespaced a.rid) (rid : ResourceId) (told : Bool)
    (hmem : .told (.namespaced rid) told ∈
      history 0 ((deletion a path answer).map fun e => (0, e))) :
    told = namespaced rid := by
  rw [history_own] at hmem
  simp only [deletion, List.mem_cons, List.not_mem_nil, reduceCtorEq, or_false, false_or,
    Exchange.told.injEq, Ask.namespaced.injEq] at hmem
  obtain ⟨rfl, htold⟩ : rid = a.rid ∧ told = answer := by simpa using hmem
  exact htold.trans h

/-- A pod is deleted, whose kind has namespaces. -/
theorem reviewed_where_used_web :
    ∃ trace st before, Running trace
        [(.delete { rid := .pods, accessorClass := .typed .pod } "default/web" {}, st)] ∧
      (∀ rid answer, .told (.namespaced rid) answer ∈ history 0 trace →
        answer = Transport.Client.isNamespaced {} rid) ∧
      history 0 trace = before ++ [.asked (.mutate .pods "default" (.delete "web" none none))] ∧
      ∃ reviewed verb, Exchange.calls before = [.asked (.review reviewed "" "pods" verb),
        .told (.review reviewed "" "pods" verb) (.ok true)] ∧ reviewed = "default" := by
  let a : Accessor := { rid := .pods, accessorClass := .typed .pod }
  obtain ⟨st, hrunning⟩ := running_deletion a "default/web" true
  have htrue : ∀ rid told, .told (.namespaced rid) told ∈
      history 0 ((deletion a "default/web" true).map fun e => (0, e)) →
      told = Transport.Client.isNamespaced {} rid := true_of_deletion (by decide)
  have hsent : history 0 ((deletion a "default/web" true).map fun e => (0, e)) =
      (deletion a "default/web" true).take 4 ++
        [.asked (.mutate .pods "default" (.delete "web" none none))] := history_own 0 _
  obtain ⟨reviewed, verb, hcalls, -, -, hsame⟩ :=
    reviewed_where_used hrunning (n := 0) rfl htrue hsent
  exact ⟨_, st, _, hrunning, htrue, hsent, reviewed, verb, hcalls, hsame.2 (.inl (by decide))⟩

/-- A node is deleted by a path that names a namespace: the review is of that namespace, and the
mutation goes to none. -/
theorem reviewed_elsewhere :
    ∃ trace st before, Running trace
        [(.delete { rid := ⟨"", "v1", "nodes", "", ""⟩, accessorClass := .generic }
          "default/node-1" {}, st)] ∧
      (∀ rid answer, .told (.namespaced rid) answer ∈ history 0 trace →
        answer = Transport.Client.isNamespaced {} rid) ∧
      history 0 trace = before ++
        [.asked (.mutate ⟨"", "v1", "nodes", "", ""⟩ "" (.delete "node-1" none none))] ∧
      Exchange.calls before = [.asked (.review "default" "" "nodes" "delete"),
        .told (.review "default" "" "nodes" "delete") (.ok true)] := by
  let a : Accessor := { rid := ⟨"", "v1", "nodes", "", ""⟩, accessorClass := .generic }
  obtain ⟨st, hrunning⟩ := running_deletion a "default/node-1" false
  refine ⟨_, st, (deletion a "default/node-1" false).take 4, hrunning, ?_, history_own 0 _, rfl⟩
  exact true_of_deletion (by decide)

end Invocation

end LiveCluster
