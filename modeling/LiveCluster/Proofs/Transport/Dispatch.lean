import LiveCluster.Keyed
import LiveCluster.Proofs.Transport.Runs
import LiveCluster.Text.Parts
import LiveCluster.Transport.Exchange

/-!
# Which call a request makes

A request reaches a method by way of two questions, whether its kind has a class of its own and
whether the kind lives in namespaces, and a listing asks a third, whether it was given a
namespace. What a call is about can be read off the call alone: a method's name says what it
does and whether it acts in one namespace, and its class declares which parameters it takes in
which order. Read in this way, every call acts where its kind lives, and a watch on what the
listing of its scope lists.
-/

namespace LiveCluster.Transport

open Generator (Runs)

variable {c : Client} {rid : ResourceId} {ns : String} {b : Binding} {call : ApiCall}

/-! ## What a call says -/

/-- What a method does: the first word of its name. -/
def verbOf (method : String) : String :=
  match Text.cutFirst? '_' method.toList with
  | some (first, _) => String.ofList first
  | none => method

/-- Whether a method is one that acts in one namespace, as its name says. -/
def ActsInNamespace (method : String) : Prop :=
  "_namespaced_".toList <:+: method.toList

instance : DecidablePred ActsInNamespace :=
  fun method => inferInstanceAs (Decidable ("_namespaced_".toList <:+: method.toList))

namespace ApiCall

/-- The positional parameters of the method, in the order in which its class declares them. -/
def parameters (call : ApiCall) : List String :=
  let verb := verbOf call.method
  let place := if ActsInNamespace call.method then ["namespace"] else []
  let object := if verb = "patch" ∨ verb = "delete" then ["name"] else []
  let body := if verb = "create" ∨ verb = "patch" then ["body"] else []
  if call.api = Client.customApi then
    ["group", "version"] ++ place ++ ["plural"] ++ object ++ body
  else object ++ place ++ body

/-- The positional arguments, each under the parameter that it is passed for. -/
def passed (call : ApiCall) : Fields :=
  call.parameters.zip call.args

/-- What of it says which kind is meant. -/
def kindPassed (call : ApiCall) : Fields :=
  call.passed.filter fun entry => entry.1 ∈ ["group", "version", "plural"]

/-- The class, the method and the positional arguments. -/
def target (call : ApiCall) : String × String × List Value :=
  (call.api, call.method, call.args)

/-- The method acts in one namespace, and it is passed this one. -/
def InNamespace (call : ApiCall) (ns : String) : Prop :=
  ActsInNamespace call.method ∧ call.passed.get? "namespace" = some (.text ns)

/-- The method acts on the whole collection, and it is passed no namespace. -/
def Wide (call : ApiCall) : Prop :=
  ¬ActsInNamespace call.method ∧ call.passed.get? "namespace" = none

/-- The call goes to the class that serves a kind. The class for custom objects serves those
without one of their own, and it is told which one by group, version and plural. No parameter
lacks its argument, and no argument its parameter. -/
structure Serves (call : ApiCall) (rid : ResourceId) : Prop where
  bound : ∀ b, Client.binding? rid = some b →
    call.api = b.api ∧ call.api ≠ Client.customApi ∧ call.kindPassed = []
  custom : Client.binding? rid = none → call.api = Client.customApi ∧
    call.kindPassed = [("group", .text rid.group), ("version", .text rid.version),
      ("plural", .text rid.resource)]
  arity : call.args.length = call.parameters.length

end ApiCall

/-- What a request does, and to which object. -/
inductive Action where
  | list
  | mutate (m : Mutation)

namespace Action

def word : Action → String
  | .list => "list"
  | .mutate m => m.word

/-- The positional arguments that name the object. -/
def object : Action → List Value
  | .list => []
  | .mutate m => Client.objectArgs m

/-- The positional arguments after the others. -/
def body : Action → List Value
  | .list => []
  | .mutate m => (Client.bodyArgs m).1

end Action

/-! ## Names of methods -/

/-- A method does what a word says, in one namespace or not. -/
def Named (method word : String) (namespaced : Bool) : Prop :=
  verbOf method = word ∧ (ActsInNamespace method ↔ namespaced = true)

theorem infix_append_iff {d : Char} {mark word rest : List Char} (h : d ∉ word) :
    d :: mark <:+: word ++ rest ↔ d :: mark <:+: rest := by
  induction word with
  | nil => rfl
  | cons x word ih =>
      obtain ⟨hx, hword⟩ := not_or.1 (mt List.mem_cons.2 h)
      rw [List.cons_append, List.infix_cons_iff, List.cons_prefix_cons, ih hword]
      exact or_iff_right fun hprefix => hx hprefix.1

/-- The words that methods begin with have no `_`, so what else a name says stands behind. -/
theorem words_plain : ∀ word ∈ ["list", "create", "patch", "delete"], '_' ∉ word.toList := by
  decide +kernel

theorem Action.mem_word (a : Action) : a.word ∈ ["list", "create", "patch", "delete"] := by
  cases a with
  | list => simp [Action.word]
  | mutate m => cases m <;> simp [Action.word, Mutation.word]

theorem named_append (a : Action) {rest : String} {namespaced : Bool}
    (hrest : rest.toList.head? = some '_')
    (hplaced : ActsInNamespace rest ↔ namespaced = true) :
    Named (a.word ++ rest) a.word namespaced := by
  have hplain := words_plain a.word a.mem_word
  obtain ⟨cs, hcs⟩ := List.head?_eq_some_iff.1 hrest
  rw [Named, verbOf, ActsInNamespace, String.toList_append, hcs, Text.cutFirst?_append hplain]
  refine ⟨String.ofList_toList, Iff.trans ?_ hplaced⟩
  rw [ActsInNamespace, hcs]
  exact infix_append_iff hplain

theorem named_placed (a : Action) (model : String) :
    Named (a.word ++ "_namespaced_" ++ model) a.word true := by
  have hfirst : "_namespaced_".toList.head? = some '_' := by decide +kernel
  rw [String.append_assoc]
  refine named_append a ?_ (iff_of_true ⟨[], model.toList, ?_⟩ rfl)
  · rw [String.toList_append, List.head?_append, hfirst, Option.some_or]
  · rw [String.toList_append, List.nil_append]

theorem named_wide (a : Action) {model : String}
    (hplain : ¬"_namespaced_".toList <:+: '_' :: model.toList) :
    Named (a.word ++ "_" ++ model) a.word false := by
  have hmodel : ("_" ++ model).toList = '_' :: model.toList := by
    rw [String.toList_append]
    rfl
  rw [String.append_assoc]
  refine named_append a ?_ (iff_of_false ?_ Bool.false_ne_true)
  · rw [hmodel, List.head?_cons]
  · rwa [ActsInNamespace, hmodel]

/-- A kind's own class is not the one for custom objects, and no kind is called so that a method
for all of it seems to act in one namespace. -/
theorem bindings_plain : ∀ b ∈ Keyed.entries bindings, b.api ≠ Client.customApi ∧
    ¬"_namespaced_".toList <:+: '_' :: b.model.toList ∧
    ¬"_namespaced_".toList <:+: '_' :: (b.model.toList ++ "_for_all_namespaces".toList) := by
  decide +kernel

theorem mem_bindings (h : Client.binding? rid = some b) : b ∈ Keyed.entries bindings := by
  rw [Client.binding?, ← Keyed.get?] at h
  exact Keyed.mem_entries_of_get? h

theorem named_custom (a : Action) :
    Named (a.word ++ "_namespaced_custom_object") a.word true ∧
      Named (a.word ++ "_cluster_custom_object") a.word false :=
  ⟨named_append a (by decide +kernel) (iff_of_true (by decide +kernel) rfl),
    named_append a (by decide +kernel) (iff_of_false (by decide +kernel) Bool.false_ne_true)⟩

theorem named_typed_list (h : Client.binding? rid = some b) :
    Named ("list_namespaced_" ++ b.model) "list" true ∧ Named ("list_" ++ b.model) "list" false ∧
      Named ("list_" ++ b.model ++ "_for_all_namespaces") "list" false := by
  obtain ⟨-, hplain, hplainAll⟩ := bindings_plain b (mem_bindings h)
  have hplaced : "list_namespaced_" = Action.list.word ++ "_namespaced_" := by decide +kernel
  have hwide : "list_" = Action.list.word ++ "_" := by decide +kernel
  rw [hplaced, hwide]
  refine ⟨named_placed .list b.model, named_wide .list hplain, ?_⟩
  rw [← String.toList_append] at hplainAll
  rw [String.append_assoc]
  exact named_wide .list hplainAll

/-! ## Arguments -/

/-- The call acts in a place, on which its name and its arguments agree. -/
structure ApiCall.Acts (call : ApiCall) (rid : ResourceId) (a : Action) (place : Option String) :
    Prop where
  named : Named call.method a.word place.isSome
  passed : call.passed.get? "namespace" = place.map Value.text
  serves : call.Serves rid

variable {a : Action} {place : Option String}

theorem Named.parameters_eq (h : Named call.method a.word place.isSome) :
    call.parameters =
      let place := if place.isSome then ["namespace"] else []
      let object := if a.word = "patch" ∨ a.word = "delete" then ["name"] else []
      let body := if a.word = "create" ∨ a.word = "patch" then ["body"] else []
      if call.api = Client.customApi then
        ["group", "version"] ++ place ++ ["plural"] ++ object ++ body
      else object ++ place ++ body := by
  simp only [ApiCall.parameters, h.1, h.2]

theorem acts_typed (hb : Client.binding? rid = some b) (hapi : call.api = b.api)
    (hnamed : Named call.method a.word place.isSome)
    (hargs : call.args = a.object ++ (place.map Value.text).toList ++ a.body) :
    call.Acts rid a place := by
  have hcustom := (bindings_plain b (mem_bindings hb)).1
  have hparameters := hnamed.parameters_eq
  rw [hapi, if_neg hcustom] at hparameters
  have hread : call.passed.get? "namespace" = place.map Value.text ∧ call.kindPassed = [] ∧
      call.args.length = call.parameters.length := by
    rw [ApiCall.kindPassed, ApiCall.passed, hparameters, hargs]
    cases place <;> cases a with
    | list => exact ⟨rfl, rfl, rfl⟩
    | mutate m => cases m <;> exact ⟨rfl, rfl, rfl⟩
  obtain ⟨hpassed, hkind, harity⟩ := hread
  refine ⟨hnamed, hpassed, fun b' hb' => ?_, fun hnone => ?_, harity⟩
  · rw [hb] at hb'
    cases hb'
    rw [hapi]
    exact ⟨rfl, hcustom, hkind⟩
  · rw [hb] at hnone
    cases hnone

theorem acts_custom (hb : Client.binding? rid = none) (hapi : call.api = Client.customApi)
    (hnamed : Named call.method a.word place.isSome)
    (hargs : call.args = [.text rid.group, .text rid.version] ++ (place.map Value.text).toList ++
      [.text rid.resource] ++ a.object ++ a.body) :
    call.Acts rid a place := by
  have hparameters := hnamed.parameters_eq
  rw [if_pos hapi] at hparameters
  have hread : call.passed.get? "namespace" = place.map Value.text ∧
      call.kindPassed = [("group", .text rid.group), ("version", .text rid.version),
        ("plural", .text rid.resource)] ∧
      call.args.length = call.parameters.length := by
    rw [ApiCall.kindPassed, ApiCall.passed, hparameters, hargs]
    cases place <;> cases a with
    | list => exact ⟨rfl, rfl, rfl⟩
    | mutate m => cases m <;> exact ⟨rfl, rfl, rfl⟩
  obtain ⟨hpassed, hkind, harity⟩ := hread
  refine ⟨hnamed, hpassed, fun b hb' => ?_, fun _ => ⟨hapi, hkind⟩, harity⟩
  rw [hb] at hb'
  cases hb'

theorem isNamespaced_of_typed (hb : Client.binding? rid = some b) :
    c.isNamespaced rid = b.namespaced := by
  rw [Client.isNamespaced, hb]

/-! ## The calls -/

theorem acts_mutate (c : Client) (rid : ResourceId) (ns : String) (m : Mutation) :
    (c.mutate rid ns m).Acts rid (.mutate m) (if c.isNamespaced rid then some ns else none) := by
  unfold Client.mutate
  cases hb : Client.binding? rid with
  | some b =>
      obtain ⟨-, hplain, -⟩ := bindings_plain b (mem_bindings hb)
      rw [isNamespaced_of_typed hb]
      dsimp only
      split
      · exact acts_typed hb rfl (named_placed (.mutate m) b.model) rfl
      · exact acts_typed hb rfl (named_wide (.mutate m) hplain) (by
          simp [Action.object, Action.body])
  | none =>
      obtain ⟨hplaced, hwide⟩ := named_custom (.mutate m)
      dsimp only
      split
      · exact acts_custom hb rfl hplaced rfl
      · exact acts_custom hb rfl hwide rfl

theorem acts_list (c : Client) (rid : ResourceId) (ns : String) :
    (c.list rid ns).Acts rid .list
      (if c.isNamespaced rid = true ∧ ns ≠ "" then some ns else none) := by
  have hempty : ns.isEmpty = decide (ns = "") := by
    rw [Bool.eq_iff_iff, String.isEmpty_iff, decide_eq_true_iff]
  unfold Client.list Client.listCall
  rw [hempty]
  cases hb : Client.binding? rid with
  | some b =>
      obtain ⟨hplaced, hwide, hall⟩ := named_typed_list hb
      rw [isNamespaced_of_typed hb]
      dsimp only
      cases b.namespaced with
      | false => exact acts_typed hb rfl hwide rfl
      | true =>
          by_cases hns : ns = ""
          · have hnowhere : ¬(true = true ∧ ns ≠ "") := fun h => h.2 hns
            rw [decide_eq_true hns, if_neg hnowhere]
            exact acts_typed hb rfl hall rfl
          · have hsomewhere : true = true ∧ ns ≠ "" := ⟨rfl, hns⟩
            rw [decide_eq_false hns, if_pos hsomewhere]
            exact acts_typed hb rfl hplaced rfl
  | none =>
      obtain ⟨hplaced, hwide⟩ := named_custom .list
      dsimp only
      cases c.isNamespaced rid with
      | false =>
          rw [Bool.and_false]
          exact acts_custom hb rfl hwide rfl
      | true =>
          by_cases hns : ns = ""
          · have hnowhere : ¬(true = true ∧ ns ≠ "") := fun h => h.2 hns
            rw [decide_eq_true hns, if_neg hnowhere]
            exact acts_custom hb rfl hwide rfl
          · have hsomewhere : true = true ∧ ns ≠ "" := ⟨rfl, hns⟩
            rw [decide_eq_false hns, if_pos hsomewhere]
            exact acts_custom hb rfl hplaced rfl

theorem ApiCall.Acts.inNamespace_iff (h : call.Acts rid a place) :
    call.InNamespace ns ↔ place = some ns := by
  rw [ApiCall.InNamespace, h.named.2, h.passed]
  cases place <;> simp

theorem ApiCall.Acts.wide_iff (h : call.Acts rid a place) : call.Wide ↔ place = none := by
  rw [ApiCall.Wide, h.named.2, h.passed]
  cases place <;> simp

/-- The calls among what is seen of an exchange. -/
def called (marks : List Mark) : List ApiCall :=
  marks.filterMap fun
    | .call call => some call
    | _ => none

theorem called_exchange (call : ApiCall) (action : String) (reply : Reply) :
    called (exchange call action reply).1 = [call] := by
  cases reply <;> rfl

/-- However a watch is run, it calls what it is there to call, and nothing else. -/
theorem called_of_runs {version : String} {timeout : Option Int} {feed : Feed Fields}
    {marks : List Mark} {events : List WatchEvent} {ending : Generator.Exit}
    (h : Runs (watching c rid ns version timeout feed) marks events ending) :
    called marks = [c.watch rid ns version timeout] := by
  unfold watching at h
  obtain ⟨body, rfl, hbody⟩ := h.of_ensuring
  obtain ⟨inner, rfl, hinner⟩ := hbody.of_translating
  cases hinner with
  | marked h =>
    cases h with
    | cancelled => rfl
    | resumed h =>
      cases feed with
      | refused fault =>
          cases h
          rfl
      | items items failure =>
          obtain ⟨read, rfl, hread⟩ := h.of_ensuring
          obtain ⟨rfl, -⟩ := hread.of_each
          rfl

/-- Whatever comes back for it, a request makes one call. It goes to the class that serves the
kind; a mutation acts in the namespace that it is given exactly if the kind lives in namespaces,
and else on the whole collection; a listing also needs a namespace to be given; and a watch,
however it is run, streams the method and the positional arguments of the listing of its scope. -/
theorem dispatch (c : Client) (rid : ResourceId) (ns : String) :
    (∀ m reply, ∃ call, called (mutate c rid ns m reply).1 = [call] ∧
      verbOf call.method = m.word ∧ call.Serves rid ∧
      (call.InNamespace ns ↔ c.isNamespaced rid = true) ∧
      (call.Wide ↔ ¬c.isNamespaced rid = true)) ∧
    ∀ reply, ∃ call, called (list c rid ns reply).1 = [call] ∧
      verbOf call.method = "list" ∧ call.Serves rid ∧
      (call.InNamespace ns ↔ c.isNamespaced rid = true ∧ ns ≠ "") ∧
      (call.Wide ↔ ¬(c.isNamespaced rid = true ∧ ns ≠ "")) ∧
      ∀ version timeout feed marks events ending,
        Runs (watching c rid ns version timeout feed) marks events ending →
        ∃ streamed, called marks = [streamed] ∧ streamed.target = call.target := by
  refine ⟨fun m reply => ?_, fun reply => ?_⟩
  · have hacts := acts_mutate c rid ns m
    refine ⟨_, called_exchange .., hacts.named.1, hacts.serves, ?_, ?_⟩
    · rw [hacts.inNamespace_iff]
      simp
    · rw [hacts.wide_iff]
      simp
  · have hacts := acts_list c rid ns
    refine ⟨_, called_exchange .., hacts.named.1, hacts.serves, ?_, ?_, ?_⟩
    · rw [hacts.inNamespace_iff]
      simp
    · rw [hacts.wide_iff]
      simp
    · intro version timeout feed marks events ending h
      exact ⟨_, called_of_runs h, rfl⟩

example : (Client.mutate {} .daemonSets "kube-system" (.patch "agent" .null)).parameters =
    ["name", "namespace", "body"] := by
  decide +kernel

end LiveCluster.Transport
