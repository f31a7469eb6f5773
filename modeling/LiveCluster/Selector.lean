import LiveCluster.Fault
import LiveCluster.Text.Blank
import LiveCluster.Text.Parts

/-!
# Label selectors

A selector is a finite set of constraints `key=value`, all of which an object's
labels have to meet. An empty selector selects nothing: whoever wants everything
passes no selector at all. The constraints are kept sorted and without
repetition, so equal sets are equal selectors.
-/

namespace LiveCluster

structure Selector where
  /-- The constraints in rising order, each once. -/
  constraints : List (String × String)
  deriving Repr, DecidableEq, Inhabited

namespace Selector

/-- The order of constraints: by key, then by value, by code point. -/
def before (p q : String × String) : Bool :=
  decide (p.1 < q.1) || (p.1 == q.1 && decide (p.2 < q.2))

/-- Adds a constraint to a sorted list, once. -/
def insertPair (p : String × String) : List (String × String) → List (String × String)
  | [] => [p]
  | q :: rest =>
    if p = q then q :: rest
    else if before p q then p :: q :: rest
    else q :: insertPair p rest

/-- The selector with the given constraints. -/
def ofPairs (pairs : List (String × String)) : Selector :=
  ⟨pairs.foldr insertPair []⟩

def isEmpty (s : Selector) : Bool :=
  s.constraints.isEmpty

theorem mem_insertPair {p q : String × String} {ps : List (String × String)} :
    q ∈ insertPair p ps ↔ q = p ∨ q ∈ ps := by
  induction ps with
  | nil => exact List.mem_singleton.trans (or_iff_left List.not_mem_nil).symm
  | cons r rest ih =>
    unfold insertPair
    split
    · rename_i heq
      subst heq
      exact ⟨.inr, fun h => h.elim (fun heq => heq ▸ List.mem_cons_self) id⟩
    · split
      · exact List.mem_cons
      · rw [List.mem_cons, ih, List.mem_cons]
        exact or_left_comm

/-- A selector asks for what it was made of. -/
theorem mem_ofPairs {q : String × String} {pairs : List (String × String)} :
    q ∈ (ofPairs pairs).constraints ↔ q ∈ pairs := by
  rw [ofPairs]
  induction pairs with
  | nil => exact Iff.rfl
  | cons p rest ih => rw [List.foldr_cons, mem_insertPair, ih, List.mem_cons]

theorem isEmpty_ofPairs {pairs : List (String × String)} :
    (ofPairs pairs).isEmpty = pairs.isEmpty := by
  rw [Bool.eq_iff_iff, isEmpty, List.isEmpty_iff, List.isEmpty_iff, List.eq_nil_iff_forall_not_mem,
    List.eq_nil_iff_forall_not_mem]
  exact forall_congr' fun q => not_congr mem_ofPairs

/-- The selector that asks for each of the labels, values written as texts. What
does not count as present asks for nothing. -/
def ofLabels (labels : Value) : Except Fault Selector :=
  if labels.truthy then
    match labels with
    | .record fields => .ok (ofPairs (fields.map fun (key, v) => (key, v.asText)))
    | other => .error (.misfit (.noAttribute other.kindWord "items"))
  else .ok (ofPairs [])

/-- Every `==` becomes `=`, from the left. -/
def singleEquals : List Char → List Char
  | '=' :: '=' :: cs => '=' :: singleEquals cs
  | c :: cs => c :: singleEquals cs
  | [] => []

/-- Reads one term `key=value`; the key must not be blank. -/
def parseTerm (term : List Char) : Except Fault (String × String) :=
  let refuse := .error (.badArgument (.selectorTerm (String.ofList term)))
  match Text.cutFirst? '=' (singleEquals term) with
  | none => refuse
  | some (key, value) =>
    let key := Text.strip Text.isBlank key
    if key.isEmpty then refuse
    else .ok (String.ofList key, String.ofList (Text.strip Text.isBlank value))

/-- Reads terms between commas; blank terms are passed over, and `==` counts as `=`. -/
def parse (text : String) : Except Fault Selector := do
  let terms := (Text.split ',' text.toList).map (Text.strip Text.isBlank)
  let pairs ← (terms.filter (!·.isEmpty)).mapM parseTerm
  return ofPairs pairs

/-- Whether labels meet every constraint, of which there must be one. -/
def selects (s : Selector) (labels : Fields) : Bool :=
  !s.isEmpty && s.constraints.all fun (key, value) =>
    match labels.get? key with
    | some (.text v) => v == value
    | _ => false

/-- One value per key: of several constraints on a key, the last. -/
def toDict (s : Selector) : Keyed String :=
  Keyed.ofList s.constraints

/-- The written form. -/
def render (s : Selector) : String :=
  String.intercalate "," (s.constraints.map fun (key, value) => key ++ "=" ++ value)

end Selector

end LiveCluster
