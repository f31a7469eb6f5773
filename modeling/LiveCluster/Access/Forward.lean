import LiveCluster.Access.Plan

/-!
# Forwarding mutations

A mutation goes to the cluster as it is, once. Its outcome is counted and logged,
and a failure is passed on to the caller. Kinds without namespaces are mutated
without one, whatever was given.
-/

namespace LiveCluster.Forward

def component : String := "watch.factory"

/-- The namespace of a scope: none for a kind that has none. -/
def scopeNamespace (namespaced : Bool) (ns : String) : String :=
  if namespaced then ns else ""

/-- What is logged about a mutation in every case. -/
def circumstances (m : Transport.Mutation) (rid : ResourceId) (ns name : String) : Fields :=
  [("verb", .text m.word), ("resource", .text rid.kindText), ("namespace", .text ns),
    ("name", .text name)]

/-- Sends a mutation that concerns the named object. -/
def mutation (m : Transport.Mutation) (rid : ResourceId) (ns name : String) : Plan Value := do
  let ns := scopeNamespace (← Plan.namespaced rid) ns
  let outcome ← Plan.asking (.mutate rid ns m)
  match outcome with
  | .ok result =>
    Plan.tell (.count (.mutations m.word rid.kindText "ok"))
    Plan.tell (.info component "mutation_applied" (circumstances m rid ns name))
    return result
  | .error fault =>
    match fault with
    | .transport _ status =>
      Plan.tell (.count (.mutations m.word rid.kindText "error"))
      Plan.tell (.warning component "mutation_failed"
        (circumstances m rid ns name ++
          [("error", .text fault.message), ("status", status)]))
    | _ => pure ()
    Plan.fail fault

/-- What a verb asks for, if there is such a verb. An absent or empty body counts as
an empty record. -/
def ofVerb (verb name : String) (body : Value) (propagation : Option String)
    (grace : Option Int) : Except Fault Transport.Mutation :=
  let body := body.orElse (.record [])
  match verb with
  | "create" => .ok (.create body)
  | "patch" => .ok (.patch name body)
  | "delete" => .ok (.delete name propagation grace)
  | other => .error (.badArgument (.verb other))

end LiveCluster.Forward
