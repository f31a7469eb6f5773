import LiveCluster.Access.Plan

/-!
# The authorization gate

Whether something is allowed is asked of the cluster each time, verb by verb, and
never remembered: permissions change while a program runs. The first verb that is
denied settles the matter; a request for no verbs is not allowed.
-/

namespace LiveCluster.Gate

def component : String := "dao.auth"

/-- What a permission is asked for: a kind, or the text that one is written as. -/
inductive Subject where
  | kind (rid : ResourceId)
  | written (text : String)

/-- The kind that is meant. -/
def Subject.read : Subject → Except Fault ResourceId
  | .kind rid => .ok rid
  | .written text => ResourceId.parse text

/-- Whether every one of the verbs, and at least one, is allowed; `asked` says whether
one has been asked about before. -/
def allVerbs (ns : String) (rid : ResourceId) (asked : Bool) : List String → Plan Bool
  | [] => pure asked
  | verb :: rest => do
    if ← Plan.review ns rid.group rid.resource verb then allVerbs ns rid true rest
    else
      Plan.tell (.info component "access_denied"
        [("namespace", .text ns), ("resource", .text rid.kindText), ("verb", .text verb)])
      return false

/-- Whether all verbs are allowed on a kind in a namespace. -/
def allows (ns : String) (rid : ResourceId) (verbs : List String) : Plan Bool :=
  allVerbs ns rid false verbs

/-- Whether all verbs are allowed on what is meant. A text that names no kind is refused
before anything is asked. -/
def permits (ns : String) (subject : Subject) (verbs : List String) : Plan Bool := do
  allows ns (← Plan.known subject.read) verbs

/-- Fails unless a verb is allowed. -/
def require (ns : String) (rid : ResourceId) (verb : String) : Plan Unit := do
  if ← allows ns rid [verb] then return ()
  else Plan.fail (.forbidden verb rid.kindText ns)

end LiveCluster.Gate
