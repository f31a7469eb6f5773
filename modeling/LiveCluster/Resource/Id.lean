import LiveCluster.Fault
import LiveCluster.Resource.Path
import LiveCluster.Text.Blank
import LiveCluster.Text.Case

/-!
# Resource identifiers

A kind of object is named by its API group, its version and its plural resource
name; an identifier may also name one object of that kind. The core group is the
empty text and is left out when an identifier is written, so the written form has
three parts or two. It keys every table of kinds.
-/

namespace LiveCluster

structure ResourceId where
  group : String
  version : String
  resource : String
  ns : String := ""
  name : String := ""
  deriving Repr, DecidableEq, Inhabited

namespace ResourceId

/-- Reads `group/version/resource` or `version/resource`. Blanks around the text do
not count, version and resource must not be empty, and the resource is lowered. -/
def parse (text : String) : Except Fault ResourceId :=
  let parts := (Text.split '/' (Text.strip Text.isBlank text.toList)).map String.ofList
  let build (group version resource : String) : Except Fault ResourceId :=
    if version.isEmpty || resource.isEmpty then .error (.badArgument (.resourceId text))
    else .ok ⟨group, version, Text.lower resource, "", ""⟩
  match parts with
  | [version, resource] => build "" version resource
  | [group, version, resource] => build group version resource
  | _ => .error (.badArgument (.resourceId text))

/-- The written form of the kind. -/
def kindText (r : ResourceId) : String :=
  if r.group.isEmpty then r.version ++ "/" ++ r.resource
  else r.group ++ "/" ++ r.version ++ "/" ++ r.resource

/-- The parts of the written form are those of the identifier, if none of them holds a slash. -/
theorem split_kindText {r : ResourceId} (hgroup : '/' ∉ r.group.toList)
    (hversion : '/' ∉ r.version.toList) (hresource : '/' ∉ r.resource.toList) :
    Text.split '/' r.kindText.toList =
      if r.group = "" then [r.version.toList, r.resource.toList]
      else [r.group.toList, r.version.toList, r.resource.toList] := by
  have hslash : ("/" : String).toList = ['/'] := rfl
  have htwo : Text.split '/' (r.version.toList ++ '/' :: r.resource.toList) =
      [r.version.toList, r.resource.toList] := by
    rw [Text.split_append hversion, Text.split_of_not_mem hresource]
  unfold kindText
  simp only [String.isEmpty_iff]
  split
  · simpa [hslash] using htwo
  · simpa [hslash, Text.split_append hgroup] using htwo

/-- Group and version as objects state them. -/
def apiVersion (r : ResourceId) : String :=
  if r.group.isEmpty then r.version else r.group ++ "/" ++ r.version

/-- The written form of the kind, and of the object if one is named. -/
def path (r : ResourceId) : String :=
  if r.name.isEmpty then r.kindText
  else r.kindText ++ "/" ++ Path.join r.ns r.name

/-- The kind alone. -/
def kindOnly (r : ResourceId) : ResourceId :=
  { r with ns := "", name := "" }

/-- The identifier of the object at a path. -/
def withPath (r : ResourceId) (path : String) : ResourceId :=
  let (ns, name) := Path.split path
  { r with ns := ns, name := name }

/-- The parts in the order in which identifiers are compared. -/
def parts (r : ResourceId) : List String :=
  [r.group, r.version, r.resource, r.ns, r.name]

/-- The order of identifiers: part by part, by code point. -/
def le (r s : ResourceId) : Bool :=
  !s.parts.lex r.parts

/-- The scope of a kind in a namespace, or in all of them when that is empty. -/
def scopeKey (r : ResourceId) (ns : String) : String :=
  if ns.isEmpty then r.kindText else r.kindText ++ "@" ++ ns

def pods : ResourceId := ⟨"", "v1", "pods", "", ""⟩
def deployments : ResourceId := ⟨"apps", "v1", "deployments", "", ""⟩
def daemonSets : ResourceId := ⟨"apps", "v1", "daemonsets", "", ""⟩
def statefulSets : ResourceId := ⟨"apps", "v1", "statefulsets", "", ""⟩
def replicaSets : ResourceId := ⟨"apps", "v1", "replicasets", "", ""⟩
def jobs : ResourceId := ⟨"batch", "v1", "jobs", "", ""⟩

end ResourceId

end LiveCluster
