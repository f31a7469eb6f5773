import LiveCluster.Text.Parts

/-!
# Paths of objects

An object is addressed inside its kind by `namespace/name`, or by its bare name
when it has no namespace. A path is cut at its last slash, so a namespace may hold
slashes and a name may not; a path without a slash names an object without a
namespace.
-/

namespace LiveCluster.Path

/-- The path of an object. -/
def join (ns name : String) : String :=
  if ns.isEmpty then name else ns ++ "/" ++ name

/-- The namespace and the name in a path. -/
def split (path : String) : String × String :=
  match Text.cutLast? '/' path.toList with
  | some (ns, name) => (String.ofList ns, String.ofList name)
  | none => ("", path)

/-- A path is cut at a slash after which there is none. -/
theorem split_append {name : String} (h : '/' ∉ name.toList) (ns : String) :
    split (ns ++ "/" ++ name) = (ns, name) := by
  have hcut := Text.cutLast?_append h ns.toList
  have hslash : ("/" : String).toList = ['/'] := rfl
  rw [split]
  simp [hslash, hcut]

/-- A path is cut where it was joined, if the name holds no slash. -/
theorem split_join {name : String} (h : '/' ∉ name.toList) (ns : String) :
    split (join ns name) = (ns, name) := by
  unfold join
  split
  · next hns =>
      rw [split, Text.cutLast?_eq_none_iff.2 h, String.isEmpty_iff.1 hns]
  · exact split_append h ns

end LiveCluster.Path
