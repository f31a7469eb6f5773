import LiveCluster.Resource.Path

/-!
# Objects and their paths

Whatever is looked up, reviewed or changed gets its namespace out of a path, so joining and
cutting have to undo each other. They do, with two exceptions. A path is cut at its last slash, so
a name with a slash in it is cut itself, while the namespace may hold as many as it likes. And an
object without a namespace has its bare name for a path, so a slash with nothing before it is lost.
-/

namespace LiveCluster.Path

variable {ns name path : String}

/-- What is cut off a path as the name holds no slash, and what stands before it is the namespace
with a slash, unless the path has none. -/
theorem split_cases (path : String) :
    '/' ∉ (split path).2.toList ∧
      (split path = ("", path) ∨ path = (split path).1 ++ "/" ++ (split path).2) := by
  unfold split
  cases hcut : Text.cutLast? '/' path.toList with
  | none => exact ⟨Text.cutLast?_eq_none_iff.1 hcut, .inl rfl⟩
  | some cut =>
      obtain ⟨hpath, hname⟩ := Text.eq_append_of_cutLast? hcut
      refine ⟨by simpa using hname, .inr ?_⟩
      rw [← String.toList_inj, hpath]
      simp

theorem split_join_iff : split (join ns name) = (ns, name) ↔ '/' ∉ name.toList := by
  constructor
  · intro h
    have hname := (split_cases (join ns name)).1
    rwa [h] at hname
  · intro h
    exact split_join h ns

/-- The slash is there in a joined path if something stands before it. -/
theorem join_eq_append_iff (h : '/' ∉ name.toList) :
    join ns name = ns ++ "/" ++ name ↔ ns ≠ "" := by
  unfold join
  rw [ite_eq_right_iff, String.isEmpty_iff]
  constructor
  · rintro hjoin rfl
    have hslash : '/' ∈ name.toList := by
      rw [hjoin rfl]
      simp
    exact h hslash
  · intro hne hempty
    exact absurd hempty hne

theorem join_split_iff :
    join (split path).1 (split path).2 = path ↔
      ¬ ∃ name : String, '/' ∉ name.toList ∧ path = "/" ++ name := by
  obtain ⟨hname, hsame | hpath⟩ := split_cases path
  · -- a path without a slash is all name
    rw [hsame] at hname ⊢
    refine iff_of_true rfl ?_
    rintro ⟨name, -, rfl⟩
    simp at hname
  · have hbare : (∃ name : String, '/' ∉ name.toList ∧ path = "/" ++ name) ↔
        (split path).1 = "" := by
      constructor
      · rintro ⟨name, hnot, rfl⟩
        have hsplit := split_append hnot ""
        rw [String.empty_append] at hsplit
        rw [hsplit]
      · intro hns
        rw [hns, String.empty_append] at hpath
        exact ⟨_, hname, hpath⟩
    rw [hbare, ← ne_eq, ← join_eq_append_iff hname, ← hpath]

/-- The path of an object is cut into its namespace and its name exactly if the name holds no
slash; and what a path is cut into has that path exactly if it is not a slash with a bare name
behind it. -/
theorem converts_back :
    (∀ ns name, split (join ns name) = (ns, name) ↔ '/' ∉ name.toList) ∧
      ∀ path, join (split path).1 (split path).2 = path ↔
        ¬ ∃ name : String, '/' ∉ name.toList ∧ path = "/" ++ name :=
  ⟨fun _ _ => split_join_iff, fun _ => join_split_iff⟩

example : join (split "/web").1 (split "/web").2 = "web" := by decide

example : split (join "a//b" "web") = ("a//b", "web") := by decide

end LiveCluster.Path
