import LiveCluster.Proofs.Simulation.Supply

/-!
# Reading one object and reading a scope

An object is asked for by its path, from which the namespace is cut off, and a scope by its
namespace, after which the objects found are sorted out by their own. Both go to the same
informer, that of the namespace if there is one and else that of all. They agree since an
object is kept under its own path, and that can be cut where it was joined as long as names
hold no slash.
-/

namespace LiveCluster

/-- Whether the name of an object, as its metadata has it, holds no slash. -/
def Value.PlainlyNamed (raw : Value) : Prop :=
  '/' ∉ (raw.at? ["metadata", "name"]).textOrEmpty.toList

instance : DecidablePred Value.PlainlyNamed :=
  fun raw => inferInstanceAs (Decidable ('/' ∉ (raw.at? ["metadata", "name"]).textOrEmpty.toList))

namespace Partition

variable {p : Partition} {o : Snapshot} {path : String}

/-- What is found in a sound partition is what is there and is of that path. -/
theorem Sound.get?_eq_some_iff (h : p.Sound) :
    p.get? path = some o ↔ o ∈ p.entries ∧ o.path = path := by
  rw [Keyed.get?_eq_some_iff h.unique]
  constructor
  · intro hentry
    exact ⟨List.mem_map.2 ⟨_, hentry, rfl⟩, (h.path _ hentry).symm⟩
  · rintro ⟨hmem, rfl⟩
    obtain ⟨entry, hentry, rfl⟩ := List.mem_map.1 hmem
    rw [← h.path entry hentry]
    exact hentry

theorem SoundOf.plain (h : p.SoundOf Value.PlainlyNamed) (ho : o ∈ p.entries) :
    '/' ∉ o.name.toList := by
  obtain ⟨entry, hentry, rfl⟩ := List.mem_map.1 ho
  rw [(h.1.faithful entry hentry).name]
  exact h.2 entry hentry

/-- What is found at the path of a namespace and a name lives in the namespace and has the name. -/
theorem SoundOf.get?_join_iff (h : p.SoundOf Value.PlainlyNamed) {ns name : String}
    (hname : '/' ∉ name.toList) :
    p.get? (Path.join ns name) = some o ↔ o ∈ p.entries ∧ o.ns = ns ∧ o.name = name := by
  rw [h.1.get?_eq_some_iff]
  refine and_congr_right fun ho => ?_
  constructor
  · intro hpath
    have hsplit := congrArg Path.split hpath
    rw [Snapshot.path, Path.split_join (h.plain ho), Path.split_join hname] at hsplit
    exact ⟨congrArg Prod.fst hsplit, congrArg Prod.snd hsplit⟩
  · rintro ⟨rfl, rfl⟩
    rfl

end Partition

namespace Simulation.World

variable {w : World}

/-- In every world whose cluster has only ever had objects to send whose names hold no slash, an
object of a kind with namespaces is found at the path of a namespace and a name exactly when
it is listed in the namespace and has the name, whichever informer serves the namespace. Of
a kind without namespaces whatever is listed is found at its path, and whatever is found is
listed, in whichever namespace that is asked for. -/
theorem get_agrees_with_list (h : LivedOn Value.PlainlyNamed w) (f : FactoryId)
    (rid : ResourceId) (inLoop inLoop' : Bool) :
    (w.cluster.namespaced rid = true → ∀ ns name o, ns ≠ "" → '/' ∉ name.toList →
      ((w.get f rid (Path.join ns name) inLoop).2 = some o ↔
        o ∈ (w.list f rid ns none inLoop').2 ∧ o.name = name)) ∧
    (w.cluster.namespaced rid = false → ∀ ns o,
      (o ∈ (w.list f rid ns none inLoop').2 → (w.get f rid o.path inLoop).2 = some o) ∧
      ∀ path, (w.get f rid path inLoop).2 = some o → o ∈ (w.list f rid ns none inLoop').2) := by
  have hstored := h.supplied.stored
  constructor
  · intro hkind ns name o hns hname
    rw [get_eq_some_iff, mem_list_iff, Path.split_join hname, scopeNamespace_of_namespaced hkind]
    simp only [Partition.belongs_none_iff]
    constructor
    · rintro ⟨i, hi, hfound⟩
      obtain ⟨hmem, hin, hnamed⟩ := ((hstored i).get?_join_iff hname).1 hfound
      exact ⟨⟨i, hi, hmem, .inr hin⟩, hnamed⟩
    · rintro ⟨⟨i, hi, hmem, hin⟩, hnamed⟩
      exact ⟨i, hi, ((hstored i).get?_join_iff hname).2 ⟨hmem, hin.resolve_left hns, hnamed⟩⟩
  · intro hkind ns o
    -- every namespace is the one scope
    have hscope : ∀ n n', w.lookup f rid n = w.lookup f rid n' := by
      intro n n'
      rw [← lookup_scopeNamespace, scopeNamespace_unscoped hkind,
        ← w.lookup_scopeNamespace f rid n', scopeNamespace_unscoped hkind]
    simp only [get_eq_some_iff, mem_list_iff, scopeNamespace_unscoped hkind,
      Partition.belongs_none_iff, true_or, and_true]
    constructor
    · rintro ⟨i, hi, hmem⟩
      exact ⟨i, (hscope _ _).trans hi, (hstored i).1.get?_eq_some_iff.2 ⟨hmem, rfl⟩⟩
    · rintro path ⟨i, hi, hfound⟩
      exact ⟨i, (hscope _ _).trans hi, ((hstored i).1.get?_eq_some_iff.1 hfound).1⟩

/-- Nodes, which live in no namespace. -/
def nodes : ResourceId :=
  ⟨"", "v1", "nodes", "", ""⟩

/-- What the cluster tells of a node. -/
def nodeOf (name version : String) : Value :=
  .record [
    ("kind", .text "Node"),
    ("metadata", .record [("name", .text name), ("resourceVersion", .text version)])]

/-- There are two pods and a node, and all pods and the nodes are watched. -/
def allWatched : Session :=
  let s : Session := .new {} {} default none
  let pods := [podOf "a" "web" "1", podOf "b" "web" "2"]
  let s := (s.begin (.objects .pods pods) true).1
  let s := (s.begin (.objects nodes [nodeOf "first" "3"]) true).1
  ((s.begin (.ensureWatch .pods "") true).1.begin (.ensureWatch nodes "") true).1

/-- Both workers have listed their scopes. -/
def allListed : World :=
  let w := (allWatched.world.withReady [.resume 1] 0).run (.resume 0)
  let w := (w.withReady [.resume 1] 0).run (.resume 0)
  let w := (w.withReady [] 0).run (.resume 1)
  (w.withReady [] 0).run (.resume 1)

theorem livedOn_allListed : LivedOn Value.PlainlyNamed allListed := by
  have hpods := (LivedOn.new {} {} default none).begin (P := Value.PlainlyNamed)
    (r := .objects .pods [podOf "a" "web" "1", podOf "b" "web" "2"]) true (by simp)
    (fun k hk => by cases hk) (by decide +kernel)
  have hnodes := hpods.begin (r := .objects nodes [nodeOf "first" "3"]) true (by simp)
    (fun k hk => by cases hk) (by decide +kernel)
  have hwatch := hnodes.begin (r := .ensureWatch .pods "") true (by simp)
    (fun k hk => by cases hk) (by decide +kernel)
  have hwatched : LivedOn Value.PlainlyNamed allWatched.world :=
    hwatch.begin (r := .ensureWatch nodes "") true (by simp) (fun k hk => by cases hk)
      (by decide +kernel)
  have hstart := hwatched.next (@Happens.job _ (.resume 0) [] [.resume 1] 0 rfl) (by decide +kernel)
  have hlist := hstart.next (@Happens.job _ (.resume 0) [] [.resume 1] 0 rfl) (by decide +kernel)
  have hstart' := hlist.next (@Happens.job _ (.resume 1) [] [] 0 rfl) (by decide +kernel)
  exact hstart'.next (@Happens.job _ (.resume 1) [] [] 0 rfl) (by decide +kernel)

/-- Of two pods of one name that of the namespace is found and listed, through the informer of all;
and a node is found and listed, whichever namespace its kind is listed in. -/
theorem get_agrees_with_list_web :
    allListed.cluster.namespaced .pods = true ∧ allListed.cluster.namespaced nodes = false ∧
      (∃ o ∈ (allListed.list 0 .pods "a" none).2, o.name = "web" ∧
        (allListed.get 0 .pods (Path.join "a" "web")).2 = some o ∧ o.version = "1") ∧
      ∃ o ∈ (allListed.list 0 nodes "a" none).2,
        (allListed.get 0 nodes o.path).2 = some o ∧ o.name = "first" := by
  have hpods : allListed.cluster.namespaced .pods = true := rfl
  have hnodes : allListed.cluster.namespaced nodes = false := rfl
  let web : Snapshot := ⟨"Pod", "a", "web", "1", [], podOf "a" "web" "1"⟩
  let first : Snapshot := ⟨"Node", "", "first", "3", [], nodeOf "first" "3"⟩
  have hweb : (allListed.get 0 .pods (Path.join "a" "web")).2 = some web := rfl
  have hfirst : (allListed.list 0 nodes "a" none).2 = [first] := rfl
  have hmem : first ∈ (allListed.list 0 nodes "a" none).2 := by
    rw [hfirst]
    exact List.mem_singleton_self first
  obtain ⟨hin, hname⟩ := ((get_agrees_with_list livedOn_allListed 0 .pods true true).1
    hpods "a" "web" web (by decide) (by decide)).1 hweb
  have hfound :=
    ((get_agrees_with_list livedOn_allListed 0 nodes true true).2 hnodes "a" first).1 hmem
  exact ⟨hpods, hnodes, ⟨web, hin, hname, hweb, rfl⟩, first, hmem, hfound, rfl⟩

end Simulation.World

end LiveCluster
