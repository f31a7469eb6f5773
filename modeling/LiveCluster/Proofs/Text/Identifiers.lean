import LiveCluster.Proofs.Text.Lowering
import LiveCluster.Proofs.Text.Trimming
import LiveCluster.Resource.Id

/-!
# Reading what identifiers write

The written form of a kind leaves out an empty group, so it has two parts or three, and the
two are read differently. Slashes inside a part, blanks at either end, empty parts and capitals
each change what is read, and the parts may then change places. Whatever is read has a named
version and a lowered resource, and no slash in any part; so an identifier that is its own
reading is of this kind, and its text has as many slashes as it has parts to keep apart. Its
ends are those of a text without blanks around it, and so there are none around it either.
-/

namespace LiveCluster.ResourceId

open Text

variable {r : ResourceId} {text : String}

/-- The text without the blanks around it, cut at its slashes. -/
def cuts (text : String) : List (List Char) :=
  split '/' (strip isBlank text.toList)

/-- What is read are two parts of the text or three. -/
theorem parse_ok (h : parse text = .ok r) :
    ∃ group version resource,
      (cuts text = [version, resource] ∧ group = [] ∨ cuts text = [group, version, resource]) ∧
      version ≠ [] ∧ resource ≠ [] ∧
      r = ⟨String.ofList group, String.ofList version, lower (String.ofList resource), "", ""⟩ := by
  have hbuild : ∀ {group version resource : List Char},
      (if (String.ofList version).isEmpty || (String.ofList resource).isEmpty then
          (.error (.badArgument (.resourceId text)) : Except Fault ResourceId)
        else .ok ⟨String.ofList group, String.ofList version, lower (String.ofList resource),
          "", ""⟩) = .ok r →
      version ≠ [] ∧ resource ≠ [] ∧ r = ⟨String.ofList group, String.ofList version,
        lower (String.ofList resource), "", ""⟩ := by
    intro group version resource h
    split at h
    · cases h
    · next hne =>
        cases h
        simpa using hne
  have hcuts : split '/' (strip isBlank text.toList) = cuts text := rfl
  unfold parse at h
  rw [hcuts] at h
  rcases hparts : cuts text with _ | ⟨first, _ | ⟨second, _ | ⟨third, _ | ⟨fourth, rest⟩⟩⟩⟩
  · rw [hparts] at h
    cases h
  · rw [hparts] at h
    cases h
  · rw [hparts] at h
    exact ⟨[], first, second, .inl ⟨rfl, rfl⟩, hbuild h⟩
  · rw [hparts] at h
    exact ⟨first, second, third, .inr rfl, hbuild h⟩
  · rw [hparts] at h
    cases h

/-- Whether a kind can be read as it is written. -/
structure Legible (r : ResourceId) : Prop where
  group : '/' ∉ r.group.toList
  version : '/' ∉ r.version.toList
  resource : '/' ∉ r.resource.toList
  versionNamed : r.version ≠ ""
  resourceNamed : r.resource ≠ ""
  lowered : lower r.resource = r.resource
  trimmed : trim r.kindText = r.kindText

theorem toList_kindText (r : ResourceId) :
    r.kindText.toList = r.apiVersion.toList ++ '/' :: r.resource.toList := by
  unfold kindText apiVersion
  split <;> simp

theorem toList_lower (s : String) : (lower s).toList = lowerFrom [] s.toList :=
  String.toList_ofList

/-- There are no slashes in what is read. -/
theorem slashless_of_parse (h : parse text = .ok r) :
    '/' ∉ r.group.toList ∧ '/' ∉ r.version.toList ∧ '/' ∉ r.resource.toList := by
  obtain ⟨group, version, resource, hcuts, -, -, rfl⟩ := parse_ok h
  have hparts : '/' ∉ group ∧ '/' ∉ version ∧ '/' ∉ resource := by
    have hnot : ∀ part ∈ cuts text, '/' ∉ part := fun _ => not_mem_of_mem_split
    rcases hcuts with ⟨hcuts, rfl⟩ | hcuts
    · rw [hcuts] at hnot
      exact ⟨List.not_mem_nil, by simpa using hnot⟩
    · rw [hcuts] at hnot
      simpa using hnot
  rw [toList_lower, String.toList_ofList, String.toList_ofList, String.toList_ofList]
  exact ⟨hparts.1, hparts.2.1, mt (eq_of_mem_lowerFrom (.inl rfl)) hparts.2.2⟩

theorem named_of_parse (h : parse text = .ok r) : r.version ≠ "" ∧ r.resource ≠ "" := by
  obtain ⟨group, version, resource, -, hversion, hresource, rfl⟩ := parse_ok h
  constructor
  · rwa [ne_eq, ← String.toList_eq_nil_iff, String.toList_ofList]
  · rw [ne_eq, ← String.toList_eq_nil_iff, toList_lower, String.toList_ofList]
    exact lowerFrom_ne_nil hresource

theorem toList_apiVersion_of_core (h : r.group = "") : r.apiVersion.toList = r.version.toList := by
  rw [apiVersion, if_pos (String.isEmpty_iff.2 h)]

theorem toList_apiVersion_of_named (h : r.group ≠ "") :
    r.apiVersion.toList = r.group.toList ++ '/' :: r.version.toList := by
  rw [apiVersion, if_neg (by simpa using h)]
  simp

/-- A kind that is its own reading is read with the group and version it has: had it no group
and three parts, there would be more slashes in its parts than in its text. -/
theorem strip_kindText (h : parse r.kindText = .ok r) :
    ∃ resource, strip isBlank r.kindText.toList = r.apiVersion.toList ++ '/' :: resource ∧
      resource ≠ [] ∧ r.resource.toList = lowerFrom [] resource := by
  obtain ⟨hgroup, hversion, hresource⟩ := slashless_of_parse h
  obtain ⟨group, version, resource, hcuts, -, hne, hr⟩ := parse_ok h
  have hg : r.group.toList = group := by rw [hr, String.toList_ofList]
  have hv : r.version.toList = version := by rw [hr, String.toList_ofList]
  have hs : r.resource.toList = lowerFrom [] resource := by
    rw [hr, toList_lower, String.toList_ofList]
  have hstrip := intercalate_split '/' (strip isBlank r.kindText.toList)
  refine ⟨resource, hstrip.symm.trans ?_, hne, hs⟩
  rw [← cuts] at hstrip ⊢
  rcases hcuts with ⟨hcuts, rfl⟩ | hcuts
  · rw [hcuts, toList_apiVersion_of_core (String.toList_eq_nil_iff.1 hg), hv]
    simp
  · by_cases hcore : r.group = ""
    · have hcount := (infix_strip isBlank r.kindText.toList).sublist.count_le '/'
      rw [← hstrip, hcuts, toList_kindText, toList_apiVersion_of_core hcore] at hcount
      simp [List.count_eq_zero.2 hversion, List.count_eq_zero.2 hresource] at hcount
      omega
    · rw [hcuts, toList_apiVersion_of_named hcore, hg, hv]
      simp

/-- The ends of the text are ends of the parts, so they are no blanks if those read are none. -/
theorem trim_kindText (h : parse r.kindText = .ok r) : trim r.kindText = r.kindText := by
  obtain ⟨resource, hstrip, hne, hresource⟩ := strip_kindText h
  have hversion : r.apiVersion.toList ≠ [] := by
    have hnamed := (named_of_parse h).1
    rw [ne_eq, ← String.toList_eq_nil_iff] at hnamed
    by_cases hcore : r.group = ""
    · rwa [toList_apiVersion_of_core hcore]
    · rw [toList_apiVersion_of_named hcore]
      exact List.append_ne_nil_of_right_ne_nil _ (List.cons_ne_nil _ _)
  refine trim_eq_self_iff.2 (strip_eq_self_iff.2 ⟨fun c hc => ?_, fun c hc => ?_⟩)
  · rw [toList_kindText, List.head?_append_of_ne_nil _ hversion] at hc
    have hhead : c ∈ (strip isBlank r.kindText.toList).head? := by
      rwa [hstrip, List.head?_append_of_ne_nil _ hversion]
    exact head?_strip hhead
  · by_contra hblank
    rw [Bool.not_eq_false] at hblank
    rw [toList_kindText, hresource, List.getLast?_append_cons,
      List.getLast?_cons_of_ne_nil (lowerFrom_ne_nil hne)] at hc
    have hlast : c ∈ (strip isBlank r.kindText.toList).getLast? := by
      rw [hstrip, List.getLast?_append_cons, List.getLast?_cons_of_ne_nil hne]
      exact getLast?_lowerFrom (.inr hblank) hc
    rw [getLast?_strip hlast] at hblank
    cases hblank

/-- A kind that is its own reading has a resource without capitals. -/
theorem lower_resource (h : parse r.kindText = .ok r) : lower r.resource = r.resource := by
  obtain ⟨resource, hstrip, -, hresource⟩ := strip_kindText h
  rw [trim_eq_self_iff.1 (trim_kindText h), toList_kindText] at hstrip
  obtain ⟨-, hsame⟩ := List.cons.inj (List.append_cancel_left hstrip)
  rw [← String.toList_inj, toList_lower, hsame, ← hresource, hsame]

theorem parse_kindText (h : Legible r) : parse r.kindText = .ok r.kindOnly := by
  have hversion : r.version.isEmpty = false := by simpa using h.versionNamed
  have hresource : r.resource.isEmpty = false := by simpa using h.resourceNamed
  unfold parse
  rw [trim_eq_self_iff.1 h.trimmed, split_kindText h.group h.version h.resource]
  split <;> simp [*, h.lowered, kindOnly, String.ofList_toList]

/-- A kind is read back from its text, whatever its group, version and resource, exactly if it
is legible: none of the three holds a slash, version and resource are named, the resource is
its own lowering and there are no blanks around the text. -/
theorem parse_kindText_iff (group version resource : String) :
    parse (kindText ⟨group, version, resource, "", ""⟩) = .ok ⟨group, version, resource, "", ""⟩ ↔
      Legible ⟨group, version, resource, "", ""⟩ := by
  constructor
  · intro h
    obtain ⟨hgroup, hversion, hresource⟩ := slashless_of_parse h
    obtain ⟨hversionNamed, hresourceNamed⟩ := named_of_parse h
    exact ⟨hgroup, hversion, hresource, hversionNamed, hresourceNamed, lower_resource h,
      trim_kindText h⟩
  · exact parse_kindText

end LiveCluster.ResourceId
