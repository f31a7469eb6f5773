import LiveCluster.Resource.Id

/-!
# Keys of scopes

A scope is known by one text: its kind as it is written, and behind a sign the namespace, if it
has one. The group is left out of it where it is empty. So the same text might be read in several
ways, and what keeps it from that is that the parts of the name of a kind hold no separators.
Then the first sign is where the kind ends, whatever the namespace holds, and the number of slashes
before it tells whether there is a group.
-/

namespace LiveCluster.ResourceId

variable {r s : ResourceId} {ns ns' : String}

/-- No part of the name of a kind holds a separator of keys. -/
structure Plain (r : ResourceId) : Prop where
  slash : '/' ∉ r.group.toList ∧ '/' ∉ r.version.toList ∧ '/' ∉ r.resource.toList
  sign : '@' ∉ r.group.toList ∧ '@' ∉ r.version.toList ∧ '@' ∉ r.resource.toList

theorem Plain.parts_kindText (h : r.Plain) : Text.split '/' r.kindText.toList =
    if r.group = "" then [r.version.toList, r.resource.toList]
    else [r.group.toList, r.version.toList, r.resource.toList] :=
  split_kindText h.slash.1 h.slash.2.1 h.slash.2.2

/-- Kinds that are written alike are the same. -/
theorem Plain.kindText_inj (h : r.Plain) (h' : s.Plain) (heq : r.kindText = s.kindText) :
    r.kindOnly = s.kindOnly := by
  have hparts := h.parts_kindText
  rw [heq, h'.parts_kindText] at hparts
  suffices hsame : r.group = s.group ∧ r.version = s.version ∧ r.resource = s.resource by
    obtain ⟨hgroup, hversion, hresource⟩ := hsame
    rw [kindOnly, kindOnly, hgroup, hversion, hresource]
  split at hparts <;> split at hparts
  · next hs hr =>
      simp only [List.cons.injEq, String.toList_inj, and_true] at hparts
      exact ⟨hr.trans hs.symm, hparts.1.symm, hparts.2.symm⟩
  · simp at hparts
  · simp at hparts
  · simp only [List.cons.injEq, String.toList_inj, and_true] at hparts
    exact ⟨hparts.1.symm, hparts.2.1.symm, hparts.2.2.symm⟩

theorem Plain.not_mem_kindText (h : r.Plain) : '@' ∉ r.kindText.toList := by
  obtain ⟨hgroup, hversion, hresource⟩ := h.sign
  unfold kindText
  split <;> simp [hgroup, hversion, hresource]

/-- The scope is cut out of its key at the first sign. -/
theorem Plain.cut_scopeKey (h : r.Plain) (ns : String) :
    Text.cutFirst? '@' (r.scopeKey ns).toList =
      if ns = "" then none else some (r.kindText.toList, ns.toList) := by
  unfold scopeKey
  simp only [String.isEmpty_iff]
  split
  · exact Text.cutFirst?_eq_none_iff.2 h.not_mem_kindText
  · have hcut := Text.cutFirst?_append h.not_mem_kindText ns.toList
    have hsign : ("@" : String).toList = ['@'] := rfl
    simpa [hsign] using hcut

/-- Scopes that have one key are the same. -/
theorem Plain.scopeKey_inj (h : r.Plain) (h' : s.Plain) (heq : r.scopeKey ns = s.scopeKey ns') :
    r.kindOnly = s.kindOnly ∧ ns = ns' := by
  have hcut := h.cut_scopeKey ns
  rw [heq, h'.cut_scopeKey ns'] at hcut
  split at hcut <;> split at hcut
  · next hns' hns =>
      subst hns hns'
      exact ⟨h.kindText_inj h' heq, rfl⟩
  · cases hcut
  · cases hcut
  · rw [Option.some.injEq, Prod.mk.injEq] at hcut
    rw [String.toList_inj, String.toList_inj] at hcut
    exact ⟨h.kindText_inj h' hcut.1.symm, hcut.2.symm⟩

/-- Two scopes of plain kinds have one key exactly if they are of the same kind and namespace,
whichever objects the identifiers name. -/
theorem Plain.scopeKey_eq_iff (h : r.Plain) (h' : s.Plain) :
    r.scopeKey ns = s.scopeKey ns' ↔
      (r.group = s.group ∧ r.version = s.version ∧ r.resource = s.resource) ∧ ns = ns' := by
  constructor
  · intro heq
    obtain ⟨hkind, hns⟩ := h.scopeKey_inj h' heq
    rw [kindOnly, kindOnly, ResourceId.mk.injEq] at hkind
    exact ⟨⟨hkind.1, hkind.2.1, hkind.2.2.1⟩, hns⟩
  · rintro ⟨⟨hgroup, hversion, hresource⟩, rfl⟩
    rw [scopeKey, scopeKey, kindText, kindText, hgroup, hversion, hresource]

/-- The scopes of a pod and of all pods have one key in a namespace that holds separators itself,
and the scopes of pods and of deployments do not. -/
theorem Plain.scopeKey_eq_iff_pods :
    (pods.withPath "a/web").scopeKey "b@c/d" = pods.scopeKey "b@c/d" ∧
      pods.scopeKey "a" ≠ deployments.scopeKey "a" ∧ pods.scopeKey "a" ≠ pods.scopeKey "" := by
  have hpod : (pods.withPath "a/web").Plain := ⟨by decide, by decide⟩
  have hpods : pods.Plain := ⟨by decide, by decide⟩
  have hdeployments : deployments.Plain := ⟨by decide, by decide⟩
  refine ⟨(hpod.scopeKey_eq_iff hpods).2 ⟨⟨rfl, rfl, rfl⟩, rfl⟩, ?_, ?_⟩
  · rw [ne_eq, hpods.scopeKey_eq_iff hdeployments]
    decide
  · rw [ne_eq, hpods.scopeKey_eq_iff hpods]
    decide

/-- A kind that is not plain may take the key of another scope. -/
example : (⟨"", "v1", "pods@a", "", ""⟩ : ResourceId).scopeKey "" = pods.scopeKey "a" := by decide

end LiveCluster.ResourceId
