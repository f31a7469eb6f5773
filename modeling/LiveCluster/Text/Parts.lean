/-!
# Cutting a text at a separator

Paths, selectors and resource identifiers are all parts between separators. The
cuts are on lists of characters: at every separator (`split`), at the first one
(`cutFirst?`) and at the last one (`cutLast?`). A cut loses nothing but the
separator itself, and the two partial cuts answer `none` exactly when there is
no separator.
-/

namespace LiveCluster.Text

/-- The parts between the separators; always at least one, possibly empty. -/
def split (sep : Char) : List Char → List (List Char)
  | [] => [[]]
  | c :: cs =>
    if c = sep then [] :: split sep cs
    else match split sep cs with
      | [] => [[c]]
      | part :: parts => (c :: part) :: parts

/-- What stands before and after the first separator. -/
def cutFirst? (sep : Char) : List Char → Option (List Char × List Char)
  | [] => none
  | c :: cs =>
    if c = sep then some ([], cs)
    else (cutFirst? sep cs).map fun (before, after) => (c :: before, after)

/-- What stands before and after the last separator. -/
def cutLast? (sep : Char) : List Char → Option (List Char × List Char)
  | [] => none
  | c :: cs =>
    match cutLast? sep cs with
    | some (before, after) => some (c :: before, after)
    | none => if c = sep then some ([], cs) else none

theorem cutFirst?_eq_none_iff {sep : Char} {cs : List Char} :
    cutFirst? sep cs = none ↔ sep ∉ cs := by
  induction cs with
  | nil => simp [cutFirst?]
  | cons c cs ih =>
    by_cases h : c = sep
    · simp [cutFirst?, h]
    · simp [cutFirst?, h, ih, Ne.symm h]

theorem cutLast?_eq_none_iff {sep : Char} {cs : List Char} :
    cutLast? sep cs = none ↔ sep ∉ cs := by
  induction cs with
  | nil => simp [cutLast?]
  | cons c cs ih =>
    cases h : cutLast? sep cs with
    | none =>
      have hn := ih.1 h
      by_cases hc : c = sep
      · simp [cutLast?, h, hc]
      · simp [cutLast?, h, hc, hn, Ne.symm hc]
    | some p =>
      have hn : sep ∈ cs := by
        refine Decidable.byContradiction fun hm => ?_
        rw [ih.2 hm] at h
        cases h
      simp [cutLast?, h, hn]

/-- The last separator is the one after which there is none. -/
theorem cutLast?_append {sep : Char} {after : List Char} (h : sep ∉ after)
    (before : List Char) : cutLast? sep (before ++ sep :: after) = some (before, after) := by
  induction before with
  | nil => simp [cutLast?, cutLast?_eq_none_iff.2 h]
  | cons c cs ih => simp [cutLast?, ih]

/-- The first separator is the one before which there is none. -/
theorem cutFirst?_append {sep : Char} {before : List Char} (h : sep ∉ before)
    (after : List Char) : cutFirst? sep (before ++ sep :: after) = some (before, after) := by
  induction before with
  | nil => simp [cutFirst?]
  | cons c cs ih =>
    rw [List.mem_cons, not_or] at h
    simp [cutFirst?, Ne.symm h.1, ih h.2]

/-- A cut at the first separator is where there is none before. -/
theorem eq_append_of_cutFirst? {sep : Char} {cs before after : List Char}
    (h : cutFirst? sep cs = some (before, after)) :
    cs = before ++ sep :: after ∧ sep ∉ before := by
  have hmem : sep ∈ cs := by
    refine Decidable.byContradiction fun hmem => ?_
    rw [cutFirst?_eq_none_iff.2 hmem] at h
    cases h
  obtain ⟨before', after', rfl, hnot⟩ := List.eq_append_cons_of_mem hmem
  rw [cutFirst?_append hnot] at h
  cases h
  exact ⟨rfl, hnot⟩

/-- A cut at the last separator is where there is none after. -/
theorem eq_append_of_cutLast? {sep : Char} {cs before after : List Char}
    (h : cutLast? sep cs = some (before, after)) :
    cs = before ++ sep :: after ∧ sep ∉ after := by
  induction cs generalizing before with
  | nil => cases h
  | cons c cs ih =>
    rw [cutLast?] at h
    cases hcut : cutLast? sep cs with
    | some cut =>
      rw [hcut] at h
      cases h
      obtain ⟨hcs, hnot⟩ := ih hcut
      exact ⟨congrArg (c :: ·) hcs, hnot⟩
    | none =>
      rw [hcut] at h
      dsimp only at h
      split at h
      · rename_i hc
        cases h
        exact ⟨hc ▸ rfl, cutLast?_eq_none_iff.1 hcut⟩
      · cases h

theorem split_of_not_mem {sep : Char} {cs : List Char} (h : sep ∉ cs) : split sep cs = [cs] := by
  induction cs with
  | nil => rfl
  | cons c cs ih =>
    rw [List.mem_cons, not_or] at h
    simp [split, Ne.symm h.1, ih h.2]

/-- What stands before a separator is a part, if it holds none. -/
theorem split_append {sep : Char} {part : List Char} (h : sep ∉ part) (rest : List Char) :
    split sep (part ++ sep :: rest) = part :: split sep rest := by
  induction part with
  | nil => simp [split]
  | cons c cs ih =>
    rw [List.mem_cons, not_or] at h
    simp [split, Ne.symm h.1, ih h.2]

theorem split_ne_nil (sep : Char) (cs : List Char) : split sep cs ≠ [] := by
  cases cs with
  | nil => exact List.cons_ne_nil _ _
  | cons c cs =>
    rw [split]
    split
    · exact List.cons_ne_nil _ _
    · split <;> exact List.cons_ne_nil _ _

/-- No part holds a separator. -/
theorem not_mem_of_mem_split {sep : Char} {cs part : List Char} (h : part ∈ split sep cs) :
    sep ∉ part := by
  induction cs generalizing part with
  | nil =>
    rw [split, List.mem_singleton] at h
    rw [h]
    exact List.not_mem_nil
  | cons c cs ih =>
    rw [split] at h
    cases hsplit : split sep cs with
    | nil => exact absurd hsplit (split_ne_nil sep cs)
    | cons first rest =>
      rw [hsplit] at h ih
      dsimp only at h
      split at h
      · rcases List.mem_cons.1 h with rfl | h
        · exact List.not_mem_nil
        · exact ih h
      · rename_i hc
        rcases List.mem_cons.1 h with rfl | h
        · rw [List.mem_cons, not_or]
          exact ⟨Ne.symm hc, ih List.mem_cons_self⟩
        · exact ih (List.mem_cons_of_mem _ h)

/-- The parts of a text with the separators between them are the text. -/
theorem intercalate_split (sep : Char) (cs : List Char) :
    List.intercalate [sep] (split sep cs) = cs := by
  induction cs with
  | nil => rfl
  | cons c cs ih =>
    rw [split]
    cases hsplit : split sep cs with
    | nil => exact absurd hsplit (split_ne_nil sep cs)
    | cons part rest =>
      rw [hsplit] at ih
      dsimp only
      split
      · rename_i hc
        rw [List.intercalate_cons_cons, ih, hc]
        rfl
      · rw [← ih]
        cases rest with
        | nil => rfl
        | cons next rest => simp [List.intercalate_cons_cons]

/-- Texts without separators, with separators between them, have these texts as parts. -/
theorem split_intercalate {sep : Char} {parts : List (List Char)} (hne : parts ≠ [])
    (h : ∀ part ∈ parts, sep ∉ part) : split sep (List.intercalate [sep] parts) = parts := by
  induction parts with
  | nil => exact absurd rfl hne
  | cons part rest ih =>
    obtain ⟨hpart, hrest⟩ := List.forall_mem_cons.1 h
    cases rest with
    | nil => rw [List.intercalate_singleton, split_of_not_mem hpart]
    | cons next rest =>
      rw [List.intercalate_cons_cons, List.append_assoc, List.singleton_append,
        split_append hpart, ih (List.cons_ne_nil _ _) hrest]

end LiveCluster.Text
