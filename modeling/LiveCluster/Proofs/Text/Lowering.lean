import LiveCluster.Text.Blank
import LiveCluster.Text.Case
import Mathlib.Data.List.Basic

/-!
# Lowering keeps a text in its parts

A small letter is never a slash and never blank. So lowering makes no separator of
identifiers that was not there, and a text that does not end in a blank does not come to
end in one.
-/

namespace LiveCluster.Text

variable {c d : Char} {before cs : List Char}

/-- Whether a character may separate the parts of an identifier, or surround it. -/
def Divides (c : Char) : Prop :=
  c = '/' ∨ isBlank c = true

instance : DecidablePred Divides :=
  fun c => inferInstanceAs (Decidable (c = '/' ∨ isBlank c = true))

/-- Code points between which there are no letters: the blanks, and the slash. -/
def dividers : List (Nat × Nat) :=
  [(9, 13), (28, 32), (47, 47), (0x85, 0x85), (0xA0, 0xA0), (0x1680, 0x1680), (0x2000, 0x200A),
    (0x2028, 0x2029), (0x202F, 0x202F), (0x205F, 0x205F), (0x3000, 0x3000)]

theorem Divides.within (h : Divides c) : inRanges dividers c.toNat = true := by
  rcases h with rfl | h
  · rfl
  · simp only [isBlank, isSpace, Bool.or_eq_true, Bool.and_eq_true, decide_eq_true_eq,
      beq_iff_eq] at h
    simp only [inRanges, dividers, List.any_cons, List.any_nil, Bool.or_eq_true, Bool.and_eq_true,
      decide_eq_true_eq]
    omega

/-- No capital has its small letter there. -/
theorem capitalRuns_avoid : ∀ r ∈ capitalRuns, ∀ range ∈ dividers, 0 < range.1 ∧
    (r.last + r.shift < range.1 ∨ range.2 < r.first + r.shift) := by
  decide +kernel

theorem toLower_avoids : ∀ n < 128, (Char.ofNat n).toLower = Char.ofNat n ∨
    inRanges dividers (Char.ofNat n).toLower.toNat = false := by
  decide

/-- A number that is no code point stands for the character zero. -/
theorem toNat_ofNat_cases (n : Nat) : (Char.ofNat n).toNat = n ∨ (Char.ofNat n).toNat = 0 := by
  by_cases h : n.isValidChar
  · rw [Char.ofNat, dif_pos h]
    exact .inl rfl
  · rw [Char.ofNat, dif_neg h]
    exact .inr rfl

theorem lowerChar_avoids (c : Char) :
    lowerChar c = c ∨ inRanges dividers (lowerChar c).toNat = false := by
  unfold lowerChar
  split
  · next hascii =>
      have hlower := toLower_avoids c.toNat hascii
      rwa [Char.ofNat_toNat] at hlower
  · split
    · next r hfind =>
        have havoid := capitalRuns_avoid r (List.mem_of_find?_eq_some hfind)
        have hrun := List.find?_some hfind
        simp only [Bool.and_eq_true, decide_eq_true_eq] at hrun
        refine .inr (List.any_eq_false.2 fun range hrange => ?_)
        obtain ⟨hpos, havoid⟩ := havoid range hrange
        rw [Bool.and_eq_true, decide_eq_true_eq, decide_eq_true_eq]
        rcases toNat_ofNat_cases ((c.toNat : Int) + r.shift).toNat with h | h <;> omega
    · exact .inl rfl

theorem eq_of_divides_lowerChar (h : Divides (lowerChar c)) : lowerChar c = c := by
  refine (lowerChar_avoids c).resolve_right fun havoids => ?_
  rw [h.within] at havoids
  cases havoids

/-- A character is lowered to others, none of which divides a text if it does not. -/
theorem lowerFrom_cons (before : List Char) (c : Char) (cs : List Char) :
    ∃ small, small ≠ [] ∧ (∀ d ∈ small, Divides d → d = c) ∧
      lowerFrom before (c :: cs) = small ++ lowerFrom (c :: before) cs := by
  have hother : ∀ d ∈ ['i', Char.ofNat 0x307, Char.ofNat 0x3C2, Char.ofNat 0x3C3], ¬Divides d := by
    -- one after another, for there are too many characters to decide it of each
    simp only [List.forall_mem_cons, List.not_mem_nil, false_imp_iff, implies_true, and_true]
    decide
  rw [lowerFrom]
  refine ⟨_, ?_, ?_, rfl⟩
  · split
    · exact List.cons_ne_nil _ _
    · split <;> exact List.cons_ne_nil _ _
  · intro d hd hdivides
    split at hd
    · refine absurd hdivides (hother d ?_)
      rcases List.mem_pair.1 hd with rfl | rfl <;> simp
    · split at hd
      · refine absurd hdivides (hother d ?_)
        rw [List.mem_singleton.1 hd]
        split <;> simp
      · rw [List.mem_singleton] at hd
        subst hd
        exact eq_of_divides_lowerChar hdivides

theorem eq_of_mem_lowerFrom (hd : Divides d)
    (h : d ∈ lowerFrom before cs) : d ∈ cs := by
  induction cs generalizing before with
  | nil => cases h
  | cons c cs ih =>
      obtain ⟨small, -, hsmall, heq⟩ := lowerFrom_cons before c cs
      rw [heq] at h
      rcases List.mem_append.1 h with h | h
      · exact List.mem_cons.2 (.inl (hsmall d h hd))
      · exact List.mem_cons_of_mem _ (ih h)

theorem lowerFrom_ne_nil (h : cs ≠ []) : lowerFrom before cs ≠ [] := by
  cases cs with
  | nil => exact absurd rfl h
  | cons c cs =>
      obtain ⟨small, hne, -, heq⟩ := lowerFrom_cons before c cs
      rw [heq]
      exact List.append_ne_nil_of_left_ne_nil hne _

/-- If the last character that lowering gives divides a text, the last one that it was given did. -/
theorem getLast?_lowerFrom (hd : Divides d)
    (h : d ∈ (lowerFrom before cs).getLast?) : d ∈ cs.getLast? := by
  induction cs generalizing before with
  | nil => cases h
  | cons c cs ih =>
      obtain ⟨small, -, hsmall, heq⟩ := lowerFrom_cons before c cs
      rw [heq] at h
      by_cases hnil : cs = []
      · subst hnil
        rw [lowerFrom, List.append_nil] at h
        rw [hsmall d (List.mem_of_mem_getLast? h) hd]
        rfl
      · rw [List.getLast?_append_of_ne_nil _ (lowerFrom_ne_nil hnil)] at h
        exact List.mem_getLast?_cons (ih h)

end LiveCluster.Text
