import LiveCluster.Text.Blank
import Mathlib.Data.List.DropRight

/-!
# Trimming

What is stripped of a text is a piece of it that begins and ends with characters that are
kept; so a text has nothing to strip exactly if its first and its last character are kept.
-/

namespace LiveCluster.Text

variable {p : Char → Bool} {cs : List Char} {c : Char}

theorem infix_strip (p : Char → Bool) (cs : List Char) : strip p cs <:+: cs :=
  (List.rdropWhile_prefix p _).isInfix.trans (List.dropWhile_suffix p).isInfix

theorem dropWhile_eq_self_iff_head : cs.dropWhile p = cs ↔ ∀ c ∈ cs.head?, p c = false := by
  cases cs with
  | nil => simp
  | cons c rest => simp [List.dropWhile_eq_self_iff]

theorem dropEndWhile_eq_self_iff : dropEndWhile p cs = cs ↔ ∀ c ∈ cs.getLast?, p c = false := by
  refine List.rdropWhile_eq_self_iff.trans ⟨fun h c hc => ?_, fun h hne hlast => ?_⟩
  · obtain ⟨hne, rfl⟩ := List.mem_getLast?_eq_getLast hc
    exact Bool.eq_false_iff.2 (h hne)
  · rw [h _ (List.getLast_mem_getLast? hne)] at hlast
    cases hlast

/-- A text has nothing to strip if neither its first character is to go nor its last. -/
theorem strip_eq_self_iff :
    strip p cs = cs ↔ (∀ c ∈ cs.head?, p c = false) ∧ ∀ c ∈ cs.getLast?, p c = false := by
  rw [← dropWhile_eq_self_iff_head, ← dropEndWhile_eq_self_iff]
  constructor
  · intro h
    have hfirst : cs.dropWhile p = cs := by
      refine (List.dropWhile_suffix p).sublist.eq_of_length_le ?_
      have hlast := (List.rdropWhile_prefix p (cs.dropWhile p)).length_le
      rwa [show List.rdropWhile p (cs.dropWhile p) = cs from h] at hlast
    refine ⟨hfirst, ?_⟩
    rw [strip, hfirst] at h
    exact h
  · rintro ⟨hfirst, hlast⟩
    rw [strip, hfirst, hlast]

theorem head?_strip (h : c ∈ (strip p cs).head?) : p c = false := by
  obtain ⟨rest, hrest⟩ := List.rdropWhile_prefix p (cs.dropWhile p)
  have hhead : c ∈ (cs.dropWhile p).head? := by
    rw [← hrest]
    exact List.mem_head?_append_of_mem_head? h
  have hnot := List.head?_dropWhile_not p cs
  rw [Option.mem_def.1 hhead] at hnot
  exact hnot

theorem getLast?_strip (h : c ∈ (strip p cs).getLast?) : p c = false := by
  obtain ⟨hne, rfl⟩ := List.mem_getLast?_eq_getLast h
  exact Bool.eq_false_iff.2 (List.rdropWhile_last_not p _ hne)

theorem strip_strip (p : Char → Bool) (cs : List Char) : strip p (strip p cs) = strip p cs :=
  strip_eq_self_iff.2 ⟨fun _ => head?_strip, fun _ => getLast?_strip⟩

theorem trim_eq_self_iff {s : String} : trim s = s ↔ strip isBlank s.toList = s.toList := by
  rw [trim, ← String.toList_inj, String.toList_ofList]

end LiveCluster.Text
