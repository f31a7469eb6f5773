import LiveCluster.Proofs.Text.Trimming
import LiveCluster.Proofs.Watch.Malformed
import LiveCluster.Selector
import Mathlib.Algebra.BigOperators.Group.List.Basic
import Mathlib.Algebra.Order.BigOperators.Group.List
import Mathlib.Algebra.Order.Group.Nat
import Mathlib.Data.Prod.Lex
import Mathlib.Data.String.Basic

/-!
# Reading what selectors write

A selector is written as its constraints in order, `key=value`, with commas between them.
Reading cuts the text at the commas, drops blank terms, takes a double sign for a single one,
cuts each term at its first sign and trims what is left on either side.

What is read is always neat: keys are named, nothing has blanks around it, no comma is left,
and no sign in a key. A neat constraint stays a term of its own, and of it only the value can
be changed, by the signs in it; then it gets shorter. So the constraints of a selector might
still stand in for each other, one read as the next, but not all of them: on a finite set a map
that makes no value longer and reaches every constraint makes none shorter. A selector is its
own reading exactly if each constraint is read as it is written.
-/

namespace LiveCluster.Selector

variable {p q r : String × String} {ps qs : List (String × String)} {cs : List Char}

/-! ## The order of constraints -/

theorem before_iff : before p q = true ↔ toLex p < toLex q := by
  rw [before, Bool.or_eq_true_iff, Bool.and_eq_true_iff, decide_eq_true_iff, decide_eq_true_iff,
    beq_iff_eq, Prod.Lex.toLex_lt_toLex]

/-- Each constraint comes before those that follow it. -/
def Rising (ps : List (String × String)) : Prop :=
  ps.Pairwise fun p q => toLex p < toLex q

theorem Rising.insertPair (h : Rising ps) : Rising (insertPair p ps) := by
  induction ps with
  | nil => exact List.pairwise_singleton _ _
  | cons q rest ih =>
      obtain ⟨hq, hrest⟩ := List.pairwise_cons.1 h
      unfold Selector.insertPair
      split
      · exact h
      · next hne =>
          split
          · next hbefore =>
              have hpq := before_iff.1 hbefore
              refine List.pairwise_cons.2 ⟨fun r hr => ?_, h⟩
              rcases List.mem_cons.1 hr with rfl | hr
              · exact hpq
              · exact hpq.trans (hq r hr)
          · next hbefore =>
              have hqp : toLex q < toLex p :=
                lt_of_le_of_ne (not_lt.1 (mt before_iff.2 hbefore)) fun heq =>
                  hne (toLex.injective heq).symm
              refine List.pairwise_cons.2 ⟨fun r hr => ?_, ih hrest⟩
              rcases mem_insertPair.1 hr with rfl | hr
              · exact hqp
              · exact hq r hr

theorem rising_ofPairs (ps : List (String × String)) : Rising (ofPairs ps).constraints := by
  rw [ofPairs]
  induction ps with
  | nil => exact List.Pairwise.nil
  | cons p rest ih => exact ih.insertPair

theorem Rising.nodup (h : Rising ps) : ps.Nodup :=
  List.Pairwise.imp (fun {_ _} hlt => fun heq => hlt.ne (congrArg toLex heq)) h

/-- Selectors are equal if they ask for the same. -/
theorem ofPairs_eq_iff : ofPairs ps = ofPairs qs ↔ ∀ p, p ∈ ps ↔ p ∈ qs := by
  constructor
  · intro h p
    rw [← mem_ofPairs, h, mem_ofPairs]
  · intro h
    have hrising := rising_ofPairs ps
    have hrising' := rising_ofPairs qs
    have hperm : (ofPairs ps).constraints.Perm (ofPairs qs).constraints :=
      (List.perm_ext_iff_of_nodup hrising.nodup hrising'.nodup).2 fun p => by
        rw [mem_ofPairs, mem_ofPairs, h]
    have hsame := hperm.eq_of_pairwise (fun p q _ _ hpq hqp => absurd hpq (lt_asymm hqp))
      hrising hrising'
    rw [← Selector.mk.injEq] at hsame
    exact hsame

/-! ## Signs -/

theorem singleEquals_append {key : List Char} (h : '=' ∉ key) (rest : List Char) :
    singleEquals (key ++ rest) = key ++ singleEquals rest := by
  induction key with
  | nil => rfl
  | cons c key ih =>
      obtain ⟨hc, hkey⟩ := not_or.1 (mt List.mem_cons.2 h)
      rw [List.cons_append, singleEquals, ih hkey, List.cons_append]
      rintro cs' rfl
      exact absurd rfl hc

theorem length_singleEquals_le (cs : List Char) : (singleEquals cs).length ≤ cs.length := by
  fun_induction singleEquals cs with
  | case1 cs ih => simp only [List.length_cons]; omega
  | case2 c cs _ ih => simp only [List.length_cons]; omega
  | case3 => exact Nat.le_refl _

theorem mem_of_mem_singleEquals {c : Char} (h : c ∈ singleEquals cs) : c ∈ cs := by
  fun_induction singleEquals cs with
  | case1 cs ih =>
      rcases List.mem_cons.1 h with rfl | h
      · exact List.mem_cons_self
      · exact List.mem_cons_of_mem _ (List.mem_cons_of_mem _ (ih h))
  | case2 c cs _ ih => exact List.mem_cons.2 ((List.mem_cons.1 h).imp_right ih)
  | case3 => exact h

/-- Nothing is done to a text in which no two signs stand together. -/
theorem singleEquals_of_not_infix (h : ¬['=', '='] <:+: cs) : singleEquals cs = cs := by
  fun_induction singleEquals cs with
  | case1 cs ih => exact absurd ⟨[], cs, rfl⟩ h
  | case2 c cs _ ih => rw [ih fun hin => h (hin.trans (List.suffix_cons c cs).isInfix)]
  | case3 => rfl

theorem length_singleEquals_lt (h : ['=', '='] <:+: cs) :
    (singleEquals cs).length < cs.length := by
  fun_induction singleEquals cs with
  | case1 cs ih =>
      have hle := length_singleEquals_le cs
      simp only [List.length_cons]
      omega
  | case2 c cs hne ih =>
      rcases List.infix_cons_iff.1 h with hprefix | hin
      · obtain ⟨rest, hrest⟩ := hprefix
        cases hrest
        exact absurd rfl (hne rest rfl)
      · exact Nat.succ_lt_succ (ih hin)
  | case3 => cases List.eq_nil_of_infix_nil h

/-! ## One term -/

/-- What every constraint is that was read. -/
structure Neat (q : String × String) : Prop where
  named : q.1 ≠ ""
  key : Text.trim q.1 = q.1
  keySigns : ',' ∉ q.1.toList ∧ '=' ∉ q.1.toList
  value : Text.trim q.2 = q.2
  valueComma : ',' ∉ q.2.toList

/-- Whether a constraint can be read as it is written. -/
structure Legible (q : String × String) : Prop extends Neat q where
  first : ¬['='] <+: q.2.toList
  single : ¬['=', '='] <:+: q.2.toList

/-- The written form of a constraint. -/
def written (q : String × String) : List Char :=
  q.1.toList ++ '=' :: q.2.toList

/-- What is read of a value that stands behind a sign. -/
def reread (value : String) : String :=
  String.ofList (Text.strip Text.isBlank (singleEquals ('=' :: value.toList)).tail)

theorem parseTerm_ok {term : List Char} (h : parseTerm term = .ok q) :
    ∃ key value, Text.cutFirst? '=' (singleEquals term) = some (key, value) ∧
      Text.strip Text.isBlank key ≠ [] ∧ q.1.toList = Text.strip Text.isBlank key ∧
      q.2.toList = Text.strip Text.isBlank value := by
  unfold parseTerm at h
  dsimp only at h
  split at h
  · cases h
  · next key value hcut =>
      split at h
      · cases h
      · next hkey =>
          cases h
          rw [List.isEmpty_iff] at hkey
          exact ⟨key, value, hcut, hkey, String.toList_ofList, String.toList_ofList⟩

theorem neat_of_parseTerm {term : List Char} (hcomma : ',' ∉ term) (h : parseTerm term = .ok q) :
    Neat q := by
  obtain ⟨key, value, hcut, hne, hkey, hvalue⟩ := parseTerm_ok h
  obtain ⟨hterm, hsign⟩ := Text.eq_append_of_cutFirst? hcut
  have hplain : ',' ∉ singleEquals term := mt mem_of_mem_singleEquals hcomma
  rw [hterm, List.mem_append, not_or] at hplain
  have hmem := (Text.infix_strip Text.isBlank key).subset
  have hmem' := (Text.infix_strip Text.isBlank value).subset
  exact {
    named := fun hempty => hne (by rw [← hkey, hempty]; rfl)
    key := Text.trim_eq_self_iff.2 (by rw [hkey, Text.strip_strip])
    keySigns := by
      rw [hkey]
      exact ⟨fun hin => hplain.1 (hmem hin), fun hin => hsign (hmem hin)⟩
    value := Text.trim_eq_self_iff.2 (by rw [hvalue, Text.strip_strip])
    valueComma := by
      rw [hvalue]
      exact fun hin => hplain.2 (List.mem_cons_of_mem _ (hmem' hin)) }

theorem Neat.not_mem_written (h : Neat q) : ',' ∉ written q := by
  rw [written, List.mem_append, List.mem_cons]
  rintro (hin | hsign | hin)
  · exact h.keySigns.1 hin
  · exact absurd hsign (by decide)
  · exact h.valueComma hin

/-- There is nothing to strip of a neat constraint. -/
theorem Neat.strip_written (h : Neat q) : Text.strip Text.isBlank (written q) = written q := by
  obtain ⟨hfirst, -⟩ := Text.strip_eq_self_iff.1 (Text.trim_eq_self_iff.1 h.key)
  obtain ⟨-, hlast⟩ := Text.strip_eq_self_iff.1 (Text.trim_eq_self_iff.1 h.value)
  have hne : q.1.toList ≠ [] := fun hnil => h.named (String.toList_eq_nil_iff.1 hnil)
  refine Text.strip_eq_self_iff.2 ⟨fun c hc => ?_, fun c hc => ?_⟩
  · rw [written, List.head?_append_of_ne_nil _ hne] at hc
    exact hfirst c hc
  · rw [written, List.getLast?_append_cons, List.getLast?_cons] at hc
    cases hvalue : q.2.toList.getLast? with
    | none =>
        rw [hvalue] at hc
        cases hc
        rfl
    | some last =>
        rw [hvalue] at hc
        cases hc
        exact hlast _ hvalue

theorem singleEquals_cons (cs : List Char) :
    singleEquals ('=' :: cs) = '=' :: (singleEquals ('=' :: cs)).tail := by
  cases cs with
  | nil => rfl
  | cons c cs =>
      by_cases hc : c = '='
      · subst hc
        rfl
      · rw [singleEquals, List.tail_cons]
        exact fun cs' _ h => hc (List.cons.inj h).1

theorem Neat.parseTerm_written (h : Neat q) : parseTerm (written q) = .ok (q.1, reread q.2) := by
  have hkey := Text.trim_eq_self_iff.1 h.key
  have hne : q.1.toList ≠ [] := fun hnil => h.named (String.toList_eq_nil_iff.1 hnil)
  have hcut : Text.cutFirst? '=' (singleEquals (written q)) =
      some (q.1.toList, (singleEquals ('=' :: q.2.toList)).tail) := by
    rw [written, singleEquals_append h.keySigns.2, singleEquals_cons,
      Text.cutFirst?_append h.keySigns.2, List.tail_cons]
  rw [parseTerm, hcut]
  dsimp only
  rw [hkey, if_neg (by simpa using hne), String.ofList_toList, reread]

theorem length_reread_le (value : String) : (reread value).length ≤ value.length := by
  have hstrip := (Text.infix_strip Text.isBlank (singleEquals ('=' :: value.toList)).tail).length_le
  have hsingle := length_singleEquals_le ('=' :: value.toList)
  rw [singleEquals_cons, List.length_cons, List.length_cons] at hsingle
  rw [← String.length_toList, ← String.length_toList, reread, String.toList_ofList]
  omega

/-- Two signs stand together behind the key if the value begins with one or holds two. -/
theorem infix_sign_iff {value : List Char} :
    ['=', '='] <:+: '=' :: value ↔ ['='] <+: value ∨ ['=', '='] <:+: value := by
  rw [List.infix_cons_iff, List.cons_prefix_cons]
  simp

theorem Neat.length_reread_lt (h : Neat q) (hq : ¬Legible q) :
    (reread q.2).length < q.2.length := by
  have hsigns : ['=', '='] <:+: '=' :: q.2.toList := by
    by_contra hnot
    rw [infix_sign_iff, not_or] at hnot
    exact hq ⟨h, hnot.1, hnot.2⟩
  have hstrip := (Text.infix_strip Text.isBlank (singleEquals ('=' :: q.2.toList)).tail).length_le
  have hsingle := length_singleEquals_lt hsigns
  rw [singleEquals_cons, List.length_cons, List.length_cons] at hsingle
  rw [← String.length_toList, ← String.length_toList, reread, String.toList_ofList]
  omega

theorem Legible.reread (h : Legible q) : reread q.2 = q.2 := by
  have hsigns : ¬['=', '='] <:+: '=' :: q.2.toList := by
    rw [infix_sign_iff, not_or]
    exact ⟨h.first, h.single⟩
  rw [Selector.reread, singleEquals_of_not_infix hsigns, List.tail_cons,
    Text.trim_eq_self_iff.1 h.value, String.ofList_toList]

/-! ## All terms -/

section Collecting

variable {ε α β : Type} {f : α → Except ε β} {g : α → β} {as : List α} {bs : List β} {b : β}

theorem mapM_ok (h : ∀ a ∈ as, f a = .ok (g a)) : as.mapM f = .ok (as.map g) := by
  induction as with
  | nil => rfl
  | cons a rest ih =>
      obtain ⟨ha, hrest⟩ := List.forall_mem_cons.1 h
      rw [List.mapM_cons, ha, ih hrest]
      rfl

theorem exists_of_mem_mapM (h : as.mapM f = .ok bs) (hb : b ∈ bs) : ∃ a ∈ as, f a = .ok b := by
  induction as generalizing bs with
  | nil =>
      cases h
      cases hb
  | cons a rest ih =>
      rw [List.mapM_cons] at h
      obtain ⟨first, hfirst, h⟩ := ok_of_bind h
      obtain ⟨others, hothers, h⟩ := ok_of_bind h
      cases h
      rcases List.mem_cons.1 hb with rfl | hb
      · exact ⟨a, List.mem_cons_self, hfirst⟩
      · obtain ⟨a', ha', hb⟩ := ih hothers hb
        exact ⟨a', List.mem_cons_of_mem _ ha', hb⟩

end Collecting

/-- The terms of a text. -/
def terms (text : String) : List (List Char) :=
  ((Text.split ',' text.toList).map (Text.strip Text.isBlank)).filter (!·.isEmpty)

theorem parse_eq (text : String) :
    parse text = (terms text).mapM parseTerm >>= fun pairs => .ok (ofPairs pairs) :=
  rfl

theorem not_mem_terms {text : String} {term : List Char} (h : term ∈ terms text) : ',' ∉ term := by
  obtain ⟨part, hpart, rfl⟩ := List.mem_map.1 (List.mem_filter.1 h).1
  exact fun hin => Text.not_mem_of_mem_split hpart ((Text.infix_strip _ _).subset hin)

theorem toList_render (s : Selector) :
    s.render.toList = List.intercalate [','] (s.constraints.map written) := by
  rw [render, String.toList_intercalate, List.map_map]
  refine congrArg (List.intercalate [',']) (List.map_congr_left fun q _ => ?_)
  simp [written]

theorem terms_render {s : Selector} (h : ∀ q ∈ s.constraints, Neat q) :
    terms s.render = s.constraints.map written := by
  rw [terms, toList_render]
  by_cases hnil : s.constraints = []
  · rw [hnil]
    rfl
  · rw [Text.split_intercalate (by simpa using hnil)]
    · have hstrip : (s.constraints.map written).map (Text.strip Text.isBlank) =
          s.constraints.map written := by
        rw [List.map_map]
        exact List.map_congr_left fun q hq => (h q hq).strip_written
      rw [hstrip]
      refine List.filter_eq_self.2 fun term hterm => ?_
      obtain ⟨q, -, rfl⟩ := List.mem_map.1 hterm
      simp [written]
    · intro part hpart
      obtain ⟨q, hq, rfl⟩ := List.mem_map.1 hpart
      exact (h q hq).not_mem_written

theorem parse_render {s : Selector} (h : ∀ q ∈ s.constraints, Neat q) :
    parse s.render = .ok (ofPairs (s.constraints.map fun q => (q.1, reread q.2))) := by
  have hread : s.constraints.mapM (parseTerm ∘ written) =
      .ok (s.constraints.map fun q => (q.1, reread q.2)) :=
    mapM_ok fun q hq => (h q hq).parseTerm_written
  rw [parse_eq, terms_render h, List.mapM_map, hread]
  rfl

/-- What is read is neat. -/
theorem neat_of_parse {text : String} {s : Selector} (h : parse text = .ok s) :
    ∀ q ∈ s.constraints, Neat q := by
  rw [parse_eq] at h
  obtain ⟨read, hread, h⟩ := ok_of_bind h
  cases h
  intro q hq
  obtain ⟨term, hterm, hparse⟩ := exists_of_mem_mapM hread (mem_ofPairs.1 hq)
  exact neat_of_parseTerm (not_mem_terms hterm) hparse

/-- What maps a finite set onto itself and makes nothing larger makes nothing smaller. -/
theorem size_eq_of_subset_map {α : Type} {as : List α} (g : α → α) (size : α → Nat)
    (hnodup : as.Nodup) (honto : as ⊆ as.map g) (hle : ∀ a ∈ as, size (g a) ≤ size a) :
    ∀ a ∈ as, size (g a) = size a := by
  have hperm : as.Perm (as.map g) :=
    (List.subperm_of_subset hnodup honto).perm_of_length_le (List.length_map g).le
  have hsum := (hperm.map size).sum_eq
  rw [List.map_map] at hsum
  intro a ha
  by_contra hne
  have hlt := List.sum_lt_sum (size ∘ g) size hle ⟨a, ha, lt_of_le_of_ne (hle a ha) hne⟩
  exact hlt.ne hsum.symm

/-- Whatever finite set of pairs a selector has for its constraints, it is read back from its
text exactly if each constraint is legible: its key named, trimmed and without comma or sign,
its value trimmed and without comma, a sign at its beginning or two signs together. -/
theorem parse_render_iff (pairs : List (String × String)) :
    parse (ofPairs pairs).render = .ok (ofPairs pairs) ↔ ∀ p ∈ pairs, Legible p := by
  have hsame : ofPairs (ofPairs pairs).constraints = ofPairs pairs :=
    ofPairs_eq_iff.2 fun p => mem_ofPairs
  constructor
  · intro h p hp
    have hneat := neat_of_parse h
    rw [parse_render hneat, Except.ok.injEq, ofPairs_eq_iff] at h
    by_contra hlegible
    have hlength := size_eq_of_subset_map (fun q => (q.1, reread q.2)) (fun q => q.2.length)
      (rising_ofPairs pairs).nodup (fun q hq => (h q).2 (mem_ofPairs.1 hq))
      (fun q _ => length_reread_le q.2) p (mem_ofPairs.2 hp)
    exact ((hneat p (mem_ofPairs.2 hp)).length_reread_lt hlegible).ne hlength
  · intro h
    have hlegible : ∀ q ∈ (ofPairs pairs).constraints, Legible q :=
      fun q hq => h q (mem_ofPairs.1 hq)
    have hread : (ofPairs pairs).constraints.map (fun q => (q.1, reread q.2)) =
        (ofPairs pairs).constraints := by
      rw [List.map_congr_left fun q hq => by rw [(hlegible q hq).reread]]
      exact List.map_id _
    rw [parse_render fun q hq => (hlegible q hq).toNeat, hread, hsame]

end LiveCluster.Selector
