import Mathlib.Data.String.Basic

/-!
# Numbers of a fixed width

A number written with a fixed number of digits, zeros in front, is read back as it was, and
texts that begin with such numbers come in the order of the numbers. That is what makes
texts of such fields sort like what they stand for.
-/

namespace LiveCluster.Number

/-- A number in so many decimal digits; only that many of its last digits are written. -/
def padded : Nat → Nat → List Char
  | 0, _ => []
  | width + 1, n => padded width (n / 10) ++ [(n % 10).digitChar]

theorem padded_succ (width n : Nat) :
    padded (width + 1) n = padded width (n / 10) ++ [(n % 10).digitChar] :=
  rfl

/-- The number that a text of ASCII digits stands for. -/
def number? (cs : List Char) : Option Nat :=
  if cs.all Char.isDigit then some (Nat.ofDigitChars 10 cs 0) else none

variable {width n n' d d' : Nat}

theorem div_ten_lt (h : n < 10 ^ (width + 1)) : n / 10 < 10 ^ width :=
  Nat.div_lt_of_lt_mul (by rwa [Nat.pow_succ'] at h)

theorem mod_ten_lt (n : Nat) : n % 10 < 10 :=
  Nat.mod_lt n (by decide)

/-! ## Reading back -/

theorem all_isDigit_padded (width n : Nat) : (padded width n).all Char.isDigit = true := by
  induction width generalizing n with
  | zero => rfl
  | succ width ih =>
    rw [padded, List.all_append, ih]
    simp [Nat.isDigit_digitChar, mod_ten_lt]

theorem ofDigitChars_padded (h : n < 10 ^ width) : Nat.ofDigitChars 10 (padded width n) 0 = n := by
  induction width generalizing n with
  | zero =>
    obtain rfl : n = 0 := by simpa using h
    rfl
  | succ width ih =>
    rw [padded, Nat.ofDigitChars_append, ih (div_ten_lt h),
      Nat.ofDigitChars_cons_digitChar_of_lt_ten (mod_ten_lt n), Nat.ofDigitChars_nil]
    omega

theorem number?_padded (h : n < 10 ^ width) : number? (padded width n) = some n := by
  rw [number?, if_pos (all_isDigit_padded width n), ofDigitChars_padded h]

/-! ## In order -/

theorem digitChar_lt_iff (h : d < 10) (h' : d' < 10) : d.digitChar < d'.digitChar ↔ d < d' := by
  have hlt : d.digitChar < d'.digitChar ↔ d.digitChar.toNat < d'.digitChar.toNat := Iff.rfl
  rw [hlt, Nat.toNat_digitChar_of_lt_ten h, Nat.toNat_digitChar_of_lt_ten h']
  omega

theorem digitChar_eq_iff (h : d < 10) (h' : d' < 10) : d.digitChar = d'.digitChar ↔ d = d' := by
  rw [← Char.toNat_inj, Nat.toNat_digitChar_of_lt_ten h, Nat.toNat_digitChar_of_lt_ten h']
  omega

/-- Texts that begin with two numbers of one width come in the order of the numbers, and behind
equal numbers in the order of what follows. -/
theorem padded_append_lt_iff {cs cs' : List Char} (h : n < 10 ^ width) (h' : n' < 10 ^ width) :
    padded width n ++ cs < padded width n' ++ cs' ↔ n < n' ∨ n = n' ∧ cs < cs' := by
  induction width generalizing n n' cs cs' with
  | zero =>
    obtain rfl : n = 0 := by simpa using h
    obtain rfl : n' = 0 := by simpa using h'
    simp [padded]
  | succ width ih =>
    rw [padded, padded, List.append_assoc, List.append_assoc, ih (div_ten_lt h) (div_ten_lt h'),
      List.singleton_append, List.singleton_append, List.cons_lt_cons_iff,
      digitChar_lt_iff (mod_ten_lt n) (mod_ten_lt n'),
      digitChar_eq_iff (mod_ten_lt n) (mod_ten_lt n')]
    by_cases hcs : cs < cs' <;> simp only [hcs, and_true, and_false, or_false] <;> omega

/-! ## Numbers of that many digits -/

theorem toDigits_eq_padded (h : 10 ^ width ≤ n) (h' : n < 10 ^ (width + 1)) :
    Nat.toDigits 10 n = padded (width + 1) n := by
  induction width generalizing n with
  | zero =>
    have hlt : n < 10 := h'
    rw [Nat.toDigits_of_lt_base hlt, padded, padded, Nat.mod_eq_of_lt hlt, List.nil_append]
  | succ width ih =>
    have hdiv : 10 ^ width ≤ n / 10 :=
      (Nat.le_div_iff_mul_le (by decide)).2 (by rwa [← Nat.pow_succ])
    have hten : 10 ≤ n := by
      have hpos : 0 < 10 ^ width := Nat.pow_pos (by decide)
      omega
    rw [Nat.toDigits_of_base_le (by decide) hten, ih hdiv (div_ten_lt h'), padded_succ (width + 1)]

end LiveCluster.Number
