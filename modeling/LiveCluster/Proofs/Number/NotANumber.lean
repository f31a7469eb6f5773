import LiveCluster.Number.FloatNumeral
import LiveCluster.Proofs.Number.FloatOrder

/-!
# Numerals for what is not a number

A numeral names a number, perhaps an infinite one, unless it is the word `nan`: the bits
that rounding comes to never go beyond those of infinity, and a sign makes no number of
what is none, nor the other way round.
-/

namespace LiveCluster.Number

open Float.Model (Format UnpackedFloat)
open Float.Model.UnpackedFloat (packComponents unpackExponent unpackMantissa)

/-! ## Bits -/

/-- Bits stand for no number exactly if all of the exponent is set and some of the significand. -/
theorem isNaN_unpack {b : BitVec Format.binary64.numBits} :
    (UnpackedFloat.unpack .binary64 b).isNaN = true ↔
      unpackExponent b = -1#_ ∧ unpackMantissa b ≠ 0#_ := by
  unfold UnpackedFloat.unpack
  dsimp only
  by_cases hexponent : unpackExponent b = -1#11
  · rw [if_pos hexponent]
    by_cases hmantissa : unpackMantissa b = 0#52
    · rw [if_pos hmantissa]
      exact iff_of_false Bool.noConfusion fun h => h.2 hmantissa
    · rw [if_neg hmantissa]
      exact iff_of_true rfl ⟨hexponent, hmantissa⟩
  · rw [if_neg hexponent]
    refine iff_of_false ?_ fun h => hexponent h.1
    by_cases hzero : unpackExponent b = 0#11
    · rw [if_pos hzero]
      by_cases hmantissa : unpackMantissa b = 0#52
      · rw [dif_pos hmantissa]
        exact Bool.noConfusion
      · rw [dif_neg hmantissa]
        exact Bool.noConfusion
    · rw [if_neg hzero]
      exact Bool.noConfusion

/-- The exponent of a finite number that is packed leaves room. -/
theorem ofNat_ne_allSet {n : Nat} (h : ¬ 2048 ≤ n + 1) : BitVec.ofNat 11 n ≠ -1#11 := by
  intro heq
  have hnat := congrArg BitVec.toNat heq
  rw [BitVec.toNat_ofNat, Nat.mod_eq_of_lt (by omega)] at hnat
  have hall : (-1#11).toNat = 2047 := by decide
  omega

/-- Packing makes no number of what is none, nor the other way round. -/
theorem isNaN_pack (u : UnpackedFloat) : (Float.Model.pack u).isNaN = u.isNaN := by
  show (UnpackedFloat.unpack .binary64 (UnpackedFloat.pack .binary64 u)).isNaN = u.isNaN
  rw [Bool.eq_iff_iff, isNaN_unpack]
  cases u with
  | notANumber => exact iff_of_true (by decide) rfl
  | infinity s => cases s <;> exact iff_of_false (by decide) Bool.noConfusion
  | zero s => cases s <;> exact iff_of_false (by decide) Bool.noConfusion
  | finite s m e hm =>
      have hnumber : (UnpackedFloat.finite s m e hm).isNaN = false := rfl
      rw [hnumber]
      unfold UnpackedFloat.pack
      dsimp only
      split_ifs with hlarge hnormal
      · cases s <;> exact iff_of_false (by decide) not_false
      · rw [UnpackedFloat.unpackExponent_packComponents]
        exact iff_of_false (fun h => ofNat_ne_allSet hlarge h.1) not_false
      · rw [UnpackedFloat.unpackExponent_packComponents]
        exact iff_of_false (fun h => absurd h.1 (by decide)) not_false

theorem isNaN_neg (x : Float) : (-x).isNaN = x.isNaN := by
  show (Float.Model.pack x.toModel.unpack.neg).isNaN = x.toModel.unpack.isNaN
  rw [isNaN_pack]
  cases x.toModel.unpack <;> rfl

/-- Bits up to those of infinity stand for a number. -/
theorem isNaN_ofBits {bits : UInt64} (h : bits.toNat ≤ 2047 * Nat.pow 2 52) :
    (Float.ofBits bits).isNaN = false := by
  show (Float.Model.pack (UnpackedFloat.unpack .binary64 bits.toBitVec)).isNaN = false
  rw [isNaN_pack, Bool.eq_false_iff, Ne, isNaN_unpack]
  rintro ⟨hexponent, hmantissa⟩
  have hpow : Nat.pow 2 52 = 4503599627370496 := rfl
  have hall : bits.toNat / 4503599627370496 % 2048 = 2047 := by
    have htoNat := congrArg BitVec.toNat hexponent
    rw [show (-1#11).toNat = 2047 by decide] at htoNat
    simpa [unpackExponent, Nat.shiftRight_eq_div_pow] using htoNat
  have hsome : bits.toNat % 4503599627370496 ≠ 0 := by
    intro hnone
    apply hmantissa
    apply BitVec.eq_of_toNat_eq
    simpa [unpackMantissa] using hnone
  omega

/-! ## Decimals -/

theorem toNat_nearestBits_le (num den : Nat) :
    (nearestBits num den).toNat ≤ 2047 * Nat.pow 2 52 := by
  unfold nearestBits
  split_ifs
  · exact Nat.zero_le _
  · dsimp only
    rw [UInt64.toNat_ofNat']
    exact (Nat.mod_le _ _).trans (min_le_right _ _)

/-- Every decimal rounds to a number. -/
theorem isNaN_nearestDecimal (m : Nat) (e : Int) : (nearestDecimal m e).isNaN = false := by
  unfold nearestDecimal
  dsimp only
  split_ifs
  · decide
  · decide
  · exact isNaN_ofBits (toNat_nearestBits_le _ _)
  · exact isNaN_ofBits (toNat_nearestBits_le _ _)

/-! ## Words -/

/-- The text is the word for what is not a number, in any case, with or without a sign, in white
space. -/
def NamesNaN (s : String) : Prop :=
  ∃ sign word, Text.strip Text.isSpace s.toList = sign ++ word ∧ sign ∈ [[], ['+'], ['-']] ∧
    word.map Char.toLower = ['n', 'a', 'n']

/-- What digits, their fraction and a power of ten come to is a number. -/
theorem isNaN_of_decimal {ds : List Nat} {fraction : List Nat × List Char} {x : Float}
    (h : (do
      let (exponent, rest) ← takeExponent fraction.2
      if rest.isEmpty then
        return nearestDecimal (ofDigits (ds ++ fraction.1)) (exponent - fraction.1.length)
      else none) = some x) : x.isNaN = false := by
  obtain ⟨⟨exponent, rest⟩, -, h⟩ := Option.bind_eq_some_iff.1 h
  dsimp only at h
  split at h
  · cases h
    exact isNaN_nearestDecimal _ _
  · cases h

/-- Without a sign, only the word itself names no number. -/
theorem isNaN_of_parseMagnitude? {cs : List Char} {x : Float} (h : parseMagnitude? cs = some x) :
    x.isNaN = true ↔ cs.map Char.toLower = ['n', 'a', 'n'] := by
  have hword : ∀ w : String, String.ofList (cs.map Char.toLower) = w ↔
      cs.map Char.toLower = w.toList := by
    intro w
    rw [← String.toList_inj, String.toList_ofList]
  have hinfinity : (Float.ofBits 0x7FF0000000000000).isNaN = false := isNaN_ofBits (by decide)
  have hnan : (Float.ofBits 0x7FF8000000000000).isNaN = true := by decide +kernel
  unfold parseMagnitude? at h
  simp only [hword] at h
  split_ifs at h with hinf hnot
  · cases h
    rw [hinfinity]
    refine iff_of_false Bool.noConfusion fun hname => ?_
    rw [hname] at hinf
    revert hinf
    decide
  · cases h
    exact iff_of_true hnan hnot
  · refine iff_of_false ?_ hnot
    rw [Bool.not_eq_true]
    obtain ⟨⟨whole, rest⟩, -, h⟩ := Option.bind_eq_some_iff.1 h
    split at h
    · obtain ⟨fraction, -, h⟩ := Option.bind_eq_some_iff.1 h
      split at h
      · cases h
      · exact isNaN_of_decimal h
    · obtain ⟨fraction, -, h⟩ := Option.bind_eq_some_iff.1 h
      split at h
      · cases h
      · exact isNaN_of_decimal h

/-- What stands after the sign, of which there is at most one. -/
theorem takeSign_spec (cs : List Char) :
    ∃ sign ∈ [[], ['+'], ['-']], cs = sign ++ (takeSign cs).2 := by
  unfold takeSign
  split
  · exact ⟨['-'], by simp, rfl⟩
  · exact ⟨['+'], by simp, rfl⟩
  · exact ⟨[], by simp, rfl⟩

theorem takeSign_append {sign word : List Char} (h : sign ∈ [[], ['+'], ['-']])
    (hword : ∀ c ∈ word.head?, c ≠ '+' ∧ c ≠ '-') : (takeSign (sign ++ word)).2 = word := by
  have hcases : sign = [] ∨ sign = ['+'] ∨ sign = ['-'] := by simpa using h
  obtain rfl | rfl | rfl := hcases
  · rw [List.nil_append]
    unfold takeSign
    split
    · exact absurd rfl (hword '-' rfl).2
    · exact absurd rfl (hword '+' rfl).1
    · rfl
  · rfl
  · rfl

theorem not_sign_of_word {word : List Char} (h : word.map Char.toLower = ['n', 'a', 'n']) :
    ∀ c ∈ word.head?, c ≠ '+' ∧ c ≠ '-' := by
  intro c hc
  have hlower : c.toLower = 'n' := by
    have hhead := congrArg List.head? h
    rw [List.head?_map, Option.mem_def.1 hc] at hhead
    exact Option.some.inj hhead
  constructor
  · rintro rfl
    revert hlower
    decide
  · rintro rfl
    revert hlower
    decide

/-- A numeral stands for what is not a number exactly if it is the word for it. -/
theorem isNaN_iff_of_parseFloat? {s : String} {x : Float} (h : parseFloat? s = some x) :
    x.isNaN = true ↔ NamesNaN s := by
  obtain ⟨y, hy, hx⟩ : ∃ y,
      parseMagnitude? (takeSign (Text.strip Text.isSpace s.toList)).2 = some y ∧
      (if (takeSign (Text.strip Text.isSpace s.toList)).1 then -y else y) = x :=
    Option.map_eq_some_iff.1 h
  have hsign : x.isNaN = y.isNaN := by
    subst hx
    split
    · exact isNaN_neg y
    · rfl
  rw [hsign, isNaN_of_parseMagnitude? hy]
  constructor
  · intro hword
    obtain ⟨sign, hmem, heq⟩ := takeSign_spec (Text.strip Text.isSpace s.toList)
    exact ⟨sign, _, heq, hmem, hword⟩
  · rintro ⟨sign, word, heq, hmem, hword⟩
    rw [heq, takeSign_append hmem (not_sign_of_word hword)]
    exact hword

end LiveCluster.Number
