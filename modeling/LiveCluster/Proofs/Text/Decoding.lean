import LiveCluster.Text.Utf8
import Mathlib.Data.List.Basic

/-!
# Decoding undoes encoding

A character of one byte is read at once. Of any other the lead byte puts a sequence under
way whose bits are those of the lead, and each byte that continues it adds six more. The
ranges that lead bytes set for the byte after them are the only delicate part: they let
through exactly what the encoding of a character can have there, since a character is no
surrogate and lies below `0x110000`.

A text is read as itself whatever bytes come after it, so well-formed text in front of
ill-formed bytes is never lost.
-/

namespace LiveCluster.Text

variable {byte : UInt8} {bytes : List UInt8} {p : Pending}

/-! ## Reading a byte -/

theorem decodeFrom_ascii (h : byte.toNat < 0x80) :
    decodeFrom none (byte :: bytes) = Char.ofNat byte.toNat :: decodeFrom none bytes := by
  simp [decodeFrom, h]

theorem Pending.ofLead?_ascii {b : Nat} (h : b < 0x80) : Pending.ofLead? b = none := by
  simp only [ofLead?, Bool.and_eq_true, decide_eq_true_eq]
  split_ifs <;> first | omega | rfl

/-- A lead byte puts a sequence under way. -/
theorem decodeFrom_lead (h : Pending.ofLead? byte.toNat = some p) :
    decodeFrom none (byte :: bytes) = decodeFrom (some p) bytes := by
  have hlarge : ¬ byte.toNat < 0x80 := by
    intro hsmall
    rw [Pending.ofLead?_ascii hsmall] at h
    cases h
  simp [decodeFrom, hlarge, h]

/-- The last byte of a sequence ends a character. -/
theorem decodeFrom_last {low high bits : Nat} (hlow : low ≤ byte.toNat)
    (hhigh : byte.toNat ≤ high) :
    decodeFrom (some ⟨1, low, high, bits⟩) (byte :: bytes) =
      Char.ofNat (bits * 64 + (byte.toNat - 0x80)) :: decodeFrom none bytes := by
  simp [decodeFrom, hlow, hhigh]

/-- A byte in the middle of a sequence adds its bits. -/
theorem decodeFrom_middle {n low high bits : Nat} (hlow : low ≤ byte.toNat)
    (hhigh : byte.toNat ≤ high) :
    decodeFrom (some ⟨n + 2, low, high, bits⟩) (byte :: bytes) =
      decodeFrom (some ⟨n + 1, 0x80, 0xBF, bits * 64 + (byte.toNat - 0x80)⟩) bytes := by
  simp [decodeFrom, hlow, hhigh]

/-! ## Bytes of characters -/

theorem toNat_ofNat_of_lt {n : Nat} (h : n < 256) : (UInt8.ofNat n).toNat = n := by
  simp [UInt8.toNat_ofNat', Nat.mod_eq_of_lt h]

/-- A byte that continues a character holds six bits. -/
theorem toNat_continuation (n : Nat) : (UInt8.ofNat (n % 64 + 128)).toNat = n % 64 + 128 :=
  toNat_ofNat_of_lt (by omega)

theorem ofLead?_two {v : Nat} (hlow : 0x80 ≤ v) (hhigh : v < 0x800) :
    Pending.ofLead? (v / 64 + 192) = some ⟨1, 0x80, 0xBF, v / 64⟩ := by
  simp only [Pending.ofLead?, Bool.and_eq_true, decide_eq_true_eq]
  rw [if_pos (by omega), Nat.add_sub_cancel]

/-- After the lead byte of three, the second byte of a character is in the range that is set:
the encoding is the shortest, and a character is no surrogate. -/
theorem ofLead?_three {v : Nat} (hlow : 0x800 ≤ v) (hhigh : v < 0x10000)
    (hvalid : v < 0xD800 ∨ 0xDFFF < v) :
    ∃ low high, Pending.ofLead? (v / 4096 + 224) = some ⟨2, low, high, v / 4096⟩ ∧
      low ≤ v / 64 % 64 + 128 ∧ v / 64 % 64 + 128 ≤ high := by
  obtain hfirst | hsurrogates | ⟨hone, hfifteen, hother⟩ :
      v / 4096 = 0 ∨ v / 4096 = 13 ∨ 1 ≤ v / 4096 ∧ v / 4096 ≤ 15 ∧ v / 4096 ≠ 13 := by omega
  · rw [hfirst]
    exact ⟨0xA0, 0xBF, rfl, by omega, by omega⟩
  · rw [hsurrogates]
    exact ⟨0x80, 0x9F, rfl, by omega, by omega⟩
  · refine ⟨0x80, 0xBF, ?_, by omega, by omega⟩
    simp only [Pending.ofLead?, Bool.and_eq_true, decide_eq_true_eq]
    rw [if_neg (by omega), if_neg (by omega), if_neg (by omega), if_pos (by omega),
      Nat.add_sub_cancel]

/-- The same for the lead byte of four: the encoding is the shortest, and a character lies below
`0x110000`. -/
theorem ofLead?_four {v : Nat} (hlow : 0x10000 ≤ v) (hhigh : v < 0x110000) :
    ∃ low high, Pending.ofLead? (v / 262144 + 240) = some ⟨3, low, high, v / 262144⟩ ∧
      low ≤ v / 4096 % 64 + 128 ∧ v / 4096 % 64 + 128 ≤ high := by
  obtain hfirst | hlast | ⟨hone, hthree⟩ :
      v / 262144 = 0 ∨ v / 262144 = 4 ∨ 1 ≤ v / 262144 ∧ v / 262144 ≤ 3 := by omega
  · rw [hfirst]
    exact ⟨0x90, 0xBF, rfl, by omega, by omega⟩
  · rw [hlast]
    exact ⟨0x80, 0x8F, rfl, by omega, by omega⟩
  · refine ⟨0x80, 0xBF, ?_, by omega, by omega⟩
    simp only [Pending.ofLead?, Bool.and_eq_true, decide_eq_true_eq]
    rw [if_neg (by omega), if_neg (by omega), if_neg (by omega), if_neg (by omega),
      if_neg (by omega), if_pos (by omega), Nat.add_sub_cancel]

/-! ## Reading what was written -/

/-- What a character is written as is read as that character, whatever comes after it. -/
theorem decodeFrom_encodeChar (c : Char) (bytes : List UInt8) :
    decodeFrom none (String.utf8EncodeChar c ++ bytes) = c :: decodeFrom none bytes := by
  have hvalid : c.val.toNat < 0xD800 ∨ 0xDFFF < c.val.toNat ∧ c.val.toNat < 0x110000 := c.valid
  have hc : Char.ofNat c.val.toNat = c := Char.ofNat_toNat c
  unfold String.utf8EncodeChar
  generalize c.val.toNat = v at hvalid hc
  dsimp only
  split_ifs with hone htwo hthree
  · have hbyte : (UInt8.ofNat v).toNat = v := toNat_ofNat_of_lt (by omega)
    rw [List.singleton_append, decodeFrom_ascii (by omega), hbyte, hc]
  · have hlead : (UInt8.ofNat (v / 64 % 32 + 192)).toNat = v / 64 + 192 := by
      rw [toNat_ofNat_of_lt (by omega)]
      omega
    have hpending := ofLead?_two (v := v) (by omega) (by omega)
    have hbits : v / 64 * 64 + (v % 64 + 128 - 0x80) = v := by omega
    have hlast := toNat_continuation v
    rw [← hlead] at hpending
    rw [List.cons_append, decodeFrom_lead hpending, List.singleton_append,
      decodeFrom_last (by omega) (by omega), hlast, hbits, hc]
  · have hlead : (UInt8.ofNat (v / 4096 % 16 + 224)).toNat = v / 4096 + 224 := by
      rw [toNat_ofNat_of_lt (by omega)]
      omega
    obtain ⟨low, high, hpending, hlow, hhigh⟩ :=
      ofLead?_three (v := v) (by omega) (by omega) (by omega)
    have hbits : (v / 4096 * 64 + (v / 64 % 64 + 128 - 0x80)) * 64 + (v % 64 + 128 - 0x80) = v := by
      omega
    have hsecond := toNat_continuation (v / 64)
    have hlast := toNat_continuation v
    rw [← hlead] at hpending
    rw [List.cons_append, decodeFrom_lead hpending, List.cons_append,
      decodeFrom_middle (by omega) (by omega), List.singleton_append,
      decodeFrom_last (by omega) (by omega), hsecond, hlast, hbits, hc]
  · have hlead : (UInt8.ofNat (v / 262144 % 8 + 240)).toNat = v / 262144 + 240 := by
      rw [toNat_ofNat_of_lt (by omega)]
      omega
    obtain ⟨low, high, hpending, hlow, hhigh⟩ := ofLead?_four (v := v) (by omega) (by omega)
    have hbits : ((v / 262144 * 64 + (v / 4096 % 64 + 128 - 0x80)) * 64 +
        (v / 64 % 64 + 128 - 0x80)) * 64 + (v % 64 + 128 - 0x80) = v := by
      omega
    have hsecond := toNat_continuation (v / 4096)
    have hthird := toNat_continuation (v / 64)
    have hlast := toNat_continuation v
    rw [← hlead] at hpending
    rw [List.cons_append, decodeFrom_lead hpending, List.cons_append,
      decodeFrom_middle (by omega) (by omega), List.cons_append,
      decodeFrom_middle (by omega) (by omega), List.singleton_append,
      decodeFrom_last (by omega) (by omega), hsecond, hthird, hlast, hbits, hc]

/-- A text is read as itself, whatever bytes come after it. -/
theorem decode_append (cs : List Char) (bytes : List UInt8) :
    decode (cs.flatMap String.utf8EncodeChar ++ bytes) = cs ++ decode bytes := by
  induction cs with
  | nil => rfl
  | cons c rest ih =>
      rw [List.flatMap_cons, List.append_assoc, decode, decodeFrom_encodeChar, ← decode, ih,
        List.cons_append]

/-- Reading undoes writing. -/
theorem decode_toUTF8 (s : String) : decode s.toUTF8.data.toList = s.toList := by
  have hbytes : s.toUTF8.data.toList = s.toList.flatMap String.utf8EncodeChar := by
    rw [← String.ofList_toList (s := s), String.toUTF8_eq_toByteArray, String.toByteArray_ofList,
      List.utf8Encode, List.toList_data_toByteArray, String.toList_ofList]
  have hread := decode_append s.toList []
  rw [List.append_nil, ← hbytes] at hread
  rw [hread]
  exact List.append_nil _

end LiveCluster.Text
