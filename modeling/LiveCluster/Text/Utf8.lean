/-!
# Reading bytes as text

Log bytes are read as UTF-8, and ill-formed bytes never stop the reading. A
sequence that breaks off, at the end of the bytes or at a byte that cannot
continue it, becomes one replacement character, and the reading goes on at the
byte that broke it; a byte that can start nothing becomes one replacement
character on its own. The first continuation byte has a narrower range after some
lead bytes, which is what keeps surrogates, overlong forms and numbers above
`U+10FFFF` out.
-/

namespace LiveCluster.Text

/-- What ill-formed bytes turn into. -/
def replacement : Char := Char.ofNat 0xFFFD

/-- A sequence under way: how many bytes are missing, the range the next one has
to lie in, and the bits so far. -/
structure Pending where
  missing : Nat
  low : Nat
  high : Nat
  bits : Nat
  deriving Repr, DecidableEq

/-- What a lead byte starts. -/
def Pending.ofLead? (b : Nat) : Option Pending :=
  if 0xC2 ≤ b && b ≤ 0xDF then some ⟨1, 0x80, 0xBF, b - 0xC0⟩
  else if b = 0xE0 then some ⟨2, 0xA0, 0xBF, 0⟩
  else if b = 0xED then some ⟨2, 0x80, 0x9F, 0xD⟩
  else if 0xE1 ≤ b && b ≤ 0xEF then some ⟨2, 0x80, 0xBF, b - 0xE0⟩
  else if b = 0xF0 then some ⟨3, 0x90, 0xBF, 0⟩
  else if 0xF1 ≤ b && b ≤ 0xF3 then some ⟨3, 0x80, 0xBF, b - 0xF0⟩
  else if b = 0xF4 then some ⟨3, 0x80, 0x8F, 4⟩
  else none

/-- Reads bytes with a sequence possibly under way. -/
def decodeFrom : Option Pending → List UInt8 → List Char
  | none, [] => []
  | some _, [] => [replacement]
  | pending, byte :: bytes =>
    let b := byte.toNat
    let continues := match pending with
      | some p => p.low ≤ b && b ≤ p.high
      | none => false
    match pending, continues with
    | some p, true =>
      let bits := p.bits * 64 + (b - 0x80)
      if p.missing ≤ 1 then Char.ofNat bits :: decodeFrom none bytes
      else decodeFrom (some ⟨p.missing - 1, 0x80, 0xBF, bits⟩) bytes
    | _, _ =>
      let broken := if pending.isSome then [replacement] else []
      if b < 0x80 then broken ++ Char.ofNat b :: decodeFrom none bytes
      else match Pending.ofLead? b with
        | some p => broken ++ decodeFrom (some p) bytes
        | none => broken ++ replacement :: decodeFrom none bytes

/-- The text that bytes spell, ill-formed parts replaced. -/
def decode (bytes : List UInt8) : List Char :=
  decodeFrom none bytes

end LiveCluster.Text
