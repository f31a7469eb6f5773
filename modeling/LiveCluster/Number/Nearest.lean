/-!
# The nearest double

A fraction is rounded to the nearest double, halves to the even neighbour, by
exact arithmetic on natural numbers: find the power of two that brings the
fraction between `2^52` and `2^53`, or the smallest power there is, divide, and
round the quotient. The bits follow from the quotient by addition alone, and a
quotient that rounds up to `2^53` carries into the exponent by itself.
-/

namespace LiveCluster.Number

/-- The fraction `num / den` divided by `2^e`, as a fraction. -/
def unscale (num den : Nat) (e : Int) : Nat × Nat :=
  if e < 0 then (num * Nat.pow 2 (-e).toNat, den) else (num, den * Nat.pow 2 e.toNat)

/-- A quotient rounded to the nearest integer, halves to even. -/
def roundDiv (num den : Nat) : Nat :=
  let q := num / den
  let r := num % den
  if 2 * r > den || (2 * r == den && q % 2 == 1) then q + 1 else q

/-- The bits of the double nearest to `num / den`, the denominator being positive. -/
def nearestBits (num den : Nat) : UInt64 :=
  if num = 0 then 0 else
  let guess : Int := (num.log2 : Int) - den.log2 - 52
  let (n, d) := unscale num den guess
  let e := max (-1074) (if n / d < Nat.pow 2 52 then guess - 1 else guess)
  let (n, d) := unscale num den e
  let q := roundDiv n d
  let bits :=
    if q < Nat.pow 2 52 then q else (e + 1075).toNat * Nat.pow 2 52 + (q - Nat.pow 2 52)
  UInt64.ofNat (min bits (2047 * Nat.pow 2 52))

/-- The double nearest to `m · 10^e`, infinite when that is out of range. Exponents
far outside the range are settled without computing a power of ten. -/
def nearestDecimal (m : Nat) (e : Int) : Float :=
  let magnitude := e + (Nat.toDigits 10 m).length
  if m = 0 || magnitude < -400 then 0.0
  else if magnitude > 400 then Float.ofBits 0x7FF0000000000000
  else if e < 0 then Float.ofBits (nearestBits m (Nat.pow 10 (-e).toNat))
  else Float.ofBits (nearestBits (m * Nat.pow 10 e.toNat) 1)

end LiveCluster.Number
