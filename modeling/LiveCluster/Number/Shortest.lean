import LiveCluster.Number.Nearest

/-!
# The shortest decimal of a double

A finite positive double is `m · 2^e`. The reals that round to it form an
interval around it, closed exactly when `m` is even. Among the decimals with one
digit, then two, and so on up to seventeen, the first that lies in the interval is
taken; of two with the same number of digits the nearer one, and of two equally
near the one whose last digit is even. Only the value's two neighbours on each
decimal grid have to be tried: if any point of the grid lies in the interval, one
of those two does.
-/

namespace LiveCluster.Number

/-- A positive decimal `digits · 10^exponent`. -/
structure Decimal where
  digits : Nat
  exponent : Int
  deriving Repr, DecidableEq

/-- The significand and the binary exponent of the magnitude of a finite double. -/
def significand (x : Float) : Nat × Int :=
  let bits := x.toBits.toNat % Nat.pow 2 63
  let biased : Nat := bits / Nat.pow 2 52
  let low := bits % Nat.pow 2 52
  if biased = 0 then (low, -1074) else (low + Nat.pow 2 52, (biased : Int) - 1075)

/-- The fraction `num / den` divided by `10^k`. -/
def unscaleTen (num den : Nat) (k : Int) : Nat × Nat :=
  if k < 0 then (num * Nat.pow 10 (-k).toNat, den) else (num, den * Nat.pow 10 k.toNat)

/-- Four times the value and the two ends of its interval, over one denominator. -/
structure Interval where
  low : Nat
  value : Nat
  high : Nat
  den : Nat
  closed : Bool

def Interval.ofSignificand (m : Nat) (e : Int) : Interval :=
  let down := if m = Nat.pow 2 52 && e > -1074 then 1 else 2
  let up := e.toNat
  let (scale, den) := if e < 0 then (1, 4 * Nat.pow 2 (-e).toNat) else (Nat.pow 2 up, 4)
  ⟨(4 * m - down) * scale, 4 * m * scale, (4 * m + 2) * scale, den, m % 2 == 0⟩

/-- Whether `c · 10^k` rounds to the value. -/
def Interval.contains (i : Interval) (c : Nat) (k : Int) : Bool :=
  let (n, d) := if k < 0 then (c, Nat.pow 10 (-k).toNat) else (c * Nat.pow 10 k.toNat, 1)
  let point := n * i.den
  if i.closed then i.low * d ≤ point && point ≤ i.high * d
  else i.low * d < point && point < i.high * d

/-- The best decimal on the grid of multiples of `10^k`, if one rounds to the value. -/
def Interval.onGrid (i : Interval) (k : Int) : Option Decimal :=
  let (n, d) := unscaleTen i.value i.den k
  let below := n / d
  match i.contains below k, i.contains (below + 1) k with
  | true, true => some ⟨roundDiv n d, k⟩
  | true, false => some ⟨below, k⟩
  | false, true => some ⟨below + 1, k⟩
  | false, false => none

/-- The number of decimal places before the point; not positive when the first
digit comes later. -/
def Interval.places (i : Interval) : Int :=
  ((Nat.toDigits 10 (i.value * Nat.pow 10 324 / i.den)).length : Int) - 324

/-- The shortest decimal that reads back as the magnitude of a finite nonzero double. -/
def shortest (x : Float) : Decimal :=
  let (m, e) := significand x
  let i := Interval.ofSignificand m e
  let grids := (List.range 17).map fun n => i.places - (n + 1 : Nat)
  (grids.findSome? i.onGrid).getD ⟨i.value / i.den, 0⟩

end LiveCluster.Number
