import LiveCluster.Number.Shortest

/-!
# How a floating-point number is written

The shortest digits that read back, written positionally while the first digit
stands for a power of ten from `10^-4` to `10^15`, with `.0` after a whole
number, and otherwise with a power of ten of at least two digits and its sign.
-/

namespace LiveCluster.Number

/-- A natural number with at least two digits. -/
def twoDigits (n : Nat) : String :=
  if n < 10 then "0" ++ toString n else toString n

/-- A positive decimal in the written form. -/
def Decimal.text (d : Decimal) : String :=
  let ds := (toString d.digits).toList
  -- trailing zeros carry no information once the exponent is known
  let trimmed := (ds.reverse.dropWhile (· == '0')).reverse
  let point : Int := ds.length + d.exponent
  if -4 < point && point ≤ 16 then
    if point ≤ 0 then
      "0." ++ String.ofList (List.replicate (-point).toNat '0' ++ trimmed)
    else
      let whole := trimmed.take point.toNat
      let fraction := trimmed.drop point.toNat
      String.ofList (whole ++ List.replicate (point.toNat - whole.length) '0') ++ "."
        ++ (if fraction.isEmpty then "0" else String.ofList fraction)
  else
    let power := point - 1
    let head := String.ofList (trimmed.take 1)
    let tail := trimmed.drop 1
    head ++ (if tail.isEmpty then "" else "." ++ String.ofList tail)
      ++ (if power < 0 then "e-" else "e+") ++ twoDigits power.natAbs

/-- The written form of a double. -/
def floatText (x : Float) : String :=
  if x.isNaN then "nan"
  else
    let sign := if x.toBits ≥ 0x8000000000000000 then "-" else ""
    if x.isInf then sign ++ "inf"
    else if x == 0.0 then sign ++ "0.0"
    else sign ++ (shortest x).text

end LiveCluster.Number
