import LiveCluster.Number.Numeral
import LiveCluster.Number.Nearest

/-!
# Floating-point numerals

A floating-point number is written as an optional sign, then digits with an
optional fraction and an optional power of ten, or one of the words `inf`,
`infinity` and `nan` in any case. White space may surround it and a single
underscore may stand between two digits. At least one digit stands before or
after the point.
-/

namespace LiveCluster.Number

/-- Digits that may be missing altogether, as on either side of a point. -/
def takeDigits? (cs : List Char) : Option (List Nat × List Char) :=
  match cs with
  | c :: _ => if (digitValue? c).isSome then takeDigits true cs else some ([], cs)
  | [] => some ([], [])

/-- Reads the power of ten that may end a numeral. -/
def takeExponent : List Char → Option (Int × List Char)
  | c :: cs =>
    if c = 'e' || c = 'E' then
      let (negative, cs) := takeSign cs
      (takeDigits true cs).map fun (ds, rest) =>
        (if negative then -(ofDigits ds : Int) else ofDigits ds, rest)
    else some (0, c :: cs)
  | [] => some (0, [])

/-- Reads an unsigned numeral that uses up the whole text. -/
def parseMagnitude? (cs : List Char) : Option Float := do
  let word := String.ofList (cs.map Char.toLower)
  if word = "inf" || word = "infinity" then return Float.ofBits 0x7FF0000000000000
  if word = "nan" then return Float.ofBits 0x7FF8000000000000
  let (whole, cs) ← takeDigits? cs
  let (fraction, cs) ← match cs with
    | '.' :: cs => takeDigits? cs
    | cs => some ([], cs)
  if whole.isEmpty && fraction.isEmpty then none
  let (exponent, rest) ← takeExponent cs
  if rest.isEmpty then
    return nearestDecimal (ofDigits (whole ++ fraction)) (exponent - fraction.length)
  else none

/-- Reads a floating-point numeral. -/
def parseFloat? (s : String) : Option Float :=
  let (negative, cs) := takeSign (Text.strip Text.isSpace s.toList)
  (parseMagnitude? cs).map fun x => if negative then -x else x

end LiveCluster.Number
