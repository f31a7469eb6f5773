import LiveCluster.Number.Digit
import LiveCluster.Text.Blank

/-!
# Integer numerals

An integer is written as an optional sign and decimal digits, with white space
around them. A single underscore may stand between two digits. The length is
bounded: a numeral of more than `maxDigits` digits is refused before anything is
computed from it, whatever follows its digits.
-/

namespace LiveCluster.Number

/-- The longest numeral that is read. -/
def maxDigits : Nat := 4300

/-- Why a text is no integer. -/
inductive NumeralError where
  | malformed
  | tooLong (digits : Nat)
  deriving Repr, DecidableEq

/-- Reads digits as far as they go and returns the rest of the text. The flag says
that a digit has to come next, as at the start and after an underscore. -/
def takeDigits : Bool → List Char → Option (List Nat × List Char)
  | due, [] => if due then none else some ([], [])
  | due, c :: cs =>
    if c = '_' then
      if due then none else takeDigits true cs
    else match digitValue? c with
      | some d => (takeDigits false cs).map fun (ds, rest) => (d :: ds, rest)
      | none => if due then none else some ([], c :: cs)

/-- The number that digits stand for, most significant first. -/
def ofDigits (ds : List Nat) : Nat :=
  ds.foldl (fun n d => 10 * n + d) 0

/-- Takes a sign off: whether the number is negative, and the rest. -/
def takeSign : List Char → Bool × List Char
  | '-' :: cs => (true, cs)
  | '+' :: cs => (false, cs)
  | cs => (false, cs)

/-- Reads an integer numeral. -/
def parseInt (s : String) : Except NumeralError Int :=
  let (negative, cs) := takeSign (s.toList.dropWhile Text.isSpace)
  match takeDigits true cs with
  | none => .error .malformed
  | some (ds, rest) =>
    if ds.length > maxDigits then .error (.tooLong ds.length)
    else if rest.all Text.isSpace then
      .ok (if negative then -(ofDigits ds : Int) else ofDigits ds)
    else .error .malformed

end LiveCluster.Number
