import LiveCluster.Keyed
import LiveCluster.Text.Quoted
import LiveCluster.Number.FloatText

/-!
# Values

What the cluster sends and takes is JSON in which whole numbers and
floating-point numbers are kept apart. Fields keep the order in which they came,
and each name occurs once.

Three readings of a value recur everywhere: whether it counts as present
(`truthy`: everything but null, false, zero and the empty text, list and record),
how it is shown inside a message (`shown`, where texts are quoted), and how it is
written where a text is wanted (`text`, where a text stands for itself).
-/

namespace LiveCluster

inductive Value where
  | null
  | bool (b : Bool)
  | int (n : Int)
  | float (x : Float)
  | text (s : String)
  | list (items : List Value)
  | record (fields : List (String × Value))
  deriving Inhabited

/-- Fields in the order in which they came. -/
abbrev Fields := Keyed Value

namespace Value

/-- Whether the value counts as present. -/
def truthy : Value → Bool
  | .null => false
  | .bool b => b
  | .int n => n ≠ 0
  | .float x => !(x == 0.0)
  | .text s => !s.isEmpty
  | .list items => !items.isEmpty
  | .record fields => !fields.isEmpty

/-- The value, or the other one where it does not count as present. -/
def orElse (v other : Value) : Value :=
  if v.truthy then v else other

/-- The word for the value's kind in messages. -/
def kindWord : Value → String
  | .null => "NoneType"
  | .bool _ => "bool"
  | .int _ => "int"
  | .float _ => "float"
  | .text _ => "str"
  | .list _ => "list"
  | .record _ => "dict"

mutual

/-- How the value is shown inside a message. -/
def shown : Value → String
  | .null => "None"
  | .bool true => "True"
  | .bool false => "False"
  | .int n => toString n
  | .float x => Number.floatText x
  | .text s => Text.quoted s
  | .list items => "[" ++ String.intercalate ", " (shownItems items) ++ "]"
  | .record fields => "\x7b" ++ String.intercalate ", " (shownFields fields) ++ "\x7d"

def shownItems : List Value → List String
  | [] => []
  | v :: rest => shown v :: shownItems rest

def shownFields : List (String × Value) → List String
  | [] => []
  | (name, v) :: rest => (Text.quoted name ++ ": " ++ shown v) :: shownFields rest

end

/-- How the value is written where a text is wanted. -/
def asText : Value → String
  | .text s => s
  | v => v.shown

/-- The text of the value, empty where it does not count as present. -/
def textOrEmpty (v : Value) : String :=
  if v.truthy then v.asText else ""

end Value

/-- The whole number that a double stands for exactly. -/
def wholeOfFloat? (x : Float) : Option Int :=
  if x.isNaN || x.isInf then none
  else
    let (m, e) := Number.significand x
    let magnitude : Option Nat :=
      if 0 ≤ e then some (m * Nat.pow 2 e.toNat)
      else
        let unit := Nat.pow 2 (-e).toNat
        if m % unit = 0 then some (m / unit) else none
    magnitude.map fun n => if x < 0.0 then -(n : Int) else n

namespace Value

/-- The whole number that a value counts as: truth values count as one and zero. -/
def whole? : Value → Option Int
  | .bool b => some (if b then 1 else 0)
  | .int n => some n
  | .float x => wholeOfFloat? x
  | _ => none

/-- Whether the value is a number, truth values included. -/
def isNumber : Value → Bool
  | .bool _ | .int _ | .float _ => true
  | _ => false

mutual

/-- Whether two values count as equal: numbers by what they stand for, whatever
their kind, records whatever the order of their fields. -/
def same : Value → Value → Bool
  | .null, .null => true
  | .text s, .text t => s == t
  | .list xs, .list ys => sameItems xs ys
  | .record fs, .record gs => fs.length == gs.length && sameFields fs gs
  | .float x, .float y => x == y
  | .bool b, w => match whole? w with
    | some n => n == (if b then 1 else 0)
    | none => false
  | .int m, w => match whole? w with
    | some n => n == m
    | none => false
  | .float x, w => w.isNumber && match whole? w, wholeOfFloat? x with
    | some n, some m => n == m
    | _, _ => false
  | _, _ => false

def sameItems : List Value → List Value → Bool
  | [], [] => true
  | x :: xs, y :: ys => same x y && sameItems xs ys
  | _, _ => false

/-- Whether every field of the first record occurs in the second. -/
def sameFields : List (String × Value) → List (String × Value) → Bool
  | [], _ => true
  | (name, v) :: rest, gs =>
    (match gs.lookup name with
      | some w => same v w
      | none => false) && sameFields rest gs

end

/-- The value at a path of field names, null where there is none. -/
def at? : Value → List String → Value
  | v, [] => v
  | .record fields, name :: rest => at? ((Keyed.get? fields name).getD .null) rest
  | _, _ :: _ => .null

/-- A text that may be missing. -/
def ofText? : Option String → Value
  | some s => .text s
  | none => .null

/-- A whole number that may be missing. -/
def ofInt? : Option Int → Value
  | some n => .int n
  | none => .null

end Value

end LiveCluster
