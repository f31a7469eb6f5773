import LiveCluster.Fault
import LiveCluster.Text.Blank

/-!
# Shapes

A shape says what a value has to look like, and reading a value by a shape gives
the value in its normal form together with every problem met on the way. Nothing
is lost: fields that a shape does not mention are kept as they came, behind the
ones it does.

The reading is lenient where the senders are. Whole numbers may come as truth
values, as floating-point numbers without a fraction, and as decimal texts; truth
values may come as one and zero and as the usual words. A field has a public name
and an inner one; both are accepted, and where both are there the public one counts
and the other is an unmentioned field.
-/

namespace LiveCluster

/-- The two names of a field, and what stands for it when it is missing. -/
structure Slot where
  inner : String
  outer : String
  fallback : Option Value

inductive Shape where
  | text
  | whole
  | truth
  | record
  | texts
  | optional (shape : Shape)
  | list (item : Shape)
  | model (slots : List (Slot × Shape))

/-- A value in its normal form, and the problems met; the value means nothing when
there are any. -/
abbrev Reading := Value × List Problem

namespace Reading

def ok (v : Value) : Reading := (v, [])

def problem (kind : ProblemKind) : Reading := (.null, [⟨[], kind⟩])

/-- The same reading, made at a place further in. -/
def within (place : String) (r : Reading) : Reading :=
  (r.1, r.2.map fun p => { p with path := place :: p.path })

end Reading

/-- A decimal digit of the plain alphabet. -/
def plainDigit? (c : Char) : Option Nat :=
  if c.isDigit then some (c.toNat - 48) else none

/-- Reads digits up to the end or to a tail `.0…0`; single underscores may stand
between digits. The flag says that a digit has to come next. -/
def wholeDigits? : Bool → Nat → List Char → Option Nat
  | due, n, [] => if due then none else some n
  | due, n, c :: cs =>
    if c = '_' then
      if due then none else wholeDigits? true n cs
    else if c = '.' then
      if !due && !cs.isEmpty && cs.all (· == '0') then some n else none
    else match plainDigit? c with
      | some d => wholeDigits? false (10 * n + d) cs
      | none => none

/-- Drops leading zeros, and underscores among them, while a digit is still to come. -/
def dropZeros : List Char → List Char
  | c :: d :: cs =>
    if (c == '0' || c == '_') && (d.isDigit || d == '_') then dropZeros (d :: cs)
    else c :: d :: cs
  | cs => cs

/-- The most places that a whole number may have in a text, a minus included. -/
def mostPlaces : Nat := 4300

/-- Reads a whole number without blanks around it. A plus may stand in front, and
zeros may lead; behind a minus they may not. -/
def readSigned (negative : Bool) (digits : List Char) : Reading :=
  let places := (digits.takeWhile fun c => c.isDigit || c == '_').countP Char.isDigit
  if places + (if negative then 1 else 0) > mostPlaces then .problem .intParsingSize
  else if negative && (dropZeros digits).length < digits.length then .problem .intParsing
  else match wholeDigits? true 0 digits with
    | some n => .ok (.int (if negative then -(n : Int) else n))
    | none => .problem .intParsing

/-- Reads a whole number from a text. -/
def readWholeText (s : String) : Reading :=
  match Text.strip Text.isSpace s.toList with
  | '-' :: digits => readSigned true digits
  | '+' :: '_' :: _ => .problem .intParsing
  | '+' :: digits => readSigned false (dropZeros digits)
  | '_' :: _ => .problem .intParsing
  | digits => readSigned false (dropZeros digits)

/-- Whether a double lies strictly between the bounds of 64-bit integers. -/
def fitsWord (x : Float) : Bool :=
  -9223372036854775808.0 < x && x < 9223372036854775808.0

/-- Reads a whole number from a double. -/
def readWholeFloat (x : Float) : Reading :=
  if x.isNaN || x.isInf then .problem .finiteNumber
  else match wholeOfFloat? x with
    | none => .problem .intFromFloat
    | some n => if fitsWord x then .ok (.int n) else .problem .intParsingSize

def readWhole : Value → Reading
  | .int n => .ok (.int n)
  | .bool b => .ok (.int (if b then 1 else 0))
  | .float x => readWholeFloat x
  | .text s => readWholeText s
  | _ => .problem .intType

/-- The words for the two truth values. -/
def truthWords : List (String × Bool) :=
  [("true", true), ("t", true), ("yes", true), ("y", true), ("on", true), ("1", true),
   ("false", false), ("f", false), ("no", false), ("n", false), ("off", false), ("0", false)]

/-- Reads a truth value from a whole number. -/
def readTruthWhole (n : Int) : Reading :=
  if n = 0 then .ok (.bool false)
  else if n = 1 then .ok (.bool true)
  else if -9223372036854775808 ≤ n && n < 9223372036854775808 then .problem .boolParsing
  else .problem .boolType

def readTruth : Value → Reading
  | .bool b => .ok (.bool b)
  | .int n => readTruthWhole n
  | .float x =>
    match wholeOfFloat? x with
    | some n => if fitsWord x then readTruthWhole n else .problem .boolType
    | none => .problem .boolType
  | .text s =>
    match truthWords.lookup (String.ofList (s.toList.map Char.toLower)) with
    | some b => .ok (.bool b)
    | none => .problem .boolParsing
  | _ => .problem .boolType

def readText : Value → Reading
  | .text s => .ok (.text s)
  | _ => .problem .stringType

/-- Reads the fields of a record of texts. -/
def readTexts : Fields → Fields × List Problem
  | [] => ([], [])
  | (name, v) :: rest =>
    let r := (readText v).within name
    let (fields, problems) := readTexts rest
    ((name, r.1) :: fields, r.2 ++ problems)

/-- Reads items, each by the given reader, counting from `index`. -/
def readItems (read : Value → Reading) : Nat → List Value → List Value × List Problem
  | _, [] => ([], [])
  | index, v :: rest =>
    let r := (read v).within (toString index)
    let (items, problems) := readItems read (index + 1) rest
    (r.1 :: items, r.2 ++ problems)

/-- The name under which a field is found in a record. -/
def Slot.key? (slot : Slot) (raw : Fields) : Option String :=
  if raw.has slot.outer then some slot.outer
  else if raw.has slot.inner then some slot.inner
  else none

mutual

/-- Reads a value by a shape. -/
def Shape.read : Shape → Value → Reading
  | .text, v => readText v
  | .whole, v => readWhole v
  | .truth, v => readTruth v
  | .record, .record fields => .ok (.record fields)
  | .record, _ => .problem .dictType
  | .texts, .record fields =>
    let (fields, problems) := readTexts fields
    (.record fields, problems)
  | .texts, _ => .problem .dictType
  | .optional _, .null => .ok .null
  | .optional shape, v => shape.read v
  | .list item, .list items =>
    let (items, problems) := readItems (item.read ·) 0 items
    (.list items, problems)
  | .list _, _ => .problem .listType
  | .model slots, .record raw =>
    let (fields, used, problems) := readSlots slots raw
    (.record (fields ++ raw.filter fun (name, _) => !used.contains name), problems)
  | .model _, _ => .problem .modelType

/-- Reads the mentioned fields of a record: their normal form under the public
names, the names under which they were found, and the problems. -/
def readSlots : List (Slot × Shape) → Fields → Fields × List String × List Problem
  | [], _ => ([], [], [])
  | (slot, shape) :: rest, raw =>
    let (fields, used, problems) := readSlots rest raw
    match slot.key? raw with
    | some key =>
      let r := (shape.read ((raw.get? key).getD .null)).within key
      ((slot.outer, r.1) :: fields, key :: used, r.2 ++ problems)
    | none =>
      match slot.fallback with
      | some v => ((slot.outer, (shape.read v).1) :: fields, used, problems)
      | none => ((slot.outer, .null) :: fields, used, ⟨[slot.outer], .missing⟩ :: problems)

end

/-- The normal form of a value, or every problem it has. -/
def Shape.decode (shape : Shape) (v : Value) : Except (List Problem) Value :=
  let (normal, problems) := shape.read v
  if problems.isEmpty then .ok normal else .error problems

end LiveCluster
