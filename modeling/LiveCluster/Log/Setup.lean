import LiveCluster.Fault
import LiveCluster.Log.Record
import LiveCluster.Sorting

/-!
# Log output

The log is written as records for machines or as lines for people, from a
threshold of severity on. An unknown name for the threshold stands for the ordinary
one, except for two that stand for something else than a severity and are no
thresholds; an unknown name for the form is refused.
-/

namespace LiveCluster

inductive LogForm where
  | json
  | console
  deriving Repr, DecidableEq, Inhabited

structure LogSetup where
  threshold : Nat
  form : LogForm
  deriving Repr, DecidableEq, Inhabited

/-- A line of output: a record, or a text. -/
inductive LogLine where
  | record (fields : Fields)
  | text (line : String)

namespace LogSetup

/-- The capitals of a letter, as far as they are of the plain alphabet. Of the ligatures only the
one of `s` and `t` matters: no name below has the letters of another in a row. -/
def capitals (c : Char) : List Char :=
  if c.toNat = 0x131 then ['I']
  else if c.toNat = 0x17F then ['S']
  else if c.toNat = 0xFB05 || c.toNat = 0xFB06 then ['S', 'T']
  else [c.toUpper]

/-- A name in capitals. -/
def upper (name : String) : String :=
  String.ofList (name.toList.flatMap capitals)

/-- The severities by the names that a threshold can be given by. -/
def thresholds : List (String × Nat) :=
  [("CRITICAL", 50), ("FATAL", 50), ("ERROR", 40), ("WARNING", 30), ("WARN", 30),
   ("INFO", 20), ("DEBUG", 10), ("NOTSET", 0)]

/-- The names that stand for a text and for a table of styles, by what is wrong with these where
a severity is looked up. -/
def misnomers : List (String × Misfit) :=
  [("BASIC_FORMAT", .noEntry "%(levelname)s:%(name)s:%(message)s"),
   ("_STYLES", .unhashable "dict")]

/-- The severity that a name asks for, whatever its case. -/
def thresholdOf (level : String) : Except Fault Nat :=
  match misnomers.lookup (upper level) with
  | some misfit => .error (.misfit misfit)
  | none => .ok ((thresholds.lookup (upper level)).getD 20)

/-- The output that two names ask for. -/
def ofNames (level form : String) : Except Fault LogSetup :=
  match form with
  | "json" => (thresholdOf level).map (⟨·, .json⟩)
  | "console" => (thresholdOf level).map (⟨·, .console⟩)
  | other => .error (.badArgument (.logFormat other))

/-- Fills a text up with blanks to a width. -/
def padded (width : Nat) (s : String) : String :=
  s ++ String.ofList (List.replicate (width - s.length) ' ')

/-- Whether a text has to be quoted to stand after an equals sign. -/
def needsQuotes (s : String) : Bool :=
  s.toList.any fun c => [' ', '\t', '=', '\r', '\n', '"', '\''].contains c

/-- The value of a field in a line for people. -/
def consoleValue : Value → String
  | .text s => if needsQuotes s then Text.quoted s else s
  | v => v.shown

/-- The circumstances of a record, its component among them. -/
def circumstances (r : LogRecord) : Fields :=
  r.fields.foldl (fun fields (name, v) => fields.set name v) [("component", .text r.component)]

/-- A record as a line for people: severity, event, and the circumstances by name. -/
def consoleLine (r : LogRecord) : String :=
  let sorted := sortBy (fun a b => decide (a.1 ≤ b.1)) (circumstances r)
  "[" ++ padded 9 r.level.name ++ "] " ++ padded 30 r.event ++ " "
    ++ String.intercalate " " (sorted.map fun (name, v) => name ++ "=" ++ consoleValue v)

/-- What is written for a record, if it is severe enough. -/
def write (setup : LogSetup) (r : LogRecord) : Option LogLine :=
  if r.level.rank < setup.threshold then none
  else match setup.form with
    | .json => some (.record
        (((circumstances r).set "event" (.text r.event)).set "level" (.text r.level.name)))
    | .console => some (.text (consoleLine r))

end LogSetup

end LiveCluster
