import LiveCluster.Text.CaseTable

/-!
# Small letters

Lowering replaces each capital by its small letter. Two letters need more than a
table row. The dotted capital `İ` becomes two characters, a small `i` and a dot
above. The capital sigma becomes the final form `ς` where it ends a word, that
is, where a cased letter stands before it and none after it, characters that are
passed over not counted; elsewhere it becomes `σ`.
-/

namespace LiveCluster.Text

/-- Whether a code point lies in one of the ranges. -/
def inRanges (ranges : List (Nat × Nat)) (n : Nat) : Bool :=
  ranges.any fun (first, last) => first ≤ n && n ≤ last

def isCased (c : Char) : Bool :=
  inRanges casedRanges c.toNat

def isCaseIgnorable (c : Char) : Bool :=
  inRanges caseIgnorableRanges c.toNat

/-- The small letter of a character, itself when it has none. -/
def lowerChar (c : Char) : Char :=
  if c.toNat < 128 then c.toLower
  else match capitalRuns.find? fun r =>
      r.first ≤ c.toNat && c.toNat ≤ r.last && (c.toNat - r.first) % r.step == 0 with
    | some r => Char.ofNat (c.toNat + r.shift).toNat
    | none => c

/-- Whether the nearest character that is not passed over has case. -/
def casedNext (cs : List Char) : Bool :=
  match cs.dropWhile isCaseIgnorable with
  | [] => false
  | c :: _ => isCased c

/-- Lowers a text; `before` holds the characters already passed, nearest first. -/
def lowerFrom (before : List Char) : List Char → List Char
  | [] => []
  | c :: cs =>
    let small :=
      if c.toNat = 0x130 then ['i', Char.ofNat 0x307]
      else if c.toNat = 0x3A3 then
        [if casedNext before && !casedNext cs then Char.ofNat 0x3C2 else Char.ofNat 0x3C3]
      else [lowerChar c]
    small ++ lowerFrom (c :: before) cs

/-- The text with its capitals replaced by small letters. -/
def lower (s : String) : String :=
  String.ofList (lowerFrom [] s.toList)

end LiveCluster.Text
