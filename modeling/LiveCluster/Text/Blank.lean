/-!
# Blank characters

Text that comes from people arrives with blanks around it: identifiers, selector
terms, numerals in the environment. Two sets of blanks are in use, and they
differ only in the four separator controls `U+001C` to `U+001F`: they are blank
around an identifier and not around a numeral.

Everything here works on lists of characters, so that trimming is `dropWhile`
from both ends and nothing else.
-/

namespace LiveCluster.Text

/-- The characters with the Unicode property `White_Space`: what may surround a
numeral. -/
def isSpace (c : Char) : Bool :=
  let n := c.toNat
  (9 ≤ n && n ≤ 13) || n == 32 || n == 0x85 || n == 0xA0 || n == 0x1680
    || (0x2000 ≤ n && n ≤ 0x200A) || n == 0x2028 || n == 0x2029 || n == 0x202F
    || n == 0x205F || n == 0x3000

/-- The characters that are blank around an identifier: white space and the four
separator controls. -/
def isBlank (c : Char) : Bool :=
  isSpace c || (28 ≤ c.toNat && c.toNat ≤ 31)

/-- Drops the characters satisfying `p` from the end. -/
def dropEndWhile (p : Char → Bool) (cs : List Char) : List Char :=
  (cs.reverse.dropWhile p).reverse

/-- Drops the characters satisfying `p` from both ends. -/
def strip (p : Char → Bool) (cs : List Char) : List Char :=
  dropEndWhile p (cs.dropWhile p)

/-- The text without the blanks around it. -/
def trim (s : String) : String :=
  String.ofList (strip isBlank s.toList)

end LiveCluster.Text
