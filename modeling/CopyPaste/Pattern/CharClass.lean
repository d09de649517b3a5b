import CopyPaste.Text.Blank
import CopyPaste.Text.CaseFold
import CopyPaste.Text.Word

/-!
# Classes of characters

What one character of a pattern may match: ranges of code points and the set operations on
classes. Matching without regard to case is an operation too: a character is in the folded
class when one of its case variants is in the class.
-/

namespace CopyPaste.Pattern

/-- A class of characters. -/
inductive CharClass
  | ranges (rs : List (Nat × Nat))
  | complement (c : CharClass)
  | union (a b : CharClass)
  | inter (a b : CharClass)
  | folded (c : CharClass)
deriving DecidableEq, Repr

namespace CharClass

/-- Whether a code point is in a class. -/
def holds : CharClass → Nat → Bool
  | .ranges rs, n => Text.inRanges rs n
  | .complement a, n => !holds a n
  | .union a b, n => holds a n || holds b n
  | .inter a b, n => holds a n && holds b n
  | .folded a, n => (Text.caseVariants n).any (holds a)

/-- Whether a character is in a class. -/
def mem (a : CharClass) (c : Char) : Bool := holds a c.toNat

/-- About how many states a machine needs that recognises one character of the class in UTF-8. -/
def weight : CharClass → Nat
  | .ranges rs => 1 + 2 * (rs.filter fun r => 0x80 ≤ r.2).length
  | .complement a => 20 + weight a
  | .union a b => weight a + weight b
  | .inter a b => weight a + weight b
  | .folded a => 1 + weight a

def none : CharClass := .ranges []

def single (c : Char) : CharClass := .ranges [(c.toNat, c.toNat)]

/-- The characters of the first class that are not in the second. -/
def diff (a b : CharClass) : CharClass := .inter a (.complement b)

/-- The characters in exactly one of two classes. -/
def symmDiff (a b : CharClass) : CharClass := .union (diff a b) (diff b a)

def any : CharClass := .complement none

/-- Every character but the line feed. -/
def notLineFeed : CharClass := .complement (single '\n')

def digit : CharClass := .ranges Text.digitRanges

def space : CharClass := .ranges Text.blankRanges

def word : CharClass := .ranges Text.wordRanges

/-- The classes of ASCII characters with a name. -/
def named? (name : String) : Option CharClass :=
  match name with
  | "alnum" => some (.ranges [(0x30, 0x39), (0x41, 0x5A), (0x61, 0x7A)])
  | "alpha" => some (.ranges [(0x41, 0x5A), (0x61, 0x7A)])
  | "ascii" => some (.ranges [(0x00, 0x7F)])
  | "blank" => some (.ranges [(0x09, 0x09), (0x20, 0x20)])
  | "cntrl" => some (.ranges [(0x00, 0x1F), (0x7F, 0x7F)])
  | "digit" => some (.ranges [(0x30, 0x39)])
  | "graph" => some (.ranges [(0x21, 0x7E)])
  | "lower" => some (.ranges [(0x61, 0x7A)])
  | "print" => some (.ranges [(0x20, 0x7E)])
  | "punct" => some (.ranges [(0x21, 0x2F), (0x3A, 0x40), (0x5B, 0x60), (0x7B, 0x7E)])
  | "space" => some (.ranges [(0x09, 0x0D), (0x20, 0x20)])
  | "upper" => some (.ranges [(0x41, 0x5A)])
  | "word" => some (.ranges [(0x30, 0x39), (0x41, 0x5A), (0x5F, 0x5F), (0x61, 0x7A)])
  | "xdigit" => some (.ranges [(0x30, 0x39), (0x41, 0x46), (0x61, 0x66)])
  | _ => Option.none

end CharClass

end CopyPaste.Pattern
