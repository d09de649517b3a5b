import CopyPaste.Pattern.CharClass

/-!
# Patterns

Regular expressions with assertions, searched for in a text. A pattern is run on sets of
positions: `reach` maps the positions where a match may begin to those where it may end, so
that a sequence is composition, a choice is union and a repetition is a closure. A text holds a
match when some position can be reached from some position.
-/

namespace CopyPaste

/-- What an assertion says about a position. -/
inductive Assertion
  | textStart
  | textEnd
  | lineStart
  | lineEnd
  | wordBoundary
  | notWordBoundary
  | wordStart
  | wordEnd
  /-- No word character before. -/
  | wordStartHalf
  /-- No word character after. -/
  | wordEndHalf
deriving DecidableEq, Repr

/-- A regular expression. -/
inductive Pattern
  | empty
  | char (c : Pattern.CharClass)
  | assert (a : Assertion)
  | seq (a b : Pattern)
  | alt (a b : Pattern)
  /-- At least `least` times and, if there is a limit, at most `most` times. -/
  | repeated (a : Pattern) (least : Nat) (most : Option Nat)
deriving DecidableEq, Repr

namespace Pattern

/-! ## Size -/

/-- About how many states a machine for the pattern needs, every turn of a repetition having
states of its own. -/
def size : Pattern → Nat
  | .empty => 0
  | .char c => c.weight
  | .assert _ => 1
  | .seq a b => a.size + b.size
  | .alt a b => a.size + b.size + 2
  | .repeated a least none => max least 1 * a.size + 1
  | .repeated a least (some most) => least * a.size + (most - least) * (a.size + 1)

/-- The size from which on a pattern is refused. -/
def sizeLimit : Nat := 327680

/-! ## Sets of positions -/

/-- A position added to an ascending list. -/
def insertPosition (i : Nat) : List Nat → List Nat
  | [] => [i]
  | j :: rest =>
    if i < j then i :: j :: rest
    else if i = j then j :: rest
    else j :: insertPosition i rest

/-- The positions of either list. -/
def joinPositions (a b : List Nat) : List Nat := a.foldr insertPosition b

/-- `f` applied `n` times, or until it changes nothing. -/
def iterate (f : List Nat → List Nat) : Nat → List Nat → List Nat
  | 0, s => s
  | n + 1, s => if f s = s then s else iterate f n (f s)

/-! ## Matching -/

/-- Whether a word character stands just before a position. -/
def wordBefore (text : List Char) (i : Nat) : Bool :=
  i != 0 && (text[i - 1]?).any Text.isWordChar

/-- Whether a word character stands at a position. -/
def wordAfter (text : List Char) (i : Nat) : Bool := (text[i]?).any Text.isWordChar

/-- Whether an assertion holds at a position of a text. -/
def holds (text : List Char) (i : Nat) : Assertion → Bool
  | .textStart => i == 0
  | .textEnd => i == text.length
  | .lineStart => i == 0 || text[i - 1]? == some '\n'
  | .lineEnd => i == text.length || text[i]? == some '\n'
  | .wordBoundary => wordBefore text i != wordAfter text i
  | .notWordBoundary => wordBefore text i == wordAfter text i
  | .wordStart => !wordBefore text i && wordAfter text i
  | .wordEnd => wordBefore text i && !wordAfter text i
  | .wordStartHalf => !wordBefore text i
  | .wordEndHalf => !wordAfter text i

/-- The positions where a match that begins at one of the given positions can end. -/
def reach (text : List Char) : Pattern → List Nat → List Nat
  | .empty, s => s
  | .char c, s => s.filterMap fun i => if (text[i]?).any c.mem then some (i + 1) else none
  | .assert a, s => s.filter fun i => holds text i a
  | .seq a b, s => reach text b (reach text a s)
  | .alt a b, s => joinPositions (reach text a s) (reach text b s)
  | .repeated a least most, s =>
    let must := iterate (reach text a) least s
    let more := match most with
      | some n => min (n - least) (text.length + 1)
      | none => text.length + 1
    iterate (fun s => joinPositions s (reach text a s)) more must

/-- Whether a text holds a match. -/
def found (p : Pattern) (text : List Char) : Bool :=
  !(reach text p (List.range (text.length + 1))).isEmpty

end Pattern

end CopyPaste
