import CopyPaste.Pattern.Basic
import CopyPaste.Text.Hex
import CopyPaste.Text.Search

/-!
# Reading patterns

The written form of patterns: literals, the dot, anchors, escapes, bracketed classes with
ranges, nesting and set operations, groups with and without names, flags, alternation and
repetition. Reading keeps what is read so far of the innermost group, together with the flags
that are in force; a flag set inside a group ends with it.
-/

namespace CopyPaste.Pattern

/-! ## Flags -/

/-- The flags that change what a pattern means. -/
structure Flags where
  ignoreCase : Bool := false
  multiLine : Bool := false
  dotAll : Bool := false
deriving DecidableEq, Repr

/-- The flags with one of them set to a value. Greed does not change what is found, and the
classes are always those of Unicode. -/
def Flags.put? (flags : Flags) (c : Char) (value : Bool) : Option Flags :=
  match c with
  | 'i' => some { flags with ignoreCase := value }
  | 'm' => some { flags with multiLine := value }
  | 's' => some { flags with dotAll := value }
  | 'U' => some flags
  | 'u' => if value then some flags else none
  | _ => none

/-- The flags after a list of flag letters, of which none may occur twice. -/
def Flags.read? (flags : Flags) (value : Bool) (seen : List Char) : List Char → Option Flags
  | [] => if value || !seen.isEmpty then some flags else none
  | '-' :: rest =>
    if value && !rest.isEmpty then Flags.read? flags false seen rest else none
  | c :: rest =>
    if seen.contains c then none
    else (flags.put? c value).bind fun flags => Flags.read? flags value (c :: seen) rest

/-- A class as the flags have it. -/
def Flags.fold (flags : Flags) (c : CharClass) : CharClass :=
  if flags.ignoreCase then .folded c else c

/-! ## Escapes -/

/-- Whether an escaped character stands for itself: any ASCII character that is neither a letter
nor a digit and begins no assertion. -/
def escapesItself (c : Char) : Bool :=
  c.toNat < 0x80 && !c.isAlphanum && c != '<' && c != '>'

/-- A character by its code point, in a fixed count of digits or between braces. -/
def readCode? (count : Nat) (cs : List Char) : Option (Char × List Char) :=
  let (digits, rest) := match cs with
    | '\x7b' :: cs => (cs.takeWhile (· != '\x7d'), (cs.dropWhile (· != '\x7d')).drop 1)
    | cs => (cs.take count, cs.drop count)
  let closed := match cs with
    | '\x7b' :: cs => cs.contains '\x7d' && !digits.isEmpty
    | _ => digits.length == count
  if closed then
    (Text.readHex? 0 digits).bind fun n =>
      if n.isValidChar then some (Char.ofNat n, rest) else none
  else none

/-- The character that an escape stands for. -/
def readEscapedChar? : List Char → Option (Char × List Char)
  | 'n' :: rest => some ('\n', rest)
  | 't' :: rest => some ('\t', rest)
  | 'r' :: rest => some ('\r', rest)
  | 'f' :: rest => some ('\x0c', rest)
  | 'v' :: rest => some ('\x0b', rest)
  | 'a' :: rest => some ('\x07', rest)
  | 'x' :: rest => readCode? 2 rest
  | 'u' :: rest => readCode? 4 rest
  | 'U' :: rest => readCode? 8 rest
  | c :: rest => if escapesItself c then some (c, rest) else none
  | [] => none

/-- The class that an escape stands for. -/
def escapedClass? : Char → Option CharClass
  | 'd' => some .digit
  | 'D' => some (.complement .digit)
  | 's' => some .space
  | 'S' => some (.complement .space)
  | 'w' => some .word
  | 'W' => some (.complement .word)
  | _ => none

/-- The assertion that an escape stands for. -/
def escapedAssertion? : Char → Option Assertion
  | 'A' => some .textStart
  | 'z' => some .textEnd
  | 'B' => some .notWordBoundary
  | '<' => some .wordStart
  | '>' => some .wordEnd
  | _ => none

/-- Whether a character may stand in the name of a kind of word boundary. -/
def namesBoundary (c : Char) : Bool := c.isAlpha || c == '-'

/-- The kinds of word boundary that have a name. -/
def namedBoundary? : String → Option Assertion
  | "start" => some .wordStart
  | "end" => some .wordEnd
  | "start-half" => some .wordStartHalf
  | "end-half" => some .wordEndHalf
  | _ => none

/-- The word boundary after its letter: a name between braces may follow. Braces that begin with
anything else are left to be read as a repetition. -/
def readBoundary? : List Char → Option (Assertion × List Char)
  | '\x7b' :: c :: rest =>
    if namesBoundary c then
      match (c :: rest).dropWhile namesBoundary with
      | '\x7d' :: after =>
        let name := String.ofList ((c :: rest).takeWhile namesBoundary)
        (namedBoundary? name).map fun a => (a, after)
      | _ => none
    else some (.wordBoundary, '\x7b' :: c :: rest)
  | cs => some (.wordBoundary, cs)

/-- What stands after a backslash. -/
def readEscape? (flags : Flags) : List Char → Option (Pattern × List Char)
  | [] => none
  | 'b' :: rest => (readBoundary? rest).map fun result => (.assert result.1, result.2)
  | c :: rest =>
    match escapedClass? c, escapedAssertion? c with
    | some cls, _ => some (.char (flags.fold cls), rest)
    | none, some a => some (.assert a, rest)
    | none, none =>
      (readEscapedChar? (c :: rest)).map fun result =>
        (.char (flags.fold (.single result.1)), result.2)

/-! ## Bracketed classes -/

/-- The set operations between parts of a class. -/
inductive SetOperation
  | inter
  | diff
  | symmDiff

/-- The operation of a doubled sign. -/
def setOperation? : List Char → Option (SetOperation × List Char)
  | '&' :: '&' :: rest => some (.inter, rest)
  | '-' :: '-' :: rest => some (.diff, rest)
  | '~' :: '~' :: rest => some (.symmDiff, rest)
  | _ => none

/-- Applies an operation. -/
def SetOperation.apply : SetOperation → CharClass → CharClass → CharClass
  | .inter => .inter
  | .diff => .diff
  | .symmDiff => .symmDiff

/-- A class read so far: the parts before an operation, and the part being read. -/
structure ClassSoFar where
  pending : Option (SetOperation × CharClass) := none
  current : CharClass := .none

/-- The class that has been read. The parts of an operation are folded before it is applied. -/
def ClassSoFar.value (flags : Flags) (s : ClassSoFar) : CharClass :=
  match s.pending with
  | none => s.current
  | some (op, left) => op.apply (flags.fold left) (flags.fold s.current)

/-- The class with one more member. -/
def ClassSoFar.add (s : ClassSoFar) (c : CharClass) : ClassSoFar :=
  { s with current := .union s.current c }

/-- The class once an operation has been read. -/
def ClassSoFar.operate (flags : Flags) (s : ClassSoFar) (op : SetOperation) : ClassSoFar :=
  { pending := some (op, s.value flags) }

/-- A member of a bracketed class: a character, or a class of its own. -/
inductive Member
  | char (c : Char)
  | cls (c : CharClass)

/-- The member that begins a text. -/
def readMember? : List Char → Option (Member × List Char)
  | [] => none
  | '\\' :: c :: rest =>
    match escapedClass? c with
    | some cls => some (.cls cls, rest)
    | none => (readEscapedChar? (c :: rest)).map fun result => (.char result.1, result.2)
  | '\\' :: [] => none
  | c :: rest => some (.char c, rest)

/-- The range or the single member that begins a text. -/
def readRange? (cs : List Char) : Option (CharClass × List Char) :=
  (readMember? cs).bind fun first =>
    let alone := match first.1 with
      | .char c => (CharClass.single c, first.2)
      | .cls c => (c, first.2)
    match first.2 with
    | '-' :: next :: rest =>
      if next = ']' ∨ next = '-' then some alone
      else
        (readMember? (next :: rest)).bind fun last =>
          match first.1, last.1 with
          | .char a, .char b =>
            if a.toNat ≤ b.toNat then some (.ranges [(a.toNat, b.toNat)], last.2) else none
          | _, _ => none
    | _ => some alone

/-- A named class such as `[:alpha:]`, after its opening bracket. -/
def readNamed? (flags : Flags) : List Char → Option (CharClass × List Char)
  | ':' :: rest =>
    let negated := rest.head? == some '^'
    let rest := if negated then rest.drop 1 else rest
    (Text.splitOnce? [':', ']'] rest).bind fun parts =>
      (CharClass.named? (String.ofList parts.1)).map fun c =>
        (if negated then .complement (flags.fold c) else c, parts.2)
  | _ => none

/-- The hyphens, and then the closing bracket, that stand for themselves at the start of a
class. -/
def readLeading (cs : List Char) : ClassSoFar × List Char :=
  let hyphens := cs.takeWhile (· == '-')
  let rest := cs.dropWhile (· == '-')
  if hyphens.isEmpty then
    match rest with
    | ']' :: rest => ({ current := .single ']' }, rest)
    | rest => ({}, rest)
  else ({ current := .single '-' }, rest)

mutual

/-- A bracketed class after its opening bracket. -/
def readClass? (flags : Flags) : Nat → List Char → Option (CharClass × List Char)
  | 0, _ => none
  | fuel + 1, cs =>
    let negated := cs.head? == some '^'
    let (start, rest) := readLeading (if negated then cs.drop 1 else cs)
    (readMembers? flags fuel start rest).map fun result =>
      let folded := flags.fold result.1
      (if negated then .complement folded else folded, result.2)

/-- The members of a class up to its closing bracket. -/
def readMembers? (flags : Flags) : Nat → ClassSoFar → List Char → Option (CharClass × List Char)
  | 0, _, _ => none
  | fuel + 1, s, cs =>
    match cs with
    | [] => none
    | ']' :: rest => some (s.value flags, rest)
    | '[' :: rest =>
      match readNamed? flags rest with
      | some (c, rest) => readMembers? flags fuel (s.add c) rest
      | none =>
        (readClass? flags fuel rest).bind fun inner =>
          readMembers? flags fuel (s.add inner.1) inner.2
    | cs =>
      match setOperation? cs with
      | some (op, rest) => readMembers? flags fuel (s.operate flags op) rest
      | none => (readRange? cs).bind fun member => readMembers? flags fuel (s.add member.1) member.2

end

/-! ## Repetition -/

/-- The largest count of a repetition. -/
def countLimit : Nat := 0x100000000

/-- A count, which may stand between blanks. -/
def readCount? (cs : List Char) : Option (Nat × List Char) :=
  let cs := cs.dropWhile Text.isBlank
  let digits := cs.takeWhile Char.isDigit
  let value := digits.foldl (fun n c => n * 10 + (c.toNat - '0'.toNat)) 0
  if digits.isEmpty || countLimit ≤ value then none
  else some (value, (cs.dropWhile Char.isDigit).dropWhile Text.isBlank)

/-- The counts of a repetition, after its opening brace. -/
def readCounts? (cs : List Char) : Option ((Nat × Option Nat) × List Char) :=
  (readCount? cs).bind fun least =>
    match least.2 with
    | '\x7d' :: rest => some ((least.1, some least.1), rest)
    | ',' :: rest =>
      match rest.dropWhile Text.isBlank with
      | '\x7d' :: rest => some ((least.1, none), rest)
      | rest =>
        (readCount? rest).bind fun most =>
          match most.2 with
          | '\x7d' :: rest =>
            if least.1 ≤ most.1 then some ((least.1, some most.1), rest) else none
          | _ => none
    | _ => none

/-- The counts of the repetition sign that begins a text. The outer `none` is a sign that
cannot be read, the inner one is no sign. -/
def readRepetition? : List Char → Option (Option (Nat × Option Nat) × List Char)
  | '*' :: rest => some (some (0, none), rest)
  | '+' :: rest => some (some (1, none), rest)
  | '?' :: rest => some (some (0, some 1), rest)
  | '\x7b' :: rest => (readCounts? rest).map fun result => (some result.1, result.2)
  | cs => some (none, cs)

/-- A text without the sign that makes a repetition prefer fewer turns. -/
def skipLazy : List Char → List Char
  | '?' :: rest => rest
  | cs => cs

/-! ## Groups -/

/-- How a group begins. -/
inductive Opening
  /-- A group whose content has the given flags, and its name if it has one. -/
  | group (flags : Flags) (name : Option String)
  /-- Flags for the rest of the group around it. -/
  | flags (flags : Flags)

/-- Whether a character may begin the name of a group. -/
def startsName (c : Char) : Bool := c == '_' || c.isAlpha

/-- Whether a character may stand in the name of a group. -/
def continuesName (c : Char) : Bool :=
  c == '_' || c == '.' || c == '[' || c == ']' || c.isAlphanum

/-- The name of a group up to its closing angle bracket. -/
def readName? (cs : List Char) : Option (String × List Char) :=
  (Text.splitOnce? ['>'] cs).bind fun parts =>
    match parts.1 with
    | [] => none
    | c :: rest =>
      if startsName c && rest.all continuesName then some (String.ofList (c :: rest), parts.2)
      else none

/-- The opening of a group, after its parenthesis. -/
def readOpening? (flags : Flags) : List Char → Option (Opening × List Char)
  | '?' :: 'P' :: '<' :: rest =>
    (readName? rest).map fun name => (.group flags (some name.1), name.2)
  | '?' :: '<' :: rest =>
    match rest with
    | '=' :: _ => none
    | '!' :: _ => none
    | rest => (readName? rest).map fun name => (.group flags (some name.1), name.2)
  | '?' :: rest =>
    let letters := rest.takeWhile fun c => c != ')' && c != ':'
    match rest.dropWhile fun c => c != ')' && c != ':' with
    | ':' :: rest =>
      (Flags.read? flags true [] letters).map fun flags => (.group flags none, rest)
    | ')' :: rest =>
      if letters.isEmpty then none
      else (Flags.read? flags true [] letters).map fun flags => (.flags flags, rest)
    | _ => none
  | cs => some (.group flags none, cs)

/-! ## Patterns -/

/-- A pattern read so far: earlier alternatives, the sequence before the last item, and that
item, which a repetition sign would repeat. -/
structure SoFar where
  flags : Flags
  names : List String
  alternatives : Option Pattern := none
  before : Pattern := .empty
  last : Option Pattern := none

namespace SoFar

def sequence (s : SoFar) : Pattern :=
  match s.last with
  | none => s.before
  | some p => .seq s.before p

def value (s : SoFar) : Pattern :=
  match s.alternatives with
  | none => s.sequence
  | some p => .alt p s.sequence

/-- The pattern with one more item. -/
def push (s : SoFar) (item : Pattern) : SoFar :=
  { s with before := s.sequence, last := some item }

/-- The pattern at the start of its next alternative. -/
def nextAlternative (s : SoFar) : SoFar :=
  { s with alternatives := some s.value, before := .empty, last := none }

/-- The pattern under new flags, which nothing repeats. -/
def putFlags (s : SoFar) (flags : Flags) : SoFar :=
  { s with flags, before := s.sequence, last := none }

/-- The last item repeated; there must be one. -/
def repeatLast? (s : SoFar) (counts : Nat × Option Nat) : Option SoFar :=
  s.last.map fun p => { s with last := some (.repeated p counts.1 counts.2) }

end SoFar

/-- The item that a character outside brackets stands for. -/
def readItem? (flags : Flags) : List Char → Option (Pattern × List Char)
  | [] => none
  | '\\' :: rest => readEscape? flags rest
  | '.' :: rest => some (.char (if flags.dotAll then .any else .notLineFeed), rest)
  | '^' :: rest => some (.assert (if flags.multiLine then .lineStart else .textStart), rest)
  | '$' :: rest => some (.assert (if flags.multiLine then .lineEnd else .textEnd), rest)
  | '[' :: rest =>
    (readClass? flags (2 * rest.length + 2) rest).map fun result => (.char result.1, result.2)
  | c :: rest => some (.char (flags.fold (.single c)), rest)

/-- Reads a group up to its end, in at most `fuel` items; the outermost group ends with the
text and any other with a parenthesis, which is left to be read. -/
def readGroup? : Nat → SoFar → List Char → Option (SoFar × List Char)
  | 0, _, _ => none
  | fuel + 1, s, cs =>
    match cs with
    | [] => some (s, [])
    | ')' :: rest => some (s, ')' :: rest)
    | '|' :: rest => readGroup? fuel s.nextAlternative rest
    | '(' :: rest =>
      match readOpening? s.flags rest with
      | none => none
      | some (.flags flags, rest) => readGroup? fuel (s.putFlags flags) rest
      | some (.group flags name, rest) =>
        -- No two groups have the same name.
        if name.any s.names.contains then none
        else
          match readGroup? fuel { flags, names := name.toList ++ s.names } rest with
          | some (inner, ')' :: rest) =>
            readGroup? fuel ({ s with names := inner.names }.push inner.value) rest
          | _ => none
    | cs =>
      match readRepetition? cs with
      | none => none
      | some (some counts, rest) =>
        (s.repeatLast? counts).bind fun s => readGroup? fuel s (skipLazy rest)
      | some (none, cs) =>
        (readItem? s.flags cs).bind fun item => readGroup? fuel (s.push item.1) item.2

/-- The pattern that a text writes, unless it is too large. -/
def parse? (text : String) : Option Pattern :=
  match readGroup? (text.length + 1) { flags := {}, names := [] } text.toList with
  | some (s, []) => if s.value.size < sizeLimit then some s.value else none
  | _ => none

end CopyPaste.Pattern
