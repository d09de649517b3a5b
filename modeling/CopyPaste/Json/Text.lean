import CopyPaste.Text.Hex

/-!
# JSON strings

Strings between quotes as JSON writes them. Writing escapes quotes, backslashes and control
characters, with the short escapes where there are any; reading accepts every escape the
format knows. A `\u` escape names one unit of UTF-16, and a text in which a surrogate unit
stands alone is well formed but names no string.
-/

namespace CopyPaste.Json

/-! ## Writing -/

/-- One character as it stands between the quotes. -/
def escapeChar (c : Char) : List Char :=
  if c = '"' then ['\\', '"']
  else if c = '\\' then ['\\', '\\']
  else if c = '\x08' then ['\\', 'b']
  else if c = '\x0c' then ['\\', 'f']
  else if c = '\n' then ['\\', 'n']
  else if c = '\r' then ['\\', 'r']
  else if c = '\t' then ['\\', 't']
  else if c.toNat < 0x20 then ['\\', 'u'] ++ Text.hexDigits 4 c.toNat
  else [c]

/-- A string between quotes. -/
def writeString (cs : List Char) : List Char := '"' :: cs.flatMap escapeChar ++ ['"']

/-! ## Reading -/

/-- What the next characters of a string body stand for. -/
inductive Piece
  /-- The closing quote. -/
  | close
  /-- A code point, which may be a surrogate when it was written as an escape. -/
  | point (n : Nat)

/-- The character that a one-letter escape stands for. -/
def shortEscape? : Char → Option Char
  | '"' => some '"'
  | '\\' => some '\\'
  | '/' => some '/'
  | 'b' => some '\x08'
  | 'f' => some '\x0c'
  | 'n' => some '\n'
  | 'r' => some '\r'
  | 't' => some '\t'
  | _ => none

/-- The next piece of a string body and what follows it. -/
def nextPiece? : List Char → Option (Piece × List Char)
  | [] => none
  | '"' :: rest => some (.close, rest)
  | '\\' :: 'u' :: a :: b :: c :: d :: rest =>
    (Text.readHex? 0 [a, b, c, d]).map fun n => (.point n, rest)
  | '\\' :: c :: rest => (shortEscape? c).map fun c => (.point c.toNat, rest)
  -- A backslash that got here begins no escape.
  | c :: rest => if c.toNat < 0x20 ∨ c = '\\' then none else some (.point c.toNat, rest)

/-- The code points of a string body and what follows its closing quote, in at most `fuel`
pieces. -/
def readPoints? : Nat → List Char → Option (List Nat × List Char)
  | 0, _ => none
  | fuel + 1, cs =>
    match nextPiece? cs with
    | none => none
    | some (.close, rest) => some ([], rest)
    | some (.point n, rest) =>
      (readPoints? fuel rest).map fun result => (n :: result.1, result.2)

/-- Whether a number is the first unit of a surrogate pair. -/
def isHighSurrogate (n : Nat) : Bool := 0xD800 ≤ n && n < 0xDC00

/-- Whether a number is the second unit of a surrogate pair. -/
def isLowSurrogate (n : Nat) : Bool := 0xDC00 ≤ n && n < 0xE000

/-- The characters that code points and surrogate pairs name; `none` if a surrogate stands
alone. -/
def charsOfPoints? : List Nat → Option (List Char)
  | [] => some []
  | high :: low :: rest =>
    if isHighSurrogate high then
      if isLowSurrogate low then
        (charsOfPoints? rest).map fun cs =>
          Char.ofNat (0x10000 + (high - 0xD800) * 0x400 + (low - 0xDC00)) :: cs
      else none
    else if isLowSurrogate high then none
    else (charsOfPoints? (low :: rest)).map fun cs => Char.ofNat high :: cs
  | [n] => if isHighSurrogate n || isLowSurrogate n then none else some [Char.ofNat n]

/-- The string whose body begins a text, and what follows it. The inner `none` is a string
with a surrogate that stands alone. -/
def readBody? (cs : List Char) : Option (Option (List Char) × List Char) :=
  (readPoints? (cs.length + 1) cs).map fun result => (charsOfPoints? result.1, result.2)

end CopyPaste.Json
