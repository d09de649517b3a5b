import CopyPaste.Text.Hex
import CopyPaste.Text.Search

/-!
# Values in a configuration file

How strings, numbers and truth values are written in TOML: basic and literal strings, each on
one line or on several, integers in four bases with underscores between digits, and the two
truth values. Of tables and arrays, only those without content are read, and tables that name a
choice by their only key. No setting takes a value of another kind.
-/

namespace CopyPaste.Config

/-- A value of a setting. -/
inductive Value
  | string (value : String)
  | integer (value : Int)
  | boolean (value : Bool)
  /-- A table with one key and nothing under it. -/
  | choice (name : String)
  /-- An empty table or an empty array. -/
  | nothing
deriving DecidableEq, Repr

/-! ## Characters -/

/-- Blanks inside a line. -/
def isGap (c : Char) : Bool := c == ' ' || c == '\t'

/-- A text without the blanks at its start. -/
def skipGap (cs : List Char) : List Char := cs.dropWhile isGap

/-- Whether a character may stand in a string or a comment: any but control characters, of
which only the tab is allowed. -/
def isPlain (c : Char) : Bool := c == '\t' || (0x20 ≤ c.toNat && c.toNat != 0x7F)

/-- What follows a line end, LF or CRLF. -/
def skipLineEnd? : List Char → Option (List Char)
  | '\n' :: rest => some rest
  | '\r' :: '\n' :: rest => some rest
  | _ => none

/-- A text without the comment at its start; `none` if the comment has a control character. -/
def skipComment? : List Char → Option (List Char)
  | '#' :: rest =>
    match rest.dropWhile isPlain with
    | [] => some []
    | c :: rest => if c = '\n' ∨ c = '\r' then some (c :: rest) else none
  | cs => some cs

/-- What follows the blanks, comment and line end at the end of a line. -/
def skipRest? (cs : List Char) : Option (List Char) :=
  (skipComment? (skipGap cs)).bind fun rest =>
    match rest with
    | [] => some []
    | rest => skipLineEnd? rest

/-- A text without the blanks and line ends at its start, in at most `fuel` steps. -/
def skipLines : Nat → List Char → List Char
  | 0, cs => cs
  | fuel + 1, cs =>
    match skipLineEnd? (skipGap cs) with
    | some rest => skipLines fuel rest
    | none => skipGap cs

/-! ## Strings -/

/-- The character with a code point, surrogates excluded. -/
def charOf? (n : Nat) : Option Char :=
  if n.isValidChar then some (Char.ofNat n) else none

/-- The character that an escape stands for and what follows it. -/
def readEscape? : List Char → Option (Char × List Char)
  | 'b' :: rest => some ('\x08', rest)
  | 't' :: rest => some ('\t', rest)
  | 'n' :: rest => some ('\n', rest)
  | 'f' :: rest => some ('\x0c', rest)
  | 'r' :: rest => some ('\r', rest)
  | '"' :: rest => some ('"', rest)
  | '\\' :: rest => some ('\\', rest)
  | 'u' :: a :: b :: c :: d :: rest =>
    ((Text.readHex? 0 [a, b, c, d]).bind charOf?).map fun c => (c, rest)
  | 'U' :: a :: b :: c :: d :: e :: f :: g :: h :: rest =>
    ((Text.readHex? 0 [a, b, c, d, e, f, g, h]).bind charOf?).map fun c => (c, rest)
  | _ => none

/-- The body of a string on one line and what follows its closing quote. Only a basic string,
which double quotes enclose, knows escapes. -/
def readLine? (quote : Char) : Nat → List Char → Option (List Char × List Char)
  | 0, _ => none
  | fuel + 1, cs =>
    match cs with
    | [] => none
    | c :: rest =>
      if c = quote then some ([], rest)
      else if c = '\\' ∧ quote = '"' then
        (readEscape? rest).bind fun piece =>
          (readLine? quote fuel piece.2).map fun body => (piece.1 :: body.1, body.2)
      else if isPlain c then
        (readLine? quote fuel rest).map fun body => (c :: body.1, body.2)
      else none

/-- The body of a string on several lines and what follows its three closing quotes. In a
basic string a backslash at the end of a line joins it to the next text. -/
def readLines? (quote : Char) : Nat → List Char → Option (List Char × List Char)
  | 0, _ => none
  | fuel + 1, cs =>
    match Text.dropStart? [quote, quote, quote] cs with
    | some rest => some ([], rest)
    | none =>
      match skipLineEnd? cs with
      | some rest => (readLines? quote fuel rest).map fun body => ('\n' :: body.1, body.2)
      | none =>
        match cs with
        | [] => none
        | c :: rest =>
          if c = '\\' ∧ quote = '"' then
            match skipLineEnd? (skipGap rest) with
            | some next => readLines? quote fuel (skipLines next.length next)
            | none =>
              (readEscape? rest).bind fun piece =>
                (readLines? quote fuel piece.2).map fun body => (piece.1 :: body.1, body.2)
          else if isPlain c then
            (readLines? quote fuel rest).map fun body => (c :: body.1, body.2)
          else none

/-- The string after its first opening quote. A line end right after three opening quotes
does not belong to the string. -/
def readString? (quote : Char) (cs : List Char) : Option (List Char × List Char) :=
  match Text.dropStart? [quote, quote] cs with
  | some rest =>
    let rest := (skipLineEnd? rest).getD rest
    readLines? quote (rest.length + 1) rest
  | none => readLine? quote (cs.length + 1) cs

/-! ## Integers -/

/-- The number that digits of a base write after the value read so far. An underscore stands
between two digits. -/
def readBase? (base : Nat) : Nat → List Char → Option Nat
  | value, [] => some value
  | value, '_' :: c :: cs =>
    (Text.hexValue? c).bind fun d => if d < base then readBase? base (value * base + d) cs else none
  | value, c :: cs =>
    (Text.hexValue? c).bind fun d => if d < base then readBase? base (value * base + d) cs else none

/-- The number that digits of a base write; the first of them is no underscore. -/
def readDigits? (base : Nat) : List Char → Option Nat
  | [] => none
  | '_' :: _ => none
  | cs => readBase? base 0 cs

/-- A decimal number without needless zeros in front. -/
def readDecimal? : List Char → Option Nat
  | ['0'] => some 0
  | '0' :: _ => none
  | cs => readDigits? 10 cs

/-- The integer that a word writes. Only decimal numbers have a sign. -/
def readInteger? : List Char → Option Int
  | '0' :: 'x' :: cs => (readDigits? 16 cs).map Int.ofNat
  | '0' :: 'o' :: cs => (readDigits? 8 cs).map Int.ofNat
  | '0' :: 'b' :: cs => (readDigits? 2 cs).map Int.ofNat
  | '+' :: cs => (readDecimal? cs).map Int.ofNat
  | '-' :: cs => (readDecimal? cs).map fun n => -Int.ofNat n
  | cs => (readDecimal? cs).map Int.ofNat

/-- Integers have 64 bits, one of them for the sign. -/
def inIntegerRange (n : Int) : Bool := -0x8000000000000000 ≤ n && n < 0x8000000000000000

/-- The value that a word without quotes writes. -/
def readWord? (word : List Char) : Option Value :=
  if word = "true".toList then some (.boolean true)
  else if word = "false".toList then some (.boolean false)
  else (readInteger? word).bind fun n => if inIntegerRange n then some (.integer n) else none

/-! ## Keys -/

def isKeyChar (c : Char) : Bool := c.isAlphanum || c == '_' || c == '-'

/-- The key that begins a text and what follows it. -/
def readKey? : List Char → Option (List Char × List Char)
  | '"' :: rest => readLine? '"' (rest.length + 1) rest
  | '\'' :: rest => readLine? '\'' (rest.length + 1) rest
  | cs =>
    match cs.takeWhile isKeyChar with
    | [] => none
    | key => some (key, cs.dropWhile isKeyChar)

/-- The keys with dots between them that begin a text, at most `fuel` of them, and what follows
them and the blanks around them. -/
def readPath? : Nat → List Char → Option (List String × List Char)
  | 0, _ => none
  | fuel + 1, cs =>
    (readKey? (skipGap cs)).bind fun key =>
      match skipGap key.2 with
      | '.' :: rest =>
        (readPath? fuel rest).map fun path => (String.ofList key.1 :: path.1, path.2)
      | rest => some ([String.ofList key.1], rest)

/-- What follows an equals sign and the blanks around it. -/
def skipEquals? (cs : List Char) : Option (List Char) :=
  match skipGap cs with
  | '=' :: rest => some (skipGap rest)
  | _ => none

/-! ## Values -/

/-- What follows the line ends, blanks and comments between the brackets of an array, in at most
`fuel` lines. -/
def skipBreaks : Nat → List Char → List Char
  | 0, cs => cs
  | fuel + 1, cs =>
    match (skipComment? (skipGap cs)).bind skipLineEnd? with
    | some rest => skipBreaks fuel rest
    | none => skipGap cs

/-- What follows an empty table or an empty array. -/
def skipNothing? : List Char → Option (List Char)
  | '\x7b' :: rest =>
    match skipGap rest with
    | '\x7d' :: rest => some rest
    | _ => none
  | '[' :: rest =>
    match skipBreaks rest.length rest with
    | ']' :: rest => some rest
    | _ => none
  | _ => none

/-- The choice written as a table, after its opening brace. -/
def readChoice? (cs : List Char) : Option (Value × List Char) :=
  (readKey? (skipGap cs)).bind fun key =>
    (skipEquals? key.2).bind fun rest =>
      (skipNothing? rest).bind fun rest =>
        match skipGap rest with
        | '\x7d' :: rest => some (.choice (String.ofList key.1), rest)
        | _ => none

/-- A table or an array, from its opening bracket. -/
def readTable? (cs : List Char) : Option (Value × List Char) :=
  match skipNothing? cs with
  | some rest => some (.nothing, rest)
  | none =>
    match cs with
    | '\x7b' :: rest => readChoice? rest
    | _ => none

/-- Whether a character ends a word without quotes. -/
def endsWord (c : Char) : Bool := isGap c || c == '\n' || c == '\r' || c == '#'

/-- The value that begins a text and what follows it. -/
def readValue? : List Char → Option (Value × List Char)
  | '"' :: rest => (readString? '"' rest).map fun s => (.string (String.ofList s.1), s.2)
  | '\'' :: rest => (readString? '\'' rest).map fun s => (.string (String.ofList s.1), s.2)
  | '\x7b' :: rest => readTable? ('\x7b' :: rest)
  | '[' :: rest => readTable? ('[' :: rest)
  | cs =>
    (readWord? (cs.takeWhile fun c => !endsWord c)).map fun value =>
      (value, cs.dropWhile fun c => !endsWord c)

end CopyPaste.Config
