import CopyPaste.Json.Text

/-!
# JSON values

Reading one JSON value from a text. Numbers are checked and not kept, since nothing here
needs their values; objects keep their members in order, repeated names included.
-/

namespace CopyPaste

/-- A JSON value. A string is `none` when it names no text. -/
inductive Json
  | null
  | bool (value : Bool)
  | number
  | string (value : Option String)
  | array (elements : List Json)
  | object (members : List (Option String × Json))

namespace Json

/-- White space between tokens. -/
def isSpace (c : Char) : Bool := c == ' ' || c == '\n' || c == '\t' || c == '\r'

/-- A text without the white space at its start. -/
def skipSpace (cs : List Char) : List Char := cs.dropWhile isSpace

/-! ## Numbers -/

/-- What follows at least one digit. -/
def skipDigits? (cs : List Char) : Option (List Char) :=
  match cs with
  | c :: _ => if c.isDigit then some (cs.dropWhile Char.isDigit) else none
  | [] => none

/-- What follows the whole part of a number, which has no needless zero in front. -/
def skipWhole? : List Char → Option (List Char)
  | '0' :: c :: rest => if c.isDigit then none else some (c :: rest)
  | cs => skipDigits? cs

/-- What follows the fraction of a number, if it has one. -/
def skipFraction? : List Char → Option (List Char)
  | '.' :: rest => skipDigits? rest
  | cs => some cs

/-- What follows the sign of an exponent. -/
def skipSign : List Char → List Char
  | '+' :: rest => rest
  | '-' :: rest => rest
  | cs => cs

/-- What follows the exponent of a number, if it has one. -/
def skipExponent? : List Char → Option (List Char)
  | 'e' :: rest => skipDigits? (skipSign rest)
  | 'E' :: rest => skipDigits? (skipSign rest)
  | cs => some cs

/-- What follows a number. -/
def skipNumber? (cs : List Char) : Option (List Char) :=
  let unsigned := match cs with
    | '-' :: rest => rest
    | cs => cs
  (skipWhole? unsigned).bind fun rest => (skipFraction? rest).bind skipExponent?

/-! ## Values -/

/-- What follows a word. -/
def skipWord? (word : String) (cs : List Char) : Option (List Char) :=
  if word.toList.isPrefixOf cs then some (cs.drop word.length) else none

/-- The string that begins a text. -/
def readString? : List Char → Option (Option String × List Char)
  | '"' :: rest => (readBody? rest).map fun result => (result.1.map String.ofList, result.2)
  | _ => none

mutual

/-- The value that begins a text, of which at most `fuel` levels are read. -/
def readValue? : Nat → List Char → Option (Json × List Char)
  | 0, _ => none
  | fuel + 1, cs =>
    match skipSpace cs with
    | '"' :: rest => (readString? ('"' :: rest)).map fun result => (.string result.1, result.2)
    | '[' :: rest =>
      match skipSpace rest with
      | ']' :: rest => some (.array [], rest)
      | rest => (readElements? fuel rest).map fun result => (.array result.1, result.2)
    | '\x7b' :: rest =>
      match skipSpace rest with
      | '\x7d' :: rest => some (.object [], rest)
      | rest => (readMembers? fuel rest).map fun result => (.object result.1, result.2)
    | 't' :: rest => (skipWord? "rue" rest).map fun rest => (.bool true, rest)
    | 'f' :: rest => (skipWord? "alse" rest).map fun rest => (.bool false, rest)
    | 'n' :: rest => (skipWord? "ull" rest).map fun rest => (.null, rest)
    | rest => (skipNumber? rest).map fun rest => (.number, rest)

/-- The elements of an array up to its closing bracket. -/
def readElements? : Nat → List Char → Option (List Json × List Char)
  | 0, _ => none
  | fuel + 1, cs =>
    (readValue? fuel cs).bind fun first =>
      match skipSpace first.2 with
      | ']' :: rest => some ([first.1], rest)
      | ',' :: rest =>
        (readElements? fuel rest).map fun others => (first.1 :: others.1, others.2)
      | _ => none

/-- The members of an object up to its closing brace. -/
def readMembers? : Nat → List Char → Option (List (Option String × Json) × List Char)
  | 0, _ => none
  | fuel + 1, cs =>
    (readString? (skipSpace cs)).bind fun name =>
      match skipSpace name.2 with
      | ':' :: rest =>
        (readValue? fuel rest).bind fun value =>
          match skipSpace value.2 with
          | '\x7d' :: rest => some ([(name.1, value.1)], rest)
          | ',' :: rest =>
            (readMembers? fuel rest).map fun others =>
              ((name.1, value.1) :: others.1, others.2)
          | _ => none
      | _ => none

end

/-- The value that a whole text writes. -/
def parse? (text : String) : Option Json :=
  let cs := text.toList
  (readValue? (2 * cs.length + 2) cs).bind fun result =>
    if (skipSpace result.2).isEmpty then some result.1 else none

end Json

end CopyPaste
