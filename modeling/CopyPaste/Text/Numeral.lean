/-!
# Numerals

Unsigned decimal numerals below a limit: an optional plus sign and one or more digits, leading
zeros allowed. Reading stops at the first character that is wrong, which decides between the
two faults of a numeral that is both malformed and too large.
-/

namespace CopyPaste.Text

/-- Why a text is no numeral. -/
inductive NumeralError
  | empty
  | invalidDigit
  | tooLarge
deriving DecidableEq, Repr

def NumeralError.message : NumeralError → String
  | .empty => "cannot parse integer from empty string"
  | .invalidDigit => "invalid digit found in string"
  | .tooLarge => "number too large to fit in target type"

/-- The value of a decimal digit. -/
def digitValue (c : Char) : Nat := c.toNat - '0'.toNat

/-- The number that digits write after the value read so far. -/
def readDigits (limit : Nat) : Nat → List Char → Except NumeralError Nat
  | value, [] => .ok value
  | value, c :: cs =>
    if c.isDigit then
      let value := value * 10 + digitValue c
      if value < limit then readDigits limit value cs else .error .tooLarge
    else .error .invalidDigit

/-- The number below `limit` that a text writes. -/
def readNumeral (limit : Nat) : List Char → Except NumeralError Nat
  | [] => .error .empty
  | ['+'] => .error .invalidDigit
  | '+' :: digits => readDigits limit 0 digits
  | digits => readDigits limit 0 digits

/-- Offsets, and numbers read from a command line, lie below `2 ^ 64`. -/
def wordLimit : Nat := 0x10000000000000000

end CopyPaste.Text
