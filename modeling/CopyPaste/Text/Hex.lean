/-!
# Hexadecimal digits

Values of digits in either case, and numbers written with a fixed count of lower-case digits.
-/

namespace CopyPaste.Text

/-- The value of a hexadecimal digit in either case. -/
def hexValue? (c : Char) : Option Nat :=
  if '0' ≤ c ∧ c ≤ '9' then some (c.toNat - '0'.toNat)
  else if 'a' ≤ c ∧ c ≤ 'f' then some (c.toNat - 'a'.toNat + 10)
  else if 'A' ≤ c ∧ c ≤ 'F' then some (c.toNat - 'A'.toNat + 10)
  else none

/-- The number that digits write after the value read so far. -/
def readHex? : Nat → List Char → Option Nat
  | value, [] => some value
  | value, c :: cs => (hexValue? c).bind fun d => readHex? (value * 16 + d) cs

/-- The last `k` digits of a number, in lower case. -/
def hexDigits : Nat → Nat → List Char
  | 0, _ => []
  | k + 1, n => hexDigits k (n / 16) ++ [Nat.digitChar (n % 16)]

/-- The digits of a number below `16 ^ 8`, without leading zeros. -/
def hexNumeral (n : Nat) : List Char :=
  match (hexDigits 8 n).dropWhile (· == '0') with
  | [] => ['0']
  | digits => digits

end CopyPaste.Text
