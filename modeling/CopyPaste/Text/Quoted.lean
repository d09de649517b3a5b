import CopyPaste.Text.Hex
import CopyPaste.Text.Hidden

/-!
# Quoted text

How a string is written inside a description of a value: between double quotes, with a
backslash before a quote or a backslash, short escapes for the common control characters, and
`\u{…}` with lower-case hexadecimal digits for every other character without a shape.
-/

namespace CopyPaste.Text

/-- One character as it stands between the quotes. -/
def escapeChar (c : Char) : List Char :=
  if c = '"' then ['\\', '"']
  else if c = '\\' then ['\\', '\\']
  else if c = '\n' then ['\\', 'n']
  else if c = '\r' then ['\\', 'r']
  else if c = '\t' then ['\\', 't']
  else if c = '\x00' then ['\\', '0']
  else if isHidden c then ['\\', 'u', '\x7b'] ++ hexNumeral c.toNat ++ ['\x7d']
  else [c]

/-- A string between double quotes. -/
def quote (s : String) : String :=
  String.ofList ('"' :: s.toList.flatMap escapeChar ++ ['"'])

end CopyPaste.Text
