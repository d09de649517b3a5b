import CopyPaste.Text.Hex
import CopyPaste.Text.Pieces

/-!
# Handles

A handle is a 128-bit number that names one copy. It is written on the clipboard as
hyphenated lower-case hexadecimal digits and recognised in four spellings, in either case:

* **plain** — the 32 digits alone;
* **hyphenated** — the digits in groups of 8, 4, 4, 4 and 12;
* **braced** — the hyphenated form between braces;
* **urn** — the hyphenated form after `urn:uuid:`.

Nothing else is recognised, so a handle that was padded or cut is no handle.
-/

namespace CopyPaste

/-- The name of one copy. -/
structure Handle where
  bits : BitVec 128
deriving DecidableEq, Repr

namespace Handle

/-! ## Spellings -/

/-- The sizes of the groups between the hyphens. -/
def groupSizes : List Nat := [8, 4, 4, 4, 12]

/-- The text cut into groups of the given sizes. -/
def groups : List Nat → List Char → List (List Char)
  | [], _ => []
  | n :: sizes, cs => cs.take n :: groups sizes (cs.drop n)

/-- The 32 digits of a handle. -/
def plain (h : Handle) : List Char := Text.hexDigits 32 h.bits.toNat

/-- The digits in hyphenated groups. -/
def hyphenated (h : Handle) : List Char := Text.joinWith ['-'] (groups groupSizes h.plain)

/-- The text of a handle on the clipboard. -/
def text (h : Handle) : String := String.ofList h.hyphenated

/-- The handle that 32 digits write. -/
def ofPlain? (cs : List Char) : Option Handle :=
  if cs.length = 32 then (Text.readHex? 0 cs).map fun n => ⟨BitVec.ofNat 128 n⟩ else none

/-- The handle that hyphenated digits write. -/
def ofHyphenated? (cs : List Char) : Option Handle :=
  let parts := Text.pieces (· == '-') cs
  if parts.map List.length = groupSizes then ofPlain? parts.flatten else none

/-- What stands between braces. -/
def unbrace? : List Char → Option (List Char)
  | '\x7b' :: cs => if cs.getLast? = some '\x7d' then some cs.dropLast else none
  | _ => none

/-- The start of the urn spelling. -/
def urnStart : List Char := "urn:uuid:".toList

/-- What follows the start of the urn spelling, which is recognised in either case. -/
def unurn? (cs : List Char) : Option (List Char) :=
  if (cs.take urnStart.length).map Char.toLower = urnStart then some (cs.drop urnStart.length)
  else none

/-- The handle that a text spells. -/
def parseChars? (cs : List Char) : Option Handle :=
  ofPlain? cs
    <|> ofHyphenated? cs
    <|> (unbrace? cs).bind ofHyphenated?
    <|> (unurn? cs).bind ofHyphenated?

@[inherit_doc parseChars?]
def parse? (text : String) : Option Handle := parseChars? text.toList

/-! ## Fresh handles -/

/-- The handle made of 122 random bits: the version and variant fields are fixed, so it is
recognisable as a random identifier. -/
def ofRandom (bits : BitVec 122) : Handle :=
  ⟨(bits.extractLsb' 74 48 ++ 4#4 ++ bits.extractLsb' 62 12 ++ 2#2 ++ bits.extractLsb' 0 62 :
    BitVec (48 + 4 + 12 + 2 + 62))⟩

end Handle

end CopyPaste
