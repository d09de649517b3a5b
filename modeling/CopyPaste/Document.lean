import CopyPaste.Text.Offset
import CopyPaste.Text.Pieces

/-!
# Documents, selections and edits

A document is a named text in some language. A selection is a pair of byte offsets of which
the anchor may come after the active end; what it covers lies between the smaller and the
larger of the two. An edit is a list of replacements, each naming the document it is for.
-/

namespace CopyPaste

/-! ## Selections -/

/-- Two byte offsets: where selecting began and where the caret is. -/
structure Selection where
  anchor : Nat
  active : Nat
deriving DecidableEq, Repr

namespace Selection

/-- A selection that covers nothing. -/
def caret (offset : Nat) : Selection := ⟨offset, offset⟩

/-- The offset at which the covered text begins. -/
def start (s : Selection) : Nat := min s.anchor s.active

/-- The offset at which the covered text ends. -/
def stop (s : Selection) : Nat := max s.anchor s.active

/-- Whether nothing is covered. -/
def isEmpty (s : Selection) : Bool := s.anchor == s.active

theorem start_le_stop (s : Selection) : s.start ≤ s.stop := by
  unfold start stop; omega

@[simp] theorem start_caret (n : Nat) : (caret n).start = n := by simp [caret, start]

@[simp] theorem stop_caret (n : Nat) : (caret n).stop = n := by simp [caret, stop]

theorem isEmpty_iff (s : Selection) : s.isEmpty = true ↔ s.start = s.stop := by
  simp only [isEmpty, beq_iff_eq, start, stop]; omega

end Selection

/-! ## Documents -/

/-- A text with a name, a language and a version of 32 bits that counts its changes. -/
structure Document where
  uri : String
  language : String
  text : String
  version : UInt32 := 1
deriving DecidableEq, Repr

/-- A version is shown as a number. -/
instance coeVersion : CoeOut UInt32 Nat := ⟨UInt32.toNat⟩

/-- What becomes of counting beyond the last number: a build that does not check for overflow
starts again at zero, and one that does stops the program. -/
inductive Overflow
  | wraps
  | stops
deriving DecidableEq, Repr

namespace Document

/-- What stands before the first colon of the name; empty when there is none. -/
def scheme (d : Document) : String :=
  match Text.pieces (· == ':') d.uri.toList with
  | first :: _ :: _ => String.ofList first
  | _ => ""

/-- The text a selection covers, when both its ends are usable offsets. -/
def slice? (d : Document) (s : Selection) : Option String :=
  Text.slice? d.text s.start s.stop

/-- The next version of the document, which is version 0 after the last one. -/
def withText (d : Document) (text : String) : Document :=
  { d with text, version := d.version + 1 }

/-- The version that has no number after it. -/
def lastVersion : UInt32 := 4294967295

theorem toNat_version_withText (d : Document) (text : String) :
    (d.withText text).version.toNat =
      if d.version = lastVersion then 0 else d.version.toNat + 1 := by
  have hsum : (d.withText text).version.toNat = (d.version.toNat + 1) % 2 ^ 32 :=
    UInt32.toNat_add d.version 1
  have hlt := d.version.toNat_lt
  rw [hsum]
  split
  next hlast => rw [hlast]; rfl
  next hlast =>
    have hne : d.version.toNat ≠ 4294967295 := fun h => hlast (UInt32.toNat_inj.mp h)
    omega

/-- The next version of the document in a given build; `none` when the program stops. -/
def next? (d : Document) (text : String) : Overflow → Option Document
  | .wraps => some (d.withText text)
  | .stops => if d.version = lastVersion then none else some (d.withText text)

theorem next?_eq_none_iff {d : Document} {text : String} {overflow : Overflow} :
    d.next? text overflow = none ↔ overflow = .stops ∧ d.version = lastVersion := by
  cases overflow <;> simp [next?]

theorem eq_withText_of_next? {d next : Document} {text : String} {overflow : Overflow}
    (h : d.next? text overflow = some next) : next = d.withText text := by
  cases overflow with
  | wraps => exact (Option.some.inj h).symm
  | stops =>
      rw [next?, Option.ite_none_left_eq_some] at h
      exact (Option.some.inj h.2).symm

end Document

/-! ## Edits -/

/-- One replacement: the bytes from `start` to `stop` of a document become `text`. -/
structure TextEdit where
  uri : String
  start : Nat
  stop : Nat
  text : String
deriving DecidableEq, Repr

/-- Replacements that are made together or not at all. -/
abbrev Edit := List TextEdit

/-- The replacement of what a selection covers. -/
def TextEdit.replacing (uri : String) (s : Selection) (text : String) : TextEdit :=
  ⟨uri, s.start, s.stop, text⟩

end CopyPaste
