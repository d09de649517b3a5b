import CopyPaste.Document

/-!
# The editor

An editor shows at most one document with at most one selection, and applies edits to it. An
edit is refused as a whole before anything changes, for the first of these reasons that holds:

* it is meant for another editor;
* nothing is open;
* a replacement names another document;
* a replacement has an unusable range;
* two ranges overlap.

An accepted edit is made from the last range to the first, so that no replacement moves the
offsets of one still to be made. The caret ends up after the text of the first range.
-/

namespace CopyPaste

/-- Why an edit was refused. -/
inductive EditError
  | unknownEditor
  | noDocument
  | unknownDocument (uri : String)
  | invalidRange (start stop : Nat)
  | overlapping
deriving DecidableEq, Repr

def EditError.message : EditError → String
  | .unknownEditor => "edit targets an unknown editor"
  | .noDocument => "no document is open"
  | .unknownDocument uri => "document " ++ uri ++ " is not open"
  | .invalidRange start stop =>
    "edit range " ++ toString start ++ ".." ++ toString stop ++ " is out of bounds"
  | .overlapping => "edit ranges overlap"

/-- An editor and what it shows. -/
structure Editor where
  id : Nat := 0
  document : Option Document := none
  selection : Option Selection := none
deriving DecidableEq, Repr

namespace Editor

/-- Shows a document, with the caret at its start. -/
def openDocument (e : Editor) (d : Document) : Editor :=
  { e with document := some d, selection := some (.caret 0) }

/-- Shows nothing. -/
def close (e : Editor) : Editor :=
  { e with document := none, selection := none }

/-- Selects, whether or not the offsets are usable. -/
def select (e : Editor) (s : Selection) : Editor :=
  { e with selection := some s }

/-- Selects nothing, not even a caret. -/
def clearSelection (e : Editor) : Editor :=
  { e with selection := none }

def text? (e : Editor) : Option String := e.document.map (·.text)

/-! ## Applying edits -/

/-- Whether `a` begins at or after `b`: the order in which replacements are made. -/
def laterFirst (a b : TextEdit) : Bool := b.start ≤ a.start

/-- Whether some replacement, made after another, reaches into its range. -/
def overlaps : List TextEdit → Bool
  | a :: b :: rest => decide (a.start < b.stop) || overlaps (b :: rest)
  | _ => false

/-- The replacements made one after the other; `none` if a range is unusable when its turn
comes. -/
def replaceAll? : String → List TextEdit → Option String
  | text, [] => some text
  | text, e :: rest =>
    (Text.replace? text e.start e.stop e.text).bind fun text => replaceAll? text rest

/-- The first reason to refuse replacements for a document. -/
def refusal? (d : Document) (edit : Edit) : Option EditError :=
  match edit.find? fun e => e.uri != d.uri with
  | some e => some (.unknownDocument e.uri)
  | none =>
    match edit.find? fun e => (Text.slice? d.text e.start e.stop).isNone with
    | some e => some (.invalidRange e.start e.stop)
    | none => if overlaps (edit.mergeSort laterFirst) then some .overlapping else none

/-- The caret after a list of replacements in the order in which they are made. -/
def caretAfter (made : List TextEdit) : Nat :=
  match made.getLast? with
  | some first => first.start + first.text.utf8ByteSize
  | none => 0

/-- Applies an edit meant for the editor `target`. -/
def apply (e : Editor) (edit : Edit) (target : Nat) : Except EditError Editor :=
  if target ≠ e.id then .error .unknownEditor
  else
    match e.document with
    | none => .error .noDocument
    | some d =>
      if edit.isEmpty then .ok e
      else
        match refusal? d edit with
        | some error => .error error
        | none =>
          let made := edit.mergeSort laterFirst
          -- Ranges that are usable and do not overlap stay usable, so this is never `none`.
          match replaceAll? d.text made with
          | none => .error .overlapping
          | some text =>
            .ok { e with
              document := some (d.withText text)
              selection := some (.caret (caretAfter made)) }

/-- Applies an edit with all that can stop the program on the way: a range that is unusable when
its turn comes, and in a build that checks for overflow a version that cannot be counted. `none`
when the program stops, which leaves the editor as it was. -/
def applyWith? (overflow : Overflow) (e : Editor) (edit : Edit) (target : Nat) :
    Option (Except EditError Editor) :=
  if target ≠ e.id then some (.error .unknownEditor)
  else
    match e.document with
    | none => some (.error .noDocument)
    | some d =>
      if edit.isEmpty then some (.ok e)
      else
        match refusal? d edit with
        | some error => some (.error error)
        | none =>
          let made := edit.mergeSort laterFirst
          (replaceAll? d.text made).bind fun text =>
            (d.next? text overflow).map fun next =>
              .ok { e with document := some next, selection := some (.caret (caretAfter made)) }

end Editor

end CopyPaste
