import CopyPaste.Session.Basic
import CopyPaste.Text.Numeral

/-!
# Whole sessions

Two sessions from beginning to end, each answering with the text of the target.

* `transplant` — copies a range of one file and pastes it into another;
* `pasteUris` — pastes URIs that were dragged in from another editor.
-/

namespace CopyPaste

namespace Session

/-- The text of `target` after the text from `start` to `stop` of `source` was pasted into it.
`reading` is what the runtime does while the target is read, and `pasting` what it does while the
paste runs. -/
def transplant (files : Files) (config : Config) (source : String) (start stop : Nat)
    (target : String) (offset : Nat) (fresh : Handle) (reading pasting : List Beat := []) :
    Except SessionError String := do
  let s ← (new config).openFile files source
  let (copied, s) := s.copy start stop fresh
  let payload ← copied
  let s ← (s.pass reading).openFile files target
  let (report, s) := s.paste offset payload pasting
  let _ ← report
  s.text

/-- What a clipboard holds after URIs were copied elsewhere, under a handle of another editor. -/
def draggedPayload (uris : List String) (foreign : Handle) : Payload :=
  ((Payload.set {} plainMime (String.intercalate "\n" uris)).set UriList.mime
    (String.intercalate "\r\n" uris)).set handleMime foreign.text

/-- The text of `target` after URIs were pasted into it. -/
def pasteUris (files : Files) (config : Config) (target : String) (offset : Nat)
    (uris : List String) (foreign : Handle) : Except SessionError String := do
  let s ← (new config).openFile files target
  let (report, s) := s.paste offset (draggedPayload uris foreign)
  let _ ← report
  s.text

end Session

/-! ## Ranges -/

/-- Why a text is no range of offsets. -/
inductive RangeError
  | noDots (text : String)
  | badStart (text : String) (error : Text.NumeralError)
  | badStop (text : String) (error : Text.NumeralError)
  | reversed (start stop : Nat)
deriving DecidableEq, Repr

def RangeError.message : RangeError → String
  | .noDots text => "expected START..END, got '" ++ text ++ "'"
  | .badStart text error => "bad start '" ++ text ++ "': " ++ error.message
  | .badStop text error => "bad end '" ++ text ++ "': " ++ error.message
  | .reversed start stop =>
    "range start " ++ toString start ++ " is after end " ++ toString stop

/-- The range that a text writes: two numerals around two dots, each with blanks around it if
need be. -/
def parseRange (text : String) : Except RangeError (Nat × Nat) :=
  match Text.splitOnce? ['.', '.'] text.toList with
  | none => .error (.noDots text)
  | some (first, second) =>
    match Text.readNumeral Text.wordLimit (Text.trim first) with
    | .error error => .error (.badStart (String.ofList first) error)
    | .ok start =>
      match Text.readNumeral Text.wordLimit (Text.trim second) with
      | .error error => .error (.badStop (String.ofList second) error)
      | .ok stop => if stop < start then .error (.reversed start stop) else .ok (start, stop)

end CopyPaste
