import CopyPaste.Text.Blank
import CopyPaste.Text.Pieces

/-!
# Fenced blocks

Text set verbatim in markdown: a line of backticks with the language, the text, and the same
backticks again. The fence is longer than every run of backticks in the text and at least
three long, so nothing in the text can close it.
-/

namespace CopyPaste.Markdown

/-- The length of the longest run of backticks. -/
def longestRun (cs : List Char) : Nat :=
  ((Text.pieces (· != '\x60') cs).map List.length).foldl max 0

/-- The fence around a text. -/
def fence (cs : List Char) : List Char := List.replicate (max (longestRun cs) 2 + 1) '\x60'

/-- The text inside the block: line ends at its end are dropped. -/
def fenceBody (cs : List Char) : List Char :=
  Text.dropEndWhile (fun c => c == '\r' || c == '\n') cs

/-- A text as a fenced block. -/
def fencedBlock (language text : String) : String :=
  let cs := text.toList
  String.ofList (fence cs ++ language.toList ++ ['\n'] ++ fenceBody cs ++ ['\n'] ++ fence cs)

end CopyPaste.Markdown
