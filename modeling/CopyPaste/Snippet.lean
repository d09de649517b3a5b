import CopyPaste.Document
import CopyPaste.Json.Value
import CopyPaste.Markdown.Fence

/-!
# Source snippets

A snippet is a piece of text that remembers the document and the language it was taken from.
It travels as a JSON object with exactly the members `uri`, `language` and `text`; a reader
also takes the three in an array, and skips members it does not know.
-/

namespace CopyPaste

/-- The type under which snippets travel. -/
def snippetMime : String := "application/vnd.clipweave.source+json"

/-- The language that links and fenced blocks are written in. -/
def markdownLanguage : String := "markdown"

/-- A piece of text and where it is from. -/
structure Snippet where
  uri : String
  language : String
  text : String
deriving DecidableEq, Repr

namespace Snippet

/-- The snippet a selection covers. -/
def ofSelection? (d : Document) (s : Selection) : Option Snippet :=
  (d.slice? s).map fun text => ⟨d.uri, d.language, text⟩

/-! ## Written form -/

/-- One member of the object. -/
def writeMember (name value : String) : List Char :=
  Json.writeString name.toList ++ [':'] ++ Json.writeString value.toList

def encode (s : Snippet) : String :=
  String.ofList (['\x7b'] ++ writeMember "uri" s.uri ++ [','] ++ writeMember "language" s.language
    ++ [','] ++ writeMember "text" s.text ++ ['\x7d'])

/-- The string under a name that occurs exactly once. -/
def member? (members : List (Option String × Json)) (name : String) : Option String :=
  match members.filter fun m => m.1 = some name with
  | [(_, .string (some value))] => some value
  | _ => none

/-- The snippet a JSON value describes. -/
def ofJson? : Json → Option Snippet
  | .object members =>
    if members.all fun m => m.1.isSome then
      (member? members "uri").bind fun uri =>
        (member? members "language").bind fun language =>
          (member? members "text").map fun text => ⟨uri, language, text⟩
    else none
  | .array [.string (some uri), .string (some language), .string (some text)] =>
    some ⟨uri, language, text⟩
  | _ => none

/-- The snippet that a text writes; `none` for any other text. -/
def decode? (text : String) : Option Snippet := (Json.parse? text).bind ofJson?

def fenced (s : Snippet) : String := Markdown.fencedBlock s.language s.text

end Snippet

end CopyPaste
