import CopyPaste.Markdown.Link

/-!
# URI lists

A URI list has one URI to a line. Blank lines and comments, which begin with a number sign,
are skipped, and blanks around a URI do not belong to it.
-/

namespace CopyPaste.UriList

def mime : String := "text/uri-list"

/-- Whether a trimmed line holds a URI. -/
def isEntry : List Char → Bool
  | [] => false
  | c :: _ => c != '#'

/-- The URIs of a list. -/
def entries (cs : List Char) : List (List Char) :=
  ((Text.lines cs).map Text.trim).filter isEntry

@[inherit_doc entries]
def parse (text : String) : List String := (entries text.toList).map String.ofList

/-- The links to the URIs of a list, one space between any two; `none` if there are none. -/
def links? (documentUri text : String) : Option String :=
  match parse text with
  | [] => none
  | uris => some (String.intercalate " " (uris.map (Markdown.link documentUri)))

end CopyPaste.UriList
