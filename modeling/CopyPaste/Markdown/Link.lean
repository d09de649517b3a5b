import CopyPaste.Text.Blank
import CopyPaste.Text.Pieces
import CopyPaste.Text.Search

/-!
# Links

A link to a resource as it is written in a markdown document. The text of the link is the last
segment of the resource's path; the destination is written relative to the document's directory
when the two share a scheme; an image is marked with an exclamation mark.

* `relativePath` — the way from one directory to another path;
* `encodeDestination` — a destination without the characters that would end it;
* `link` — the whole link.
-/

namespace CopyPaste.Markdown

/-! ## Paths -/

/-- The segments of a path that are not empty. -/
def segments (path : List Char) : List (List Char) :=
  (Text.pieces (· == '/') path).filter fun s => !s.isEmpty

/-- How many segments two paths share at their start. -/
def commonCount : List (List Char) → List (List Char) → Nat
  | a :: as, b :: bs => if a = b then commonCount as bs + 1 else 0
  | _, _ => 0

/-- The steps from a directory to a path: up to what they share, then down. -/
def steps (source goal : List (List Char)) : List (List Char) :=
  List.replicate (source.length - commonCount source goal) ['.', '.']
    ++ goal.drop (commonCount source goal)

/-- The path `goal` as written in the directory `source`. -/
def relativePath (source goal : List Char) : List Char :=
  Text.joinWith ['/'] (steps (segments source) (segments goal))

/-! ## URIs -/

/-- A text up to the first character of a class. -/
def upTo (stop : Char → Bool) (cs : List Char) : List Char := cs.takeWhile fun c => !stop c

/-- The scheme and the path of `scheme://authority/path?query#fragment`. -/
def splitUri? (uri : List Char) : Option (List Char × List Char) :=
  (Text.splitOnce? "://".toList uri).map fun parts =>
    (parts.1, upTo (fun c => c == '?' || c == '#') (parts.2.dropWhile (· != '/')))

/-- What stands before the last slash of a path. -/
def directory (path : List Char) : List Char :=
  ((path.reverse.dropWhile (· != '/')).drop 1).reverse

/-- The last segment of a path, slashes at its end aside. -/
def lastSegment (path : List Char) : List Char :=
  ((Text.dropEndWhile (· == '/') path).reverse.takeWhile (· != '/')).reverse

/-! ## Parts of a link -/

/-- A character of a destination; those that would end or split it are percent-encoded. -/
def encodeChar (c : Char) : List Char :=
  if c = ' ' then ['%', '2', '0']
  else if c = '(' then ['%', '2', '8']
  else if c = ')' then ['%', '2', '9']
  else if c = '<' then ['%', '3', 'C']
  else if c = '>' then ['%', '3', 'E']
  else [c]

/-- A destination without the characters that would end or split it. -/
def encodeDestination (cs : List Char) : List Char := cs.flatMap encodeChar

/-- The text of a link with a backslash before each bracket. -/
def escapeText (cs : List Char) : List Char :=
  cs.flatMap fun c => if c = '[' ∨ c = ']' then ['\\', c] else [c]

/-- The endings of image names. -/
def imageEndings : List String :=
  ["bmp", "gif", "ico", "jpe", "jpeg", "jpg", "png", "psd", "svg", "tga", "tif", "tiff", "webp"]

/-- Whether a name has the ending of an image, in any ASCII case. -/
def isImage (name : List Char) : Bool :=
  name.contains '.' &&
    let ending := (name.reverse.takeWhile (· != '.')).reverse
    imageEndings.contains (String.ofList (ending.map Char.toLower))

/-- The text of a link to a URI: the last segment of its path, or all of it if there is none. -/
def linkName (uri : List Char) : List Char :=
  let path := match splitUri? uri with
    | some (_, path) => path
    | none => uri
  match lastSegment path with
  -- A resource at the root has no name of its own.
  | [] => uri
  | name => name

/-- The destination of a link to a URI as written in a document. -/
def destination (documentUri uri : List Char) : List Char :=
  match splitUri? documentUri, splitUri? uri with
  | some (documentScheme, documentPath), some (scheme, path) =>
    if documentScheme = scheme then
      match relativePath (directory documentPath) path with
      -- The directory of the document itself.
      | [] => ['.']
      | relative => encodeDestination relative
    else encodeDestination uri
  | _, _ => encodeDestination uri

/-! ## Links -/

/-- The link to a URI as written in a document. -/
def linkChars (documentUri uri : List Char) : List Char :=
  let name := linkName uri
  (if isImage name then ['!'] else []) ++ ['['] ++ escapeText name ++ [']', '(']
    ++ destination documentUri uri ++ [')']

@[inherit_doc linkChars]
def link (documentUri uri : String) : String :=
  String.ofList (linkChars documentUri.toList uri.toList)

end CopyPaste.Markdown
