import CopyPaste.Text.Pieces

/-!
# Paths

Paths of a file system with one root. Empty components and single dots mean nothing and are
dropped; double dots are kept, since what they mean depends on links.

* `absolute` — a path from the root, given the directory that relative paths start from;
* `languageOf` — the language of a file by the ending of its name.
-/

namespace CopyPaste.Path

/-- The components of a path as they are written. -/
def rawComponents (path : List Char) : List (List Char) := Text.pieces (· == '/') path

/-- Whether a component means anything. -/
def isMeaningful (component : List Char) : Bool := !component.isEmpty && component != ['.']

/-- The components of a path that mean something. -/
def components (path : List Char) : List (List Char) :=
  (rawComponents path).filter isMeaningful

/-- What an absolute path begins with: two slashes stay two, any other number is one. -/
def rootOf : List Char → List Char
  | '/' :: '/' :: '/' :: _ => ['/']
  | '/' :: '/' :: _ => ['/', '/']
  | _ => ['/']

/-- Adds a slash at the end, unless there is one. -/
def closeWithSlash (path : List Char) : List Char :=
  if path.getLast? = some '/' then path else path ++ ['/']

/-- A path from the root. A slash at its end is kept. -/
def absoluteChars (directory path : List Char) : List Char :=
  let inner := Text.joinWith ['/'] (components path)
  let full :=
    -- The root keeps its own slashes, so nothing is put between it and the rest.
    if path.head? = some '/' then rootOf path ++ inner
    else if inner.isEmpty then directory
    else closeWithSlash directory ++ inner
  if path.getLast? = some '/' then closeWithSlash full else full

@[inherit_doc absoluteChars]
def absolute (directory path : String) : String :=
  String.ofList (absoluteChars directory.toList path.toList)

/-! ## Names -/

/-- The name of the file a path leads to, unless it ends by going up. -/
def fileName? (path : List Char) : Option (List Char) :=
  match (components path).getLast? with
  | some name => if name = ['.', '.'] then none else some name
  | none => none

/-- What follows the last dot of a name; a dot at its start does not count. -/
def ending? (name : List Char) : Option (List Char) :=
  let ending := (name.reverse.takeWhile (· != '.')).reverse
  if ending.length + 1 < name.length then some ending else none

/-- The languages of files by their endings. -/
def languages : List (String × String) :=
  [("md", "markdown"), ("markdown", "markdown"), ("rs", "rust"), ("py", "python"),
   ("js", "javascript"), ("mjs", "javascript"), ("ts", "typescript"), ("toml", "toml"),
   ("json", "json"), ("sh", "shellscript"), ("bash", "shellscript"), ("c", "c"), ("h", "c"),
   ("cc", "cpp"), ("cpp", "cpp"), ("hpp", "cpp"), ("go", "go")]

/-- The language of a file by the ending of its name, in any ASCII case; plain text if there is
none for it. -/
def languageOf (path : String) : String :=
  let ending := (fileName? path.toList).bind ending?
  (ending.bind fun cs => languages.lookup (String.ofList (cs.map Char.toLower))).getD "plaintext"

end CopyPaste.Path
