import CopyPaste.Files.Path

/-!
# Files

What a session needs of a file system: reading a file as text, and the directory that relative
paths start from. A `FileTree` is a file system kept in memory, in which every path is walked
one component at a time from its start.
-/

namespace CopyPaste

/-- Why a file could not be read as text. -/
inductive ReadError
  | notFound
  | notDirectory
  | isDirectory
  | notText
  | other (message : String)
deriving DecidableEq, Repr

def ReadError.message : ReadError → String
  | .notFound => "No such file or directory (os error 2)"
  | .notDirectory => "Not a directory (os error 20)"
  | .isDirectory => "Is a directory (os error 21)"
  | .notText => "stream did not contain valid UTF-8"
  | .other message => message

/-- The files a session can read. -/
structure Files where
  /-- The directory that relative paths start from. -/
  directory : String
  read : String → Except ReadError String

/-- Files of which everything that will be read is known. -/
def Files.ofReads (directory : String) (reads : List (String × Except ReadError String)) :
    Files where
  directory
  read path := (reads.lookup path).getD (.error .notFound)

/-! ## Files in memory -/

/-- What lies at a path. -/
inductive FileNode
  | file (content : ByteArray)
  | directory

/-- A file system in memory: what lies at which path from the root. The directories above a
node exist too. -/
structure FileTree where
  directory : List (List Char)
  nodes : List (List (List Char) × FileNode)

namespace FileTree

/-- What lies at a path from the root. -/
def node? (t : FileTree) (path : List (List Char)) : Option FileNode :=
  match t.nodes.find? fun n => n.1 = path with
  | some n => some n.2
  | none =>
    if path.isPrefixOf t.directory || t.nodes.any fun n => path.isPrefixOf n.1 then some .directory
    else none

/-- Walks components from a place, each of which has to be in a directory. -/
def walk (t : FileTree) : List (List Char) → List (List Char) → Except ReadError FileNode
  | place, [] =>
    match t.node? place with
    | some node => .ok node
    | none => .error .notFound
  | place, component :: rest =>
    match t.node? place with
    | none => .error .notFound
    | some (.file _) => .error .notDirectory
    | some .directory =>
      if component = ['.', '.'] then walk t place.dropLast rest
      else if Path.isMeaningful component then walk t (place ++ [component]) rest
      else walk t place rest

/-- What lies at a path as it is written. -/
def find (t : FileTree) (path : List Char) : Except ReadError FileNode :=
  match path with
  | [] => .error .notFound
  | '/' :: _ => t.walk [] (Path.rawComponents path)
  | _ => t.walk t.directory (Path.rawComponents path)

def readText (t : FileTree) (path : String) : Except ReadError String :=
  match t.find path.toList with
  | .error error => .error error
  | .ok .directory => .error .isDirectory
  | .ok (.file content) =>
    match String.fromUTF8? content with
    | some text => .ok text
    | none => .error .notText

/-- The files of the tree. -/
def files (t : FileTree) : Files where
  directory := String.ofList ('/' :: Text.joinWith ['/'] t.directory)
  read := t.readText

/-- The tree whose working directory holds the given nodes under relative paths. -/
def ofList (directory : String) (nodes : List (String × FileNode)) : FileTree :=
  let place := Path.components directory.toList
  { directory := place
    nodes := nodes.map fun n => (place ++ Path.components n.1.toList, n.2) }

end FileTree

end CopyPaste
