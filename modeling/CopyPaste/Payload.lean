import CopyPaste.Text.Quoted

/-!
# Clipboard payloads

What the platform hands over with a copy or paste event: a list of typed items in which a MIME
type may occur more than once. A string is either inline or read when asked for; a file item
may come without a file; some items cannot be interpreted at all. The platform may hold back
what it is asked for until a gate is open.

* `Payload.set` — writes an inline string over the first item of its type;
* `Payload.get?` — reads the first inline string of a type, and nothing else.
-/

namespace CopyPaste

/-- The raw content of a file. -/
abbrev Bytes := List UInt8

/-- The reserved type under which the handle of a copy travels. -/
def handleMime : String := "x-clipweave/id"

/-- The type of the text that every editor writes on copy. -/
def plainMime : String := "text/plain"

/-! ## Items -/

/-- A string that the platform answers with when it is read, and the gate that it holds the
answer back behind. -/
structure StringSource where
  value : String
  gate : Option String := none
deriving DecidableEq, Repr

/-- A string that the platform answers with at once. -/
instance : Coe String StringSource := ⟨fun value => { value }⟩

/-- The string of a string item. -/
inductive StringData
  | inline (value : String)
  | deferred (source : StringSource)
deriving DecidableEq, Repr

/-- A file that the platform can read: its content, or why reading it fails. -/
structure FileSource where
  name : String
  path : Option String
  content : Except String Bytes
  /-- Reading a file kept in memory does not touch the platform. -/
  inMemory : Bool := false
  /-- The gate that the platform holds the content back behind. -/
  gate : Option String := none
deriving Repr

/-- One typed item of a payload. -/
inductive PayloadItem
  | string (mime : String) (data : StringData)
  | file (mime : String) (source : Option FileSource)
  | unsupported (mime : String)
deriving Repr

def PayloadItem.mime : PayloadItem → String
  | .string mime _ => mime
  | .file mime _ => mime
  | .unsupported mime => mime

/-- A payload: its items in the order in which the platform lists them. -/
structure Payload where
  items : List PayloadItem := []
deriving Repr

namespace Payload

/-! ## Operations -/

def push (p : Payload) (item : PayloadItem) : Payload := ⟨p.items ++ [item]⟩

/-- The items with the first one of the given type exchanged, or with a new one at the end. -/
def putFirst (mime : String) (item : PayloadItem) : List PayloadItem → List PayloadItem
  | [] => [item]
  | x :: rest => if x.mime = mime then item :: rest else x :: putFirst mime item rest

/-- Writes an inline string. -/
def set (p : Payload) (mime value : String) : Payload :=
  ⟨putFirst mime (.string mime (.inline value)) p.items⟩

/-- The inline string of an item, if that is what the item holds under the given type. -/
def inlineString? (mime : String) : PayloadItem → Option String
  | .string m (.inline value) => if m = mime then some value else none
  | _ => none

/-- The first inline string under a type; strings still to be read do not count. -/
def get? (p : Payload) (mime : String) : Option String :=
  p.items.findSome? (inlineString? mime)

def contains (p : Payload) (mime : String) : Bool :=
  p.items.any fun item => item.mime == mime

end Payload

/-! ## Descriptions -/

/-- An optional string as descriptions write it. -/
def describeOption (write : α → String) : Option α → String
  | none => "None"
  | some x => "Some(" ++ write x ++ ")"

/-- An item as descriptions write it; the content of a deferred string is left out. -/
def PayloadItem.describe : PayloadItem → String
  | .string mime data =>
    let data := match data with
      | .inline value => "Inline(" ++ Text.quote value ++ ")"
      | .deferred _ => "Deferred(..)"
    "String \x7b mime: " ++ Text.quote mime ++ ", data: " ++ data ++ " \x7d"
  | .file mime source =>
    "File \x7b mime: " ++ Text.quote mime ++ ", name: "
      ++ describeOption Text.quote (source.map (·.name)) ++ " \x7d"
  | .unsupported mime => "Unsupported \x7b mime: " ++ Text.quote mime ++ " \x7d"

def Payload.describe (p : Payload) : String :=
  "ClipboardData \x7b items: [" ++ String.intercalate ", " (p.items.map (·.describe)) ++ "] \x7d"

end CopyPaste
