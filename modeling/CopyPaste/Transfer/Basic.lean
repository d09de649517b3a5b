import CopyPaste.Payload
import CopyPaste.Transfer.Reads

/-!
# Transfers

The items that flow through one copy or paste, each under its MIME type. A transfer is an
ordered map: a type occurs once, an overwrite keeps its position, and a type that was removed
comes back at the end. It also remembers which types were set or removed on it, so that the
changes made on a fork can be replayed on another transfer.

* `set`, `delete`, `get?` — the map;
* `merge` — every item of another transfer, which wins a collision;
* `fork` — the same items with nothing changed yet;
* `absorb` — the changes recorded on a fork, replayed.
-/

namespace CopyPaste

/-! ## Items -/

/-- Why a file could not be read. -/
structure ReadFailure where
  name : String
  reason : String
deriving DecidableEq, Repr

def ReadFailure.message (f : ReadFailure) : String :=
  "file '" ++ f.name ++ "' could not be read: " ++ f.reason

/-- A file in a transfer, read when first needed. -/
structure TransferFile where
  name : String
  uri : Option String
  data : Deferred (Except ReadFailure Bytes)
deriving Repr

/-- One item of a transfer. -/
inductive Item
  | text (value : Deferred String)
  | file (file : TransferFile)
deriving Repr

namespace Item

/-- The text of an item; a file has none. -/
def asString : Item → String
  | .text value => value.value
  | .file _ => ""

def asFile? : Item → Option TransferFile
  | .text _ => none
  | .file f => some f

/-- An item as descriptions write it. A text that nobody asked for yet is not shown. -/
def describe (reads : Reads) : Item → String
  | .text value =>
    if reads.isResolved value then "Text(" ++ Text.quote value.value ++ ")" else "Text(<pending>)"
  | .file f =>
    "File(TransferFile \x7b name: " ++ Text.quote f.name ++ ", uri: "
      ++ describeOption Text.quote f.uri ++ ", .. \x7d)"

end Item

/-! ## The ordered map -/

/-- Items under their types, in order. -/
abbrev Entries := List (String × Item)

namespace Entries

/-- The item under a type. -/
def get? (mime : String) : Entries → Option Item
  | [] => none
  | (key, item) :: rest => if key = mime then some item else get? mime rest

/-- The entries with an item under a type, in the old position if there is one. -/
def set (mime : String) (item : Item) : Entries → Entries
  | [] => [(mime, item)]
  | (key, old) :: rest =>
    if key = mime then (key, item) :: rest else (key, old) :: set mime item rest

/-- The entries without the one under a type. -/
def erase (mime : String) : Entries → Entries
  | [] => []
  | (key, item) :: rest => if key = mime then rest else (key, item) :: erase mime rest

end Entries

/-- The items of one copy or paste, and the types changed since the last fork. -/
structure Transfer where
  entries : Entries := []
  touched : List String := []
deriving Repr

namespace Transfer

/-- The item under a type. -/
def get? (t : Transfer) (mime : String) : Option Item := Entries.get? mime t.entries

def contains (t : Transfer) (mime : String) : Bool := (t.get? mime).isSome

def keys (t : Transfer) : List String := t.entries.map Prod.fst

def size (t : Transfer) : Nat := t.entries.length

/-- Records that a type was set or removed. -/
def touch (touched : List String) (mime : String) : List String :=
  if mime ∈ touched then touched else touched ++ [mime]

/-- Puts an item under a type. -/
def set (t : Transfer) (mime : String) (item : Item) : Transfer :=
  ⟨Entries.set mime item t.entries, touch t.touched mime⟩

/-- Removes the item under a type. Removing what is not there is no change. -/
def delete (t : Transfer) (mime : String) : Transfer :=
  if t.contains mime then ⟨Entries.erase mime t.entries, touch t.touched mime⟩ else t

/-- Sets every entry in turn. -/
def setAll (t : Transfer) (entries : Entries) : Transfer :=
  entries.foldl (fun t e => t.set e.1 e.2) t

/-- Sets every item of another transfer. -/
def merge (t other : Transfer) : Transfer := t.setAll other.entries

/-- The transfer of a list of items, later ones winning. -/
def ofList (entries : Entries) : Transfer := setAll {} entries

/-- The same items, shared, with nothing changed yet. -/
def fork (t : Transfer) : Transfer := ⟨t.entries, []⟩

/-- Replays the changes recorded on a fork: what it set is set, what it removed is removed. -/
def absorb (t fork : Transfer) : Transfer :=
  let changed := fork.entries.filter fun e => e.1 ∈ fork.touched
  -- What was touched and has no item any more was removed.
  let gone := fork.touched.filter fun mime => !fork.contains mime
  gone.foldl delete (t.setAll changed)

end Transfer

end CopyPaste
