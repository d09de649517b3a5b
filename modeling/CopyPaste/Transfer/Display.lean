import CopyPaste.Transfer.Basic

/-!
# What a transfer shows

The items of a transfer with every deferred value known. Showing a transfer resolves all of
its items; showing it again changes nothing.
-/

namespace CopyPaste

/-- A file with its content known. -/
structure ShownFile where
  name : String
  uri : Option String
  data : Except ReadFailure Bytes
deriving Repr

/-- An item with its value known. -/
structure ShownItem where
  mime : String
  text : String
  file : Option ShownFile
deriving Repr

def TransferFile.shown (f : TransferFile) : ShownFile := ⟨f.name, f.uri, f.data.value⟩

def Item.shown (mime : String) (item : Item) : ShownItem :=
  ⟨mime, item.asString, item.asFile?.map (·.shown)⟩

/-- The ledger after an item was shown. -/
def Item.readAll (reads : Reads) : Item → Reads
  | .text value => reads.resolve value
  | .file f => reads.resolve f.data

namespace Transfer

def shown (t : Transfer) : List ShownItem := t.entries.map fun e => e.2.shown e.1

/-- The ledger after a transfer was shown. -/
def readAll (reads : Reads) (t : Transfer) : Reads :=
  t.entries.foldl (fun reads e => e.2.readAll reads) reads

end Transfer

end CopyPaste
