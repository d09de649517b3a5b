import CopyPaste.Coordinator.Copying
import CopyPaste.Coordinator.Pasting
import CopyPaste.Transfer.OfPayload

/-!
# The shelf

Transfers that lie under the names of their holders, beside one desk, and everything that the
holders can do with them. Items go from one transfer to another in five ways, all of which share
what is behind an item: merging, forking, cloning, absorbing and setting an item that stands in
another transfer. A provider holds a transfer like anybody else and does one action of its script
after the other, so any number of providers can work side by side.

* `ShelfOp` — what a holder can do;
* `Shelf.perform` — what becomes of it, with the answer;
* `Shelf.after` — what a sequence of operations does.
-/

namespace CopyPaste

/-- Where an item comes from that is put into a transfer. -/
inductive Origin
  /-- A text that is known or that the platform is asked for. -/
  | text (source : StringSource) (fromPlatform : Bool)
  /-- A file whose content is known or that the platform is asked for. -/
  | file (name : String) (uri : Option String) (content : Except ReadFailure Bytes)
      (fromPlatform : Bool) (gate : Option String)
  /-- The item under a type of a transfer. -/
  | shared (holder mime : String)
deriving Repr

/-- What can be done with the transfers on a shelf. -/
inductive ShelfOp
  | set (holder mime : String) (origin : Origin)
  | delete (holder mime : String)
  | contains (holder mime : String)
  | keys (holder : String)
  /-- Describes the item under a type, as far as it is known. -/
  | describe (holder mime : String)
  | merge (holder source : String)
  | fork (holder source : String)
  | clone (holder source : String)
  /-- Replays the changes of a transfer, which is then empty. -/
  | absorb (holder source : String)
  /-- Makes a transfer of a list of items. -/
  | collect (holder : String) (items : List (String × Origin))
  /-- Asks for the text of an item. -/
  | readText (reader : Task) (holder mime : String)
  /-- Asks for the content of a file. -/
  | readFile (reader : Task) (holder mime : String)
  /-- Asks for everything in a transfer, or for the item under one type. -/
  | display (reader : Task) (holder : String) (mime : Option String)
  /-- A copy provider that holds the transfer takes an action. -/
  | copyStep (holder : String) (call : Call) (cancelled : Bool) (begun : Option Nat)
      (action : CopyAction)
  /-- A paste provider that holds the transfer takes an action. -/
  | pasteStep (holder : String) (call : Call) (cancelled : Bool) (begun : Option Nat)
      (action : PasteAction)
  | openGate (gate : String)
  | tick
deriving Repr

/-- What a holder learns from an operation. -/
inductive ShelfAnswer
  | done
  | flag (flag : Bool)
  | keys (keys : List String)
  | description (description : Option String)
  /-- Nothing if there is no item or its text is held back. -/
  | text (text : Option String)
  /-- Nothing if there is no file or its content is held back. -/
  | content (content : Option (Except ReadFailure Bytes))
  /-- Nothing if something is held back. -/
  | shown (items : Option (List ShownItem))
  | copied (turn : Turn (Except ProviderError Unit))
  | pasted (turn : Turn PasteAnswer) (cancelled : Bool)
deriving Repr

/-- Transfers under the names of their holders, and the desk beside them. -/
structure Shelf where
  desk : Desk := {}
  transfers : List (String × Transfer) := []
deriving Repr

namespace Shelf

/-- The transfer of a holder, empty until it is first used. -/
def get (s : Shelf) (holder : String) : Transfer := (s.transfers.lookup holder).getD {}

def put (s : Shelf) (holder : String) (t : Transfer) : Shelf :=
  { s with transfers := (holder, t) :: s.transfers.filter fun e => e.1 != holder }

/-- A shelf on which nothing lies but the transfer of a payload. -/
def ofPayload (holder : String) (payload : Payload) : Shelf :=
  let (t, reads) := Transfer.ofPayload payload {}
  { desk := { reads }, transfers := [(holder, t)] }

/-- The item of an origin. There is none if nothing stands where it should be shared from. -/
def make (s : Shelf) : Origin → Option Item × Shelf
  | .text source fromPlatform =>
    let (value, reads) := s.desk.reads.defer source.value fromPlatform source.gate
    (some (.text value), { s with desk := { s.desk with reads } })
  | .file name uri content fromPlatform gate =>
    let (data, reads) := s.desk.reads.defer content fromPlatform gate
    (some (.file ⟨name, uri, data⟩), { s with desk := { s.desk with reads } })
  | .shared holder mime => ((s.get holder).get? mime, s)

/-- The entries that a list of items makes, those left out that there are not. -/
def makeAll (s : Shelf) : List (String × Origin) → Entries × Shelf
  | [] => ([], s)
  | (mime, origin) :: rest =>
    let (item, s) := s.make origin
    let (entries, s) := s.makeAll rest
    ((item.map fun item => (mime, item)).toList ++ entries, s)

/-- The shelf after an operation, and the answer to it. -/
def perform (s : Shelf) : ShelfOp → ShelfAnswer × Shelf
  | .set holder mime origin =>
    match s.make origin with
    | (some item, s) => (.done, s.put holder ((s.get holder).set mime item))
    | (none, s) => (.done, s)
  | .delete holder mime =>
    (.flag ((s.get holder).contains mime), s.put holder ((s.get holder).delete mime))
  | .contains holder mime => (.flag ((s.get holder).contains mime), s)
  | .keys holder => (.keys (s.get holder).keys, s)
  | .describe holder mime =>
    (.description (((s.get holder).get? mime).map (Item.describe s.desk.reads)), s)
  | .merge holder source => (.done, s.put holder ((s.get holder).merge (s.get source)))
  | .fork holder source => (.done, s.put holder (s.get source).fork)
  | .clone holder source => (.done, s.put holder (s.get source))
  | .absorb holder source =>
    let fork := s.get source
    let s := s.put source {}
    (.done, s.put holder ((s.get holder).absorb fork))
  | .collect holder items =>
    let (entries, s) := s.makeAll items
    (.done, s.put holder (Transfer.ofList entries))
  | .readText reader holder mime =>
    match (s.get holder).get? mime with
    | some item =>
      let (text, desk) := s.desk.text? reader item
      (.text text, { s with desk })
    | none => (.text none, s)
  | .readFile reader holder mime =>
    match ((s.get holder).get? mime).bind Item.asFile? with
    | some file =>
      let (content, desk) := s.desk.await? reader file.data
      (.content content, { s with desk })
    | none => (.content none, s)
  | .display reader holder mime =>
    let entries := (s.get holder).entries.filter fun e => mime.all fun mime => e.1 = mime
    let (known, desk) := s.desk.awaitAll reader (entries.map Prod.snd)
    let items := entries.map fun e => e.2.shown e.1
    (.shown (if known then some items else none), { s with desk })
  | .copyStep holder call cancelled begun action =>
    let (turn, t, desk) := action.perform call cancelled begun (s.get holder) s.desk
    (.copied turn, { s with desk }.put holder t)
  | .pasteStep holder call cancelled begun action =>
    let (turn, cancelled, desk) := action.perform call (s.get holder) begun cancelled s.desk
    (.pasted turn cancelled, { s with desk })
  | .openGate gate =>
    (.done, { s with desk := { s.desk with openGates := gate :: s.desk.openGates } })
  | .tick => (.done, { s with desk := { s.desk with now := s.desk.now + 1 } })

/-- The shelf after a sequence of operations. -/
def after (s : Shelf) (ops : List ShelfOp) : Shelf := ops.foldl (fun s op => (s.perform op).2) s

@[simp] theorem after_nil (s : Shelf) : s.after [] = s := rfl

@[simp] theorem after_cons (s : Shelf) (op : ShelfOp) (ops : List ShelfOp) :
    s.after (op :: ops) = (s.perform op).2.after ops := rfl

theorem after_append (s : Shelf) (first second : List ShelfOp) :
    s.after (first ++ second) = (s.after first).after second := by
  simp [after, List.foldl_append]

end Shelf

end CopyPaste
