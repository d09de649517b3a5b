import CopyPaste.Editor
import CopyPaste.Provider
import CopyPaste.Transfer.Display

/-!
# The desk

What every running task can see and change: the editor, the ledger of reads, the clock, the
gates, the log of what providers reported and the deeds of the pastes. Scripts wait on the desk:
for a gate, for the clock, or for the cancellation of their own task. Whoever asks for a value
that the platform holds back waits for its gate as well.
-/

namespace CopyPaste

/-- A task that runs beside others: the computation of a copy, or a paste. -/
inductive Task
  | copy (index : Nat)
  | paste (index : Nat)
deriving DecidableEq, Repr

/-! ## The log -/

/-- What is known of a provider: that it was asked about a paste, and what it reported. -/
inductive Observation
  | asked (document : Document) (selection : Selection) (transfer : Transfer)
  | text (text : String)
  | arguments (document : Document) (selection : Selection)
  | keys (keys : List String)
  | items (items : List ShownItem)
deriving Repr

/-- An observation, the task in which it was made and the provider it was made of. -/
structure LogEntry where
  task : Task
  provider : String
  observation : Observation
deriving Repr

/-! ## Deeds -/

/-- What a paste script ends in: an edit, nothing, or a failure. -/
abbrev PasteAnswer := Except ProviderError (Option Edit)

/-- What comes of asking providers: their answers, and what an editor is asked to do. -/
inductive Deed
  /-- A provider answered; the flag tells whether the paste was cancelled by then. -/
  | answered (provider : String) (answer : PasteAnswer) (cancelled : Bool)
  /-- The editor with the given number was asked to make an edit. -/
  | requested (edit : Edit) (editor : Nat)
deriving Repr

/-! ## Calls -/

/-- What a provider is called with. -/
structure Call where
  provider : String
  task : Task
  document : Document
  selection : Selection
deriving Repr

/-- What comes of one action of a script that ends in a value of type `α`. -/
inductive Turn (α : Type)
  /-- The next action follows. -/
  | next
  /-- The action is not over yet. -/
  | wait
  /-- The script has ended. -/
  | done (result : α)
  /-- The task has ended. -/
  | crash
deriving Repr

/-! ## The desk -/

/-- What every running task can see and change. -/
structure Desk where
  editor : Editor := {}
  reads : Reads := {}
  /-- Milliseconds since the desk was set up. -/
  now : Nat := 0
  openGates : List String := []
  /-- Who waits for which gate, in the order in which they began to. -/
  waiters : List (String × Task) := []
  log : List LogEntry := []
  /-- What the pastes did, the earliest first. -/
  deeds : List (Task × Deed) := []
deriving Repr

namespace Desk

def note (desk : Desk) (task : Task) (provider : String) (observation : Observation) : Desk :=
  { desk with log := desk.log ++ [⟨task, provider, observation⟩] }

def record (desk : Desk) (task : Task) (deed : Deed) : Desk :=
  { desk with deeds := desk.deeds ++ [(task, deed)] }

/-- A new text item, known from the start. -/
def newText (desk : Desk) (text : String) : Item × Desk :=
  let (value, reads) := desk.reads.defer text false
  (.text value, { desk with reads })

/-- A new file item, known from the start. -/
def newFile (desk : Desk) (name : String) (uri : Option String) (content : Bytes) : Item × Desk :=
  let (data, reads) := desk.reads.defer (.ok content) false
  (.file ⟨name, uri, data⟩, { desk with reads })

/-! ## Deferred values -/

/-- Lets a task stand at a gate, unless it stands there already. -/
def standAt (desk : Desk) (gate : String) (task : Task) : Desk :=
  if desk.waiters.contains (gate, task) then desk
  else { desk with waiters := desk.waiters ++ [(gate, task)] }

/-- Asks for a deferred value. As long as it is held back the task stands at its gate. -/
def await? {α : Type} (desk : Desk) (task : Task) (d : Deferred α) : Option α × Desk :=
  match d.gate.filter fun gate => !desk.openGates.contains gate with
  | some gate => (none, { desk with reads := desk.reads.ask d }.standAt gate task)
  | none => (some d.value, { desk with reads := desk.reads.resolve d })

/-- Asks for the text of an item. A file has none, and asking it reads nothing. -/
def text? (desk : Desk) (task : Task) : Item → Option String × Desk
  | .text value => desk.await? task value
  | .file _ => (some "", desk)

/-- Asks for what items hold, one after the other, up to the first that is held back. The answer
tells whether all of it is there. -/
def awaitAll (desk : Desk) (task : Task) : List Item → Bool × Desk
  | [] => (true, desk)
  | .text value :: rest =>
    match desk.await? task value with
    | (some _, desk) => awaitAll desk task rest
    | (none, desk) => (false, desk)
  | .file file :: rest =>
    match desk.await? task file.data with
    | (some _, desk) => awaitAll desk task rest
    | (none, desk) => (false, desk)

/-- Reports about a call with a transfer. The items are reported once they are all known. -/
def report {α : Type} (desk : Desk) (call : Call) (t : Transfer) : Report → Turn α × Desk
  | .text text => (.next, desk.note call.task call.provider (.text text))
  | .arguments =>
    (.next, desk.note call.task call.provider (.arguments call.document call.selection))
  | .keys => (.next, desk.note call.task call.provider (.keys t.keys))
  | .items =>
    match desk.awaitAll call.task (t.entries.map Prod.snd) with
    | (true, desk) => (.next, desk.note call.task call.provider (.items t.shown))
    | (false, desk) => (.wait, desk)

/-! ## Pauses -/

/-- Whether a pause that began at some time is over. -/
def isOver (desk : Desk) (cancelled : Bool) (begun : Nat) : Pause → Bool
  | .gate name => desk.openGates.contains name
  | .sleep ms => begun + ms ≤ desk.now
  | .cancellation => cancelled

/-- Begins to wait. Only gates keep a list of who waits. -/
def enqueue (desk : Desk) (task : Task) : Pause → Desk
  | .gate name => { desk with waiters := desk.waiters ++ [(name, task)] }
  | _ => desk

/-- Comes to a pause, or back to one that has begun. -/
def pause {α : Type} (desk : Desk) (task : Task) (cancelled : Bool) (begun : Option Nat)
    (p : Pause) : Turn α × Desk :=
  if desk.isOver cancelled (begun.getD desk.now) p then (.next, desk)
  else if begun.isSome then (.wait, desk)
  else (.wait, desk.enqueue task p)

end Desk

end CopyPaste
