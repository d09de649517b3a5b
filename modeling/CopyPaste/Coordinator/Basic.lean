import CopyPaste.Coordinator.Copying
import CopyPaste.Coordinator.Pasting
import CopyPaste.Registry
import CopyPaste.Transfer.OfPayload

/-!
# The coordinator

A coordinator stands between the clipboard events of one editor and the registered providers.
A copy event starts a computation and leaves its handle on the clipboard; a paste event that
carries the handle of the pending copy is given the result of that computation. The pending
copy is all that a copy leaves behind for later events.

Tasks take turns: those that are ready stand in a queue, and a task whose turn has come runs
until it has to wait.

* `Coordinator.copy`, `Coordinator.paste` — what an event decides at once;
* `Coordinator.poll` — one turn of one task;
* `Coordinator.settle` — turns until no task is ready.
-/

namespace CopyPaste

/-- Why an event was left to the platform. -/
inductive DeclineReason
  | noClipboardData
  | noDocument
  | noSelection
  | emptySelection
  | noProviders
  /-- The payload of a paste carries no handle. -/
  | noCopyId
deriving DecidableEq, Repr

def DeclineReason.name : DeclineReason → String
  | .noClipboardData => "NoClipboardData"
  | .noDocument => "NoDocument"
  | .noSelection => "NoSelection"
  | .emptySelection => "EmptySelection"
  | .noProviders => "NoProviders"
  | .noCopyId => "NoCopyId"

/-- What became of a copy event. -/
inductive CopyOutcome
  | declined (reason : DeclineReason)
  /-- The handle is on the clipboard and the providers are at work. -/
  | started (handle : Handle)
deriving DecidableEq, Repr

/-- What became of a paste event. -/
inductive PasteDecision
  | declined (reason : DeclineReason)
  /-- The paste with this number was taken over; it is held until it is run. -/
  | taken (index : Nat)
deriving DecidableEq, Repr

/-- A coordinator with its editor, its registry and all tasks it has started. -/
structure Coordinator where
  desk : Desk := {}
  registry : Registry := {}
  config : Config := {}
  /-- The copy whose result a paste can pick up. -/
  pending : Option Nat := none
  copies : List CopyRun := []
  pastes : List PasteRun := []
  /-- The tasks whose turn is to come, in order. -/
  ready : List Task := []
deriving Repr

namespace Coordinator

/-! ## Views -/

def pendingCopy? (m : Coordinator) : Option CopyRun := m.pending.bind fun i => m.copies[i]?

def pendingHandle? (m : Coordinator) : Option Handle := m.pendingCopy?.map (·.handle)

theorem pendingHandle?_eq_some_iff {m : Coordinator} {h : Handle} :
    m.pendingHandle? = some h ↔
      ∃ i c, m.pending = some i ∧ m.copies[i]? = some c ∧ c.handle = h := by
  simp only [pendingHandle?, pendingCopy?, Option.map_eq_some_iff, Option.bind_eq_some_iff]
  constructor
  · rintro ⟨c, ⟨i, hpending, hc⟩, hhandle⟩
    exact ⟨i, c, hpending, hc, hhandle⟩
  · rintro ⟨i, c, hpending, hc, hhandle⟩
    exact ⟨c, ⟨i, hpending, hc⟩, hhandle⟩

def editor (m : Coordinator) : Editor := m.desk.editor

def mapEditor (m : Coordinator) (f : Editor → Editor) : Coordinator :=
  { m with desk := { m.desk with editor := f m.desk.editor } }

/-- Puts a task at the end of the queue, unless it stands there already. -/
def wake (m : Coordinator) (task : Task) : Coordinator :=
  if m.ready.contains task then m else { m with ready := m.ready ++ [task] }

def wakeAll (m : Coordinator) (tasks : List Task) : Coordinator := tasks.foldl wake m

/-! ## Copy events -/

/-- What a copy works on, or the first reason to decline it. -/
def admitCopy (m : Coordinator) (payload : Option Payload) :
    Except DeclineReason (Payload × Document × Selection × List (String × CopyScript)) := do
  let some payload := payload | .error .noClipboardData
  let some document := m.editor.document | .error .noDocument
  let some selection := m.editor.selection | .error .noSelection
  if selection.isEmpty then .error .emptySelection
  let providers := m.registry.copiers document
  if providers.isEmpty then .error .noProviders
  .ok (payload, document, selection, providers)

/-- The computation of a copy before its first turn. -/
def newCopy (m : Coordinator) (handle : Handle) (document : Document) (selection : Selection)
    (base : Transfer) (providers : List (String × CopyScript)) : CopyRun where
  handle := handle
  document := document
  selection := selection
  base := base
  policy := m.config.copyFailure
  lanes := providers.map fun p => { provider := p.1, script := p.2, fork := base.fork }

/-- Handles a copy event. A copy that starts takes the handle `fresh`, writes it into the
payload before any provider runs, and becomes the pending copy; the copy that was pending goes
on undisturbed. -/
def copy (m : Coordinator) (payload : Option Payload) (fresh : Handle) :
    CopyOutcome × Option Payload × Coordinator :=
  match m.admitCopy payload with
  | .error reason => (.declined reason, payload, m)
  | .ok (payload, document, selection, providers) =>
    let (transfer, reads) := Transfer.ofPayload payload m.desk.reads
    -- A handle left by an earlier copy is nothing that providers should see.
    let run := m.newCopy fresh document selection (transfer.delete handleMime) providers
    let index := m.copies.length
    let m := { m with
      desk := { m.desk with reads }
      copies := m.copies ++ [run]
      pending := some index }
    (.started fresh, some (payload.set handleMime fresh.text), m.wake (.copy index))

/-! ## Paste events -/

/-- What a paste works on, or the first reason to decline it. The handle is read from inline
strings only. -/
def admitPaste (m : Coordinator) (payload : Option Payload) :
    Except DeclineReason
      (Payload × Document × Selection × List (String × PasteScript) × String) := do
  let some document := m.editor.document | .error .noDocument
  let some selection := m.editor.selection | .error .noSelection
  -- Unlike a copy, a paste looks at the editor before it looks at the payload.
  let some payload := payload | .error .noClipboardData
  let providers := m.registry.pasters document
  if providers.isEmpty then .error .noProviders
  let some handle := payload.get? handleMime | .error .noCopyId
  .ok (payload, document, selection, providers, handle)

/-- The copy that a handle on the clipboard belongs to: the pending one or none. -/
def correlate? (m : Coordinator) (handle : String) : Option Nat :=
  (Handle.parse? handle).bind fun handle =>
    if m.pendingHandle? = some handle then m.pending else none

/-- A text belongs to a copy if that copy is pending and the text is read as its handle. -/
theorem correlate?_eq_some_iff {m : Coordinator} {text : String} {i : Nat} :
    m.correlate? text = some i ↔
      m.pending = some i ∧ ∃ c, m.copies[i]? = some c ∧ Handle.parse? text = some c.handle := by
  simp only [correlate?, Option.bind_eq_some_iff, Option.ite_none_right_eq_some,
    pendingHandle?_eq_some_iff]
  constructor
  · rintro ⟨h, hparse, ⟨j, c, hj, hc, rfl⟩, hpending⟩
    obtain rfl : j = i := Option.some_inj.mp (hj.symm.trans hpending)
    exact ⟨hj, c, hc, hparse⟩
  · rintro ⟨hpending, c, hc, hparse⟩
    exact ⟨c.handle, hparse, ⟨i, c, hpending, hc, rfl⟩, hpending⟩

/-- A paste before its first turn. -/
def newPaste (m : Coordinator) (handle : String) (document : Document) (selection : Selection)
    (transfer : Transfer) (providers : List (String × PasteScript)) (cancelled : Bool) :
    PasteRun where
  editor := m.editor.id
  document := document
  selection := selection
  transfer := transfer
  copy := m.correlate? handle
  handle := (m.correlate? handle).bind fun _ => m.pendingHandle?
  providers := providers
  plainTextFallback := m.config.plainTextFallback
  limit := m.config.copyWaitTimeout
  cancelled := cancelled

def paste (m : Coordinator) (payload : Option Payload) (cancelled : Bool) :
    PasteDecision × Coordinator :=
  match m.admitPaste payload with
  | .error reason => (.declined reason, m)
  | .ok (payload, document, selection, providers, handle) =>
    let (transfer, reads) := Transfer.ofPayload payload m.desk.reads
    let run := m.newPaste handle document selection transfer providers cancelled
    let index := m.pastes.length
    (.taken index, { m with desk := { m.desk with reads }, pastes := m.pastes ++ [run] })

/-- Queues a paste that is held. -/
def run (m : Coordinator) (index : Nat) : Coordinator :=
  match m.pastes[index]? with
  | some p =>
    match p.stage with
    | .held =>
      { m with pastes := m.pastes.set index { p with stage := .queued } }.wake (.paste index)
    | _ => m
  | none => m

def cancel (m : Coordinator) (index : Nat) : Coordinator :=
  match m.pastes[index]? with
  | some p =>
    let m := { m with pastes := m.pastes.set index { p with cancelled := true } }
    if p.heedsCancellation then m.wake (.paste index) else m
  | none => m

/-! ## The end of a pending copy -/

/-- Cancels the pending copy and forgets it. -/
def dispose (m : Coordinator) : Coordinator :=
  match m.pending with
  | some i =>
    match m.copies[i]? with
    | some c =>
      let m := { m with copies := m.copies.set i { c with cancelled := true }, pending := none }
      if c.waitsAt Pause.isCancellation then m.wake (.copy i) else m
    | none => { m with pending := none }
  | none => m

/-- Disposes of everything pending and goes on with another configuration. -/
def replace (m : Coordinator) (config : Config) : Coordinator := { m.dispose with config }

/-! ## Gates and time -/

/-- Opens a gate for good and wakes who waits for it. -/
def release (m : Coordinator) (gate : String) : Coordinator :=
  let (waiting, others) := m.desk.waiters.partition fun w => w.1 == gate
  { m with
    desk := { m.desk with openGates := gate :: m.desk.openGates, waiters := others }
  }.wakeAll (waiting.map Prod.snd)

/-- The tasks that the clock wakes now. -/
def dueTasks (m : Coordinator) : List Task :=
  let copies := m.copies.zipIdx.filter fun c => c.1.waitsAt (Pause.isDue m.desk.now)
  let pastes := m.pastes.zipIdx.filter fun p => p.1.isDue m.desk.now
  copies.map (fun c => .copy c.2) ++ pastes.map fun p => .paste p.2

/-- Lets a millisecond pass. -/
def tick (m : Coordinator) : Coordinator :=
  let m := { m with desk := { m.desk with now := m.desk.now + 1 } }
  m.wakeAll m.dueTasks

/-! ## Turns -/

/-- Gives a copy its turn. The pastes that sit waiting for a result that comes of it are woken. -/
def pollCopy (m : Coordinator) (index : Nat) : Coordinator :=
  match m.copies[index]? with
  | some c =>
    let (c', desk) := c.poll index m.desk
    -- A result comes once, so the pastes are woken once.
    let m := { m with desk, copies := m.copies.set index c' }
    if c.result.isNone && c'.result.isSome then m.wakeAll (c.seats.occupants.map .paste) else m
  | none => m

/-- The copies with the seats of one changed. -/
def mapSeats (m : Coordinator) (copy : Option Nat) (f : Seats → Seats) : Coordinator :=
  match copy.bind fun i => (m.copies[i]?).map fun c => (i, c) with
  | some (i, c) => { m with copies := m.copies.set i { c with seats := f c.seats } }
  | none => m

/-- What a copy has come to. -/
def result? (m : Coordinator) (copy : Option Nat) : Option (Option Transfer) :=
  copy.bind fun i => (m.copies[i]?).bind (·.result)

/-- Gives a paste its turn. It takes a seat when it begins to wait for its copy and leaves it
when it stops. -/
def pollPaste (m : Coordinator) (index : Nat) : Coordinator :=
  match m.pastes[index]? with
  | some p =>
    let (p', desk) := p.poll index (m.result? p.copy) m.desk
    let m := { m with desk, pastes := m.pastes.set index p' }
    if !p.isWaiting && p'.isWaiting then m.mapSeats p.copy (·.sit index)
    else if p.isWaiting && !p'.isWaiting then m.mapSeats p.copy (·.leave index)
    else m
  | none => m

def poll (m : Coordinator) : Task → Coordinator
  | .copy index => m.pollCopy index
  | .paste index => m.pollPaste index

/-- Gives the first task in the queue its turn. -/
def pollNext (m : Coordinator) : Coordinator :=
  match m.ready with
  | [] => m
  | task :: rest => { m with ready := rest }.poll task

/-- Gives a task its turn if it stands in the queue, whoever stands before it. -/
def pollReady (m : Coordinator) (task : Task) : Coordinator :=
  if task ∈ m.ready then { m with ready := m.ready.erase task }.poll task else m

/-- Gives at most `n` turns. -/
def pollTimes : Nat → Coordinator → Coordinator
  | 0, m => m
  | n + 1, m => if m.ready.isEmpty then m else pollTimes n m.pollNext

/-- How many turns there can be until no task is ready: one for each task in the queue, and
one for each paste each time a copy comes to its result. -/
def turns (m : Coordinator) : Nat :=
  m.ready.length + (m.copies.filter fun c => c.result.isNone).length * m.pastes.length

/-- Gives turns until no task is ready. -/
def settle (m : Coordinator) : Coordinator := pollTimes m.turns m

/-- What a paste has come to. -/
def stage? (m : Coordinator) (index : Nat) : Option PasteStage := (m.pastes[index]?).map (·.stage)

end Coordinator

end CopyPaste
