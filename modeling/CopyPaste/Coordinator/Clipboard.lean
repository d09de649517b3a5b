import CopyPaste.Coordinator.Event

/-!
# Clipboard events

A copy or a paste as the platform dispatches it: with a payload or without one, and with a flag
that keeps the platform from handling it as well. Answering an event may write into it.

* `ClipboardEvent` — the event;
* `Coordinator.handleCopy`, `Coordinator.handlePaste` — the answers to it.
-/

namespace CopyPaste

/-- A copy or a paste as the platform dispatches it. -/
structure ClipboardEvent where
  payload : Option Payload := none
  /-- Whether the platform is kept from handling the event as well. -/
  defaultPrevented : Bool := false
  /-- Whether what waits for the event has been given up by now. -/
  cancelled : Bool := false
deriving Repr

/-- Keeps the platform from handling the event as well, once and for all. -/
def ClipboardEvent.preventDefault (event : ClipboardEvent) : ClipboardEvent :=
  { event with defaultPrevented := true }

namespace Coordinator

/-- Answers a copy event. The platform goes on with its own copy in any case. -/
def handleCopy (m : Coordinator) (event : ClipboardEvent) (fresh : Handle) :
    CopyOutcome × ClipboardEvent × Coordinator :=
  let (outcome, payload, m) := m.copy event.payload fresh
  (outcome, { event with payload }, m)

/-- Answers a paste event. The platform's own paste is suppressed if the paste is taken over. -/
def handlePaste (m : Coordinator) (event : ClipboardEvent) :
    PasteDecision × ClipboardEvent × Coordinator :=
  match m.paste event.payload event.cancelled with
  | (.declined reason, m) => (.declined reason, event, m)
  | (.taken index, m) => (.taken index, event.preventDefault, m)

/-- Answering a copy event is an event of a history. -/
theorem handleCopy_eq_handle (m : Coordinator) (event : ClipboardEvent) (fresh : Handle) :
    (m.handleCopy event fresh).2.2 = m.handle (.copy event.payload fresh) := rfl

/-- Answering a paste event is an event of a history. -/
theorem handlePaste_eq_handle (m : Coordinator) (event : ClipboardEvent) :
    (m.handlePaste event).2.2 = m.handle (.paste event.payload event.cancelled) := by
  show _ = (m.paste event.payload event.cancelled).2
  unfold handlePaste
  split <;> rename_i h <;> rw [h]

end Coordinator

end CopyPaste
