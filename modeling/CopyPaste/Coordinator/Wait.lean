import CopyPaste.Transfer.Basic

/-!
# Waiting for a copy

A paste that belongs to a copy waits for its result until the paste is cancelled, the result is
there, or its time is up, and looks at the three in this order. So cancellation beats a result
that is there, and a result beats a limit that has passed.
-/

namespace CopyPaste

/-- How waiting for a copy ends. -/
inductive WaitEnd
  | cancelled
  /-- The result is there; it is `none` when the copy came to nothing. -/
  | ready (result : Option Transfer)
  | timedOut
deriving Repr

/-- Whether waiting since some time has passed its limit. -/
def hasExpired (limit : Option Nat) (since now : Nat) : Bool :=
  limit.any fun ms => since + ms ≤ now

/-- How waiting ends at a moment, if it does. -/
def WaitEnd.now? (cancelled : Bool) (result : Option (Option Transfer)) (expired : Bool) :
    Option WaitEnd :=
  if cancelled then some .cancelled
  else
    match result with
    | some result => some (.ready result)
    | none => if expired then some .timedOut else none

end CopyPaste
