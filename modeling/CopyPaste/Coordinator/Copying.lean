import CopyPaste.Config.Basic
import CopyPaste.Coordinator.Desk
import CopyPaste.Coordinator.Seats
import CopyPaste.Handle
import CopyPaste.Snippet

/-!
# The computation of a copy

Every copy provider works on a fork of its own, all of them side by side. When the last one
has ended, the forks of those that succeeded are absorbed, lowest priority first, so that the
provider of highest priority wins where two changed the same type.

* `Lane` — one provider at work on its fork;
* `CopyRun` — all lanes of a copy, and its result once there is one;
* `collect` — the result from lanes that have ended.
-/

namespace CopyPaste

/-! ## Actions -/

/-- Takes one action of a copy script on a fork. -/
def CopyAction.perform (call : Call) (cancelled : Bool) (begun : Option Nat) (fork : Transfer)
    (desk : Desk) : CopyAction → Turn (Except ProviderError Unit) × Transfer × Desk
  | .pause p =>
    let (turn, desk) := desk.pause call.task cancelled begun p
    (turn, fork, desk)
  | .report r =>
    let (turn, desk) := desk.report call fork r
    (turn, fork, desk)
  | .set mime text =>
    let (item, desk) := desk.newText text
    (.next, fork.set mime item, desk)
  | .setFile mime name uri content =>
    let (item, desk) := desk.newFile name uri content
    (.next, fork.set mime item, desk)
  | .setSlice mime =>
    let (item, desk) := desk.newText ((call.document.slice? call.selection).getD "<none>")
    (.next, fork.set mime item, desk)
  | .delete mime => (.next, fork.delete mime, desk)
  | .setSnippet =>
    match Snippet.ofSelection? call.document call.selection with
    | some snippet =>
      let (item, desk) := desk.newText snippet.encode
      (.next, fork.set snippetMime item, desk)
    | none =>
      let s := call.selection
      (.done (.error (.failed ("selection " ++ toString s.start ++ ".." ++ toString s.stop
        ++ " is outside " ++ call.document.uri))), fork, desk)
  | .fail error => (.done (.error error), fork, desk)
  | .crash => (.crash, fork, desk)

/-! ## Lanes -/

/-- How far a lane has come. -/
inductive LaneStatus
  | running
  | ended (result : Except ProviderError Unit)
  | crashed
deriving Repr

/-- One provider at work on its fork. -/
structure Lane where
  provider : String
  /-- What is left of the script. -/
  script : CopyScript
  /-- Since when the first action left has been waiting. -/
  begun : Option Nat := none
  fork : Transfer
  status : LaneStatus := .running
deriving Repr

namespace Lane

def isRunning (l : Lane) : Bool :=
  match l.status with
  | .running => true
  | _ => false

def hasCrashed (l : Lane) : Bool :=
  match l.status with
  | .crashed => true
  | _ => false

def succeeded (l : Lane) : Bool :=
  match l.status with
  | .ended (.ok _) => true
  | _ => false

def failed (l : Lane) : Bool :=
  match l.status with
  | .ended (.error _) => true
  | _ => false

def call (l : Lane) (task : Task) (document : Document) (selection : Selection) : Call :=
  ⟨l.provider, task, document, selection⟩

/-- Runs a script until it waits or ends. -/
def runScript (call : Call) (cancelled : Bool) :
    CopyScript → Option Nat → Transfer → Desk → Lane × Desk
  | [], _, fork, desk =>
    ({ provider := call.provider, script := [], fork, status := .ended (.ok ()) }, desk)
  | action :: rest, begun, fork, desk =>
    match action.perform call cancelled begun fork desk with
    | (.next, fork, desk) => runScript call cancelled rest none fork desk
    | (.wait, fork, desk) =>
      ({ provider := call.provider, script := action :: rest, fork
         begun := some (begun.getD desk.now) }, desk)
    | (.done result, fork, desk) =>
      ({ provider := call.provider, script := rest, fork, status := .ended result }, desk)
    | (.crash, fork, desk) =>
      ({ provider := call.provider, script := rest, fork, status := .crashed }, desk)

/-- Runs a lane until it waits or ends. -/
def run (l : Lane) (task : Task) (document : Document) (selection : Selection) (cancelled : Bool)
    (desk : Desk) : Lane × Desk :=
  runScript (l.call task document selection) cancelled l.script l.begun l.fork desk

/-- The pause at which a lane waits. -/
def pausedAt? (l : Lane) : Option (Pause × Nat) :=
  match l.status, l.begun, l.script with
  | .running, some since, .pause p :: _ => some (p, since)
  | _, _, _ => none

end Lane

/-! ## Copies -/

/-- The computation of one copy. -/
structure CopyRun where
  handle : Handle
  document : Document
  selection : Selection
  /-- What the payload held. -/
  base : Transfer
  policy : FailurePolicy
  /-- The providers in order of priority. -/
  lanes : List Lane
  cancelled : Bool := false
  /-- The result once there is one; it is `none` when the copy came to nothing. -/
  result : Option (Option Transfer) := none
  /-- The pastes that wait for the result. -/
  seats : Seats := {}
deriving Repr

namespace CopyRun

/-- The forks that succeeded, absorbed from the lowest priority to the highest. -/
def absorbAll (base : Transfer) (lanes : List Lane) : Transfer :=
  lanes.foldr (fun lane t => if lane.succeeded then t.absorb lane.fork else t) base

/-- The result of lanes that have all ended. -/
def collect (base : Transfer) (policy : FailurePolicy) (cancelled : Bool) (lanes : List Lane) :
    Option Transfer :=
  if cancelled then none
  -- Under `isolate` a failure costs the failed provider its own data only.
  else if policy = .abortAll ∧ lanes.any Lane.failed then none
  else some (absorbAll base lanes)

/-- Runs the lanes that have not ended, in order, up to the first that crashes. -/
def runLanes (task : Task) (document : Document) (selection : Selection) (cancelled : Bool) :
    List Lane → Desk → List Lane × Desk
  | [], desk => ([], desk)
  | lane :: rest, desk =>
    if lane.isRunning then
      let (lane, desk) := lane.run task document selection cancelled desk
      -- A crash ends the task, so the lanes behind it get no turn.
      if lane.hasCrashed then (lane :: rest, desk)
      else
        let (rest, desk) := runLanes task document selection cancelled rest desk
        (lane :: rest, desk)
    else
      let (rest, desk) := runLanes task document selection cancelled rest desk
      (lane :: rest, desk)

/-- The result that lanes have come to, if they have. -/
def outcome? (base : Transfer) (policy : FailurePolicy) (cancelled : Bool) (lanes : List Lane) :
    Option (Option Transfer) :=
  if lanes.any Lane.hasCrashed then some none
  else if lanes.any Lane.isRunning then none
  else some (collect base policy cancelled lanes)

/-- Lets the copy run until every lane waits or has ended. -/
def poll (c : CopyRun) (index : Nat) (desk : Desk) : CopyRun × Desk :=
  if c.result.isSome then (c, desk)
  else
    let (lanes, desk) := runLanes (.copy index) c.document c.selection c.cancelled c.lanes desk
    ({ c with lanes, result := outcome? c.base c.policy c.cancelled lanes }, desk)

/-- Whether some lane waits at a pause of the given kind. -/
def waitsAt (c : CopyRun) (p : Pause → Nat → Bool) : Bool :=
  c.result.isNone && c.lanes.any fun lane => lane.pausedAt?.any fun spot => p spot.1 spot.2

end CopyRun

/-- Whether a pause that began at some time ends with the clock at `now`. -/
def Pause.isDue (now : Nat) (p : Pause) (since : Nat) : Bool :=
  match p with
  | .sleep ms => since + ms ≤ now
  | _ => false

/-- Whether a pause ends with the cancellation of its task. -/
def Pause.isCancellation (p : Pause) (_since : Nat) : Bool := p == .cancellation

/-- A transfer after a copy script ran on it to its end, or the reason it failed; `none` if it
waits or crashes. -/
def CopyScript.provide? (script : CopyScript) (call : Call) (cancelled : Bool) (t : Transfer)
    (desk : Desk) : Option (Except ProviderError Transfer) :=
  match (Lane.runScript call cancelled script none t desk).1 with
  | { status := .ended (.ok _), fork, .. } => some (.ok fork)
  | { status := .ended (.error error), .. } => some (.error error)
  | _ => none

end CopyPaste
