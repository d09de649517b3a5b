import CopyPaste.Coordinator.Desk
import CopyPaste.Coordinator.Wait
import CopyPaste.Handle
import CopyPaste.Snippet
import CopyPaste.UriList

/-!
# A paste

A paste that was taken over runs in three parts. It waits for the copy it belongs to, if any,
and merges the result into what the payload held. It then asks the paste providers in order of
priority until one answers with an edit or fails. If none does, it inserts the plain text.

* `PasteAction.perform` — one action of a paste script;
* `PasteRun.scan` — the providers that are left, then the plain text;
* `PasteRun.poll` — the whole paste, up to where it has to wait.
-/

namespace CopyPaste

/-! ## Actions -/

/-- Two lower-case hexadecimal digits for every byte. -/
def hexOfBytes (bytes : Bytes) : String :=
  String.ofList (bytes.flatMap fun b => Text.hexDigits 2 b.toNat)

/-- The edit that replaces the selection of a call. -/
def Call.replacing (call : Call) (text : String) : Edit :=
  [.replacing call.document.uri call.selection text]

/-- The links to a URI list in place of the selection. A cancelled paste gets none. -/
def linkAnswer (call : Call) (cancelled : Bool) (list : String) : Turn PasteAnswer :=
  if cancelled then .done (.error .cancelled)
  else
    match UriList.links? call.document.uri list with
    | some links => .done (.ok (some (call.replacing links)))
    | none => .next

/-- A snippet as a fenced block in place of the selection, unless it is in the language of the
document already. -/
def snippetAnswer (call : Call) (text : String) : Turn PasteAnswer :=
  match Snippet.decode? text with
  | some snippet =>
    if snippet.language = call.document.language then .next
    else .done (.ok (some (call.replacing snippet.fenced)))
  | none => .next

/-- What comes of an action that needs the text of an item, which may be held back. -/
def Call.withText (call : Call) (item : Item) (cancelled : Bool) (desk : Desk)
    (answer : String → Turn PasteAnswer) : Turn PasteAnswer × Bool × Desk :=
  match desk.text? call.task item with
  | (some text, desk) => (answer text, cancelled, desk)
  | (none, desk) => (.wait, cancelled, desk)

/-- Takes one action of a paste script. The flag tells whether the paste is cancelled, before
and after. -/
def PasteAction.perform (call : Call) (t : Transfer) (begun : Option Nat) (cancelled : Bool)
    (desk : Desk) : PasteAction → Turn PasteAnswer × Bool × Desk
  | .pause p =>
    let (turn, desk) := desk.pause call.task cancelled begun p
    (turn, cancelled, desk)
  | .report r =>
    let (turn, desk) := desk.report call t r
    (turn, cancelled, desk)
  | .cancel => (.next, true, desk)
  | .insert text => (.done (.ok (some (call.replacing text))), cancelled, desk)
  | .echo mime =>
    match t.get? mime with
    | some item =>
      call.withText item cancelled desk fun text => .done (.ok (some (call.replacing text)))
    | none => (.next, cancelled, desk)
  | .echoFile mime =>
    match (t.get? mime).bind Item.asFile? with
    | some file =>
      match desk.await? call.task file.data with
      | (some (.ok bytes), desk) =>
        let text := file.name ++ "|" ++ file.uri.getD "-" ++ "|" ++ hexOfBytes bytes
        (.done (.ok (some (call.replacing text))), cancelled, desk)
      | (some (.error failure), desk) => (.done (.error (.transfer failure)), cancelled, desk)
      | (none, desk) => (.wait, cancelled, desk)
    | none => (.next, cancelled, desk)
  | .answer edit => (.done (.ok (some edit)), cancelled, desk)
  | .insertSnippet =>
    if call.document.language = markdownLanguage then
      match t.get? snippetMime with
      | some item => call.withText item cancelled desk (snippetAnswer call)
      | none => (.next, cancelled, desk)
    else (.next, cancelled, desk)
  | .insertLinks =>
    match t.get? UriList.mime with
    | some item => call.withText item cancelled desk (linkAnswer call cancelled)
    | none => (.next, cancelled, desk)
  | .fail error => (.done (.error error), cancelled, desk)
  | .crash => (.crash, cancelled, desk)

/-- How far a paste script has come. -/
inductive Reply
  | answered (answer : PasteAnswer)
  /-- What is left of the script, and since when it has been waiting. -/
  | waiting (script : PasteScript) (since : Nat)
  | crashed
deriving Repr

/-- Runs a paste script until it waits or ends. -/
def PasteScript.run (call : Call) (t : Transfer) :
    PasteScript → Option Nat → Bool → Desk → Reply × Bool × Desk
  | [], _, cancelled, desk => (.answered (.ok none), cancelled, desk)
  | action :: rest, begun, cancelled, desk =>
    match action.perform call t begun cancelled desk with
    | (.next, cancelled, desk) => PasteScript.run call t rest none cancelled desk
    | (.wait, cancelled, desk) =>
      (.waiting (action :: rest) (begun.getD desk.now), cancelled, desk)
    | (.done answer, cancelled, desk) => (.answered answer, cancelled, desk)
    | (.crash, cancelled, desk) => (.crashed, cancelled, desk)

/-! ## Pastes -/

/-- How a paste that was taken over ends well. -/
inductive PasteOutcome
  /-- The edit of a provider was made. -/
  | applied (provider : String)
  /-- No provider answered with an edit, and the plain text was inserted. -/
  | plainText
  /-- No provider answered with an edit, and nothing was inserted. -/
  | noEdit
  | cancelled
deriving DecidableEq, Repr

/-- Why a paste that was taken over failed. -/
inductive PasteError
  | provider (name : String) (error : ProviderError)
  | apply (error : EditError)
deriving DecidableEq, Repr

def PasteError.message : PasteError → String
  | .provider name error => "paste provider " ++ name ++ " failed: " ++ error.message
  | .apply error => "failed to apply paste edit: " ++ error.message

/-- How far a paste has come. -/
inductive PasteStage
  /-- Taken over and not run yet. -/
  | held
  /-- About to run for the first time. -/
  | queued
  /-- Waiting for its copy. -/
  | waiting (since : Nat)
  /-- Asking a provider that waits, with the providers that come after it. -/
  | asking (provider : String) (script : PasteScript) (since : Nat)
      (rest : List (String × PasteScript))
  /-- Waiting for the plain text, with nobody left to ask. -/
  | fallingBack
  | ended (result : Except PasteError PasteOutcome)
  | crashed
deriving Repr

/-- A paste that was taken over, with everything that was fixed when it was. -/
structure PasteRun where
  editor : Nat
  document : Document
  selection : Selection
  /-- What the payload held, and after waiting what the copy added. -/
  transfer : Transfer
  /-- The copy it belongs to. -/
  copy : Option Nat
  /-- The handle of that copy. -/
  handle : Option Handle
  providers : List (String × PasteScript)
  plainTextFallback : Bool
  limit : Option Nat
  cancelled : Bool
  stage : PasteStage := .held
deriving Repr

namespace PasteRun

/-- Whether the paste belongs to a copy whose result it waits for. -/
def isCorrelated (p : PasteRun) : Bool := p.copy.isSome

/-- A paste as descriptions write it; the number of the editor is left out. -/
def describe (p : PasteRun) : String :=
  "PasteOperation \x7b editor: EditorId(#), uri: " ++ Text.quote p.document.uri
    ++ ", selection: Selection \x7b anchor: " ++ toString p.selection.anchor ++ ", active: "
    ++ toString p.selection.active ++ " \x7d, handle: "
    ++ describeOption (fun h => "ClipboardHandle(" ++ h.text ++ ")") p.handle ++ ", providers: ["
    ++ String.intercalate ", " (p.providers.map fun q => Text.quote q.1) ++ "], .. \x7d"

def call (p : PasteRun) (task : Task) (provider : String) : Call :=
  ⟨provider, task, p.document, p.selection⟩

/-- Makes an edit, which ends the paste. -/
def applyEdit (p : PasteRun) (task : Task) (edit : Edit) (outcome : PasteOutcome) (desk : Desk) :
    PasteStage × Desk :=
  let desk := desk.record task (.requested edit p.editor)
  match desk.editor.apply edit p.editor with
  | .ok editor => (.ended (.ok outcome), { desk with editor })
  | .error error => (.ended (.error (.apply error)), desk)

/-- What follows when no provider answered with an edit. -/
def fallBack (p : PasteRun) (task : Task) (desk : Desk) : PasteStage × Desk :=
  if p.plainTextFallback then
    match p.transfer.get? plainMime with
    | some item =>
      match desk.text? task item with
      | (some text, desk) =>
        p.applyEdit task [.replacing p.document.uri p.selection text] .plainText desk
      | (none, desk) => (.fallingBack, desk)
    | none => (.ended (.ok .noEdit), desk)
  else (.ended (.ok .noEdit), desk)

/-- What follows the answer of a provider; `next` asks the providers after it. -/
def heed (p : PasteRun) (task : Task) (provider : String)
    (next : Bool → Desk → PasteStage × Bool × Desk) (cancelled : Bool) (desk : Desk) :
    PasteAnswer → PasteStage × Bool × Desk
  | .ok none => next cancelled desk
  | .ok (some edit) =>
    -- An edit without replacements counts as no answer.
    if edit.isEmpty then next cancelled desk
    else
      let (stage, desk) := p.applyEdit task edit (.applied provider) desk
      (stage, cancelled, desk)
  | .error error =>
    -- A provider that stops because the paste was cancelled has not failed.
    if error = .cancelled ∧ cancelled then (.ended (.ok .cancelled), cancelled, desk)
    else (.ended (.error (.provider provider error)), cancelled, desk)

/-- What follows the reply of a provider; `next` asks the providers after it. -/
def follow (p : PasteRun) (task : Task) (provider : String) (rest : List (String × PasteScript))
    (next : Bool → Desk → PasteStage × Bool × Desk) :
    Reply × Bool × Desk → PasteStage × Bool × Desk
  | (.waiting script since, cancelled, desk) =>
    (.asking provider script since rest, cancelled, desk)
  | (.crashed, cancelled, desk) => (.crashed, cancelled, desk)
  | (.answered answer, cancelled, desk) =>
    p.heed task provider next cancelled (desk.record task (.answered provider answer cancelled))
      answer

/-- Asks the providers that are left, each unless the paste is cancelled by then, and falls
back on the plain text after the last. -/
def scan (p : PasteRun) (task : Task) :
    List (String × PasteScript) → Bool → Desk → PasteStage × Bool × Desk
  | [], cancelled, desk =>
    -- From here on cancelling has no effect.
    let (stage, desk) := p.fallBack task desk
    (stage, cancelled, desk)
  | (provider, script) :: rest, cancelled, desk =>
    if cancelled then (.ended (.ok .cancelled), cancelled, desk)
    else
      p.follow task provider rest (scan p task rest)
        (script.run (p.call task provider) p.transfer none cancelled
          (desk.note task provider (.asked p.document p.selection p.transfer)))

/-- The paste at a stage reached. -/
def settleAt (p : PasteRun) (state : PasteStage × Bool × Desk) : PasteRun × Desk :=
  ({ p with stage := state.1, cancelled := state.2.1 }, state.2.2)

/-- What providers see: the payload with the result of the copy merged in, and never the
reserved type. -/
def supply (p : PasteRun) (copied : Option Transfer) : PasteRun :=
  let merged := match copied with
    | some copied => p.transfer.merge copied
    | none => p.transfer
  { p with transfer := merged.delete handleMime }

/-- Asks all providers with what the copy supplied. -/
def askAll (p : PasteRun) (task : Task) (copied : Option Transfer) (desk : Desk) :
    PasteRun × Desk :=
  let p := p.supply copied
  p.settleAt (p.scan task p.providers p.cancelled desk)

/-- Goes on waiting for the copy, or stops. -/
def await (p : PasteRun) (task : Task) (result : Option (Option Transfer)) (since : Nat)
    (desk : Desk) : PasteRun × Desk :=
  match WaitEnd.now? p.cancelled result (hasExpired p.limit since desk.now) with
  | none => ({ p with stage := .waiting since }, desk)
  | some .cancelled => ({ p with stage := .ended (.ok .cancelled) }, desk)
  | some (.ready copied) => p.askAll task copied desk
  | some .timedOut => p.askAll task none desk

/-- Lets the paste run until it waits or has ended. `result` is what its copy has come to. -/
def poll (p : PasteRun) (index : Nat) (result : Option (Option Transfer)) (desk : Desk) :
    PasteRun × Desk :=
  let task := Task.paste index
  match p.stage with
  | .queued =>
    match p.copy with
    | none => p.askAll task none desk
    | some _ => p.await task result desk.now desk
  | .waiting since => p.await task result since desk
  | .asking provider script since rest =>
    p.settleAt <| p.follow task provider rest (p.scan task rest)
      (script.run (p.call task provider) p.transfer (some since) p.cancelled desk)
  | .fallingBack => p.settleAt (p.scan task [] p.cancelled desk)
  | _ => (p, desk)

def isWaiting (p : PasteRun) : Bool :=
  match p.stage with
  | .waiting _ => true
  | _ => false

def heedsCancellation (p : PasteRun) : Bool :=
  match p.stage with
  | .waiting _ => true
  | .asking _ (.pause .cancellation :: _) _ _ => true
  | _ => false

/-- Whether the clock at `now` wakes the paste. -/
def isDue (p : PasteRun) (now : Nat) : Bool :=
  match p.stage with
  | .waiting since => hasExpired p.limit since now
  | .asking _ (.pause (.sleep ms) :: _) since _ => since + ms ≤ now
  | _ => false

end PasteRun

end CopyPaste
