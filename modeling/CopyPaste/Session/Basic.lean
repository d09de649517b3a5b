import CopyPaste.Coordinator.Basic
import CopyPaste.Files.Tree

/-!
# Sessions

A session plays the part of the platform: it opens files in the editor of a coordinator with
the built-in providers, and sends it the copy and paste events that a user would cause. A paste
that is declined inserts the plain text, as every platform does.

A copy is only started; when its providers have their turn is up to the runtime, which may well let
the paste go first. What the runtime does while a session waits for a paste is its schedule.
-/

namespace CopyPaste

/-! ## Schedules -/

/-- What the runtime does next: a task that is ready has its turn, whoever stands in the queue
before it, or a millisecond passes. -/
inductive Beat
  | turn (task : Task)
  | tick
deriving DecidableEq, Repr

namespace Coordinator

def beat (m : Coordinator) : Beat → Coordinator
  | .turn task => m.pollReady task
  | .tick => m.tick

/-- The coordinator after the beats of a schedule. -/
def pass (m : Coordinator) (schedule : List Beat) : Coordinator := schedule.foldl beat m

end Coordinator

/-! ## Sessions -/

/-- Why a step of a session failed. -/
inductive SessionError
  | read (path : String) (error : ReadError)
  | notOpen
  | range (start stop : Nat) (uri : String)
  | copyDeclined (reason : DeclineReason)
  | paste (error : PasteError)
  | apply (error : EditError)
  /-- A provider waits for something outside the session; the built-in ones never do. -/
  | unfinished
deriving DecidableEq, Repr

def SessionError.message : SessionError → String
  | .read path error => "failed to read " ++ path ++ ": " ++ error.message
  | .notOpen => "no document is open"
  | .range start stop uri =>
    "range " ++ toString start ++ ".." ++ toString stop ++ " is not valid in " ++ uri
  | .copyDeclined reason => "copy was declined: " ++ reason.name
  | .paste error => error.message
  | .apply error => "default paste failed: " ++ error.message
  | .unfinished => "the paste did not finish"

/-- How a paste was carried out. -/
inductive PasteReport
  /-- The coordinator declined and the plain text was inserted, if there was any. -/
  | declined (reason : DeclineReason)
  /-- The coordinator took over. -/
  | coordinated (outcome : PasteOutcome)
deriving DecidableEq, Repr

/-- A session. -/
structure Session where
  coordinator : Coordinator
deriving Repr

namespace Session

/-- A session in which nothing is open. -/
def new (config : Config) : Session := ⟨{ registry := Registry.registerDefaults {}, config }⟩

def document? (s : Session) : Option Document := s.coordinator.editor.document

def text (s : Session) : Except SessionError String :=
  match s.coordinator.editor.text? with
  | some text => .ok text
  | none => .error .notOpen

def mapEditor (s : Session) (f : Editor → Editor) : Session := ⟨s.coordinator.mapEditor f⟩

def pass (s : Session) (schedule : List Beat) : Session := ⟨s.coordinator.pass schedule⟩

/-! ## Opening -/

/-- A file as a document. -/
def load (files : Files) (path : String) : Except SessionError Document :=
  match files.read path with
  | .ok text =>
    .ok { uri := fileUri (Path.absolute files.directory path), language := Path.languageOf path
          text }
  | .error error => .error (.read path error)

def openFile (s : Session) (files : Files) (path : String) : Except SessionError Session :=
  (load files path).map fun d => s.mapEditor (·.openDocument d)

/-! ## Copying -/

/-- Sends a copy event for the text between two offsets. The providers are ready to run then. -/
def copy (s : Session) (start stop : Nat) (fresh : Handle) :
    Except SessionError Payload × Session :=
  match s.document? with
  | none => (.error .notOpen, s)
  | some d =>
    let selection : Selection := ⟨start, stop⟩
    match d.slice? selection with
    | none => (.error (.range start stop d.uri), s)
    | some text =>
      let payload := Payload.set {} plainMime text
      let (outcome, payload, m) := (s.mapEditor (·.select selection)).coordinator.copy payload fresh
      match outcome with
      | .declined reason => (.error (.copyDeclined reason), ⟨m⟩)
      | .started _ => (.ok (payload.getD {}), ⟨m⟩)

/-! ## Pasting -/

/-- What the platform does with a declined paste: it inserts the plain text. -/
def pastePlain (s : Session) (d : Document) (selection : Selection) (payload : Payload)
    (reason : DeclineReason) : Except SessionError PasteReport × Session :=
  match payload.get? plainMime with
  | none => (.ok (.declined reason), s)
  | some text =>
    let editor := s.coordinator.editor
    match editor.apply [.replacing d.uri selection text] editor.id with
    | .ok editor => (.ok (.declined reason), s.mapEditor fun _ => editor)
    | .error error => (.error (.apply error), s)

/-- Sends a paste event with the caret at an offset, and waits for the paste: the runtime keeps to
the schedule, and after it to the order of the queue. -/
def paste (s : Session) (offset : Nat) (payload : Payload) (schedule : List Beat := []) :
    Except SessionError PasteReport × Session :=
  match s.document? with
  | none => (.error .notOpen, s)
  | some d =>
    let selection := Selection.caret offset
    match d.slice? selection with
    | none => (.error (.range offset offset d.uri), s)
    | some _ =>
      let s := s.mapEditor (·.select selection)
      -- Nobody cancels the paste of a session.
      match s.coordinator.paste payload false with
      | (.declined reason, m) => pastePlain ⟨m⟩ d selection payload reason
      | (.taken index, m) =>
        let m := ((m.run index).pass schedule).settle
        match m.stage? index with
        | some (.ended (.ok outcome)) => (.ok (.coordinated outcome), ⟨m⟩)
        | some (.ended (.error error)) => (.error (.paste error), ⟨m⟩)
        | _ => (.error .unfinished, ⟨m⟩)

end Session

end CopyPaste
