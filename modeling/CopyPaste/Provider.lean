import CopyPaste.Document
import CopyPaste.Transfer.Basic

/-!
# Providers

A provider takes part in copying, in pasting, or in both. What it does is a script: a list of
actions that run in order and may pause in between.

* A **copy script** changes the transfer of the copy. When the list ends it has succeeded.
* A **paste script** answers with an edit, or with nothing when the list ends.

The actions of the built-in providers stand beside those that any provider may use.
-/

namespace CopyPaste

/-- Why a provider failed. -/
inductive ProviderError
  | cancelled
  | transfer (failure : ReadFailure)
  | failed (message : String)
deriving DecidableEq, Repr

def ProviderError.message : ProviderError → String
  | .cancelled => "cancelled"
  | .transfer failure => "transfer: " ++ failure.message
  | .failed message => message

/-! ## Actions -/

/-- What a script can wait for. -/
inductive Pause
  /-- A gate that somebody opens. -/
  | gate (name : String)
  /-- A number of milliseconds. -/
  | sleep (ms : Nat)
  /-- The cancellation of the copy or paste the script runs for. -/
  | cancellation
deriving DecidableEq, Repr

/-- What a script can report about its call. -/
inductive Report
  | text (text : String)
  /-- The document and the selection it was given. -/
  | arguments
  /-- The types in its transfer. -/
  | keys
  /-- The items of its transfer in full. -/
  | items
deriving DecidableEq, Repr

/-- One step of a copy script. -/
inductive CopyAction
  | pause (p : Pause)
  | report (r : Report)
  | set (mime text : String)
  | setFile (mime name : String) (uri : Option String) (content : Bytes)
  /-- Sets the selected text, or `<none>` when the selection is unusable. -/
  | setSlice (mime : String)
  | delete (mime : String)
  /-- Sets the selected text with its origin, or fails when the selection is unusable. -/
  | setSnippet
  | fail (error : ProviderError)
  /-- Ends the whole copy. -/
  | crash
deriving DecidableEq, Repr

/-- One step of a paste script. -/
inductive PasteAction
  | pause (p : Pause)
  | report (r : Report)
  /-- Cancels the paste and goes on. -/
  | cancel
  /-- Answers with the replacement of the selection. -/
  | insert (text : String)
  /-- Answers with the text of an item in place of the selection, if there is one. -/
  | echo (mime : String)
  /-- Answers with the name, the origin and the content of a file, if there is one. -/
  | echoFile (mime : String)
  /-- Answers with an edit. -/
  | answer (edit : Edit)
  /-- Answers with the snippet in the transfer as a fenced block, in a markdown document that
  it was not copied from. -/
  | insertSnippet
  /-- Answers with links to the URIs in the transfer. -/
  | insertLinks
  | fail (error : ProviderError)
  /-- Ends the whole paste. -/
  | crash
deriving DecidableEq, Repr

/-- The script of a copy provider. -/
abbrev CopyScript := List CopyAction

/-- The script of a paste provider. -/
abbrev PasteScript := List PasteAction

/-! ## Providers -/

/-- What a provider can do. -/
inductive Capability
  | copyData
  | pasteEdits
deriving DecidableEq, Repr

/-- A named provider. -/
structure Provider where
  name : String
  copy : Option CopyScript := none
  paste : Option PasteScript := none
deriving DecidableEq, Repr

namespace Provider

def supports (p : Provider) : Capability → Bool
  | .copyData => p.copy.isSome
  | .pasteEdits => p.paste.isSome

/-- The copy provider in a provider, with its name. -/
def copier? (p : Provider) : Option (String × CopyScript) :=
  p.copy.map fun script => (p.name, script)

/-- The paste provider in a provider, with its name. -/
def paster? (p : Provider) : Option (String × PasteScript) :=
  p.paste.map fun script => (p.name, script)

def describe (p : Provider) : String :=
  "Provider \x7b name: " ++ Text.quote p.name ++ ", copy: " ++ toString p.copy.isSome ++ ", paste: "
    ++ toString p.paste.isSome ++ " \x7d"

/-- The provider that carries source snippets from one document to another. -/
def sourceSnippet : Provider :=
  { name := "source-snippet", copy := some [.setSnippet], paste := some [.insertSnippet] }

/-- The provider that pastes URI lists as links. -/
def uriListLinks : Provider :=
  { name := "markdown-uri-list", paste := some [.insertLinks] }

end Provider

end CopyPaste
