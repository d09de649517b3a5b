import CopyPaste.Text.Search
import CopyPaste.Transfer.Basic

/-!
# From payload to transfer

Every interpretable item of a payload is set in turn, so of several items of one type the last
wins while the first fixes the position. Files without a file and unsupported items are left
out, and nothing is read.
-/

namespace CopyPaste

/-- The name of a file as a URI. What already carries a scheme is kept; a path that does not
begin with a slash is taken to name a drive. -/
def fileUri (path : String) : String :=
  if Text.occurs "://".toList path.toList then path
  else
    match path.toList with
    | '/' :: _ => "file://" ++ path
    | cs => "file:///" ++ String.ofList (cs.map fun c => if c = '\\' then '/' else c)

/-- The wording of the platform's failure to read a file. -/
def platformFailure (reason : String) : String := "file read failed: " ++ reason

/-- The content of a file as a transfer holds it. -/
def FileSource.outcome (f : FileSource) : Except ReadFailure Bytes :=
  f.content.mapError fun reason => ⟨f.name, platformFailure reason⟩

namespace Transfer

/-- An item that can be interpreted, with new identities for what is still to be read. -/
def interpret (reads : Reads) : PayloadItem → Option (String × Item × Reads)
  | .string mime (.inline value) =>
    let (value, reads) := reads.defer value false
    some (mime, .text value, reads)
  | .string mime (.deferred source) =>
    let (value, reads) := reads.defer source.value true source.gate
    some (mime, .text value, reads)
  | .file mime (some source) =>
    let (data, reads) := reads.defer source.outcome (!source.inMemory) source.gate
    some (mime, .file ⟨source.name, source.path.map fileUri, data⟩, reads)
  | .file _ none => none
  | .unsupported _ => none

/-- Sets an item if it can be interpreted. -/
def accept (state : Transfer × Reads) (item : PayloadItem) : Transfer × Reads :=
  match interpret state.2 item with
  | some (mime, item, reads) => (state.1.set mime item, reads)
  | none => state

def ofPayload (payload : Payload) (reads : Reads) : Transfer × Reads :=
  payload.items.foldl accept ({}, reads)

end Transfer

end CopyPaste
