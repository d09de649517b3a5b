import CopyPaste.CommandLine.Command

/-!
# The program

The outer layer: it reads the files that a command line names, draws the handle of the copy,
and prints what the command line comes to.
-/

namespace CopyPaste.Main

/-- Why the system refused to read a file. -/
def readErrorOf : IO.Error → ReadError
  | .noFileOrDirectory _ _ _ => .notFound
  | .inappropriateType _ code _ => if code = 21 then .isDirectory else .notDirectory
  | error => .other (toString error)

def readText (path : String) : IO (Except ReadError String) := do
  match ← (IO.FS.readBinFile path).toBaseIO with
  | .error error => return .error (readErrorOf error)
  | .ok content =>
    match String.fromUTF8? content with
    | some text => return .ok text
    | none => return .error .notText

/-- The files that a command line names, as they are now. -/
def readFiles (words : List String) : IO Files := do
  let paths := match CommandLine.parse? words with
    | some (settings, command) => settings.config.toList ++ command.paths
    | none => []
  let reads ← paths.mapM fun path => do return (path, ← readText path)
  return .ofReads (← IO.currentDir).toString reads

/-- A handle that nobody else has. -/
def freshHandle : IO Handle := do
  let bytes ← IO.getRandomBytes 16
  return .ofRandom (BitVec.ofNat 122 (bytes.foldl (fun n byte => n * 256 + byte.toNat) 0))

/-- What a rejected command line is answered with. -/
def usage : String :=
  "usage: clipweave [SETTINGS] transplant SOURCE TARGET --range START..END [--at OFFSET]\n"
    ++ "       clipweave [SETTINGS] paste-uris TARGET URI... [--at OFFSET]\n"
    ++ "settings: --config FILE, --abort-all, --no-fallback, --copy-wait-timeout-ms MS"

end CopyPaste.Main

open CopyPaste in
def main (words : List String) : IO UInt32 := do
  let outcome := CommandLine.run (← Main.readFiles words) (← Main.freshHandle) words
  match outcome with
  | .usage => IO.eprintln Main.usage
  | .failed error => IO.eprintln error.report
  | .printed text => IO.print text
  return outcome.exitCode
