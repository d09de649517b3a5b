import CopyPaste.CommandLine.Arguments
import CopyPaste.Session.Transplant

/-!
# Commands

The two commands of the program, and the settings that can be given with either. A command line
that is not one of them is rejected before any file is read; then the configuration is read,
and then the session runs.
-/

namespace CopyPaste.CommandLine

/-- The settings on a command line. -/
structure Settings where
  config : Option String := none
  abortAll : Bool := false
  noFallback : Bool := false
  copyWaitTimeout : Option Nat := none
deriving DecidableEq, Repr

/-- What to do. -/
inductive Command
  | transplant (source : String) (start stop : Nat) (target : String) (offset : Nat)
  | pasteUris (target : String) (offset : Nat) (uris : List String)
deriving DecidableEq, Repr

/-- The files that a command reads. -/
def Command.paths : Command → List String
  | .transplant source _ _ target _ => [source, target]
  | .pasteUris target _ _ => [target]

/-! ## Reading a command line -/

/-- The settings, which may be given before the name of the command or after it. -/
def globals : Known where
  flags := ["abort-all", "no-fallback"]
  options := ["config", "copy-wait-timeout-ms"]

/-- What may follow the name of the command that transplants. -/
def transplantKnown : Known := { globals with options := globals.options ++ ["range", "at"] }

/-- What may follow the name of the command that pastes URIs. -/
def pasteUrisKnown : Known := { globals with options := globals.options ++ ["at"] }

/-- A number on the command line. -/
def number? (text : String) : Option Nat := (Text.readNumeral Text.wordLimit text.toList).toOption

/-- A path on the command line, which is not empty. -/
def path? (text : String) : Option String := if text.isEmpty then none else some text

/-- A value that may be absent but not wrong: the outer `none` is a wrong value. -/
def optional? (read : String → Option α) : Option String → Option (Option α)
  | none => some none
  | some text => (read text).map some

def settings? (a : Arguments) : Option Settings :=
  (optional? path? (a.option? "config")).bind fun config =>
    (optional? number? (a.option? "copy-wait-timeout-ms")).map fun copyWaitTimeout =>
      { config, copyWaitTimeout
        abortAll := a.flags.contains "abort-all"
        noFallback := a.flags.contains "no-fallback" }

/-- Settings given in two places; those after the name of the command win. -/
def Settings.override (before after : Settings) : Settings where
  config := after.config <|> before.config
  abortAll := after.abortAll || before.abortAll
  noFallback := after.noFallback || before.noFallback
  copyWaitTimeout := after.copyWaitTimeout <|> before.copyWaitTimeout

def offset? (a : Arguments) : Option Nat :=
  (optional? number? (a.option? "at")).map fun offset => offset.getD 0

def range? (a : Arguments) : Option (Nat × Nat) :=
  (a.option? "range").bind fun text => (parseRange text).toOption

def transplant? (a : Arguments) : Option Command :=
  match a.others with
  | [source, target] =>
    (path? source).bind fun source =>
      (path? target).bind fun target =>
        (range? a).bind fun range =>
          (offset? a).map fun offset => .transplant source range.1 range.2 target offset
  | _ => none

def pasteUris? (a : Arguments) : Option Command :=
  match a.others with
  | target :: uri :: uris =>
    (path? target).bind fun target =>
      (offset? a).map fun offset => .pasteUris target offset (uri :: uris)
  | _ => none

/-- A command with its settings, after the arguments of the command were sorted. -/
def withSettings? (before : Arguments) (after : Arguments) (command : Option Command) :
    Option (Settings × Command) :=
  (settings? before).bind fun before =>
    (settings? after).bind fun after =>
      command.map fun command => (before.override after, command)

/-- The command that a command line gives, with its settings. -/
def parse? (words : List String) : Option (Settings × Command) :=
  (sortUpToWord? globals {} words).bind fun sorted =>
    match sorted.2 with
    | "transplant" :: rest =>
      (sort? transplantKnown {} rest).bind fun a => withSettings? sorted.1 a (transplant? a)
    | "paste-uris" :: rest =>
      (sort? pasteUrisKnown {} rest).bind fun a => withSettings? sorted.1 a (pasteUris? a)
    | _ => none

/-! ## Running a command -/

/-- Why a command failed. -/
inductive CommandError
  | configUnreadable (path : String) (error : ReadError)
  | configInvalid
  | session (error : SessionError)
deriving DecidableEq, Repr

def CommandError.message : CommandError → String
  | .configUnreadable path error => "failed to read " ++ path ++ ": " ++ error.message
  | .configInvalid => "invalid config"
  | .session error => error.message

/-- How a failure is reported. -/
def CommandError.report (error : CommandError) : String := "clipweave: " ++ error.message

/-- What a command line comes to. -/
inductive Outcome
  /-- The command line was rejected. -/
  | usage
  | failed (error : CommandError)
  | printed (text : String)
deriving DecidableEq, Repr

/-- The number that the program ends with. -/
def Outcome.exitCode : Outcome → UInt32
  | .printed _ => 0
  | .failed _ => 1
  | .usage => 2

/-- The configuration that settings amount to. -/
def Settings.resolve (s : Settings) (files : Files) : Except CommandError Config := do
  let config ← match s.config with
    | none => .ok {}
    | some path =>
      match files.read path with
      | .error error => .error (.configUnreadable path error)
      | .ok text =>
        match Config.parse? text with
        | some config => .ok config
        | none => .error .configInvalid
  -- What the command line says wins over the file.
  .ok { copyFailure := if s.abortAll then .abortAll else config.copyFailure
        plainTextFallback := config.plainTextFallback && !s.noFallback
        copyWaitTimeout := s.copyWaitTimeout <|> config.copyWaitTimeout }

def Command.run (files : Files) (config : Config) (fresh : Handle) :
    Command → Except SessionError String
  | .transplant source start stop target offset =>
    Session.transplant files config source start stop target offset fresh
  | .pasteUris target offset uris => Session.pasteUris files config target offset uris fresh

def run (files : Files) (fresh : Handle) (words : List String) : Outcome :=
  match parse? words with
  | none => .usage
  | some (settings, command) =>
    match settings.resolve files with
    | .error error => .failed error
    | .ok config =>
      match command.run files config fresh with
      | .ok text => .printed text
      | .error error => .failed (.session error)

end CopyPaste.CommandLine
