import CopyPaste.Config.Statement

/-!
# Configuration

The three settings of a coordinator, each with a default, and the file they are read from. The
failure policy is named by a string, or by the only key of a table with nothing under it. An
unknown key, a key given twice or a value of the wrong kind makes the whole file invalid.
-/

namespace CopyPaste

/-- What a failing copy provider does to the data of the others. -/
inductive FailurePolicy
  /-- Only its own data is dropped. -/
  | isolate
  /-- All data of the copy is dropped. -/
  | abortAll
deriving DecidableEq, Repr

def FailurePolicy.name : FailurePolicy → String
  | .isolate => "isolate"
  | .abortAll => "abort_all"

def FailurePolicy.ofName? (name : String) : Option FailurePolicy :=
  if name = "isolate" then some .isolate
  else if name = "abort_all" then some .abortAll
  else none

/-- The settings of a coordinator. -/
structure Config where
  copyFailure : FailurePolicy := .isolate
  /-- Whether a paste that no provider handled inserts the plain text. -/
  plainTextFallback : Bool := true
  /-- For how many milliseconds a paste waits for its copy; without a limit if absent. -/
  copyWaitTimeout : Option Nat := none
deriving DecidableEq, Repr

namespace Config

/-! ## Settings -/

/-- What a definition sets. -/
inductive Setting
  | copyFailure (policy : FailurePolicy)
  /-- The table that names the policy was opened. -/
  | policyTable
  | plainTextFallback (enabled : Bool)
  | copyWaitTimeout (ms : Nat)
deriving DecidableEq, Repr

/-- What a key with a value sets. -/
def settingOf? (key : String) : Value → Option Setting
  | .string name =>
    if key = "copy_failure" then (FailurePolicy.ofName? name).map .copyFailure else none
  | .choice name =>
    if key = "copy_failure" then (FailurePolicy.ofName? name).map .copyFailure else none
  | .boolean enabled =>
    if key = "plain_text_fallback" then some (.plainTextFallback enabled) else none
  | .integer (.ofNat ms) =>
    if key = "copy_wait_timeout_ms" then some (.copyWaitTimeout ms) else none
  | _ => none

/-- What a definition sets, if it is one that a configuration may hold. -/
def setting? : Definition → Option Setting
  | ([key], some value) => settingOf? key value
  | ([table], none) => if table = "copy_failure" then some .policyTable else none
  -- The table as dotted keys or a header write it.
  | ([table, name], value) =>
    if table = "copy_failure" ∧ (value = none ∨ value = some .nothing) then
      (FailurePolicy.ofName? name).map .copyFailure
    else none
  | _ => none

/-- Whether a setting names the policy. -/
def Setting.isPolicy : Setting → Bool
  | .copyFailure _ => true
  | _ => false

/-- Whether the policy is named at most once, and once if its table was opened. -/
def namesPolicyOnce (settings : List Setting) : Bool :=
  match settings.filter Setting.isPolicy with
  | [] => !settings.contains .policyTable
  | [_] => true
  | _ => false

/-- The configuration with one setting changed. -/
def assign (config : Config) : Setting → Config
  | .copyFailure copyFailure => { config with copyFailure }
  | .policyTable => config
  | .plainTextFallback plainTextFallback => { config with plainTextFallback }
  | .copyWaitTimeout ms => { config with copyWaitTimeout := some ms }

/-- Whether some element occurs twice. -/
def repeats : List (List String) → Bool
  | [] => false
  | path :: rest => rest.contains path || repeats rest

/-- The configuration that definitions amount to. -/
def ofDefinitions? (defined : List Definition) : Option Config :=
  if repeats (defined.map Prod.fst) then none
  else
    (defined.mapM setting?).bind fun settings =>
      if namesPolicyOnce settings then some (settings.foldl assign {}) else none

/-- The configuration of a file, which may begin with a byte order mark. -/
def parse? (text : String) : Option Config :=
  let cs := match text.toList with
    | '\uFEFF' :: rest => rest
    | cs => cs
  (readStatements? (cs.length + 1) cs).bind fun statements =>
    ofDefinitions? (definitions [] statements)

end Config

end CopyPaste
