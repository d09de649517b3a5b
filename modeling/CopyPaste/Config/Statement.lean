import CopyPaste.Config.Value

/-!
# Statements of a configuration file

A file is a list of lines, each of which makes a setting, names the table that the settings
after it belong to, or says nothing. What a file defines is a list of full paths, each with the
value it was given; a table that was opened is defined too, so that a path defined twice is
always a fault.
-/

namespace CopyPaste.Config

/-- What one line says. -/
inductive Statement
  | setting (path : List String) (value : Value)
  /-- The settings that follow belong to the table with this path. -/
  | header (path : List String)
deriving DecidableEq, Repr

/-! ## Lines -/

/-- The path between brackets, after the opening one. -/
def readHeader? (cs : List Char) : Option (Statement × List Char) :=
  (readPath? (cs.length + 1) cs).bind fun path =>
    match path.2 with
    | ']' :: rest => some (.header path.1, rest)
    | _ => none

/-- A path, an equals sign and a value. -/
def readSetting? (cs : List Char) : Option (Statement × List Char) :=
  (readPath? (cs.length + 1) cs).bind fun path =>
    (skipEquals? path.2).bind fun rest =>
      (readValue? rest).map fun value => (.setting path.1 value.1, value.2)

/-- The statement that begins a line, if there is one, and what follows it. -/
def readStatement? (cs : List Char) : Option (Option Statement × List Char) :=
  match skipGap cs with
  | [] => some (none, [])
  | c :: rest =>
    if c = '#' ∨ c = '\n' ∨ c = '\r' then some (none, c :: rest)
    else if c = '[' then (readHeader? rest).map fun s => (some s.1, s.2)
    else (readSetting? (c :: rest)).map fun s => (some s.1, s.2)

/-- The statements of a text, in at most `fuel` lines. -/
def readStatements? : Nat → List Char → Option (List Statement)
  | _, [] => some []
  | 0, _ => none
  | fuel + 1, cs =>
    (readStatement? cs).bind fun statement =>
      (skipRest? statement.2).bind fun rest =>
        (readStatements? fuel rest).map fun others => statement.1.toList ++ others

/-! ## Definitions -/

/-- A path from the root with its value; a table that was opened has none. -/
abbrev Definition := List String × Option Value

/-- The tables that a path with dots opens below a table. -/
def opened (table : List String) : List String → List Definition
  | key :: next :: rest =>
    (table ++ [key], none) :: opened (table ++ [key]) (next :: rest)
  | _ => []

/-- What statements define, those at the start in the given table. -/
def definitions (table : List String) : List Statement → List Definition
  | [] => []
  | .header path :: rest => (path, none) :: definitions path rest
  | .setting path value :: rest =>
    opened table path ++ (table ++ path, some value) :: definitions table rest

end CopyPaste.Config
