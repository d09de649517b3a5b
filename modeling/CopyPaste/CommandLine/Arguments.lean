/-!
# Arguments

Sorting the words of a command line into flags, options with a value, and the rest. An option
takes its value from the next word or from behind an equals sign; a word that begins with a
hyphen is no value; after a double hyphen nothing is an option. Each flag and option may be
given once.
-/

namespace CopyPaste.CommandLine

/-- Which flags and options there are. -/
structure Known where
  flags : List String
  options : List String

/-- The words of a command line, sorted. -/
structure Arguments where
  flags : List String := []
  options : List (String × String) := []
  others : List String := []
deriving DecidableEq, Repr

namespace Arguments

/-- The value of an option. -/
def option? (a : Arguments) (name : String) : Option String := a.options.lookup name

/-- Adds a flag that was not given yet. -/
def addFlag? (a : Arguments) (name : String) : Option Arguments :=
  if a.flags.contains name then none else some { a with flags := name :: a.flags }

/-- Adds an option that was not given yet. -/
def addOption? (a : Arguments) (name value : String) : Option Arguments :=
  if (a.option? name).isSome then none else some { a with options := (name, value) :: a.options }

/-- Adds a word that is neither. -/
def addOther (a : Arguments) (word : String) : Arguments := { a with others := a.others ++ [word] }

end Arguments

/-- A word as the command line has it. -/
inductive Word
  /-- Two hyphens alone. -/
  | escape
  /-- Two hyphens, a name and, behind an equals sign, a value. -/
  | long (name : String) (value : Option String)
  /-- One hyphen and more. -/
  | short
  | other (text : String)
deriving DecidableEq, Repr

/-- The kind of a word. -/
def Word.ofString (text : String) : Word :=
  match text.toList with
  | ['-', '-'] => .escape
  | '-' :: '-' :: rest =>
    match rest.dropWhile (· != '=') with
    | [] => .long (String.ofList rest) none
    | _ :: value => .long (String.ofList (rest.takeWhile (· != '='))) (some (String.ofList value))
  | '-' :: _ :: _ => .short
  | _ => .other text

/-- Sorts words up to the first that is neither flag nor option, or to the end. What is left
begins with that word. -/
def sortUpToWord? (known : Known) : Arguments → List String → Option (Arguments × List String)
  | a, [] => some (a, [])
  | a, word :: rest =>
    match Word.ofString word with
    | .escape => none
    | .short => none
    | .other _ => some (a, word :: rest)
    | .long name (some value) =>
      if known.options.contains name then
        (a.addOption? name value).bind fun a => sortUpToWord? known a rest
      else none
    | .long name none =>
      if known.flags.contains name then
        (a.addFlag? name).bind fun a => sortUpToWord? known a rest
      else if known.options.contains name then
        match rest with
        | [] => none
        | value :: rest =>
          match Word.ofString value with
          | .other value => (a.addOption? name value).bind fun a => sortUpToWord? known a rest
          | _ => none
      else none

/-- Sorts all words. -/
def sort? (known : Known) : Arguments → List String → Option Arguments
  | a, [] => some a
  | a, word :: rest =>
    match Word.ofString word with
    | .escape => some (rest.foldl Arguments.addOther a)
    | .short => none
    | .other text => sort? known (a.addOther text) rest
    | .long name (some value) =>
      if known.options.contains name then
        (a.addOption? name value).bind fun a => sort? known a rest
      else none
    | .long name none =>
      if known.flags.contains name then (a.addFlag? name).bind fun a => sort? known a rest
      else if known.options.contains name then
        match rest with
        | [] => none
        | value :: rest =>
          match Word.ofString value with
          | .other value => (a.addOption? name value).bind fun a => sort? known a rest
          | _ => none
      else none

end CopyPaste.CommandLine
