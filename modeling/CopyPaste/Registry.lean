import CopyPaste.Pattern.Reader
import CopyPaste.Provider
import CopyPaste.Snippet

/-!
# The registry

Providers are registered for the documents that a selector matches. For a document they are
ordered by how well their selectors match it, and among equals the one registered last comes
first.

* `Selector.score` — how well a selector matches a document;
* `Registry.ordered` — the matching providers in order of priority;
* `Registry.perform`, `Registry.after` — what one call does and answers, and what a run of calls
  does.
-/

namespace CopyPaste

/-! ## Selectors -/

/-- Which documents a provider is for. Every field that is set has to match, and `*` matches
any language or scheme. -/
structure Selector where
  language : Option String := none
  scheme : Option String := none
  pattern : Option Pattern := none
deriving DecidableEq, Repr

namespace Selector

def any : Selector := { language := some "*" }

def ofLanguage (language : String) : Selector := { language := some language }

/-- How well a wanted word matches: 10 when it is the word, 5 when any will do, 0 otherwise. -/
def wordScore (wanted actual : String) : Nat :=
  if wanted = actual then 10 else if wanted = "*" then 5 else 0

/-- The score after a field that may be set; `none` once a set field has failed. -/
def addWord? (score : Nat) (wanted : Option String) (actual : String) : Option Nat :=
  match wanted with
  | none => some score
  | some wanted =>
    if wordScore wanted actual = 0 then none else some (max score (wordScore wanted actual))

/-- The score after the pattern. -/
def addPattern? (score : Nat) (pattern : Option Pattern) (uri : String) : Option Nat :=
  match pattern with
  | none => some score
  | some p => if p.found uri.toList then some 10 else none

/-- How well a selector matches a document; 0 is no match. -/
def score (s : Selector) (d : Document) : Nat :=
  ((addWord? 0 s.language d.language).bind fun score =>
    (addWord? score s.scheme d.scheme).bind fun score =>
      addPattern? score s.pattern d.uri).getD 0

end Selector

/-! ## Registrations -/

/-- One registration. -/
structure Registration where
  id : Nat
  selector : Selector
  provider : Provider
deriving DecidableEq, Repr

/-- The registrations in force, and the number of the next one. -/
structure Registry where
  entries : List Registration := []
  next : Nat := 0
deriving DecidableEq, Repr

namespace Registry

/-- Registers a provider under a new number. Numbers have 64 bits, so that after the last of them
counting begins anew. -/
def register (r : Registry) (selector : Selector) (provider : Provider) : Registry :=
  { entries := r.entries ++ [⟨r.next, selector, provider⟩], next := (r.next + 1) % UInt64.size }

def registerDefaults (r : Registry) : Registry :=
  (r.register .any .sourceSnippet).register (.ofLanguage markdownLanguage) .uriListLinks

def deregister (r : Registry) (id : Nat) : Registry :=
  { r with entries := r.entries.filter fun e => e.id != id }

def isRegistered (r : Registry) (id : Nat) : Bool := r.entries.any fun e => e.id == id

def size (r : Registry) : Nat := r.entries.length

/-- Whether the first of two registrations comes before the second for a document. -/
def precedes (d : Document) (a b : Registration) : Bool :=
  let scoreA := a.selector.score d
  let scoreB := b.selector.score d
  scoreB < scoreA || (scoreA == scoreB && b.id ≤ a.id)

/-- The registrations that match a document, in order of priority. -/
def matching (r : Registry) (d : Document) : List Registration :=
  (r.entries.filter fun e => e.selector.score d != 0).mergeSort (precedes d)

/-- The providers for a document, in order of priority. -/
def ordered (r : Registry) (d : Document) : List Provider := (r.matching d).map (·.provider)

/-- The providers for a document that have a capability. -/
def orderedWith (r : Registry) (d : Document) (c : Capability) : List Provider :=
  (r.ordered d).filter (·.supports c)

def copiers (r : Registry) (d : Document) : List (String × CopyScript) :=
  (r.orderedWith d .copyData).filterMap (·.copier?)

def pasters (r : Registry) (d : Document) : List (String × PasteScript) :=
  (r.orderedWith d .pasteEdits).filterMap (·.paster?)

end Registry

/-! ## Calls -/

/-- A call that changes a registry. -/
inductive RegistryCall
  | register (selector : Selector) (provider : Provider)
  | deregister (id : Nat)
deriving DecidableEq, Repr

/-- What the caller learns. -/
inductive RegistryAnswer
  /-- The number of the new registration. -/
  | registered (id : Nat)
  /-- Whether there was anything to remove. -/
  | deregistered (removed : Bool)
deriving DecidableEq, Repr

namespace Registry

/-- The registry after a call, and the answer to it. -/
def perform (r : Registry) : RegistryCall → RegistryAnswer × Registry
  | .register selector provider => (.registered r.next, r.register selector provider)
  | .deregister id => (.deregistered ((r.deregister id).size != r.size), r.deregister id)

/-- The registry after a run of calls. -/
def after (r : Registry) (calls : List RegistryCall) : Registry :=
  calls.foldl (fun r call => (r.perform call).2) r

@[simp] theorem after_nil (r : Registry) : r.after [] = r := rfl

theorem after_concat (r : Registry) (calls : List RegistryCall) (call : RegistryCall) :
    r.after (calls ++ [call]) = ((r.after calls).perform call).2 := by
  simp [after, List.foldl_append]

end Registry

end CopyPaste
