/-!
# Searching text

Cutting a text at the first occurrence of a word. `append_of_splitOnce?` says that the two
parts and the word are the text again, and `splitOnce?_append` that a text is cut where the first
character of the word occurs first.
-/

namespace CopyPaste.Text

/-- What follows a word at the start of a text. -/
def dropStart? : List Char → List Char → Option (List Char)
  | [], cs => some cs
  | _ :: _, [] => none
  | w :: word, c :: cs => if w = c then dropStart? word cs else none

/-- The parts of a text before and after the first occurrence of a word. -/
def splitOnce? (word : List Char) : List Char → Option (List Char × List Char)
  | [] => (dropStart? word []).map fun rest => ([], rest)
  | c :: cs =>
    match dropStart? word (c :: cs) with
    | some rest => some ([], rest)
    | none => (splitOnce? word cs).map fun parts => (c :: parts.1, parts.2)

def occurs (word cs : List Char) : Bool := (splitOnce? word cs).isSome

theorem dropStart?_eq_some_iff {word cs rest : List Char} :
    dropStart? word cs = some rest ↔ cs = word ++ rest := by
  induction word generalizing cs with
  | nil => simp [dropStart?]
  | cons w word ih =>
    cases cs with
    | nil => simp [dropStart?]
    | cons c cs =>
      by_cases h : w = c
      · subst h; simp [dropStart?, ih]
      · simp [dropStart?, h, Ne.symm h]

theorem append_of_splitOnce? {word cs before after : List Char}
    (h : splitOnce? word cs = some (before, after)) : cs = before ++ word ++ after := by
  induction cs generalizing before with
  | nil =>
    obtain ⟨rest, hr, he⟩ := Option.map_eq_some_iff.1 h
    obtain ⟨rfl, rfl⟩ := Prod.mk.inj he
    simpa using dropStart?_eq_some_iff.1 hr
  | cons c cs ih =>
    rw [splitOnce?] at h
    split at h
    next rest hr =>
      simp only [Option.some.injEq, Prod.mk.injEq] at h
      obtain ⟨rfl, rfl⟩ := h
      simpa using dropStart?_eq_some_iff.1 hr
    next =>
      obtain ⟨⟨b, a⟩, hs, he⟩ := Option.map_eq_some_iff.1 h
      obtain ⟨rfl, rfl⟩ := Prod.mk.inj he
      simp [ih hs]

/-- A word whose first character does not occur before it is found where it stands. -/
theorem splitOnce?_append {w : Char} {before : List Char} (h : w ∉ before)
    (word after : List Char) :
    splitOnce? (w :: word) (before ++ (w :: word) ++ after) = some (before, after) := by
  induction before with
  | nil =>
    have hdrop : dropStart? (w :: word) (w :: (word ++ after)) = some after :=
      dropStart?_eq_some_iff.mpr rfl
    simp [splitOnce?, hdrop]
  | cons c before ih =>
    obtain ⟨hc, hbefore⟩ := not_or.mp (mt List.mem_cons.mpr h)
    have hdrop : dropStart? (w :: word) (c :: (before ++ (w :: word) ++ after)) = none := by
      simp [dropStart?, hc]
    rw [List.cons_append, List.cons_append, splitOnce?, hdrop, ih hbefore]
    rfl

end CopyPaste.Text
