import CopyPaste.Editor

/-!
# One replacement

What becomes of an edit that consists of a single replacement, which is what a paste comes to
unless a provider answers with something else.

* **`apply_singleton`** — the reasons to refuse it, and what it changes;
* `Exchanges`, `Refuses` — the same in terms of the text around the range;
* **`apply_replacing`** — the replacement of what a selection covers.
-/

namespace CopyPaste.Editor

theorem slice?_isNone (text : String) (start stop : Nat) :
    (Text.slice? text start stop).isNone = (Text.cut? text.toList start stop).isNone := by
  unfold Text.slice?
  cases Text.cut? text.toList start stop <;> rfl

theorem refusal?_singleton (d : Document) (r : TextEdit) : refusal? d [r] =
    if r.uri ≠ d.uri then some (.unknownDocument r.uri)
    else if (Text.cut? d.text.toList r.start r.stop).isNone then
      some (.invalidRange r.start r.stop)
    else none := by
  unfold refusal?
  rw [List.mergeSort_singleton]
  by_cases huri : r.uri = d.uri
  · cases hcut : (Text.cut? d.text.toList r.start r.stop).isNone <;>
      simp [huri, slice?_isNone, hcut, overlaps]
  · simp [huri]

/-- **One replacement is made, or refused for one of three reasons.** It exchanges what stands
in its range and leaves the caret behind the new text. -/
theorem apply_singleton (e : Editor) (r : TextEdit) : e.apply [r] e.id =
    match e.document with
    | none => .error .noDocument
    | some d =>
      if r.uri ≠ d.uri then .error (.unknownDocument r.uri)
      else
        match Text.cut? d.text.toList r.start r.stop with
        | none => .error (.invalidRange r.start r.stop)
        | some (before, _, after) =>
          .ok { e with
            document := some (d.withText (String.ofList (before ++ r.text.toList ++ after)))
            selection := some (.caret (r.start + r.text.utf8ByteSize)) } := by
  unfold apply
  rw [if_neg (by simp)]
  cases e.document with
  | none => rfl
  | some d =>
      dsimp only
      rw [if_neg (by simp), refusal?_singleton, List.mergeSort_singleton]
      by_cases huri : r.uri ≠ d.uri
      · rw [if_pos huri, if_pos huri]
      · rw [if_neg huri, if_neg huri]
        cases hcut : Text.cut? d.text.toList r.start r.stop with
        | none => rfl
        | some parts => simp [replaceAll?, Text.replace?, hcut, caretAfter]

theorem id_of_apply {e e' : Editor} {edit : Edit} {target : Nat}
    (h : e.apply edit target = .ok e') : e'.id = e.id := by
  unfold apply at h
  split at h
  · simp at h
  · split at h
    · simp at h
    · split at h
      · obtain rfl := Except.ok.inj h
        rfl
      · split at h
        · simp at h
        · dsimp only at h
          split at h
          · simp at h
          · obtain rfl := Except.ok.inj h
            rfl

/-! ## The text around the range -/

theorem width_eq (cs : List Char) : Text.width cs = (String.ofList cs).utf8ByteSize := by
  induction cs with
  | nil => rfl
  | cons c cs ih =>
      rw [Text.width_cons, ih, String.ofList_cons, String.utf8ByteSize_append,
        String.utf8ByteSize_singleton]

/-- One editor becomes another by exchanging, in the document of a name, the text that a selection
covers for a new one. Everything before and after that text stays, the language does, and the caret
stands right behind the new text. -/
def Exchanges (e e' : Editor) (uri : String) (s : Selection) (removed text : String) : Prop :=
  ∃ shown left right, e.document = some shown ∧ shown.uri = uri ∧
    shown.text = left ++ removed ++ right ∧
    s.start = left.utf8ByteSize ∧ s.stop = (left ++ removed).utf8ByteSize ∧
    e' = { e with
      document := some { shown with
        text := left ++ text ++ right, version := shown.version + 1 }
      selection := some (.caret (left ++ text).utf8ByteSize) }

/-- Why an editor does not exchange the text that a selection covers in the document of a name. -/
inductive Refuses (e : Editor) (uri : String) (s : Selection) : EditError → Prop
  | nothingShown (hshown : e.document = none) : Refuses e uri s .noDocument
  | otherDocument (shown : Document) (hshown : e.document = some shown) (huri : shown.uri ≠ uri) :
      Refuses e uri s (.unknownDocument uri)
  | unusable (shown : Document) (hshown : e.document = some shown) (huri : shown.uri = uri)
      (hslice : shown.slice? s = none) : Refuses e uri s (.invalidRange s.start s.stop)

/-- What is removed is what the selection covers in the document shown. -/
theorem Exchanges.slice? {e e' : Editor} {uri : String} {s : Selection} {removed text : String}
    (h : e.Exchanges e' uri s removed text) {shown : Document} (hshown : e.document = some shown) :
    shown.slice? s = some removed := by
  obtain ⟨shown', left, right, hshown', -, htext, hstart, hstop, -⟩ := h
  obtain rfl : shown = shown' := Option.some.inj (hshown.symm.trans hshown')
  have hcut : Text.cut? shown.text.toList s.start s.stop =
      some (left.toList, removed.toList, right.toList) := by
    rw [Text.cut?_eq_some_iff, htext, hstart, hstop]
    simp [width_eq]
  unfold Document.slice? Text.slice?
  rw [hcut, Option.map_some, String.ofList_toList]

/-- **The text that a selection covers is exchanged, or the edit is refused.** -/
theorem apply_replacing (e : Editor) (uri : String) (s : Selection) (text : String) :
    (∃ e' removed, e.apply [.replacing uri s text] e.id = .ok e' ∧
        e.Exchanges e' uri s removed text) ∨
      ∃ error, e.apply [.replacing uri s text] e.id = .error error ∧ e.Refuses uri s error := by
  have happly := e.apply_singleton (.replacing uri s text)
  simp only [TextEdit.replacing] at happly ⊢
  cases hshown : e.document with
  | none =>
      rw [hshown] at happly
      exact .inr ⟨_, happly, .nothingShown hshown⟩
  | some shown =>
      rw [hshown] at happly
      by_cases huri : shown.uri = uri
      · cases hcut : Text.cut? shown.text.toList s.start s.stop with
        | none =>
            simp only [huri, ne_eq, not_true_eq_false, if_false, hcut] at happly
            refine .inr ⟨_, happly, .unusable shown hshown huri ?_⟩
            unfold Document.slice? Text.slice?
            rw [hcut, Option.map_none]
        | some parts =>
            obtain ⟨left, removed, right⟩ := parts
            obtain ⟨htext, hstart, hstop⟩ := Text.cut?_eq_some_iff.mp hcut
            simp only [huri, ne_eq, not_true_eq_false, if_false, hcut] at happly
            refine .inl ⟨_, String.ofList removed, happly, shown, String.ofList left,
              String.ofList right, hshown, huri, ?_, ?_, ?_, ?_⟩
            · rw [← String.ofList_append, ← String.ofList_append, ← htext, String.ofList_toList]
            · rw [hstart, width_eq]
            · rw [hstop, width_eq, width_eq, String.utf8ByteSize_append]
            · simp [hstart, width_eq, Document.withText, String.append_assoc]
      · simp only [Ne.symm huri, ne_eq, not_false_eq_true, if_true] at happly
        exact .inr ⟨_, happly, .otherDocument shown hshown huri⟩

end CopyPaste.Editor
