import CopyPaste.Payload

/-!
# Writing into a payload

A payload may have several items of one type, some of them not inline strings. Writing under a
type exchanges the first of them whatever it holds, and touches no other item.

* `Payload.Wrote` — what a payload has become once a string was written into it;
* **`wrote_set`** — every write is one of the cases;
* `Wrote.get?` — the string can be read back;
* `Wrote.others` — the items of other types are as they were.
-/

namespace CopyPaste.Payload

/-- The items that are not of the given type, in order. -/
def others (p : Payload) (mime : String) : List PayloadItem :=
  p.items.filter fun item => item.mime != mime

/-- What a payload has become once a string was written into it under a type. -/
inductive Wrote (mime value : String) (p : Payload) : Payload → Prop
  /-- The first item of the type has been written over. -/
  | inPlace (before after : List PayloadItem) (stale : PayloadItem)
      (hitems : p.items = before ++ stale :: after) (hbefore : ∀ x ∈ before, x.mime ≠ mime)
      (hstale : stale.mime = mime) :
      Wrote mime value p ⟨before ++ .string mime (.inline value) :: after⟩
  /-- There was no item of the type. -/
  | atEnd (hnone : ∀ x ∈ p.items, x.mime ≠ mime) :
      Wrote mime value p (p.push (.string mime (.inline value)))

/-! ## Writes -/

theorem putFirst_of_forall_ne {mime : String} {item : PayloadItem} {items : List PayloadItem}
    (h : ∀ x ∈ items, x.mime ≠ mime) : putFirst mime item items = items ++ [item] := by
  induction items with
  | nil => rfl
  | cons x rest ih =>
      rw [List.forall_mem_cons] at h
      rw [putFirst, if_neg h.1, ih h.2, List.cons_append]

theorem putFirst_append_cons {mime : String} {item stale : PayloadItem}
    {before after : List PayloadItem} (hbefore : ∀ x ∈ before, x.mime ≠ mime)
    (hstale : stale.mime = mime) :
    putFirst mime item (before ++ stale :: after) = before ++ item :: after := by
  induction before with
  | nil => rw [List.nil_append, putFirst, if_pos hstale, List.nil_append]
  | cons x rest ih =>
      rw [List.forall_mem_cons] at hbefore
      rw [List.cons_append, putFirst, if_neg hbefore.1, ih hbefore.2, List.cons_append]

/-- The first item of a type divides the others into those before it and those behind it. -/
theorem exists_first_of_mime {mime : String} {items : List PayloadItem}
    (h : ∃ x ∈ items, x.mime = mime) :
    ∃ before stale after, items = before ++ stale :: after ∧
      (∀ x ∈ before, x.mime ≠ mime) ∧ stale.mime = mime := by
  obtain ⟨stale, hfind⟩ : ∃ stale, items.find? (fun x => x.mime == mime) = some stale := by
    obtain ⟨x, hx, hmime⟩ := h
    exact Option.isSome_iff_exists.mp (List.find?_isSome.mpr ⟨x, hx, by simpa using hmime⟩)
  obtain ⟨hstale, before, after, hitems, hbefore⟩ := List.find?_eq_some_iff_append.mp hfind
  refine ⟨before, stale, after, hitems, ?_, by simpa using hstale⟩
  intro x hx
  simpa using hbefore x hx

/-- **What becomes of a payload when a string is written into it,** however many items of the type
it had and whatever they held. -/
theorem wrote_set (p : Payload) (mime value : String) : Wrote mime value p (p.set mime value) := by
  unfold set
  by_cases h : ∃ x ∈ p.items, x.mime = mime
  · obtain ⟨before, stale, after, hitems, hbefore, hstale⟩ := exists_first_of_mime h
    rw [hitems, putFirst_append_cons hbefore hstale]
    exact .inPlace before after stale hitems hbefore hstale
  · have hnone : ∀ x ∈ p.items, x.mime ≠ mime := by
      intro x hx hmime
      exact h ⟨x, hx, hmime⟩
    rw [putFirst_of_forall_ne hnone]
    exact .atEnd hnone

/-! ## Reading back -/

theorem inlineString?_eq_some_iff {mime value : String} {x : PayloadItem} :
    inlineString? mime x = some value ↔ x = .string mime (.inline value) := by
  cases x with
  | string m data =>
      cases data with
      | inline text =>
          show (if m = mime then some text else none) = some value ↔ _
          by_cases hmime : m = mime
          · simp [hmime]
          · simp [hmime]
      | deferred source => simp [inlineString?]
  | file m source => simp [inlineString?]
  | unsupported m => simp [inlineString?]

/-- Something can be read under a type when an inline string is among the items of that type. -/
theorem isSome_get?_iff {p : Payload} {mime : String} :
    (p.get? mime).isSome = true ↔ ∃ value, .string mime (.inline value) ∈ p.items := by
  unfold get?
  rw [List.findSome?_isSome_iff]
  constructor
  · rintro ⟨x, hx, hsome⟩
    obtain ⟨value, hvalue⟩ := Option.isSome_iff_exists.mp hsome
    exact ⟨value, inlineString?_eq_some_iff.mp hvalue ▸ hx⟩
  · rintro ⟨value, hmem⟩
    exact ⟨_, hmem, by rw [inlineString?_eq_some_iff.mpr rfl]; rfl⟩

theorem inlineString?_of_ne {mime : String} {x : PayloadItem} (h : x.mime ≠ mime) :
    inlineString? mime x = none := by
  rw [Option.eq_none_iff_forall_not_mem]
  intro value hvalue
  exact h (by rw [inlineString?_eq_some_iff.mp hvalue]; rfl)

namespace Wrote

variable {mime value : String} {p p' : Payload}

/-- What is written can be read back: nothing of its type comes before it. -/
theorem get? (h : Wrote mime value p p') : p'.get? mime = some value := by
  have hread : ∀ before after : List PayloadItem, (∀ x ∈ before, x.mime ≠ mime) →
      Payload.get? ⟨before ++ .string mime (.inline value) :: after⟩ mime = some value := by
    intro before after hbefore
    have hnone : before.findSome? (inlineString? mime) = none := by
      rw [List.findSome?_eq_none_iff]
      intro x hx
      exact inlineString?_of_ne (hbefore x hx)
    unfold Payload.get?
    rw [List.findSome?_append, hnone, Option.none_or, List.findSome?_cons,
      inlineString?_eq_some_iff.mpr rfl]
  cases h with
  | inPlace before after stale _ hbefore _ => exact hread before after hbefore
  | atEnd hnone => exact hread p.items [] hnone

/-- The items of other types stay as they are and where they are. -/
theorem others (h : Wrote mime value p p') : p'.others mime = p.others mime := by
  have hnew : ((PayloadItem.string mime (.inline value)).mime != mime) = false := by
    show (mime != mime) = false
    simp
  unfold Payload.others
  cases h with
  | inPlace before after stale hitems _ hstale =>
      have hold : (stale.mime != mime) = false := by rw [hstale]; simp
      rw [hitems, List.filter_append, List.filter_append, List.filter_cons, List.filter_cons, hnew,
        hold]
      rfl
  | atEnd _ =>
      show (p.items ++ [_]).filter _ = _
      rw [List.filter_append, List.filter_cons, hnew]
      simp

end Wrote

/-- A string still to be read and another type stand before the inline string that is read; the
new one takes the place of the first of its type. -/
example :
    let p : Payload := ⟨[.string "m" (.deferred { value := "late" }), .unsupported "n",
      .string "m" (.inline "old")]⟩
    p.get? "m" = some "old" ∧ (p.set "m" "new").get? "m" = some "new" ∧
      (p.set "m" "new").items.length = 3 := by
  decide

end CopyPaste.Payload
