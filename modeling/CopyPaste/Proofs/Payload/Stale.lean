import CopyPaste.Proofs.Coordinator.Admission
import CopyPaste.Proofs.Transfer.Normalized

/-!
# What a write leaves behind

Writing under a type exchanges the first item of that type. Reading at once finds the first inline
string and so what was written; the transfer of the payload shows the last item of a type, and so
whatever was left behind. The two agree, and the type occurs once, as far as there was at most one
item of the type before.

* `Payload.TakesEffect` — what a write comes to on every path on which the payload is read;
* **`Wrote.takesEffect`** — every write comes to that;
* **`writes_take_effect`** — every write of a string, and that of a handle by a copy that starts.
-/

namespace CopyPaste

namespace Payload

/-- The items of a type, in order. -/
def ofType (p : Payload) (mime : String) : List PayloadItem :=
  p.items.filter fun x => x.mime == mime

/-- An item that is found in a transfer is a text with the given value. -/
def IsText (value : String) (found : Option Item) : Prop :=
  ∃ d, found = some (.text d) ∧ d.value = value

/-- What the write of a string under a type comes to on every path on which the payload is read. -/
structure TakesEffect (mime value : String) (p p' : Payload) : Prop where
  others : p'.others mime = p.others mime
  read : p'.get? mime = some value
  /-- The first item of the type is gone, all others are left behind. -/
  left : p'.ofType mime = .string mime (.inline value) :: (p.ofType mime).tail
  once : (p'.ofType mime).length = 1 ↔ (p.ofType mime).length ≤ 1
  /-- The transfer shows what was written unless an item left behind shows something else. -/
  shown : ∀ reads, IsText value ((Transfer.ofPayload p' reads).1.get? mime) ↔
    ∀ e, ((p.ofType mime).tail.filterMap PayloadItem.item?).getLast? = some e →
      IsText value (some e.2)

theorem isText_anonymous {value : String} {found : Option Item} :
    IsText value (found.map Item.anonymous) ↔ IsText value found := by
  rcases found with - | ⟨d | f⟩ <;> simp [IsText, Item.anonymous]

end Payload

/-! ## Items of a type -/

theorem PayloadItem.mime_of_item? {x : PayloadItem} {e : String × Item} (h : x.item? = some e) :
    e.1 = x.mime := by
  rcases x with ⟨mime, value | source⟩ | ⟨mime, - | source⟩ | mime <;>
    simp only [PayloadItem.item?, Option.some.injEq, reduceCtorEq] at h <;>
    subst h <;> rfl

namespace Payload

/-- What shows under a type is the last of the items of that type that can be interpreted. -/
theorem lastItem?_eq (p : Payload) (mime : String) : p.lastItem? mime =
    ((p.ofType mime).filterMap PayloadItem.item?).getLast?.map Prod.snd := by
  unfold lastItem? ofType
  rw [List.filter_filterMap, List.filterMap_filter]
  congr 3
  funext x
  cases hitem : x.item? with
  | none => simp
  | some e =>
      have hmime := PayloadItem.mime_of_item? hitem
      by_cases heq : x.mime = mime <;> simp [Option.filter, hmime, heq]

namespace Wrote

variable {mime value : String} {p p' : Payload}

/-- What was written stands before the items of its type that are left. -/
theorem ofType (h : Wrote mime value p p') :
    p'.ofType mime = .string mime (.inline value) :: (p.ofType mime).tail := by
  have hnone : ∀ {items : List PayloadItem}, (∀ x ∈ items, x.mime ≠ mime) →
      items.filter (fun x => x.mime == mime) = [] := by
    intro items hitems
    rw [List.filter_eq_nil_iff]
    intro x hx
    simpa using hitems x hx
  have hnew : (PayloadItem.string mime (.inline value)).mime = mime := rfl
  unfold Payload.ofType
  cases h with
  | inPlace before after stale hitems hbefore hstale =>
      simp [hitems, hnone hbefore, hstale, hnew]
  | atEnd hmissing => simp [push, hnone hmissing, hnew]

/-- **What a write comes to.** -/
theorem takesEffect (h : Wrote mime value p p') : TakesEffect mime value p p' where
  others := h.others
  read := h.get?
  left := h.ofType
  once := by
    rw [h.ofType, List.length_cons, List.length_tail]
    omega
  shown := by
    intro reads
    rw [← isText_anonymous, Transfer.get?_ofPayload, lastItem?_eq, h.ofType, List.filterMap_cons]
    simp only [PayloadItem.item?, List.getLast?_cons]
    cases ((p.ofType mime).tail.filterMap PayloadItem.item?).getLast? with
    | none => simp [IsText]
    | some e => simp

end Wrote

/-- **Every write takes effect where the payload is read at once,** and, as far as it leaves no
other item of its type behind, in the transfer of the payload too; so does that of the handle by a
copy that starts. -/
theorem writes_take_effect (p : Payload) (mime value : String) (m : Coordinator)
    (event : ClipboardEvent) (fresh handle : Handle) :
    TakesEffect mime value p (p.set mime value) ∧
    ((m.handleCopy event fresh).1 = .started handle →
      ∃ q q', event.payload = some q ∧ (m.handleCopy event fresh).2.1.payload = some q' ∧
        TakesEffect handleMime handle.text q q') := by
  constructor
  · exact (p.wrote_set mime value).takesEffect
  · intro hstarted
    obtain ⟨rfl, hstarts⟩ := (m.copyAnswered_handleCopy event fresh).ofStarted handle hstarted
    obtain ⟨q, q', hgiven, hwrote, hwritten⟩ := hstarts.written
    exact ⟨q, q', hgiven, by rw [hwritten], hwrote.takesEffect⟩

/-- Two items of one type: the write takes the place of the first, and the second shows. -/
theorem second_item_outlives_write :
    let p : Payload := ⟨[.string "m" (.inline "a"), .string "m" (.inline "b")]⟩
    (p.set "m" "v").ofType "m" = [.string "m" (.inline "v"), .string "m" (.inline "b")] ∧
      (p.set "m" "v").get? "m" = some "v" ∧
      ¬ IsText "v" ((Transfer.ofPayload (p.set "m" "v") {}).1.get? "m") := by
  refine ⟨rfl, rfl, ?_⟩
  rintro ⟨d, hfound, hvalue⟩
  have hsecond : some (Item.text ⟨1, "b", false, none⟩) = some (.text d) := hfound
  cases hsecond
  exact absurd hvalue (by decide)

end Payload

end CopyPaste
