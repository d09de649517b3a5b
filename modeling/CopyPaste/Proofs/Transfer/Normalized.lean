import CopyPaste.Proofs.Transfer.Anonymous
import CopyPaste.Transfer.OfPayload

/-!
# What a payload becomes

The transfer of a payload seen through `get?`: under each type stands the last item of that type
that can be interpreted, whatever stands before or after it.

* `PayloadItem.item?` — what one item of a payload shows in a transfer;
* **`get?_ofPayload`** — the last one under a type is the one that shows.
-/

namespace CopyPaste

/-- What an item shows in a transfer, under its type; nothing if it cannot be interpreted. -/
def PayloadItem.item? : PayloadItem → Option (String × Item)
  | .string mime (.inline value) => some (mime, .text ⟨0, value, false, none⟩)
  | .string mime (.deferred source) => some (mime, .text ⟨0, source.value, true, source.gate⟩)
  | .file mime (some source) =>
    let data := ⟨0, source.outcome, !source.inMemory, source.gate⟩
    some (mime, .file ⟨source.name, source.path.map fileUri, data⟩)
  | .file _ none => none
  | .unsupported _ => none

/-- What the last interpretable item of a type shows. -/
def Payload.lastItem? (p : Payload) (mime : String) : Option Item :=
  ((p.items.filterMap PayloadItem.item?).filter fun e => e.1 == mime).getLast?.map Prod.snd

namespace Transfer

theorem interpret_anonymous (reads : Reads) (x : PayloadItem) :
    (interpret reads x).map (fun r => (r.1, r.2.1.anonymous)) = x.item? := by
  cases x with
  | string mime data => cases data <;> rfl
  | file mime source => cases source <;> rfl
  | unsupported mime => rfl

/-- Accepting an item sets what it shows, and does nothing if it shows nothing. -/
theorem anonymous_accept (state : Transfer × Reads) (x : PayloadItem) :
    (accept state x).1.anonymous =
      match x.item? with
      | some (mime, item) => state.1.anonymous.set mime item
      | none => state.1.anonymous := by
  have h := interpret_anonymous state.2 x
  unfold accept
  cases hi : interpret state.2 x with
  | none =>
      rw [hi] at h
      simp [← h]
  | some r =>
      rw [hi] at h
      simp [← h, anonymous_set]

theorem get?_foldl_accept (items : List PayloadItem) (state : Transfer × Reads) (mime : String) :
    (items.foldl accept state).1.anonymous.get? mime =
      ((Payload.mk items).lastItem? mime).or (state.1.anonymous.get? mime) := by
  induction items generalizing state with
  | nil => rfl
  | cons x items ih =>
      rw [List.foldl_cons, ih, anonymous_accept]
      unfold Payload.lastItem?
      cases hx : x.item? with
      | none => simp [hx]
      | some e =>
          obtain ⟨key, item⟩ := e
          by_cases hk : key = mime
          · simp only [List.filterMap_cons, hx, hk, List.filter_cons, beq_self_eq_true, if_true,
              List.getLast?_cons, get?_set]
            cases ((items.filterMap PayloadItem.item?).filter fun e => e.1 == mime).getLast? <;>
              rfl
          · simp [hx, hk]

/-- **The last interpretable item of a type is the one that shows.** -/
theorem get?_ofPayload (payload : Payload) (reads : Reads) (mime : String) :
    ((ofPayload payload reads).1.get? mime).map Item.anonymous = payload.lastItem? mime := by
  rw [← get?_anonymous]
  show (payload.items.foldl accept ({}, reads)).1.anonymous.get? mime = _
  rw [get?_foldl_accept]
  exact Option.or_none

theorem nodup_keys_foldl_accept (items : List PayloadItem) {state : Transfer × Reads}
    (hn : state.1.keys.Nodup) : (items.foldl accept state).1.keys.Nodup := by
  induction items generalizing state with
  | nil => exact hn
  | cons x items ih =>
      rw [List.foldl_cons]
      apply ih
      unfold accept
      split
      · exact nodup_keys_set hn _ _
      · exact hn

theorem nodup_keys_ofPayload (payload : Payload) (reads : Reads) :
    (ofPayload payload reads).1.keys.Nodup :=
  nodup_keys_foldl_accept payload.items List.nodup_nil

end Transfer

end CopyPaste
