import CopyPaste.Proofs.Payload.Stale
import Mathlib.Data.List.Induction

/-!
# How a payload is interpreted

What the platform hands over is read item by item. Items that cannot be interpreted are as good as
missing; of the others each type shows once, where it first occurred and with what its last item
holds. Nothing is read on the way: whoever wants the value of an item asks for it later, and is
told what the source of that very item answers.

* `PayloadItem.isInterpretable`, `Payload.IsLast` — the items that show;
* `PayloadItem.ShownAs` — what a holder of an item finds out by asking for it;
* **`keys_ofPayload`** — the types in order;
* **`normalization_spec`** — types, values and reads of every payload.
-/

namespace CopyPaste

/-! ## Items -/

/-- Strings can be interpreted, and so can files that come with a file. -/
def PayloadItem.isInterpretable : PayloadItem → Bool
  | .string _ _ => true
  | .file _ source => source.isSome
  | .unsupported _ => false

/-- The last item of a type that can be interpreted; what stands behind it under the same type
cannot. -/
def Payload.IsLast (p : Payload) (mime : String) (x : PayloadItem) : Prop :=
  ∃ before after, p.items = before ++ x :: after ∧ x.isInterpretable = true ∧ x.mime = mime ∧
    ∀ y ∈ after, y.mime = mime → y.isInterpretable = false

/-- Whether what stands behind a gate is held back. -/
def Desk.holdsBack (desk : Desk) (gate : Option String) : Bool :=
  gate.any fun g => !desk.openGates.contains g

/-- What becomes of reading a file: its bytes, or a failure that names the file and tells what the
platform said. -/
def FileSource.answer (source : FileSource) : Except ReadFailure Bytes :=
  match source.content with
  | .ok bytes => .ok bytes
  | .error reason => .error ⟨source.name, "file read failed: " ++ reason⟩

/-- Whoever asks for the item of a transfer gets what an item of a payload holds, as soon as the
platform does not hold it back any more. -/
def PayloadItem.ShownAs (item : Item) : PayloadItem → Prop
  | .string _ (.inline value) =>
    item.asFile? = none ∧ ∀ desk task, (Desk.text? desk task item).1 = some value
  | .string _ (.deferred source) =>
    item.asFile? = none ∧ ∀ desk task, (Desk.text? desk task item).1 =
      if desk.holdsBack source.gate then none else some source.value
  | .file _ (some source) =>
    ∃ file, item.asFile? = some file ∧ file.name = source.name ∧
      file.uri = source.path.map fileUri ∧
      ∀ desk task, (Desk.await? desk task file.data).1 =
        if desk.holdsBack source.gate then none else some source.answer
  | .file _ none => False
  | .unsupported _ => False

theorem PayloadItem.isSome_item? (x : PayloadItem) : x.item?.isSome = x.isInterpretable := by
  rcases x with ⟨mime, value | source⟩ | ⟨mime, - | source⟩ | mime <;> rfl

/-- What is asked for is there unless it is held back. -/
theorem Desk.await?_fst {α : Type} (desk : Desk) (task : Task) (d : Deferred α) :
    (desk.await? task d).1 = if desk.holdsBack d.gate then none else some d.value := by
  obtain ⟨id, value, fromPlatform, gate⟩ := d
  cases gate with
  | none => rfl
  | some gate =>
      unfold await? holdsBack
      by_cases h : gate ∈ desk.openGates <;> simp [Option.filter, h]

theorem FileSource.outcome_eq_answer (source : FileSource) : source.outcome = source.answer := by
  unfold outcome answer
  cases source.content <;> rfl

/-- An item that shows what an item of a payload does, up to its identity, tells its holders what
the source answers. -/
theorem PayloadItem.shownAs_of_item? {x : PayloadItem} {e : String × Item} (h : x.item? = some e)
    {item : Item} (hitem : item.anonymous = e.2) : x.ShownAs item := by
  rcases x with ⟨mime, value | source⟩ | ⟨mime, - | source⟩ | mime
  · cases h
    cases item with
    | file file => simp [Item.anonymous] at hitem
    | text d =>
        obtain ⟨id, value', fromPlatform, gate⟩ := d
        simp only [Item.anonymous, Item.text.injEq, Deferred.mk.injEq, true_and] at hitem
        obtain ⟨rfl, rfl, rfl⟩ := hitem
        exact ⟨rfl, fun desk task => rfl⟩
  · cases h
    cases item with
    | file file => simp [Item.anonymous] at hitem
    | text d =>
        obtain ⟨id, value', fromPlatform, gate⟩ := d
        simp only [Item.anonymous, Item.text.injEq, Deferred.mk.injEq, true_and] at hitem
        obtain ⟨rfl, rfl, rfl⟩ := hitem
        exact ⟨rfl, fun desk task => desk.await?_fst task _⟩
  · cases h
  · cases h
    cases item with
    | text d => simp [Item.anonymous] at hitem
    | file file =>
        obtain ⟨name, uri, id, value', fromPlatform, gate⟩ := file
        simp only [Item.anonymous, Item.file.injEq, TransferFile.mk.injEq, Deferred.mk.injEq,
          true_and] at hitem
        obtain ⟨rfl, rfl, rfl, rfl, rfl⟩ := hitem
        refine ⟨_, rfl, rfl, rfl, fun desk task => ?_⟩
        rw [← source.outcome_eq_answer]
        exact desk.await?_fst task _
  · cases h

namespace Transfer

/-! ## Types in order -/

/-- What is left out is as good as missing. -/
theorem accept_of_not_interpretable {x : PayloadItem} (h : x.isInterpretable = false)
    (state : Transfer × Reads) : accept state x = state := by
  rcases x with ⟨mime, data⟩ | ⟨mime, - | source⟩ | mime
  · simp [PayloadItem.isInterpretable] at h
  · rfl
  · simp [PayloadItem.isInterpretable] at h
  · rfl

theorem ofPayload_filter (payload : Payload) (reads : Reads) :
    ofPayload ⟨payload.items.filter PayloadItem.isInterpretable⟩ reads =
      ofPayload payload reads := by
  unfold ofPayload
  rw [List.foldl_filter]
  congr 1
  funext state x
  cases hx : x.isInterpretable with
  | true => rfl
  | false => exact (accept_of_not_interpretable hx state).symm

theorem eraseDups_concat (mimes : List String) (mime : String) :
    (mimes ++ [mime]).eraseDups =
      if mime ∈ mimes then mimes.eraseDups else mimes.eraseDups ++ [mime] := by
  rw [List.eraseDups_append]
  split
  · rename_i h
    simp [List.removeAll, h]
  · rename_i h
    simp [List.removeAll, h, List.eraseDups_cons]

/-- **The types of a transfer in order:** those of the items that can be interpreted, each where it
first occurs. -/
theorem keys_ofPayload (payload : Payload) (reads : Reads) :
    (ofPayload payload reads).1.keys =
      ((payload.items.filter PayloadItem.isInterpretable).map PayloadItem.mime).eraseDups := by
  obtain ⟨items⟩ := payload
  induction items using List.reverseRecOn with
  | nil => rfl
  | append_singleton items x ih =>
      have hfold : ofPayload ⟨items ++ [x]⟩ reads = accept (ofPayload ⟨items⟩ reads) x :=
        List.foldl_append
      have hshows := x.isSome_item?
      rw [hfold, List.filter_append, List.map_append]
      obtain ⟨hx, haccept⟩ | ⟨mime, shown, item, hx, -, haccept⟩ :=
        accept_cases (ofPayload ⟨items⟩ reads) x
      · have hskip : x.isInterpretable = false := by rw [← hshows, hx]; rfl
        rw [haccept, ih]
        simp [hskip]
      · have htake : x.isInterpretable = true := by rw [← hshows, hx]; rfl
        have hmime : x.mime = mime := (PayloadItem.mime_of_item? hx).symm
        have hset := Entries.keys_set mime item (ofPayload ⟨items⟩ reads).1.entries
        simp only [← keys_eq, ih, List.mem_eraseDups] at hset
        rw [haccept]
        simp only [htake, List.filter_cons, List.filter_nil, if_true, List.map_cons, List.map_nil,
          hmime, eraseDups_concat]
        exact hset

end Transfer

/-! ## Values -/

namespace Payload

/-- A type shows if one of its items can be interpreted: the last of them is the one that does. -/
theorem exists_isLast_iff (p : Payload) (mime : String) :
    (∃ x, p.IsLast mime x) ↔
      mime ∈ (p.items.filter PayloadItem.isInterpretable).map PayloadItem.mime := by
  constructor
  · rintro ⟨x, before, after, hitems, hx, rfl, -⟩
    refine List.mem_map_of_mem (List.mem_filter.mpr ⟨?_, hx⟩)
    rw [hitems]
    exact List.mem_append_right before List.mem_cons_self
  · intro h
    obtain ⟨y, hy, hmime⟩ := List.mem_map.mp h
    obtain ⟨hmem, hyshows⟩ := List.mem_filter.mp hy
    -- the last such item is the first one from the end
    obtain ⟨x, hfind⟩ := Option.isSome_iff_exists.mp (List.find?_isSome.mpr
      ⟨y, List.mem_reverse.mpr hmem, by simp [hyshows, hmime]⟩ :
        (p.items.reverse.find? fun z => z.isInterpretable && z.mime == mime).isSome = true)
    obtain ⟨hx, after, before, hsplit, hafter⟩ := List.find?_eq_some_iff_append.mp hfind
    simp only [Bool.and_eq_true, beq_iff_eq] at hx
    refine ⟨x, before.reverse, after.reverse, ?_, hx.1, hx.2, fun z hz hzmime => ?_⟩
    · have hitems := congrArg List.reverse hsplit
      rwa [List.reverse_reverse, List.reverse_append, List.reverse_cons, List.append_assoc]
        at hitems
    · simpa [hzmime] using hafter z (List.mem_reverse.mp hz)

/-- **The last interpretable item of a type shows,** whatever stands behind it. -/
theorem IsLast.lastItem? {p : Payload} {mime : String} {x : PayloadItem} (h : p.IsLast mime x) :
    ∃ e, x.item? = some e ∧ p.lastItem? mime = some e.2 := by
  obtain ⟨before, after, hitems, hx, rfl, hafter⟩ := h
  rw [← x.isSome_item?] at hx
  obtain ⟨e, he⟩ := Option.isSome_iff_exists.mp hx
  refine ⟨e, he, ?_⟩
  have hnone : (after.filter fun y => y.mime == x.mime).filterMap PayloadItem.item? = [] := by
    rw [List.filterMap_eq_nil_iff]
    intro y hy
    obtain ⟨hmem, hmime⟩ := List.mem_filter.mp hy
    have hskip := hafter y hmem (by simpa using hmime)
    rw [← y.isSome_item?] at hskip
    simpa using hskip
  rw [lastItem?_eq, ofType, hitems, List.filter_append, List.filter_cons_of_pos (by simp),
    List.filterMap_append, List.filterMap_cons_some he, hnone]
  simp

/-- **What a payload is interpreted as.** The types are those of the items that can be interpreted,
each where it first occurs; under each the last such item shows, which tells its holders what its
own source answers; items that cannot be interpreted leave no trace; and nothing is read. -/
theorem normalization_spec (p : Payload) (reads : Reads) :
    (Transfer.ofPayload p reads).1.keys =
        ((p.items.filter PayloadItem.isInterpretable).map PayloadItem.mime).eraseDups ∧
      (∀ mime, mime ∈ (Transfer.ofPayload p reads).1.keys ↔ ∃ x, p.IsLast mime x) ∧
      (∀ mime x, p.IsLast mime x →
        ∃ item, (Transfer.ofPayload p reads).1.get? mime = some item ∧ x.ShownAs item) ∧
      Transfer.ofPayload ⟨p.items.filter PayloadItem.isInterpretable⟩ reads =
        Transfer.ofPayload p reads ∧
      ∃ next, (Transfer.ofPayload p reads).2 = { reads with next } := by
  refine ⟨Transfer.keys_ofPayload p reads, fun mime => ?_, fun mime x hlast => ?_,
    Transfer.ofPayload_filter p reads, Transfer.reads_ofPayload p reads⟩
  · rw [Transfer.keys_ofPayload, List.mem_eraseDups, p.exists_isLast_iff]
  · obtain ⟨e, he, hshown⟩ := hlast.lastItem?
    rw [← Transfer.get?_ofPayload p reads, Option.map_eq_some_iff] at hshown
    obtain ⟨item, hitem, hanonymous⟩ := hshown
    exact ⟨item, hitem, PayloadItem.shownAs_of_item? he hanonymous⟩

end Payload

end CopyPaste
