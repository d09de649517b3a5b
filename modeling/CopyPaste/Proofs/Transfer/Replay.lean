import CopyPaste.Transfer.Lemmas

/-!
# Lookups after merging and replaying

`merge` and `absorb` seen through `get?`: both are decided type by type, and neither lets a type
occur twice.

* **`get?_merge`** — the transfer merged in wins every collision;
* **`get?_absorb`** — a recorded change decides its own type and no other.
-/

namespace CopyPaste

namespace Entries

/-- An entry is found under its type, as long as no type occurs twice. -/
theorem get?_of_mem {es : Entries} (hn : (keys es).Nodup) {e : String × Item} (he : e ∈ es) :
    get? e.1 es = some e.2 := by
  induction es with
  | nil => exact absurd he List.not_mem_nil
  | cons x es ih =>
      obtain ⟨hx, hrest⟩ := List.nodup_cons.mp hn
      rcases List.mem_cons.mp he with rfl | hmem
      · simp [get?]
      · have hne : x.1 ≠ e.1 := fun h => hx (h ▸ List.mem_map_of_mem hmem)
        rw [get?, if_neg hne]
        exact ih hrest hmem

/-- Selecting entries by type keeps the lookups of the types selected. -/
theorem get?_filter (p : String → Bool) (mime : String) (es : Entries) :
    get? mime (es.filter fun e => p e.1) = if p mime then get? mime es else none := by
  induction es with
  | nil => simp [get?]
  | cons e es ih =>
      obtain ⟨key, item⟩ := e
      by_cases hk : key = mime
      · subst hk
        by_cases hp : p key <;> simp [hp, get?, ih]
      · by_cases hp : p key <;> simp [hp, get?, hk, ih]

theorem nodup_keys_filter {es : Entries} (hn : (keys es).Nodup) (p : String × Item → Bool) :
    (keys (es.filter p)).Nodup :=
  hn.sublist (List.filter_sublist.map Prod.fst)

end Entries

namespace Transfer

/-- Setting entries one after the other: what they hold hides what was there. -/
theorem get?_setAll (t : Transfer) {es : Entries} (hn : (Entries.keys es).Nodup) (mime : String) :
    (t.setAll es).get? mime = (Entries.get? mime es).or (t.get? mime) := by
  induction es generalizing t with
  | nil => rfl
  | cons e es ih =>
      obtain ⟨key, item⟩ := e
      obtain ⟨hkey, hrest⟩ := List.nodup_cons.mp hn
      show ((t.set key item).setAll es).get? mime = _
      rw [ih (t.set key item) hrest, get?_set]
      by_cases hk : key = mime
      · subst hk
        have hnone : Entries.get? key es = none := Entries.get?_eq_none_iff.mpr hkey
        simp [hnone, Entries.get?]
      · simp [hk, Entries.get?]

/-- **The transfer merged in wins every collision.** -/
theorem get?_merge (t : Transfer) {other : Transfer} (hn : other.keys.Nodup) (mime : String) :
    (t.merge other).get? mime = (other.get? mime).or (t.get? mime) :=
  get?_setAll t hn mime

/-- Removing types one after the other. -/
theorem get?_foldl_delete {t : Transfer} (hn : t.keys.Nodup) (gone : List String) (mime : String) :
    (gone.foldl delete t).get? mime = if mime ∈ gone then none else t.get? mime := by
  induction gone generalizing t with
  | nil => simp
  | cons key gone ih =>
      rw [List.foldl_cons, ih (nodup_keys_delete hn key), get?_delete hn]
      by_cases hk : key = mime
      · simp [hk]
      · simp [hk, Ne.symm hk]

/-- **A recorded change decides its own type and no other.** -/
theorem get?_absorb {t fork : Transfer} (ht : t.keys.Nodup) (hf : fork.keys.Nodup)
    (mime : String) :
    (t.absorb fork).get? mime =
      if mime ∈ fork.touched then fork.get? mime else t.get? mime := by
  have hchanged := Entries.nodup_keys_filter hf fun e => decide (e.1 ∈ fork.touched)
  have hset := get?_setAll t hchanged mime
  rw [Entries.get?_filter (fun key => decide (key ∈ fork.touched))] at hset
  show ((fork.touched.filter fun mime => !fork.contains mime).foldl delete _).get? mime = _
  rw [get?_foldl_delete (nodup_keys_setAll ht _), hset]
  by_cases hm : mime ∈ fork.touched
  · cases hget : fork.get? mime with
    | none =>
        -- touched and gone: it was removed on the fork
        simp [hm, contains, hget]
    | some item =>
        have hentry : Entries.get? mime fork.entries = some item := hget
        simp [hm, contains, hget, hentry]
  · simp [hm]

theorem nodup_keys_merge {t : Transfer} (hn : t.keys.Nodup) (other : Transfer) :
    (t.merge other).keys.Nodup :=
  nodup_keys_setAll hn other.entries

end Transfer

end CopyPaste
