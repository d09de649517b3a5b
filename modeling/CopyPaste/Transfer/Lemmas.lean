import CopyPaste.Transfer.Basic

/-!
# Laws of transfers

What each operation does to the two views of a transfer: the item under a type, and the types in
order.

* **`keys_set`**, **`keys_erase`** — an overwrite keeps the order, a new type comes last, and a
  removed one leaves the others as they were;
* **`get?_set`**, **`get?_erase`** — the last item set under a type is the one found there;
* **`Transfer.nodup_keys_setAll`** — a type never occurs twice.
-/

namespace CopyPaste

namespace Entries

/-- The types of entries in order. -/
def keys (es : Entries) : List String := es.map Prod.fst

@[simp] theorem keys_nil : keys [] = [] := rfl

@[simp] theorem keys_cons (e : String × Item) (es : Entries) : keys (e :: es) = e.1 :: keys es :=
  rfl

theorem get?_isSome_iff {mime : String} {es : Entries} :
    (get? mime es).isSome = true ↔ mime ∈ keys es := by
  induction es with
  | nil => simp [get?]
  | cons e es ih =>
    obtain ⟨key, item⟩ := e
    by_cases h : key = mime
    · simp [get?, h]
    · simp [get?, h, Ne.symm h, ih]

theorem get?_eq_none_iff {mime : String} {es : Entries} : get? mime es = none ↔ mime ∉ keys es := by
  rw [← get?_isSome_iff]
  cases get? mime es <;> simp

/-- **The last item set is found.** -/
theorem get?_set (key mime : String) (item : Item) (es : Entries) :
    get? key (set mime item es) = if mime = key then some item else get? key es := by
  induction es with
  | nil => simp [set, get?]
  | cons e es ih =>
    obtain ⟨k, old⟩ := e
    by_cases hm : k = mime
    · subst hm
      by_cases hk : k = key <;> simp [set, get?, hk]
    · by_cases hk : k = key
      · subst hk
        simp [set, get?, hm, Ne.symm hm]
      · simp [set, get?, hm, hk, ih]

/-- **An overwrite keeps the order and a new type comes last.** -/
theorem keys_set (mime : String) (item : Item) (es : Entries) :
    keys (set mime item es) = if mime ∈ keys es then keys es else keys es ++ [mime] := by
  induction es with
  | nil => simp [set]
  | cons e es ih =>
    obtain ⟨k, old⟩ := e
    by_cases hm : k = mime
    · simp [set, hm]
    · have hm' : mime ≠ k := Ne.symm hm
      simp only [set, if_neg hm, keys_cons, ih, List.mem_cons, hm', false_or]
      split <;> simp

theorem keys_erase (mime : String) (es : Entries) :
    keys (erase mime es) = (keys es).erase mime := by
  induction es with
  | nil => simp [erase]
  | cons e es ih =>
    obtain ⟨k, old⟩ := e
    by_cases hm : k = mime
    · simp [erase, hm]
    · simp [erase, hm, List.erase_cons_tail, ih]

theorem get?_erase_of_ne {key mime : String} (h : mime ≠ key) (es : Entries) :
    get? key (erase mime es) = get? key es := by
  induction es with
  | nil => rfl
  | cons e es ih =>
    obtain ⟨k, old⟩ := e
    by_cases hm : k = mime
    · subst hm; simp [erase, get?, h]
    · rw [erase, if_neg hm, get?, get?, ih]

/-- **A removed type has no item,** as long as it occurred once. -/
theorem get?_erase {es : Entries} (hn : (keys es).Nodup) (key mime : String) :
    get? key (erase mime es) = if mime = key then none else get? key es := by
  by_cases h : mime = key
  · subst h
    rw [if_pos rfl, get?_eq_none_iff, keys_erase]
    exact hn.not_mem_erase
  · rw [if_neg h, get?_erase_of_ne h]

theorem nodup_keys_set {es : Entries} (hn : (keys es).Nodup) (mime : String) (item : Item) :
    (keys (set mime item es)).Nodup := by
  rw [keys_set]
  split
  · exact hn
  next h =>
    rw [List.nodup_append]
    refine ⟨hn, by simp, fun a ha b hb => ?_⟩
    rw [List.mem_singleton.1 hb]
    rintro rfl
    exact h ha

theorem nodup_keys_erase {es : Entries} (hn : (keys es).Nodup) (mime : String) :
    (keys (erase mime es)).Nodup := by
  rw [keys_erase]
  exact hn.erase mime

end Entries

namespace Transfer

theorem keys_eq (t : Transfer) : t.keys = Entries.keys t.entries := rfl

theorem contains_iff {t : Transfer} {mime : String} : t.contains mime = true ↔ mime ∈ t.keys :=
  Entries.get?_isSome_iff

@[simp] theorem get?_set (t : Transfer) (key mime : String) (item : Item) :
    (t.set mime item).get? key = if mime = key then some item else t.get? key :=
  Entries.get?_set key mime item t.entries

theorem get?_delete {t : Transfer} (hn : t.keys.Nodup) (key mime : String) :
    (t.delete mime).get? key = if mime = key then none else t.get? key := by
  unfold delete
  split
  · exact Entries.get?_erase hn key mime
  next h =>
    split
    next he =>
      subst he
      exact Entries.get?_eq_none_iff.2 fun hm => h (contains_iff.2 hm)
    · rfl

@[simp] theorem get?_fork (t : Transfer) (key : String) : t.fork.get? key = t.get? key := rfl

theorem nodup_keys_set {t : Transfer} (hn : t.keys.Nodup) (mime : String) (item : Item) :
    (t.set mime item).keys.Nodup :=
  Entries.nodup_keys_set hn mime item

theorem nodup_keys_delete {t : Transfer} (hn : t.keys.Nodup) (mime : String) :
    (t.delete mime).keys.Nodup := by
  unfold delete
  split
  · exact Entries.nodup_keys_erase hn mime
  · exact hn

/-- **A type never occurs twice.** -/
theorem nodup_keys_setAll {t : Transfer} (hn : t.keys.Nodup) (es : Entries) :
    (t.setAll es).keys.Nodup := by
  induction es generalizing t with
  | nil => exact hn
  | cons e es ih => exact ih (nodup_keys_set hn e.1 e.2)

theorem nodup_keys_absorb {t : Transfer} (hn : t.keys.Nodup) (fork : Transfer) :
    (t.absorb fork).keys.Nodup := by
  have hall : ∀ (gone : List String) {t : Transfer}, t.keys.Nodup →
      (gone.foldl delete t).keys.Nodup := by
    intro gone
    induction gone with
    | nil => intro t h; exact h
    | cons mime gone ih => intro t h; exact ih (nodup_keys_delete h mime)
  exact hall _ (nodup_keys_setAll hn _)

end Transfer

end CopyPaste
