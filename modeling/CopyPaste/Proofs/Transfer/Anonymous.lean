import CopyPaste.Transfer.Lemmas

/-!
# Transfers up to identity

The identity of a deferred value is a number that depends on what else was deferred before it.
Forgetting it leaves what a reader can see: the types in order, the values behind them and the
recorded changes. Every operation on transfers commutes with forgetting, so what a sequence of
operations shows does not depend on the numbers in between.

* **`anonymous_set`**, **`anonymous_delete`** — one operation;
* **`anonymous_absorb`** — a replay.
-/

namespace CopyPaste

/-- An item without the identity of its value. -/
def Item.anonymous : Item → Item
  | .text value => .text { value with id := 0 }
  | .file f => .file { f with data := { f.data with id := 0 } }

namespace Entries

/-- Entries without the identities of their values. -/
def anonymous (es : Entries) : Entries := es.map fun e => (e.1, e.2.anonymous)

@[simp] theorem anonymous_nil : anonymous [] = [] := rfl

@[simp] theorem anonymous_cons (e : String × Item) (es : Entries) :
    anonymous (e :: es) = (e.1, e.2.anonymous) :: anonymous es := rfl

@[simp] theorem keys_anonymous (es : Entries) : keys (anonymous es) = keys es := by
  simp [keys, anonymous, Function.comp_def]

theorem get?_anonymous (mime : String) (es : Entries) :
    get? mime (anonymous es) = (get? mime es).map Item.anonymous := by
  induction es with
  | nil => rfl
  | cons e es ih =>
      obtain ⟨key, item⟩ := e
      by_cases hk : key = mime <;> simp [get?, hk, ih]

theorem anonymous_set (mime : String) (item : Item) (es : Entries) :
    anonymous (set mime item es) = set mime item.anonymous (anonymous es) := by
  induction es with
  | nil => rfl
  | cons e es ih =>
      obtain ⟨key, old⟩ := e
      by_cases hk : key = mime <;> simp [set, hk, ih]

theorem anonymous_erase (mime : String) (es : Entries) :
    anonymous (erase mime es) = erase mime (anonymous es) := by
  induction es with
  | nil => rfl
  | cons e es ih =>
      obtain ⟨key, old⟩ := e
      by_cases hk : key = mime <;> simp [erase, hk, ih]

/-- Selecting by type looks at no value. -/
theorem anonymous_filter (p : String → Bool) (es : Entries) :
    anonymous (es.filter fun e => p e.1) = (anonymous es).filter fun e => p e.1 := by
  induction es with
  | nil => rfl
  | cons e es ih => by_cases hp : p e.1 <;> simp [hp, ih]

end Entries

namespace Transfer

/-- A transfer without the identities of its values. -/
def anonymous (t : Transfer) : Transfer := ⟨Entries.anonymous t.entries, t.touched⟩

@[simp] theorem touched_anonymous (t : Transfer) : t.anonymous.touched = t.touched := rfl

@[simp] theorem entries_anonymous (t : Transfer) :
    t.anonymous.entries = Entries.anonymous t.entries := rfl

@[simp] theorem get?_anonymous (t : Transfer) (mime : String) :
    t.anonymous.get? mime = (t.get? mime).map Item.anonymous :=
  Entries.get?_anonymous mime t.entries

@[simp] theorem contains_anonymous (t : Transfer) (mime : String) :
    t.anonymous.contains mime = t.contains mime := by
  simp [contains]

theorem keys_anonymous (t : Transfer) : t.anonymous.keys = t.keys :=
  Entries.keys_anonymous t.entries

theorem anonymous_set (t : Transfer) (mime : String) (item : Item) :
    (t.set mime item).anonymous = t.anonymous.set mime item.anonymous := by
  simp [anonymous, set, Entries.anonymous_set]

theorem anonymous_delete (t : Transfer) (mime : String) :
    (t.delete mime).anonymous = t.anonymous.delete mime := by
  unfold delete
  rw [contains_anonymous]
  split
  · simp [anonymous, Entries.anonymous_erase]
  · rfl

theorem anonymous_setAll (t : Transfer) (es : Entries) :
    (t.setAll es).anonymous = t.anonymous.setAll (Entries.anonymous es) := by
  induction es generalizing t with
  | nil => rfl
  | cons e es ih =>
      show ((t.set e.1 e.2).setAll es).anonymous = _
      rw [ih, anonymous_set]
      rfl

theorem anonymous_foldl_delete (t : Transfer) (gone : List String) :
    (gone.foldl delete t).anonymous = gone.foldl delete t.anonymous := by
  induction gone generalizing t with
  | nil => rfl
  | cons mime gone ih => rw [List.foldl_cons, ih, anonymous_delete, List.foldl_cons]

/-- **A replay shows the same whatever the identities are.** -/
theorem anonymous_absorb (t fork : Transfer) :
    (t.absorb fork).anonymous = t.anonymous.absorb fork.anonymous := by
  unfold absorb
  rw [anonymous_foldl_delete, anonymous_setAll,
    Entries.anonymous_filter fun key => decide (key ∈ fork.touched)]
  simp only [touched_anonymous, contains_anonymous, entries_anonymous]
  rfl

end Transfer

end CopyPaste
