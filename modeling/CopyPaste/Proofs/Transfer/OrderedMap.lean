import CopyPaste.Proofs.Transfer.Replay
import Mathlib.Data.List.Induction

/-!
# Transfers as ordered maps

What a transfer is to its holder, without its list of entries: a map from types to items, where
every type that is there has the time at which it was put in. The time is kept while the type is
there, and a type that was removed and comes back gets a new one. What each operation of a transfer
does is said type by type, and the list of a transfer is shown to hold exactly what the map says,
by ascending times.

* `OrderedMap` — the map, and what each operation does to it;
* `Transfer.Mirrors` — the list of a transfer shows a map;
* **`Mirrors.set`**, **`Mirrors.delete`**, **`Mirrors.merge`**, **`Mirrors.fork`**,
  **`Mirrors.absorb`**, **`Mirrors.ofList`** — every operation keeps that.
-/

namespace CopyPaste

/-- A map from types to items. Every type in it has the time of its insertion, which is before
`now`, and some types count as changed. -/
structure OrderedMap where
  item : String → Option Item := fun _ => none
  born : String → Nat := fun _ => 0
  now : Nat := 0
  changed : String → Bool := fun _ => false

namespace OrderedMap

/-- The times after more types came in: those that were there keep theirs. -/
def bornWith (m : OrderedMap) (fresh : String → Nat) (mime : String) : Nat :=
  if (m.item mime).isSome then m.born mime else m.now + fresh mime

/-- Puts an item under a type, which counts as changed. -/
def set (m : OrderedMap) (mime : String) (item : Item) : OrderedMap where
  item key := if mime = key then some item else m.item key
  born := m.bornWith fun _ => 0
  now := m.now + 1
  changed key := decide (key = mime) || m.changed key

/-- Removes a type, which counts as changed if it was there. -/
def delete (m : OrderedMap) (mime : String) : OrderedMap where
  item key := if mime = key then none else m.item key
  born := m.born
  now := m.now
  changed key := m.changed key || (decide (key = mime) && (m.item key).isSome)

/-- Takes over all items of another map, new types in the order they have there. -/
def merge (m other : OrderedMap) : OrderedMap where
  item key := (other.item key).or (m.item key)
  born := m.bornWith other.born
  now := m.now + other.now
  changed key := (other.item key).isSome || m.changed key

/-- The same map with nothing changed yet. -/
def fork (m : OrderedMap) : OrderedMap := { m with changed := fun _ => false }

/-- Takes over what changed on a fork: the items it has there, and the absence of those it has not.
New types keep the order of the fork. -/
def absorb (m fork : OrderedMap) : OrderedMap where
  item key := if fork.changed key then fork.item key else m.item key
  born := m.bornWith fork.born
  now := m.now + fork.now
  changed key :=
    m.changed key || (fork.changed key && ((fork.item key).isSome || (m.item key).isSome))

/-- The map of a list of items. -/
def ofList (entries : Entries) : OrderedMap := entries.foldl (fun m e => m.set e.1 e.2) {}

end OrderedMap

/-! ## Lists of entries -/

namespace Transfer

/-- **New types come last, in the order in which they are set.** -/
theorem keys_setAll (t : Transfer) {es : Entries} (hn : (Entries.keys es).Nodup) :
    (t.setAll es).keys = t.keys ++ (Entries.keys es).filter fun mime => mime ∉ t.keys := by
  induction es generalizing t with
  | nil => simp [setAll]
  | cons e es ih =>
      obtain ⟨key, item⟩ := e
      obtain ⟨hkey, hrest⟩ := List.nodup_cons.mp hn
      show ((t.set key item).setAll es).keys = _
      have hset : (t.set key item).keys = if key ∈ t.keys then t.keys else t.keys ++ [key] :=
        Entries.keys_set key item t.entries
      rw [ih (t.set key item) hrest, hset, Entries.keys_cons]
      by_cases hmem : key ∈ t.keys
      · simp [hmem]
      · have hcongr : (Entries.keys es).filter (fun mime => mime ∉ t.keys ++ [key]) =
            (Entries.keys es).filter fun mime => mime ∉ t.keys :=
          List.filter_congr fun mime hmime => by
            have hne : mime ≠ key := fun h => hkey (h ▸ hmime)
            simp [hne]
        rw [if_neg hmem, hcongr, List.filter_cons_of_pos (by simpa using hmem), List.append_assoc,
          List.singleton_append]

theorem mem_touch {touched : List String} {mime key : String} :
    key ∈ touch touched mime ↔ key = mime ∨ key ∈ touched := by
  unfold touch
  split <;> simp_all [or_comm]

theorem mem_touched_setAll {t : Transfer} {es : Entries} {mime : String} :
    mime ∈ (t.setAll es).touched ↔ mime ∈ Entries.keys es ∨ mime ∈ t.touched := by
  induction es generalizing t with
  | nil => simp [setAll]
  | cons e es ih =>
      show mime ∈ ((t.set e.1 e.2).setAll es).touched ↔ _
      have hset : mime ∈ (t.set e.1 e.2).touched ↔ mime = e.1 ∨ mime ∈ t.touched := mem_touch
      rw [ih, hset, Entries.keys_cons, List.mem_cons, or_left_comm, or_assoc]

/-- Removing keeps the order of what is left. -/
theorem keys_delete {t : Transfer} (hn : t.keys.Nodup) (mime : String) :
    (t.delete mime).keys = t.keys.filter (· != mime) := by
  unfold delete
  split
  next => exact (Entries.keys_erase mime t.entries).trans (hn.erase_eq_filter mime)
  next h =>
    have hne : ∀ key ∈ t.keys, key ≠ mime := fun key hkey heq =>
      h (contains_iff.mpr (heq ▸ hkey))
    exact (List.filter_eq_self.mpr fun key hkey => by simpa using hne key hkey).symm

theorem keys_foldl_delete {t : Transfer} (hn : t.keys.Nodup) (gone : List String) :
    (gone.foldl delete t).keys = t.keys.filter fun mime => mime ∉ gone := by
  induction gone generalizing t with
  | nil => exact (List.filter_eq_self.mpr fun key _ => by simp).symm
  | cons mime gone ih =>
      rw [List.foldl_cons, ih (nodup_keys_delete hn mime), keys_delete hn, List.filter_filter]
      refine List.filter_congr fun key _ => Bool.eq_iff_iff.mpr ?_
      simp [and_comm]

theorem mem_touched_delete {t : Transfer} {mime key : String} :
    key ∈ (t.delete mime).touched ↔ key ∈ t.touched ∨ (key = mime ∧ key ∈ t.keys) := by
  unfold delete
  split
  next h =>
    have hmem := contains_iff.mp h
    exact mem_touch.trans ⟨fun hor => hor.symm.imp id fun heq => ⟨heq, heq ▸ hmem⟩,
      fun hor => hor.symm.imp And.left id⟩
  next h =>
    refine ⟨.inl, fun hor => hor.resolve_right ?_⟩
    rintro ⟨rfl, hmem⟩
    exact h (contains_iff.mpr hmem)

theorem mem_touched_foldl_delete {t : Transfer} (hn : t.keys.Nodup) {gone : List String}
    {mime : String} :
    mime ∈ (gone.foldl delete t).touched ↔
      mime ∈ t.touched ∨ (mime ∈ gone ∧ mime ∈ t.keys) := by
  induction gone generalizing t with
  | nil => simp
  | cons key gone ih =>
      rw [List.foldl_cons, ih (nodup_keys_delete hn key), mem_touched_delete, keys_delete hn]
      by_cases hkey : mime = key <;> simp [hkey]

theorem nodup_of_ascending {born : String → Nat} {keys : List String}
    (h : keys.Pairwise fun a b => born a < born b) : keys.Nodup :=
  h.imp fun hlt heq => absurd (heq ▸ hlt) (Nat.lt_irrefl _)

/-! ## Mirrors -/

/-- The list of a transfer shows a map: the same items, by ascending times. -/
structure Mirrors (t : Transfer) (m : OrderedMap) : Prop where
  item : ∀ mime, t.get? mime = m.item mime
  ascending : t.keys.Pairwise fun a b => m.born a < m.born b
  past : ∀ mime ∈ t.keys, m.born mime < m.now
  touched : ∀ mime, mime ∈ t.touched ↔ m.changed mime = true

variable {t other : Transfer} {m o : OrderedMap}

namespace Mirrors

theorem nodup (h : t.Mirrors m) : t.keys.Nodup := nodup_of_ascending h.ascending

theorem mem_keys_iff (h : t.Mirrors m) {mime : String} :
    mime ∈ t.keys ↔ (m.item mime).isSome = true := by
  rw [← h.item, ← contains_iff]
  rfl

theorem empty : Mirrors {} {} where
  item := fun _ => rfl
  ascending := List.Pairwise.nil
  past := fun _ hmem => absurd hmem List.not_mem_nil
  touched := fun _ => by simp

/-- Types that were there keep their times, and those that are new come after them. -/
theorem bornWith_eq (h : t.Mirrors m) (fresh : String → Nat) {mime : String}
    (hmem : mime ∈ t.keys) : m.bornWith fresh mime = m.born mime :=
  if_pos (h.mem_keys_iff.mp hmem)

theorem bornWith_fresh (h : t.Mirrors m) (fresh : String → Nat) {mime : String}
    (hmem : mime ∉ t.keys) : m.bornWith fresh mime = m.now + fresh mime :=
  if_neg fun hsome => hmem (h.mem_keys_iff.mpr hsome)

/-- What becomes of the order when the types of a list are set: `span` is how long that takes. -/
theorem ascending_setAll (h : t.Mirrors m) (es : Entries) {fresh : String → Nat} {span : Nat}
    (hfresh : (Entries.keys es).Pairwise fun a b => fresh a < fresh b)
    (hspan : ∀ mime ∈ Entries.keys es, fresh mime < span) :
    (t.setAll es).keys.Pairwise (fun a b => m.bornWith fresh a < m.bornWith fresh b) ∧
      ∀ mime ∈ (t.setAll es).keys, m.bornWith fresh mime < m.now + span := by
  have hnew : ∀ mime ∈ (Entries.keys es).filter (fun mime => mime ∉ t.keys),
      mime ∈ Entries.keys es ∧ m.bornWith fresh mime = m.now + fresh mime := fun mime hmime => by
    obtain ⟨hmem, hnot⟩ := List.mem_filter.mp hmime
    exact ⟨hmem, h.bornWith_fresh fresh (by simpa using hnot)⟩
  rw [keys_setAll t (nodup_of_ascending hfresh), List.pairwise_append]
  refine ⟨⟨?_, ?_, fun a ha b hb => ?_⟩, fun mime hmime => ?_⟩
  · exact h.ascending.imp_of_mem fun ha hb hlt => by
      rwa [h.bornWith_eq fresh ha, h.bornWith_eq fresh hb]
  · exact (hfresh.filter _).imp_of_mem fun ha hb hlt => by
      rw [(hnew _ ha).2, (hnew _ hb).2]
      omega
  · have hpast := h.past a ha
    rw [h.bornWith_eq fresh ha, (hnew b hb).2]
    omega
  · rcases List.mem_append.mp hmime with hmem | hmem
    · have hpast := h.past mime hmem
      rw [h.bornWith_eq fresh hmem]
      omega
    · have hlt := hspan mime (hnew mime hmem).1
      rw [(hnew mime hmem).2]
      omega

theorem set (h : t.Mirrors m) (mime : String) (item : Item) :
    (t.set mime item).Mirrors (m.set mime item) := by
  obtain ⟨hascending, hpast⟩ := h.ascending_setAll [(mime, item)]
    (List.pairwise_singleton _ _) fun _ _ => Nat.one_pos
  refine ⟨fun key => ?_, hascending, hpast, fun key => ?_⟩
  · rw [get?_set, h.item]
    rfl
  · have htouched : key ∈ (t.set mime item).touched ↔ key = mime ∨ key ∈ t.touched := mem_touch
    rw [htouched, h.touched]
    simp [OrderedMap.set]

theorem delete (h : t.Mirrors m) (mime : String) : (t.delete mime).Mirrors (m.delete mime) where
  item := fun key => by
    rw [get?_delete h.nodup, h.item]
    rfl
  ascending := by
    rw [keys_delete h.nodup]
    exact h.ascending.filter _
  past := fun key hkey => by
    rw [keys_delete h.nodup] at hkey
    exact h.past key (List.mem_filter.mp hkey).1
  touched := fun key => by
    rw [mem_touched_delete, h.touched, h.mem_keys_iff]
    simp [OrderedMap.delete]

theorem merge (h : t.Mirrors m) (ho : other.Mirrors o) :
    (t.merge other).Mirrors (m.merge o) := by
  obtain ⟨hascending, hpast⟩ := h.ascending_setAll other.entries ho.ascending ho.past
  refine ⟨fun mime => ?_, hascending, hpast, fun mime => ?_⟩
  · rw [get?_merge t ho.nodup, ho.item, h.item]
    rfl
  · have htouched : mime ∈ (t.merge other).touched ↔ mime ∈ other.keys ∨ mime ∈ t.touched :=
      mem_touched_setAll
    rw [htouched, ho.mem_keys_iff, h.touched]
    simp [OrderedMap.merge]

theorem fork (h : t.Mirrors m) : t.fork.Mirrors m.fork where
  item := h.item
  ascending := h.ascending
  past := h.past
  touched := fun mime => by simp [Transfer.fork, OrderedMap.fork]

theorem absorb (h : t.Mirrors m) (ho : other.Mirrors o) :
    (t.absorb other).Mirrors (m.absorb o) := by
  -- what the fork set, and what it removed
  have hsub : (Entries.keys (other.entries.filter fun e => e.1 ∈ other.touched)).Sublist
      other.keys := List.filter_sublist.map Prod.fst
  have hmem : ∀ mime, mime ∈ Entries.keys (other.entries.filter fun e => e.1 ∈ other.touched) ↔
      mime ∈ other.touched ∧ mime ∈ other.keys := fun mime => by
    rw [← Entries.get?_isSome_iff, Entries.get?_filter (fun key => decide (key ∈ other.touched)),
      keys_eq, ← Entries.get?_isSome_iff]
    by_cases htouched : mime ∈ other.touched <;> simp [htouched]
  have hgone : ∀ mime, mime ∈ other.touched.filter (fun mime => !other.contains mime) ↔
      mime ∈ other.touched ∧ mime ∉ other.keys := fun mime => by
    rw [List.mem_filter, ← contains_iff]
    simp
  obtain ⟨hascending, hpast⟩ := h.ascending_setAll _ (ho.ascending.sublist hsub)
    fun mime hmime => ho.past mime (hsub.subset hmime)
  have hn := nodup_keys_setAll h.nodup (other.entries.filter fun e => e.1 ∈ other.touched)
  have hkeys : (t.absorb other).keys = _ := keys_foldl_delete hn _
  refine ⟨fun mime => ?_, ?_, fun mime hmime => ?_, fun mime => ?_⟩
  · rw [get?_absorb h.nodup ho.nodup, h.item, ho.item]
    simp only [ho.touched]
    rfl
  · rw [hkeys]
    exact hascending.filter _
  · rw [hkeys] at hmime
    exact hpast mime (List.mem_filter.mp hmime).1
  · show mime ∈ (List.foldl Transfer.delete _ _).touched ↔ _
    have hall : mime ∈ (t.setAll (other.entries.filter fun e => e.1 ∈ other.touched)).keys ↔
        mime ∈ t.keys ∨ (mime ∈ other.touched ∧ mime ∈ other.keys) := by
      rw [keys_setAll t (ho.nodup.sublist hsub), List.mem_append, List.mem_filter, hmem]
      by_cases hthere : mime ∈ t.keys <;> simp [hthere]
    rw [mem_touched_foldl_delete hn, mem_touched_setAll, hmem, hgone, hall, h.touched, ho.touched,
      h.mem_keys_iff, ho.mem_keys_iff]
    cases hchanged : o.changed mime <;> cases hitem : o.item mime <;>
      simp [OrderedMap.absorb, hchanged, hitem]

theorem ofList (entries : Entries) : (ofList entries).Mirrors (OrderedMap.ofList entries) := by
  induction entries using List.reverseRecOn with
  | nil => exact empty
  | append_singleton entries e ih =>
      have hleft : Transfer.ofList (entries ++ [e]) = (Transfer.ofList entries).set e.1 e.2 := by
        simp [Transfer.ofList, setAll]
      have hright : OrderedMap.ofList (entries ++ [e]) =
          (OrderedMap.ofList entries).set e.1 e.2 := by simp [OrderedMap.ofList]
      rw [hleft, hright]
      exact ih.set e.1 e.2

end Mirrors

end Transfer

end CopyPaste
