import CopyPaste.Proofs.Transfer.OrderedMap

/-!
# What a fork hands back

A transfer records which types were set or removed on it, and `absorb` replays a fork from that
record alone. What the record must say is written down without it: every transfer has a lineage,
the operations by which it came to be, and a type has changed when one of them, since the transfer
was made or forked, put an item under it or took one away.

* `Lineage` — how a transfer came to be, and `Lineage.Changed` — what changed on the way;
* **`mem_touched_iff`** — the record of a transfer is what changed;
* **`changed_after_iff`** — what changed on a fork, operation by operation;
* **`get?_after`** — what did not change is as it was;
* **`absorb_spec`** — a replay hands over what changed and nothing else, in one order.
-/

namespace CopyPaste

/-- How a transfer came to be. A clone came to be as the transfer it was cloned from, and what is
made of a list or of a payload is set item by item. -/
inductive Lineage
  | empty
  | set (before : Lineage) (mime : String) (item : Item)
  | delete (before : Lineage) (mime : String)
  | merge (before other : Lineage)
  | absorb (before other : Lineage)
  | fork (source : Lineage)

/-- What can be done to a transfer. -/
inductive Change
  | set (mime : String) (item : Item)
  | delete (mime : String)
  | merge (other : Lineage)
  | absorb (other : Lineage)

namespace Lineage

/-- The transfer that came to be. -/
def transfer : Lineage → Transfer
  | .empty => {}
  | .set before mime item => before.transfer.set mime item
  | .delete before mime => before.transfer.delete mime
  | .merge before other => before.transfer.merge other.transfer
  | .absorb before other => before.transfer.absorb other.transfer
  | .fork source => source.transfer.fork

/-- A type has been set, or has been removed although it was there, since the transfer was made or
forked. -/
def Changed (mime : String) : Lineage → Prop
  | .empty => False
  | .set before key _ => mime = key ∨ before.Changed mime
  | .delete before key => (mime = key ∧ mime ∈ before.transfer.keys) ∨ before.Changed mime
  | .merge before other => mime ∈ other.transfer.keys ∨ before.Changed mime
  | .absorb before other =>
    (other.Changed mime ∧ (mime ∈ other.transfer.keys ∨ mime ∈ before.transfer.keys)) ∨
      before.Changed mime
  | .fork _ => False

/-- The lineage with one operation more. -/
def apply (h : Lineage) : Change → Lineage
  | .set mime item => .set h mime item
  | .delete mime => .delete h mime
  | .merge other => .merge h other
  | .absorb other => .absorb h other

/-- The lineage with a sequence of operations more. -/
def after (h : Lineage) (changes : List Change) : Lineage := changes.foldl apply h

end Lineage

/-- An operation sets a type, or removes it although it is there. An absorbed transfer sets what
changed on it and is there, and removes what changed on it and is gone. -/
def Change.Hits (h : Lineage) (mime : String) : Change → Prop
  | .set key _ => mime = key
  | .delete key => mime = key ∧ mime ∈ h.transfer.keys
  | .merge other => mime ∈ other.transfer.keys
  | .absorb other =>
    other.Changed mime ∧ (mime ∈ other.transfer.keys ∨ mime ∈ h.transfer.keys)

namespace Lineage

@[simp] theorem after_nil (h : Lineage) : h.after [] = h := rfl

theorem after_concat (h : Lineage) (changes : List Change) (c : Change) :
    h.after (changes ++ [c]) = (h.after changes).apply c := by
  simp [after]

/-! ## Records -/

/-- The ordered map with the same lineage. -/
def map : Lineage → OrderedMap
  | .empty => {}
  | .set before mime item => before.map.set mime item
  | .delete before mime => before.map.delete mime
  | .merge before other => before.map.merge other.map
  | .absorb before other => before.map.absorb other.map
  | .fork source => source.map.fork

theorem mirrors (h : Lineage) : h.transfer.Mirrors h.map := by
  induction h with
  | empty => exact .empty
  | set before mime item ih => exact ih.set mime item
  | delete before mime ih => exact ih.delete mime
  | merge before other ih iho => exact ih.merge iho
  | absorb before other ih iho => exact ih.absorb iho
  | fork source ih => exact ih.fork

theorem changed_map_iff (h : Lineage) (mime : String) :
    h.map.changed mime = true ↔ h.Changed mime := by
  induction h with
  | empty => simp [map, Changed]
  | set before key item ih => simp [map, Changed, OrderedMap.set, ih]
  | delete before key ih =>
      simp [map, Changed, OrderedMap.delete, ih, before.mirrors.mem_keys_iff, or_comm]
  | merge before other ih iho =>
      simp [map, Changed, OrderedMap.merge, ih, other.mirrors.mem_keys_iff]
  | absorb before other ih iho =>
      simp only [map, Changed, OrderedMap.absorb, Bool.or_eq_true, Bool.and_eq_true, ih, iho,
        other.mirrors.mem_keys_iff, before.mirrors.mem_keys_iff, or_comm]
  | fork source ih => simp [map, Changed, OrderedMap.fork]

theorem nodup_keys (h : Lineage) : h.transfer.keys.Nodup := h.mirrors.nodup

/-- **The record of a transfer is what changed.** -/
theorem mem_touched_iff (h : Lineage) (mime : String) :
    mime ∈ h.transfer.touched ↔ h.Changed mime :=
  (h.mirrors.touched mime).trans (h.changed_map_iff mime)

/-! ## Sequences of operations -/

theorem changed_apply_iff (h : Lineage) (c : Change) (mime : String) :
    (h.apply c).Changed mime ↔ c.Hits h mime ∨ h.Changed mime := by
  cases c <;> rfl

/-- **What changed on a fork:** the types that one of the operations on it set or removed. -/
theorem changed_after_iff (source : Lineage) (changes : List Change) (mime : String) :
    (source.fork.after changes).Changed mime ↔
      ∃ early c late, changes = early ++ c :: late ∧ c.Hits (source.fork.after early) mime := by
  induction changes using List.reverseRecOn with
  | nil => simp [Changed]
  | append_singleton changes c ih =>
      rw [after_concat, changed_apply_iff, ih]
      constructor
      · rintro (hhits | ⟨early, c', late, rfl, hhits⟩)
        · exact ⟨changes, c, [], rfl, hhits⟩
        · exact ⟨early, c', late ++ [c], by simp, hhits⟩
      · rintro ⟨early, c', late, heq, hhits⟩
        rcases List.eq_nil_or_concat late with rfl | ⟨rest, last, rfl⟩
        · obtain ⟨rfl, hc⟩ := List.append_inj' heq rfl
          exact .inl (List.singleton_inj.mp hc ▸ hhits)
        · have heq' : changes ++ [c] = (early ++ c' :: rest) ++ [last] := by simpa using heq
          exact .inr ⟨early, c', rest, (List.append_inj' heq' rfl).1, hhits⟩

/-- An operation leaves the types that it does not hit as they are. -/
theorem get?_apply {h : Lineage} {c : Change} {mime : String} (hmiss : ¬ c.Hits h mime) :
    (h.apply c).transfer.get? mime = h.transfer.get? mime := by
  have hgone {t : Transfer} (hmem : mime ∉ t.keys) : t.get? mime = none :=
    Entries.get?_eq_none_iff.mpr hmem
  cases c with
  | set key item =>
      show (h.transfer.set key item).get? mime = _
      rw [Transfer.get?_set, if_neg (Ne.symm hmiss)]
  | delete key =>
      show (h.transfer.delete key).get? mime = _
      rw [Transfer.get?_delete h.nodup_keys]
      split
      next hkey => exact (hgone fun hmem => hmiss ⟨hkey.symm, hmem⟩).symm
      next => rfl
  | merge other =>
      show (h.transfer.merge other.transfer).get? mime = _
      rw [Transfer.get?_merge _ other.nodup_keys, hgone hmiss, Option.none_or]
  | absorb other =>
      show (h.transfer.absorb other.transfer).get? mime = _
      rw [Transfer.get?_absorb h.nodup_keys other.nodup_keys]
      split
      next htouched =>
        -- what changed on the other and is neither there nor here
        have hnot := not_or.mp fun hor => hmiss ⟨(other.mem_touched_iff mime).mp htouched, hor⟩
        rw [hgone hnot.1, hgone hnot.2]
      next => rfl

/-- **What did not change is as it was** when the transfer was forked. -/
theorem get?_after {source : Lineage} {changes : List Change} {mime : String}
    (hsame : ¬ (source.fork.after changes).Changed mime) :
    (source.fork.after changes).transfer.get? mime = source.transfer.get? mime := by
  induction changes using List.reverseRecOn with
  | nil => rfl
  | append_singleton changes c ih =>
      rw [after_concat, changed_apply_iff, not_or] at hsame
      rw [after_concat, get?_apply hsame.1, ih hsame.2]

end Lineage

/-! ## Replays -/

namespace Entries

/-- Removing a type that occurs at most once keeps all other entries. -/
theorem erase_eq_filter {es : Entries} (hn : (keys es).Nodup) (mime : String) :
    erase mime es = es.filter fun e => e.1 != mime := by
  induction es with
  | nil => rfl
  | cons e es ih =>
      obtain ⟨key, item⟩ := e
      obtain ⟨hkey, hrest⟩ := List.nodup_cons.mp hn
      by_cases h : key = mime
      · subst h
        have hall : ∀ e ∈ es, (e.1 != key) = true := fun e he => by
          have hmem : e.1 ∈ keys es := List.mem_map_of_mem he
          have hne : e.1 ≠ key := fun heq => hkey (heq ▸ hmem)
          simpa using hne
        simp [erase, List.filter_eq_self.mpr hall]
      · simp [erase, h, ih hrest]

end Entries

namespace Transfer

theorem entries_delete {t : Transfer} (hn : t.keys.Nodup) (mime : String) :
    (t.delete mime).entries = t.entries.filter fun e => e.1 != mime := by
  unfold delete
  split
  next => exact Entries.erase_eq_filter hn mime
  next h =>
    have hne : ∀ e ∈ t.entries, e.1 ≠ mime := fun e he heq =>
      h (contains_iff.mpr (heq ▸ List.mem_map_of_mem he))
    exact (List.filter_eq_self.mpr fun e he => by simpa using hne e he).symm

theorem entries_foldl_delete {t : Transfer} (hn : t.keys.Nodup) (gone : List String) :
    (gone.foldl delete t).entries = t.entries.filter fun e => e.1 ∉ gone := by
  induction gone generalizing t with
  | nil => exact (List.filter_eq_self.mpr fun e _ => by simp).symm
  | cons mime gone ih =>
      rw [List.foldl_cons, ih (nodup_keys_delete hn mime), entries_delete hn, List.filter_filter]
      refine List.filter_congr fun e _ => Bool.eq_iff_iff.mpr ?_
      simp [and_comm]

/-- **The order of the record does not show.** The types that are gone may be removed in any
order. -/
theorem entries_absorb_congr {t fork : Transfer} (hn : t.keys.Nodup) {order : List String}
    (hsame : ∀ mime, mime ∈ order ↔ mime ∈ fork.touched) :
    (t.absorb { fork with touched := order }).entries = (t.absorb fork).entries := by
  have hset : (fork.entries.filter fun e => e.1 ∈ order) =
      fork.entries.filter fun e => e.1 ∈ fork.touched :=
    List.filter_congr fun e _ => by simp only [hsame]
  show ((order.filter fun mime => !fork.contains mime).foldl delete
      (t.setAll (fork.entries.filter fun e => e.1 ∈ order))).entries =
    ((fork.touched.filter fun mime => !fork.contains mime).foldl delete
      (t.setAll (fork.entries.filter fun e => e.1 ∈ fork.touched))).entries
  rw [hset, entries_foldl_delete (nodup_keys_setAll hn _),
    entries_foldl_delete (nodup_keys_setAll hn _)]
  refine List.filter_congr fun e _ => ?_
  simp only [List.mem_filter, hsame]

end Transfer

namespace Lineage

/-- What a target has become by absorbing a fork of a base on which something was done. -/
structure Replayed (base target : Lineage) (changes : List Change) : Prop where
  /-- What an operation on the fork set or removed is as on the fork. -/
  changed : ∀ early c late mime, changes = early ++ c :: late →
    c.Hits (base.fork.after early) mime →
    (target.absorb (base.fork.after changes)).transfer.get? mime =
      (base.fork.after changes).transfer.get? mime
  /-- Everything else is as it was in the target. -/
  others : ∀ mime, (∀ early c late, changes = early ++ c :: late →
      ¬ c.Hits (base.fork.after early) mime) →
    (target.absorb (base.fork.after changes)).transfer.get? mime = target.transfer.get? mime
  /-- A target that has what the base has agrees with the fork afterwards. -/
  agrees : (∀ mime, target.transfer.get? mime = base.transfer.get? mime) →
    ∀ mime, (target.absorb (base.fork.after changes)).transfer.get? mime =
      (base.fork.after changes).transfer.get? mime
  /-- The record of the fork may be gone through in any order. -/
  ordered : ∀ order, order.Perm (base.fork.after changes).transfer.touched →
    (target.transfer.absorb { (base.fork.after changes).transfer with
      touched := order }).entries =
    (target.absorb (base.fork.after changes)).transfer.entries
  /-- A type occurs once. -/
  unique : (target.absorb (base.fork.after changes)).transfer.keys.Nodup

/-- **A replay hands over what changed and nothing else.** Whatever was done to a fork of a
transfer, and whatever has become of the target in the meantime, absorbing the fork brings the
target exactly the types that an operation on the fork set or actually removed. -/
theorem absorb_spec (base target : Lineage) (changes : List Change) :
    Replayed base target changes := by
  have hget (mime : String) : (target.absorb (base.fork.after changes)).transfer.get? mime =
      if mime ∈ (base.fork.after changes).transfer.touched
      then (base.fork.after changes).transfer.get? mime else target.transfer.get? mime :=
    Transfer.get?_absorb target.nodup_keys (base.fork.after changes).nodup_keys mime
  have hrecord (mime : String) := ((base.fork.after changes).mem_touched_iff mime).trans
    (changed_after_iff base changes mime)
  constructor
  case changed =>
    intro early c late mime hchanges hhits
    rw [hget, if_pos ((hrecord mime).mpr ⟨early, c, late, hchanges, hhits⟩)]
  case others =>
    intro mime hmiss
    rw [hget, if_neg]
    intro htouched
    obtain ⟨early, c, late, hchanges, hhits⟩ := (hrecord mime).mp htouched
    exact hmiss early c late hchanges hhits
  case agrees =>
    intro hsame mime
    rw [hget]
    split
    next => rfl
    next hmiss =>
      rw [hsame, get?_after]
      exact fun hchanged => hmiss (((base.fork.after changes).mem_touched_iff mime).mpr hchanged)
  case ordered =>
    intro order hperm
    exact Transfer.entries_absorb_congr target.nodup_keys fun mime => hperm.mem_iff
  case unique => exact (target.absorb (base.fork.after changes)).nodup_keys

/-- What was set and removed again is gone from the target, what was removed and set again keeps its
place there, and removing what is not there removes nothing. -/
example (item : Item) :
    let base := (Lineage.empty.set "a" item).set "b" item
    let target := (base.set "c" item).set "d" item
    (target.absorb (base.fork.after
      [.set "a" item, .delete "a", .delete "b", .set "b" item, .delete "c"])).transfer.keys =
      ["b", "c", "d"] := by
  cbv

end Lineage

end CopyPaste
