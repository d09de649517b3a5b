import CopyPaste.Proofs.Transfer.OrderedMap
import CopyPaste.Shelf
import Mathlib.Data.Set.Card

/-!
# The shelf as a family of ordered maps

Whatever is done with the transfers on a shelf, each of them shows the ordered map that the same
operations make. The maps are values: an operation changes the one of its holder, and absorbing
empties the one absorbed; no other holder notices, even those whose transfer came of a copy.

* `ShelfOp.onMaps`, `Shelf.mapsAfter` — the same operations on maps;
* **`Shows.step`**, **`Shows.run`** — one operation, and a sequence of them;
* **`get_after_of_apart`** — a transfer that no operation writes stays as it is;
* **`keeps_maps`** — what every sequence of operations makes of an empty shelf.
-/

namespace CopyPaste

/-! ## Operations on maps -/

/-- The item of an origin, when the holders have maps in place of transfers. -/
def Origin.item? (desk : Desk) (maps : String → OrderedMap) : Origin → Option Item
  | .text source fromPlatform =>
    some (.text (desk.reads.defer source.value fromPlatform source.gate).1)
  | .file name uri content fromPlatform gate =>
    some (.file ⟨name, uri, (desk.reads.defer content fromPlatform gate).1⟩)
  | .shared holder mime => (maps holder).item mime

/-- The entries that a list of items makes. -/
def Shelf.entriesOf (s : Shelf) (maps : String → OrderedMap) : List (String × Origin) → Entries
  | [] => []
  | (mime, origin) :: rest =>
    ((origin.item? s.desk maps).map fun item => (mime, item)).toList ++
      (s.make origin).2.entriesOf maps rest

/-- What an action of a copy provider does to the map it holds. -/
def CopyAction.onMap (call : Call) (desk : Desk) (m : OrderedMap) : CopyAction → OrderedMap
  | .set mime text => m.set mime (desk.newText text).1
  | .setFile mime name uri content => m.set mime (desk.newFile name uri content).1
  | .setSlice mime =>
    m.set mime (desk.newText ((call.document.slice? call.selection).getD "<none>")).1
  | .delete mime => m.delete mime
  | .setSnippet =>
    match Snippet.ofSelection? call.document call.selection with
    | some snippet => m.set snippetMime (desk.newText snippet.encode).1
    | none => m
  | .pause _ | .report _ | .fail _ | .crash => m

namespace ShelfOp

/-- What an operation does when the holders have maps. The shelf beside them makes the items. -/
def onMaps (s : Shelf) (maps : String → OrderedMap) : ShelfOp → String → OrderedMap
  | .set holder mime origin =>
    match origin.item? s.desk maps with
    | some item => Function.update maps holder ((maps holder).set mime item)
    | none => maps
  | .delete holder mime => Function.update maps holder ((maps holder).delete mime)
  | .merge holder source => Function.update maps holder ((maps holder).merge (maps source))
  | .fork holder source => Function.update maps holder (maps source).fork
  | .clone holder source => Function.update maps holder (maps source)
  | .absorb holder source =>
    let left := Function.update maps source {}
    Function.update left holder ((left holder).absorb (maps source))
  | .collect holder items =>
    Function.update maps holder (OrderedMap.ofList (s.entriesOf maps items))
  | .copyStep holder call _ _ action =>
    Function.update maps holder (action.onMap call s.desk (maps holder))
  | .contains .. | .keys .. | .describe .. | .readText .. | .readFile .. | .display ..
  | .pasteStep .. | .openGate .. | .tick => maps

/-- The holders whose transfers an operation may change. -/
def writes : ShelfOp → List String
  | .set holder .. | .delete holder .. | .merge holder .. | .fork holder .. | .clone holder ..
  | .collect holder .. | .copyStep holder .. => [holder]
  | .absorb holder source => [holder, source]
  | .contains .. | .keys .. | .describe .. | .readText .. | .readFile .. | .display ..
  | .pasteStep .. | .openGate .. | .tick => []

/-- The holder whose transfer an operation copies from. -/
def copiesFrom? : ShelfOp → Option String
  | .merge _ source | .fork _ source | .clone _ source => some source
  | _ => none

end ShelfOp

namespace Shelf

/-- The maps after a sequence of operations that a shelf goes through at the same time. -/
def mapsAfter : Shelf → (String → OrderedMap) → List ShelfOp → String → OrderedMap
  | _, maps, [] => maps
  | s, maps, op :: rest => (s.perform op).2.mapsAfter (op.onMaps s maps) rest

/-! ## Holders -/

theorem lookup_filter_of_ne {holder name : String} (h : name ≠ holder)
    (transfers : List (String × Transfer)) :
    (transfers.filter fun e => e.1 != holder).lookup name = transfers.lookup name := by
  induction transfers with
  | nil => rfl
  | cons e rest ih =>
      obtain ⟨key, t⟩ := e
      by_cases hkey : key = holder
      · subst hkey
        have hbeq : (name == key) = false := by simpa using h
        simp [List.lookup_cons, hbeq, ih]
      · simp [List.lookup_cons, hkey, ih]

theorem get_put (s : Shelf) (holder : String) (t : Transfer) (name : String) :
    (s.put holder t).get name = if name = holder then t else s.get name := by
  unfold get put
  by_cases hname : name = holder
  · simp [hname]
  · have hbeq : (name == holder) = false := by simpa using hname
    simp [List.lookup_cons, hname, hbeq, lookup_filter_of_ne hname]

@[simp] theorem get_make (s : Shelf) (origin : Origin) : (s.make origin).2.get = s.get := by
  cases origin <;> rfl

@[simp] theorem get_makeAll (s : Shelf) (items : List (String × Origin)) :
    (s.makeAll items).2.get = s.get := by
  induction items generalizing s with
  | nil => rfl
  | cons entry rest ih => exact (ih (s.make entry.2).2).trans (s.get_make entry.2)

/-- An operation that writes to nobody leaves all transfers as they are. -/
theorem get_perform_of_reading {s : Shelf} {op : ShelfOp} (h : op.writes = []) :
    (s.perform op).2.get = s.get := by
  cases op with
  | readText reader holder mime =>
      simp only [perform]
      split <;> rfl
  | readFile reader holder mime =>
      simp only [perform]
      split <;> rfl
  | contains | keys | describe | display | pasteStep | openGate | tick => rfl
  | set | delete | merge | fork | clone | absorb | collect | copyStep =>
      simp [ShelfOp.writes] at h

/-! ## One operation -/

/-- Every transfer on a shelf shows the map of its holder. -/
def Shows (s : Shelf) (maps : String → OrderedMap) : Prop :=
  ∀ holder, (s.get holder).Mirrors (maps holder)

variable {s : Shelf} {maps : String → OrderedMap}

namespace Shows

theorem put (h : s.Shows maps) (holder : String) {t : Transfer} {m : OrderedMap}
    (ht : t.Mirrors m) : (s.put holder t).Shows (Function.update maps holder m) := by
  intro name
  rw [get_put, Function.update_apply]
  split
  · exact ht
  · exact h name

/-- What matters is what the holders have. -/
theorem of_get_eq (h : s.Shows maps) {s' : Shelf} (hget : s'.get = s.get) : s'.Shows maps := by
  unfold Shows
  rw [hget]
  exact h

theorem make_fst (h : s.Shows maps) (origin : Origin) :
    (s.make origin).1 = origin.item? s.desk maps := by
  cases origin with
  | text source fromPlatform => rfl
  | file name uri content fromPlatform gate => rfl
  | shared holder mime => exact (h holder).item mime

theorem makeAll_fst (h : s.Shows maps) (items : List (String × Origin)) :
    (s.makeAll items).1 = s.entriesOf maps items := by
  induction items generalizing s with
  | nil => rfl
  | cons entry rest ih =>
      obtain ⟨mime, origin⟩ := entry
      show ((s.make origin).1.map fun item => (mime, item)).toList ++
        ((s.make origin).2.makeAll rest).1 = _
      rw [h.make_fst origin, ih (h.of_get_eq (s.get_make origin))]
      rfl

end Shows

/-- What an action of a copy provider does to its transfer, it does to the map shown. -/
theorem mirrors_copyAction {t : Transfer} {m : OrderedMap} (h : t.Mirrors m) (call : Call)
    (cancelled : Bool) (begun : Option Nat) (desk : Desk) (action : CopyAction) :
    (action.perform call cancelled begun t desk).2.1.Mirrors (action.onMap call desk m) := by
  cases action with
  | pause p => exact h
  | report r => exact h
  | set mime text => exact h.set mime _
  | setFile mime name uri content => exact h.set mime _
  | setSlice mime => exact h.set mime _
  | delete mime => exact h.delete mime
  | setSnippet =>
      simp only [CopyAction.perform, CopyAction.onMap]
      cases Snippet.ofSelection? call.document call.selection with
      | none => exact h
      | some snippet => exact h.set snippetMime _
  | fail error => exact h
  | crash => exact h

/-- **One operation:** the transfers go on showing the maps. -/
theorem Shows.step (h : s.Shows maps) (op : ShelfOp) :
    (s.perform op).2.Shows (op.onMaps s maps) := by
  cases op with
  | set holder mime origin =>
      have hget := s.get_make origin
      have hitem := h.make_fst origin
      simp only [perform, ShelfOp.onMaps]
      rcases hmake : s.make origin with ⟨item, s'⟩
      rw [hmake] at hget hitem
      cases item with
      | none =>
          rw [← hitem]
          exact h.of_get_eq hget
      | some item =>
          rw [← hitem]
          have hset : ((s'.get holder).set mime item).Mirrors ((maps holder).set mime item) := by
            rw [hget]
            exact (h holder).set mime item
          exact (h.of_get_eq hget).put holder hset
  | delete holder mime => exact h.put holder ((h holder).delete mime)
  | merge holder source => exact h.put holder ((h holder).merge (h source))
  | fork holder source => exact h.put holder (h source).fork
  | clone holder source => exact h.put holder (h source)
  | absorb holder source =>
      have hleft := h.put source Transfer.Mirrors.empty
      exact hleft.put holder ((hleft holder).absorb (h source))
  | collect holder items =>
      have hlist : (Transfer.ofList (s.makeAll items).1).Mirrors
          (OrderedMap.ofList (s.entriesOf maps items)) := by
        rw [h.makeAll_fst]
        exact Transfer.Mirrors.ofList _
      exact (h.of_get_eq (s.get_makeAll items)).put holder hlist
  | copyStep holder call cancelled begun action =>
      exact (h.of_get_eq rfl).put holder
        (mirrors_copyAction (h holder) call cancelled begun s.desk action)
  | contains | keys | describe | readText | readFile | display | pasteStep | openGate | tick =>
      exact h.of_get_eq (get_perform_of_reading rfl)

/-- **A sequence of operations:** the transfers show the maps that the same operations made. -/
theorem Shows.run (h : s.Shows maps) (ops : List ShelfOp) :
    (s.after ops).Shows (s.mapsAfter maps ops) := by
  induction ops generalizing s maps with
  | nil => exact h
  | cons op rest ih => exact ih (h.step op)

/-! ## Who notices -/

/-- **An operation changes the transfers of those it writes to,** and no other. -/
theorem get_perform_of_apart {op : ShelfOp} {name : String} (h : name ∉ op.writes) :
    (s.perform op).2.get name = s.get name := by
  have hput : ∀ {s' : Shelf} {holder : String} (t : Transfer), op.writes = [holder] →
      s'.get = s.get → (s'.put holder t).get name = s.get name := by
    intro s' holder t hwrites hget
    rw [hwrites, List.mem_singleton] at h
    rw [get_put, if_neg h, hget]
  cases op with
  | set holder mime origin =>
      have hget := s.get_make origin
      simp only [perform]
      rcases hmake : s.make origin with ⟨item, s'⟩
      rw [hmake] at hget
      cases item with
      | none => exact congrFun hget name
      | some item => exact hput _ rfl hget
  | collect holder items => exact hput _ rfl (s.get_makeAll items)
  | absorb holder source =>
      obtain ⟨hholder, hsource⟩ : name ≠ holder ∧ name ≠ source := by simpa [ShelfOp.writes] using h
      simp only [perform]
      rw [get_put, if_neg hholder, get_put, if_neg hsource]
  | delete | merge | fork | clone | copyStep => exact hput _ rfl rfl
  | contains | keys | describe | readText | readFile | display | pasteStep | openGate | tick =>
      exact congrFun (get_perform_of_reading rfl) name

/-- **A transfer that no operation writes to stays as it is,** whatever becomes of its copies. -/
theorem get_after_of_apart {ops : List ShelfOp} {name : String}
    (h : ∀ op ∈ ops, name ∉ op.writes) : (s.after ops).get name = s.get name := by
  induction ops generalizing s with
  | nil => rfl
  | cons op rest ih =>
      obtain ⟨hop, hrest⟩ := List.forall_mem_cons.mp h
      rw [after_cons, ih hrest, get_perform_of_apart hop]

/-! ## All operations -/

theorem size_eq_ncard {t : Transfer} {m : OrderedMap} (h : t.Mirrors m) :
    t.size = {mime | (m.item mime).isSome = true}.ncard := by
  have hset : (t.keys.toFinset : Set String) = {mime | (m.item mime).isSome = true} := by
    ext mime
    simp [h.mem_keys_iff]
  rw [← hset, Set.ncard_coe_finset, List.toFinset_card_of_nodup h.nodup]
  exact (List.length_map _).symm

/-- The transfers on a shelf are ordered maps throughout a sequence of operations. -/
structure KeepsMaps (start : Shelf) (maps : String → OrderedMap) (ops : List ShelfOp) : Prop where
  /-- A type occurs once. -/
  unique : ∀ holder, ((start.after ops).get holder).keys.Nodup
  /-- There are as many entries as types in the map. -/
  size : ∀ holder, ((start.after ops).get holder).size =
    {mime | ((start.mapsAfter maps ops holder).item mime).isSome = true}.ncard
  /-- What is found under a type is what the map has there. -/
  item : ∀ holder mime, ((start.after ops).get holder).get? mime =
    (start.mapsAfter maps ops holder).item mime
  present : ∀ holder mime, ((start.after ops).get holder).contains mime =
    ((start.mapsAfter maps ops holder).item mime).isSome
  /-- The types are listed in the order in which they came in. -/
  ordered : ∀ holder, ((start.after ops).get holder).keys.Pairwise fun a b =>
    (start.mapsAfter maps ops holder).born a < (start.mapsAfter maps ops holder).born b
  /-- Copying from a transfer leaves it as it was. -/
  source : ∀ early op late source, ops = early ++ op :: late → op.copiesFrom? = some source →
    source ∉ op.writes → (start.after (early ++ [op])).get source = (start.after early).get source
  /-- Whatever is done to others, copies included, changes nothing. -/
  apart : ∀ early late holder, ops = early ++ late → (∀ op ∈ late, holder ∉ op.writes) →
    (start.after ops).get holder = (start.after early).get holder

/-- **Whatever is done with transfers, they are ordered maps.** -/
theorem keeps_maps (ops : List ShelfOp) : KeepsMaps {} (fun _ => {}) ops := by
  have hshows : (({} : Shelf).after ops).Shows (({} : Shelf).mapsAfter (fun _ => {}) ops) :=
    Shows.run (s := {}) (fun _ => Transfer.Mirrors.empty) ops
  constructor
  case unique => exact fun holder => (hshows holder).nodup
  case size => exact fun holder => size_eq_ncard (hshows holder)
  case item => exact fun holder => (hshows holder).item
  case present => exact fun holder mime => congrArg Option.isSome ((hshows holder).item mime)
  case ordered => exact fun holder => (hshows holder).ascending
  case source =>
    intro early op late source _ _ hsource
    rw [after_append]
    exact get_perform_of_apart hsource
  case apart =>
    rintro early late holder rfl hlate
    rw [after_append]
    exact get_after_of_apart hlate

end Shelf

end CopyPaste
