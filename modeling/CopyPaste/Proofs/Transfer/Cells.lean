import CopyPaste.Proofs.Transfer.Normalized

/-!
# Cells

What is behind an item is a cell: a deferred value that every copy of the item shares. A chart
lists all cells that there are in the order in which they were made, so that a cell stands at the
position of its identity, and an item that is held anywhere has its cell on the chart. What is
behind two items of one identity is then the same, wherever they are held.

* `Cell`, `Charted` — the cell of an item, and its place on the chart;
* `Ledger` — a ledger of reads that fits a chart: the platform has been asked once for each of its
  cells that somebody asked for, and never otherwise;
* `Transfer.All`, `Transfer.On` — what holds of all items in a transfer is kept by every operation
  on transfers, and so is that they have their cells on the chart;
* **`Ledger.defer`**, **`Ledger.ask`** — a cell is made, and a cell is asked for.
-/

namespace CopyPaste

/-! ## Cells -/

/-- What is behind an item, whatever the item is called. -/
inductive Cell
  | text (value : Deferred String)
  | content (data : Deferred (Except ReadFailure Bytes))

/-- What comes of a cell. -/
inductive Value
  | text (text : String)
  | content (content : Except ReadFailure Bytes)

namespace Cell

def id : Cell → Nat
  | text value => value.id
  | content data => data.id

def fromPlatform : Cell → Bool
  | text value => value.fromPlatform
  | content data => data.fromPlatform

def value : Cell → Value
  | text value => .text value.value
  | content data => .content data.value

end Cell

/-- The cell behind an item. -/
def Item.cell : Item → Cell
  | .text value => .text value
  | .file f => .content f.data

/-- The cell stands on the chart. -/
def Charted (chart : List Cell) (c : Cell) : Prop := chart[c.id]? = some c

theorem Charted.mono {chart : List Cell} {c : Cell} (h : Charted chart c) (more : List Cell) :
    Charted (chart ++ more) c := by
  unfold Charted at *
  rw [List.getElem?_append_left (List.getElem?_eq_some_iff.mp h).1, h]

/-- **A chart has one cell of an identity.** -/
theorem Charted.unique {chart : List Cell} {c d : Cell} (hc : Charted chart c)
    (hd : Charted chart d) (h : c.id = d.id) : c = d := by
  unfold Charted at *
  rw [h, hd] at hc
  exact (Option.some.inj hc).symm

/-! ## Transfers -/

namespace Entries

variable {P : Item → Prop} {es : Entries}

theorem forall_get? (h : ∀ e ∈ es, P e.2) {mime : String} {item : Item}
    (hitem : get? mime es = some item) : P item := by
  induction es with
  | nil => simp [get?] at hitem
  | cons e es ih =>
      obtain ⟨key, old⟩ := e
      obtain ⟨hold, hrest⟩ := List.forall_mem_cons.mp h
      unfold get? at hitem
      split at hitem
      · exact Option.some.inj hitem ▸ hold
      · exact ih hrest hitem

theorem forall_set (h : ∀ e ∈ es, P e.2) (mime : String) {item : Item} (hitem : P item) :
    ∀ e ∈ set mime item es, P e.2 := by
  induction es with
  | nil => simpa [set] using hitem
  | cons e es ih =>
      obtain ⟨key, old⟩ := e
      obtain ⟨hold, hrest⟩ := List.forall_mem_cons.mp h
      unfold set
      split
      · exact List.forall_mem_cons.mpr ⟨hitem, hrest⟩
      · exact List.forall_mem_cons.mpr ⟨hold, ih hrest⟩

theorem forall_erase (h : ∀ e ∈ es, P e.2) (mime : String) : ∀ e ∈ erase mime es, P e.2 := by
  induction es with
  | nil => exact h
  | cons e es ih =>
      obtain ⟨key, old⟩ := e
      obtain ⟨hold, hrest⟩ := List.forall_mem_cons.mp h
      unfold erase
      split
      · exact hrest
      · exact List.forall_mem_cons.mpr ⟨hold, ih hrest⟩

end Entries

namespace Transfer

/-- Something holds of all items in a transfer. -/
def All (P : Item → Prop) (t : Transfer) : Prop := ∀ e ∈ t.entries, P e.2

variable {P : Item → Prop} {t : Transfer}

theorem all_empty : All P {} := fun _ he => absurd he List.not_mem_nil

theorem All.get? (h : t.All P) {mime : String} {item : Item} (hitem : t.get? mime = some item) :
    P item :=
  Entries.forall_get? h hitem

theorem All.imp {Q : Item → Prop} (h : t.All P) (himp : ∀ item, P item → Q item) : t.All Q :=
  fun e he => himp e.2 (h e he)

theorem All.set (h : t.All P) (mime : String) {item : Item} (hitem : P item) :
    (t.set mime item).All P :=
  Entries.forall_set h mime hitem

theorem All.delete (h : t.All P) (mime : String) : (t.delete mime).All P := by
  unfold Transfer.delete
  split
  · exact Entries.forall_erase h mime
  · exact h

theorem All.setAll (h : t.All P) {es : Entries} (hes : ∀ e ∈ es, P e.2) : (t.setAll es).All P := by
  induction es generalizing t with
  | nil => exact h
  | cons e es ih =>
      exact ih (h.set e.1 (hes e List.mem_cons_self)) fun e' he' =>
        hes e' (List.mem_cons_of_mem e he')

theorem All.merge (h : t.All P) {other : Transfer} (hother : other.All P) : (t.merge other).All P :=
  h.setAll hother

theorem All.fork (h : t.All P) : t.fork.All P := h

theorem All.foldl_delete (h : t.All P) (gone : List String) :
    (gone.foldl Transfer.delete t).All P := by
  induction gone generalizing t with
  | nil => exact h
  | cons mime gone ih => exact ih (h.delete mime)

theorem All.absorb (h : t.All P) {fork : Transfer} (hfork : fork.All P) : (t.absorb fork).All P :=
  (h.setAll fun e he => hfork e (List.mem_filter.mp he).1).foldl_delete _

/-- All items in a transfer have their cells on the chart. -/
abbrev On (t : Transfer) (chart : List Cell) : Prop := t.All fun item => Charted chart item.cell

theorem All.mono {chart : List Cell} (h : t.On chart) (more : List Cell) : t.On (chart ++ more) :=
  h.imp fun _ hc => hc.mono more

end Transfer

/-! ## Ledgers -/

/-- A ledger of reads that fits a chart. -/
structure Ledger (chart : List Cell) (reads : Reads) : Prop where
  /-- Every cell stands at the position of its identity. -/
  ids : chart.map Cell.id = List.range chart.length
  next : reads.next = chart.length
  once : reads.asked.Nodup
  known : ∀ i ∈ reads.asked, i < chart.length
  /-- What is known by now was asked for. -/
  resolved : ∀ i ∈ reads.resolved, i ∈ reads.asked
  /-- The platform has been asked once for each of its cells that somebody asked for. -/
  count : reads.count =
    chart.countP fun c : Cell => c.fromPlatform && reads.asked.contains c.id

namespace Ledger

variable {chart : List Cell} {reads : Reads}

theorem empty : Ledger [] {} where
  ids := rfl
  next := rfl
  once := List.nodup_nil
  known := fun _ hi => absurd hi List.not_mem_nil
  resolved := fun _ hi => absurd hi List.not_mem_nil
  count := rfl

theorem charted_of_mem (h : Ledger chart reads) {c : Cell} (hc : c ∈ chart) :
    Charted chart c := by
  obtain ⟨i, hi⟩ := List.getElem?_of_mem hc
  have hid : (chart.map Cell.id)[i]? = some c.id := by rw [List.getElem?_map, hi]; rfl
  rw [h.ids, List.getElem?_eq_some_iff] at hid
  obtain ⟨hlt, hid⟩ := hid
  rw [List.getElem_range] at hid
  unfold Charted
  rw [← hid, hi]

/-- **A new cell comes last on the chart,** and nobody has asked for it yet. -/
theorem defer (h : Ledger chart reads) {c : Cell} (hid : c.id = reads.next) :
    Ledger (chart ++ [c]) { reads with next := reads.next + 1 } where
  ids := by
    rw [List.map_append, h.ids, List.length_append, List.length_singleton, List.range_succ,
      ← h.next, ← hid]
    rfl
  next := by
    rw [h.next, List.length_append, List.length_singleton]
  once := h.once
  known := fun i hi => by
    rw [List.length_append, List.length_singleton]
    exact Nat.lt_succ_of_lt (h.known i hi)
  resolved := h.resolved
  count := by
    have hnot : c.id ∉ reads.asked := by
      rw [hid, h.next]
      exact fun hmem => Nat.lt_irrefl _ (h.known _ hmem)
    rw [h.count, List.countP_append]
    simp [hnot]

/-- Asking for one more cell counts it, if it is one of the platform. -/
theorem countP_ask {c : Cell} {asked : List Nat} (hc : c ∈ chart)
    (hnodup : (chart.map Cell.id).Nodup) (hnot : c.id ∉ asked) :
    chart.countP (fun d : Cell => d.fromPlatform && (c.id :: asked).contains d.id) =
      chart.countP (fun d : Cell => d.fromPlatform && asked.contains d.id) +
        if c.fromPlatform then 1 else 0 := by
  induction chart with
  | nil => exact absurd hc List.not_mem_nil
  | cons d rest ih =>
      obtain ⟨hd, hrest⟩ := List.nodup_cons.mp hnodup
      rw [List.countP_cons, List.countP_cons]
      by_cases hid : d.id = c.id
      · -- the cell itself; no other one has its identity
        obtain rfl : c = d := by
          rcases List.mem_cons.mp hc with rfl | hmem
          · rfl
          · exact absurd (List.mem_map_of_mem hmem) (hid ▸ hd)
        have hsame : rest.countP (fun d : Cell => d.fromPlatform && (c.id :: asked).contains d.id) =
            rest.countP (fun d : Cell => d.fromPlatform && asked.contains d.id) := by
          refine List.countP_congr fun e he => ?_
          have hne : e.id ≠ c.id := fun heq => hd (heq ▸ List.mem_map_of_mem he)
          simp [hne]
        rw [hsame]
        simp [hnot]
      · have hmem : c ∈ rest := by
          rcases List.mem_cons.mp hc with rfl | hmem
          · exact absurd rfl hid
          · exact hmem
        rw [ih hmem hrest]
        simp [hid]
        omega

/-- **A cell on the chart is asked for.** The platform is asked if the cell is one of its own and
nobody asked for it before. -/
theorem ask (h : Ledger chart reads) {α : Type} {d : Deferred α} {c : Cell}
    (hc : Charted chart c) (hid : c.id = d.id) (hplatform : c.fromPlatform = d.fromPlatform) :
    Ledger chart (reads.ask d) := by
  unfold Reads.ask
  split
  · exact h
  next hnot =>
    have hnot : c.id ∉ reads.asked := by simpa [hid] using hnot
    have hnodup : (chart.map Cell.id).Nodup := h.ids ▸ List.nodup_range
    exact
      { ids := h.ids
        next := h.next
        once := List.nodup_cons.mpr ⟨hid ▸ hnot, h.once⟩
        known := List.forall_mem_cons.mpr
          ⟨hid ▸ (List.getElem?_eq_some_iff.mp hc).1, h.known⟩
        resolved := fun i hi => List.mem_cons_of_mem _ (h.resolved i hi)
        count := by
          show (if d.fromPlatform then reads.count + 1 else reads.count) = _
          rw [← hid, countP_ask (List.mem_of_getElem? hc) hnodup hnot, ← h.count, hplatform]
          split <;> rfl }

end Ledger

end CopyPaste
