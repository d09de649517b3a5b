import CopyPaste.Coordinator.Copying
import CopyPaste.Coordinator.Pasting
import CopyPaste.Proofs.Transfer.Cells

/-!
# Who asks for what

A ledger changes in two ways only: a cell is made, or one is asked for. Here is what everything at
a desk does to the ledger, down to the single action of a script: which cells are made, none of
them the platform's, and which are asked for. Nothing is asked for unless its text or its content
is wanted.

* `Reads.Moves`, `Transfer.Moves` — what happened to a ledger, and to a transfer with it;
* `CopyAction.wants`, `PasteAction.wants` — the cells that an action wants to know;
* **`moves_awaitAll`** — everything that waits at a desk;
* **`CopyAction.moves_perform`**, **`PasteAction.moves_perform`** — one action;
* `Payload.cells`, **`moves_ofPayload`** — the cells that normalization makes of a payload.
-/

namespace CopyPaste

/-! ## Moves -/

/-- What happened to a ledger: the cells in `made` were made, and nothing was asked for that is
not in `wanted`. What was asked for stays on record. -/
structure Reads.Moves (before after : Reads) (made wanted : List Cell) : Prop where
  ledger : ∀ {chart}, (∀ c ∈ wanted, Charted chart c) → Ledger chart before →
    Ledger (chart ++ made) after
  asked : ∀ i ∈ after.asked, i ∈ before.asked ∨ i ∈ wanted.map Cell.id
  grows : before.asked ⊆ after.asked

theorem Reads.mem_asked_ask {α : Type} (reads : Reads) (d : Deferred α) :
    d.id ∈ (reads.ask d).asked := by
  unfold Reads.ask
  split
  next h => simpa using h
  · exact List.mem_cons_self

namespace Reads.Moves

variable {first second third : Reads} {made made' wanted wanted' : List Cell}

theorem refl (reads : Reads) : Moves reads reads [] [] where
  ledger := fun _ h => by rwa [List.append_nil]
  asked := fun _ hi => .inl hi
  grows := List.Subset.refl _

theorem trans (h : Moves first second made wanted) (h' : Moves second third made' wanted') :
    Moves first third (made ++ made') (wanted ++ wanted') where
  ledger := fun hwanted hledger => by
    obtain ⟨hfirst, hsecond⟩ := List.forall_mem_append.mp hwanted
    rw [← List.append_assoc]
    exact h'.ledger (fun c hc => (hsecond c hc).mono made) (h.ledger hfirst hledger)
  asked := fun i hi => by
    rw [List.map_append, List.mem_append]
    obtain hi | hi := h'.asked i hi
    · exact (h.asked i hi).imp_right .inl
    · exact .inr (.inr hi)
  grows := List.Subset.trans h.grows h'.grows

/-- Wanting more than was asked for does no harm. -/
theorem wanting (h : Moves first second made wanted) (hsub : wanted ⊆ wanted') :
    Moves first second made wanted' where
  ledger := fun hwanted => h.ledger fun c hc => hwanted c (hsub hc)
  asked := fun i hi => (h.asked i hi).imp_right fun hi => List.map_subset Cell.id hsub hi
  grows := h.grows

theorem making {reads : Reads} {c : Cell} (hid : c.id = reads.next) :
    Moves reads { reads with next := reads.next + 1 } [c] [] where
  ledger := fun _ h => h.defer hid
  asked := fun _ hi => .inl hi
  grows := List.Subset.refl _

variable {α : Type} {d : Deferred α} {c : Cell}

theorem asking (reads : Reads) (hid : c.id = d.id) (hplatform : c.fromPlatform = d.fromPlatform) :
    Moves reads (reads.ask d) [] [c] where
  ledger := fun hwanted h => by
    rw [List.append_nil]
    exact h.ask (hwanted c (List.mem_singleton_self c)) hid hplatform
  asked := fun i hi => by
    unfold Reads.ask at hi
    split at hi
    · exact .inl hi
    · rw [List.map_singleton, List.mem_singleton, hid, or_comm]
      exact List.mem_cons.mp hi
  grows := by
    unfold Reads.ask
    split
    · exact List.Subset.refl _
    · exact List.subset_cons_self _ _

/-- What is known by now is no part of the chart. -/
theorem resolving (reads : Reads) (hid : c.id = d.id)
    (hplatform : c.fromPlatform = d.fromPlatform) : Moves reads (reads.resolve d) [] [c] := by
  have hask := asking reads hid hplatform
  unfold Reads.resolve
  split
  · exact (refl reads).wanting (List.nil_subset [c])
  · refine ⟨fun hwanted h => ?_, hask.asked, hask.grows⟩
    obtain ⟨hids, hnext, honce, hknown, -, hcount⟩ := hask.ledger hwanted h
    exact ⟨hids, hnext, honce, hknown, List.forall_mem_cons.mpr
      ⟨reads.mem_asked_ask d, fun i hi => hask.grows (h.resolved i hi)⟩, hcount⟩

end Reads.Moves

/-- What happened to a transfer and to the ledger: all items stand on the chart if they did before,
the new ones on its new part. -/
structure Transfer.Moves (t t' : Transfer) (before after : Reads) (made wanted : List Cell) :
    Prop where
  reads : Reads.Moves before after made wanted
  charted : ∀ {chart}, (∀ c ∈ wanted, Charted chart c) → Ledger chart before → t.On chart →
    t'.On (chart ++ made)

namespace Transfer.Moves

variable {t t' t'' : Transfer} {first second third : Reads} {made made' wanted wanted' : List Cell}

theorem trans (h : Transfer.Moves t t' first second made wanted)
    (h' : Transfer.Moves t' t'' second third made' wanted') :
    Transfer.Moves t t'' first third (made ++ made') (wanted ++ wanted') where
  reads := h.reads.trans h'.reads
  charted := fun hwanted hledger hall => by
    obtain ⟨hfirst, hsecond⟩ := List.forall_mem_append.mp hwanted
    rw [← List.append_assoc]
    exact h'.charted (fun c hc => (hsecond c hc).mono made) (h.reads.ledger hfirst hledger)
      (h.charted hfirst hledger hall)

/-- No item is made. -/
theorem of_reads (hreads : Reads.Moves first second [] wanted)
    (hall : ∀ P : Item → Prop, t.All P → t'.All P) : t.Moves t' first second [] wanted where
  reads := hreads
  charted := fun _ _ h => by
    rw [List.append_nil]
    exact hall _ h

/-- A new item is put under a type. -/
theorem setting {reads : Reads} (mime : String) {item : Item} (hid : item.cell.id = reads.next) :
    Transfer.Moves t (t.set mime item) reads { reads with next := reads.next + 1 } [item.cell]
      [] where
  reads := .making hid
  charted := fun _ hledger hall =>
    (hall.mono _).set mime
      ((hledger.defer hid).charted_of_mem (List.mem_append_right _ (List.mem_singleton_self _)))

end Transfer.Moves

/-! ## At a desk -/

/-- The cell of an item that is a text. -/
def Item.textCell? : Item → Option Cell
  | .text value => some (.text value)
  | .file _ => none

/-- The cell of an item that is a file. -/
def Item.contentCell? (item : Item) : Option Cell := item.asFile?.map fun f => .content f.data

namespace Transfer

/-- The cells of all items. -/
def cells (t : Transfer) : List Cell := t.entries.map fun e => e.2.cell

/-- The cell of the text under a type, if there is one. -/
def textCells (t : Transfer) (mime : String) : List Cell :=
  ((t.get? mime).bind Item.textCell?).toList

/-- The cell of the file under a type, if there is one. -/
def contentCells (t : Transfer) (mime : String) : List Cell :=
  ((t.get? mime).bind Item.contentCell?).toList

theorem cell_mem_cells {t : Transfer} {mime : String} {item : Item}
    (hitem : t.get? mime = some item) : item.cell ∈ t.cells := by
  have hall : t.All fun item => item.cell ∈ t.cells := fun e he => List.mem_map.mpr ⟨e, he, rfl⟩
  exact hall.get? hitem

theorem textCells_subset (t : Transfer) (mime : String) : t.textCells mime ⊆ t.cells := by
  intro c hc
  obtain ⟨item, hitem, htext⟩ := Option.bind_eq_some_iff.mp (Option.mem_toList.mp hc)
  cases item with
  | text value => exact Option.some.inj htext ▸ cell_mem_cells hitem
  | file f => simp [Item.textCell?] at htext

theorem contentCells_subset (t : Transfer) (mime : String) : t.contentCells mime ⊆ t.cells := by
  intro c hc
  obtain ⟨item, hitem, hcontent⟩ := Option.bind_eq_some_iff.mp (Option.mem_toList.mp hc)
  cases item with
  | text value => simp [Item.contentCell?, Item.asFile?] at hcontent
  | file f => exact Option.some.inj hcontent ▸ cell_mem_cells hitem

theorem All.cells {t : Transfer} {chart : List Cell} (h : t.On chart) :
    ∀ c ∈ t.cells, Charted chart c := by
  intro c hc
  obtain ⟨e, he, rfl⟩ := List.mem_map.mp hc
  exact h e he

theorem contentCells_eq (t : Transfer) (mime : String) : t.contentCells mime =
    (((t.get? mime).bind Item.asFile?).map fun f => Cell.content f.data).toList := by
  unfold contentCells Item.contentCell?
  rw [Option.map_bind]
  rfl

end Transfer

namespace Desk

open Reads (Moves)

theorem moves_await? {α : Type} (desk : Desk) (task : Task) {d : Deferred α} {c : Cell}
    (hid : c.id = d.id) (hplatform : c.fromPlatform = d.fromPlatform) :
    Moves desk.reads (desk.await? task d).2.reads [] [c] := by
  unfold await?
  split
  · unfold standAt
    split <;> exact .asking desk.reads hid hplatform
  · exact .resolving desk.reads hid hplatform

/-- **A file is not read for its text.** -/
theorem moves_text? (desk : Desk) (task : Task) (item : Item) :
    Moves desk.reads (desk.text? task item).2.reads [] item.textCell?.toList := by
  cases item with
  | text value => exact desk.moves_await? task rfl rfl
  | file f => exact .refl desk.reads

/-- **Nothing else is asked for** by who waits for a list of items. -/
theorem moves_awaitAll (desk : Desk) (task : Task) (items : List Item) :
    Moves desk.reads (desk.awaitAll task items).2.reads [] (items.map Item.cell) := by
  induction items generalizing desk with
  | nil => exact .refl desk.reads
  | cons item rest ih =>
      have hfirst : ∀ {α : Type} (d : Deferred α), item.cell.id = d.id →
          item.cell.fromPlatform = d.fromPlatform →
          Moves desk.reads (desk.await? task d).2.reads [] [item.cell] :=
        fun d hid hplatform => desk.moves_await? task hid hplatform
      cases item with
      | text value =>
          have hvalue := hfirst value rfl rfl
          unfold awaitAll
          split <;> rename_i h <;> rw [h] at hvalue
          · exact hvalue.trans (ih _)
          · exact hvalue.wanting (List.cons_subset_cons _ (List.nil_subset _))
      | file f =>
          have hdata := hfirst f.data rfl rfl
          unfold awaitAll
          split <;> rename_i h <;> rw [h] at hdata
          · exact hdata.trans (ih _)
          · exact hdata.wanting (List.cons_subset_cons _ (List.nil_subset _))

end Desk

namespace Desk

variable {chart : List Cell}

/-- Whoever asks is on record, also if the value was known before. -/
theorem mem_asked_await? {α : Type} {desk : Desk} (h : Ledger chart desk.reads) (task : Task)
    (d : Deferred α) : d.id ∈ (desk.await? task d).2.reads.asked := by
  unfold await?
  split
  · unfold standAt
    split <;> exact desk.reads.mem_asked_ask d
  · show d.id ∈ (desk.reads.resolve d).asked
    unfold Reads.resolve
    split
    next hresolved => exact h.resolved _ (by simpa [Reads.isResolved] using hresolved)
    · exact desk.reads.mem_asked_ask d

/-- Everything is on record of who got all of it. -/
theorem mem_asked_awaitAll {desk : Desk} (h : Ledger chart desk.reads) (task : Task)
    {items : List Item} (hitems : ∀ item ∈ items, Charted chart item.cell)
    (hall : (desk.awaitAll task items).1 = true) :
    ∀ item ∈ items, item.cell.id ∈ (desk.awaitAll task items).2.reads.asked := by
  induction items generalizing desk with
  | nil => exact fun _ hitem => absurd hitem List.not_mem_nil
  | cons item rest ih =>
      obtain ⟨hcharted, hrest⟩ := List.forall_mem_cons.mp hitems
      have hfirst : ∀ {α : Type} (d : Deferred α) {value : α} {desk' : Desk},
          item.cell.id = d.id → item.cell.fromPlatform = d.fromPlatform →
          desk.await? task d = (some value, desk') → (desk'.awaitAll task rest).1 = true →
          ∀ x ∈ item :: rest, x.cell.id ∈ (desk'.awaitAll task rest).2.reads.asked := by
        intro α d value desk' hid hplatform hawait hall
        have hmoves := desk.moves_await? task hid hplatform
        have hasked := mem_asked_await? h task d
        rw [hawait] at hmoves hasked
        have hledger := hmoves.ledger (List.forall_mem_singleton.mpr hcharted) h
        rw [List.append_nil] at hledger
        refine List.forall_mem_cons.mpr ⟨?_, ih hledger hrest hall⟩
        exact hid ▸ (desk'.moves_awaitAll task rest).grows hasked
      cases item with
      | text value =>
          unfold awaitAll at hall ⊢
          split at hall
          next hawait => exact hfirst value rfl rfl hawait hall
          · simp at hall
      | file f =>
          unfold awaitAll at hall ⊢
          split at hall
          next hawait => exact hfirst f.data rfl rfl hawait hall
          · simp at hall

end Desk

/-- The cells that a report shows. -/
def Report.wants (t : Transfer) : Report → List Cell
  | .items => t.cells
  | _ => []

theorem Report.wants_subset (r : Report) (t : Transfer) : r.wants t ⊆ t.cells := by
  cases r with
  | items => exact List.Subset.refl _
  | _ => exact List.nil_subset _

namespace Desk

open Reads (Moves)

theorem moves_report (α : Type) (desk : Desk) (call : Call) (t : Transfer) (r : Report) :
    Moves desk.reads (desk.report (α := α) call t r).2.reads [] (r.wants t) := by
  cases r with
  | items =>
      have hall := desk.moves_awaitAll call.task (t.entries.map Prod.snd)
      rw [List.map_map] at hall
      unfold report
      dsimp only
      split <;> rename_i h <;> rw [h] at hall <;> exact hall
  | _ => exact .refl desk.reads

theorem reads_pause (α : Type) (desk : Desk) (task : Task) (cancelled : Bool)
    (begun : Option Nat) (p : Pause) :
    (desk.pause (α := α) task cancelled begun p).2.reads = desk.reads := by
  unfold pause
  split
  · rfl
  · split
    · rfl
    · cases p <;> rfl

end Desk

/-! ## Copy providers -/

/-- The cells that an action of a copy provider wants to know. -/
def CopyAction.wants (t : Transfer) : CopyAction → List Cell
  | .report r => r.wants t
  | _ => []

namespace CopyAction

theorem wants_subset (a : CopyAction) (t : Transfer) : a.wants t ⊆ t.cells := by
  cases a with
  | report r => exact r.wants_subset t
  | _ => exact List.nil_subset _

/-- **One action of a copy provider** makes known cells only, and asks for what it reports. -/
theorem moves_perform (a : CopyAction) (call : Call) (cancelled : Bool) (begun : Option Nat)
    (t : Transfer) (desk : Desk) : ∃ made, (∀ c ∈ made, c.fromPlatform = false) ∧
      t.Moves (a.perform call cancelled begun t desk).2.1 desk.reads
        (a.perform call cancelled begun t desk).2.2.reads made (a.wants t) := by
  have hstill : t.Moves t desk.reads desk.reads [] [] := .of_reads (.refl _) fun _ h => h
  have hnone : ∀ c ∈ ([] : List Cell), c.fromPlatform = false :=
    fun _ hc => absurd hc List.not_mem_nil
  have hknown : ∀ c : Cell, c.fromPlatform = false → ∀ d ∈ [c], d.fromPlatform = false :=
    fun c hc d hd => List.mem_singleton.mp hd ▸ hc
  cases a with
  | pause p =>
      refine ⟨[], hnone, ?_⟩
      dsimp only [perform]
      rw [desk.reads_pause]
      exact hstill
  | report r => exact ⟨[], hnone, .of_reads (desk.moves_report _ call t r) fun _ h => h⟩
  | set mime text => exact ⟨_, hknown _ rfl, .setting mime rfl⟩
  | setFile mime name uri content => exact ⟨_, hknown _ rfl, .setting mime rfl⟩
  | setSlice mime => exact ⟨_, hknown _ rfl, .setting mime rfl⟩
  | delete mime => exact ⟨[], hnone, .of_reads (.refl _) fun _ h => h.delete mime⟩
  | setSnippet =>
      unfold perform
      cases Snippet.ofSelection? call.document call.selection with
      | none => exact ⟨[], hnone, hstill⟩
      | some snippet => exact ⟨_, hknown _ rfl, .setting snippetMime rfl⟩
  | fail error => exact ⟨[], hnone, hstill⟩
  | crash => exact ⟨[], hnone, hstill⟩

end CopyAction

/-! ## Paste providers -/

/-- The cells that an action of a paste provider wants to know. -/
def PasteAction.wants (call : Call) (t : Transfer) : PasteAction → List Cell
  | .report r => r.wants t
  | .echo mime => t.textCells mime
  | .echoFile mime => t.contentCells mime
  | .insertSnippet =>
    if call.document.language = markdownLanguage then t.textCells snippetMime else []
  | .insertLinks => t.textCells UriList.mime
  | _ => []

namespace PasteAction

open Reads (Moves)

/-- Whatever an action wants to know, it is an item of the transfer. -/
theorem wants_subset (a : PasteAction) (call : Call) (t : Transfer) : a.wants call t ⊆ t.cells := by
  cases a with
  | report r => exact r.wants_subset t
  | echo mime => exact t.textCells_subset mime
  | echoFile mime => exact t.contentCells_subset mime
  | insertSnippet =>
      dsimp only [wants]
      split
      · exact t.textCells_subset snippetMime
      · exact List.nil_subset _
  | insertLinks => exact t.textCells_subset UriList.mime
  | _ => exact List.nil_subset _

theorem moves_withText {t : Transfer} {mime : String} {item : Item}
    (hitem : t.get? mime = some item) (call : Call) (cancelled : Bool) (desk : Desk)
    (answer : String → Turn PasteAnswer) :
    Moves desk.reads (call.withText item cancelled desk answer).2.2.reads []
      (t.textCells mime) := by
  have htext := desk.moves_text? call.task item
  unfold Transfer.textCells Call.withText
  rw [hitem]
  dsimp only [Option.bind_some]
  split <;> rename_i h <;> rw [h] at htext <;> exact htext

/-- **One action of a paste provider** makes no cell, and asks for what it wants to know. -/
theorem moves_perform (a : PasteAction) (call : Call) (t : Transfer) (begun : Option Nat)
    (cancelled : Bool) (desk : Desk) :
    Moves desk.reads (a.perform call t begun cancelled desk).2.2.reads [] (a.wants call t) := by
  have hnone : ∀ wanted, Moves desk.reads desk.reads [] wanted :=
    fun wanted => (Moves.refl _).wanting (List.nil_subset wanted)
  cases a with
  | pause p =>
      dsimp only [perform]
      rw [desk.reads_pause]
      exact .refl _
  | report r => exact desk.moves_report _ call t r
  | echo mime =>
      dsimp only [perform, wants]
      cases hitem : t.get? mime with
      | none => exact hnone _
      | some item => exact moves_withText hitem call cancelled desk _
  | echoFile mime =>
      dsimp only [perform, wants]
      cases hfile : (t.get? mime).bind Item.asFile? with
      | none => exact hnone _
      | some f =>
          have hdata : Moves desk.reads (desk.await? call.task f.data).2.reads []
              (t.contentCells mime) := by
            rw [Transfer.contentCells_eq, hfile]
            exact desk.moves_await? call.task rfl rfl
          dsimp only
          split <;> rename_i h <;> rw [h] at hdata <;> exact hdata
  | insertSnippet =>
      dsimp only [perform, wants]
      split
      · cases hitem : t.get? snippetMime with
        | none => exact hnone _
        | some item => exact moves_withText hitem call cancelled desk _
      · exact .refl _
  | insertLinks =>
      dsimp only [perform, wants]
      cases hitem : t.get? UriList.mime with
      | none => exact hnone _
      | some item => exact moves_withText hitem call cancelled desk _
  | _ => exact .refl _

end PasteAction

/-! ## Payloads -/

/-- The cell under another identity. -/
def Cell.withId (c : Cell) (id : Nat) : Cell :=
  match c with
  | text value => .text { value with id }
  | content data => .content { data with id }

theorem Cell.id_withId (c : Cell) (id : Nat) : (c.withId id).id = id := by
  cases c <;> rfl

/-- The cells of interpretable items, with identities from `n` on. -/
def cellsFrom (n : Nat) : List PayloadItem → List Cell
  | [] => []
  | x :: rest =>
    match x.item? with
    | some (_, item) => item.cell.withId n :: cellsFrom (n + 1) rest
    | none => cellsFrom n rest

/-- The cells that normalization makes of a payload, one for each item that can be interpreted. -/
def Payload.cells (p : Payload) : List Cell := cellsFrom 0 p.items

namespace Transfer

/-- What accepting one item does: a cell is made of it, unless it cannot be interpreted. -/
theorem accept_cases (state : Transfer × Reads) (x : PayloadItem) :
    (x.item? = none ∧ accept state x = state) ∨ ∃ mime shown item,
      x.item? = some (mime, shown) ∧ item.cell = shown.cell.withId state.2.next ∧
        accept state x =
          (state.1.set mime item, { state.2 with next := state.2.next + 1 }) := by
  cases x with
  | string mime data => cases data <;> exact .inr ⟨mime, _, _, rfl, rfl, rfl⟩
  | file mime source =>
      cases source with
      | none => exact .inl ⟨rfl, rfl⟩
      | some source => exact .inr ⟨mime, _, _, rfl, rfl, rfl⟩
  | unsupported mime => exact .inl ⟨rfl, rfl⟩

theorem moves_foldl_accept (items : List PayloadItem) (state : Transfer × Reads) :
    state.1.Moves (items.foldl accept state).1 state.2 (items.foldl accept state).2
      (cellsFrom state.2.next items) [] := by
  induction items generalizing state with
  | nil => exact .of_reads (.refl _) fun _ h => h
  | cons x rest ih =>
      rw [List.foldl_cons, cellsFrom]
      obtain ⟨hx, haccept⟩ | ⟨mime, shown, item, hx, hcell, haccept⟩ := accept_cases state x
      · rw [hx, haccept]
        exact ih state
      · rw [hx, haccept]
        dsimp only
        rw [← hcell]
        have hset := Transfer.Moves.setting (t := state.1) mime (hcell ▸ Cell.id_withId _ _)
        exact hset.trans (ih (_, _))

/-- **Normalizing makes the cells of the payload,** and asks for none of them. -/
theorem moves_ofPayload (payload : Payload) (reads : Reads) :
    Transfer.Moves {} (ofPayload payload reads).1 reads (ofPayload payload reads).2
      (cellsFrom reads.next payload.items) [] :=
  moves_foldl_accept payload.items ({}, reads)

theorem asked_ofPayload (payload : Payload) (reads : Reads) :
    ∀ i ∈ (ofPayload payload reads).2.asked, i ∈ reads.asked := fun i hi =>
  ((moves_ofPayload payload reads).reads.asked i hi).resolve_right List.not_mem_nil

/-- The new cells come last on the chart. -/
theorem ledger_ofPayload (payload : Payload) {reads : Reads} {chart : List Cell}
    (h : Ledger chart reads) :
    Ledger (chart ++ cellsFrom reads.next payload.items) (ofPayload payload reads).2 ∧
      (ofPayload payload reads).1.On (chart ++ cellsFrom reads.next payload.items) :=
  have hmoves := moves_ofPayload payload reads
  have hnone : ∀ c ∈ ([] : List Cell), Charted chart c := fun _ hc => absurd hc List.not_mem_nil
  ⟨hmoves.reads.ledger hnone h, hmoves.charted hnone h all_empty⟩

end Transfer

end CopyPaste
