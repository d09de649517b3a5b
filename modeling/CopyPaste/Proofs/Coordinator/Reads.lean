import CopyPaste.Proofs.Coordinator.Course
import CopyPaste.Proofs.Transfer.Asking

/-!
# What a coordinator reads

All transfers that the copies and pastes of a coordinator hold are on one chart, which grows with
every payload that is normalized and every text that a copy provider sets. So however the tasks
take turns, the platform is never asked more often than the payloads have sources for, and only
in a turn.

* `CopyRun.On`, `Coordinator.Fits` — everything that is held is on the chart;
* **`CopyRun.On.poll`**, **`PasteRun.Polled.fits`** — the turn of a copy, and of a paste;
* **`Fits.handle`**, **`asked_handle`** — one event;
* **`reads_le_sources`** — every history.
-/

namespace CopyPaste

/-- The ledger fits the chart once some cells were added to it, none of them the platform's. -/
structure Grown (chart made : List Cell) (reads : Reads) : Prop where
  known : ∀ c ∈ made, c.fromPlatform = false
  ledger : Ledger (chart ++ made) reads

namespace Grown

variable {chart made made' : List Cell} {reads : Reads}

theorem still (h : Ledger chart reads) : Grown chart [] reads where
  known := fun _ hc => absurd hc List.not_mem_nil
  ledger := by rwa [List.append_nil]

theorem again (h : ∀ c ∈ made, c.fromPlatform = false) (h' : Grown (chart ++ made) made' reads) :
    Grown chart (made ++ made') reads where
  known := List.forall_mem_append.mpr ⟨h, h'.known⟩
  ledger := by
    rw [← List.append_assoc]
    exact h'.ledger

end Grown

/-! ## Copies -/

/-- **A copy script,** up to where it waits or ends. -/
theorem Lane.fits_runScript (call : Call) (cancelled : Bool) (script : CopyScript)
    (begun : Option Nat) (fork : Transfer) (desk : Desk) {chart : List Cell}
    (hledger : Ledger chart desk.reads) (hfork : fork.On chart) : ∃ made,
      Grown chart made (runScript call cancelled script begun fork desk).2.reads ∧
      (runScript call cancelled script begun fork desk).1.fork.On (chart ++ made) := by
  induction script generalizing begun fork desk chart with
  | nil => exact ⟨[], .still hledger, hfork.mono []⟩
  | cons action rest ih =>
      obtain ⟨made, hknown, hmoves⟩ := action.moves_perform call cancelled begun fork desk
      have hwanted : ∀ c ∈ action.wants fork, Charted chart c :=
        fun c hc => hfork.cells c (action.wants_subset fork hc)
      have hledger' := hmoves.reads.ledger hwanted hledger
      have hfork' := hmoves.charted hwanted hledger hfork
      rw [runScript]
      rcases hperform : action.perform call cancelled begun fork desk with ⟨turn, fork', desk'⟩
      rw [hperform] at hledger' hfork'
      cases turn with
      | next =>
          obtain ⟨made', hgrown, hon⟩ := ih none fork' desk' hledger' hfork'
          refine ⟨made ++ made', hgrown.again hknown, ?_⟩
          rw [← List.append_assoc]
          exact hon
      | wait => exact ⟨made, ⟨hknown, hledger'⟩, hfork'⟩
      | done result => exact ⟨made, ⟨hknown, hledger'⟩, hfork'⟩
      | crash => exact ⟨made, ⟨hknown, hledger'⟩, hfork'⟩

namespace CopyRun

/-- Everything that a copy holds is on the chart. -/
structure On (c : CopyRun) (chart : List Cell) : Prop where
  base : c.base.On chart
  forks : ∀ lane ∈ c.lanes, lane.fork.On chart
  result : ∀ t, c.result = some (some t) → t.On chart

theorem On.mono {c : CopyRun} {chart : List Cell} (h : c.On chart) (more : List Cell) :
    c.On (chart ++ more) where
  base := h.base.mono more
  forks := fun lane hlane => (h.forks lane hlane).mono more
  result := fun t ht => (h.result t ht).mono more

theorem fits_runLanes (task : Task) (document : Document) (selection : Selection)
    (cancelled : Bool) (lanes : List Lane) (desk : Desk) {chart : List Cell}
    (hledger : Ledger chart desk.reads) (hforks : ∀ lane ∈ lanes, lane.fork.On chart) :
    ∃ made, Grown chart made (runLanes task document selection cancelled lanes desk).2.reads ∧
      ∀ lane ∈ (runLanes task document selection cancelled lanes desk).1,
        lane.fork.On (chart ++ made) := by
  induction lanes generalizing desk chart with
  | nil => exact ⟨[], .still hledger, fun _ hlane => absurd hlane List.not_mem_nil⟩
  | cons lane rest ih =>
      obtain ⟨hfork, hrest⟩ := List.forall_mem_cons.mp hforks
      rw [runLanes]
      split
      · obtain ⟨made, hgrown, hon⟩ := Lane.fits_runScript (lane.call task document selection)
          cancelled lane.script lane.begun lane.fork desk hledger hfork
        rcases hrun : lane.run task document selection cancelled desk with ⟨lane', desk'⟩
        have hrun' : Lane.runScript (lane.call task document selection) cancelled lane.script
            lane.begun lane.fork desk = (lane', desk') := hrun
        rw [hrun'] at hgrown hon
        have hmono : ∀ l ∈ rest, l.fork.On (chart ++ made) := fun l hl => (hrest l hl).mono made
        dsimp only
        split
        · exact ⟨made, hgrown, List.forall_mem_cons.mpr ⟨hon, hmono⟩⟩
        · obtain ⟨made', hgrown', hon'⟩ := ih desk' hgrown.ledger hmono
          refine ⟨made ++ made', hgrown'.again hgrown.known, ?_⟩
          rw [← List.append_assoc]
          exact List.forall_mem_cons.mpr ⟨hon.mono made', hon'⟩
      · obtain ⟨made, hgrown, hon⟩ := ih desk hledger hrest
        exact ⟨made, hgrown, List.forall_mem_cons.mpr ⟨hfork.mono made, hon⟩⟩

theorem absorbAll_on {base : Transfer} {lanes : List Lane} {chart : List Cell}
    (hbase : base.On chart) (hforks : ∀ lane ∈ lanes, lane.fork.On chart) :
    (absorbAll base lanes).On chart := by
  induction lanes with
  | nil => exact hbase
  | cons lane rest ih =>
      obtain ⟨hfork, hrest⟩ := List.forall_mem_cons.mp hforks
      show (if lane.succeeded then (absorbAll base rest).absorb lane.fork
        else absorbAll base rest).On chart
      split
      · exact (ih hrest).absorb hfork
      · exact ih hrest

/-- **The turn of a copy** adds to the chart what its providers make, and the platform is asked
for nothing but what they report. -/
theorem On.poll {c : CopyRun} {chart : List Cell} (h : c.On chart) (index : Nat) {desk : Desk}
    (hledger : Ledger chart desk.reads) : ∃ made,
      Grown chart made (c.poll index desk).2.reads ∧ (c.poll index desk).1.On (chart ++ made) := by
  unfold CopyRun.poll
  split
  · exact ⟨[], .still hledger, h.mono []⟩
  · obtain ⟨made, hgrown, hforks⟩ := fits_runLanes (.copy index) c.document c.selection
      c.cancelled c.lanes desk hledger h.forks
    refine ⟨made, hgrown, ⟨h.base.mono made, hforks, fun t ht => ?_⟩⟩
    rw [← absorbAll_of_outcome? ht]
    exact absorbAll_on (h.base.mono made) hforks

end CopyRun

/-! ## Pastes -/

/-- Once more asking for no more than was wanted before. -/
theorem Reads.Moves.again {first second third : Reads} {wanted : List Cell}
    (h : Moves first second [] wanted) (h' : Moves second third [] wanted) :
    Moves first third [] wanted :=
  (h.trans h').wanting fun _ hc => (List.mem_append.mp hc).elim id id

/-- A script asks for nothing but what the transfer holds. -/
theorem PasteScript.moves_run (call : Call) (t : Transfer) (script : PasteScript)
    (begun : Option Nat) (cancelled : Bool) (desk : Desk) :
    Reads.Moves desk.reads (run call t script begun cancelled desk).2.2.reads [] t.cells := by
  induction script generalizing begun cancelled desk with
  | nil => exact (Reads.Moves.refl _).wanting (List.nil_subset _)
  | cons action rest ih =>
      have hmoves := (action.moves_perform call t begun cancelled desk).wanting
        (action.wants_subset call t)
      rw [run]
      rcases hperform : action.perform call t begun cancelled desk with ⟨turn, cancelled', desk'⟩
      rw [hperform] at hmoves
      cases turn with
      | next => exact hmoves.again (ih none cancelled' desk')
      | wait => exact hmoves
      | done answer => exact hmoves
      | crash => exact hmoves

namespace PasteRun

open Reads (Moves)

variable (p : PasteRun) (task : Task)

theorem reads_applyEdit (edit : Edit) (outcome : PasteOutcome) (desk : Desk) :
    (p.applyEdit task edit outcome desk).2.reads = desk.reads := by
  unfold applyEdit
  dsimp only
  split <;> rfl

theorem moves_fallBack (desk : Desk) :
    Moves desk.reads (p.fallBack task desk).2.reads [] p.transfer.cells := by
  have hstill : Moves desk.reads desk.reads [] p.transfer.cells :=
    (Moves.refl _).wanting (List.nil_subset _)
  unfold fallBack
  split
  · cases hitem : p.transfer.get? plainMime with
    | none => exact hstill
    | some item =>
        have hsub : item.textCell?.toList ⊆ p.transfer.cells := by
          have hcells := p.transfer.textCells_subset plainMime
          rwa [Transfer.textCells, hitem] at hcells
        have htext := (desk.moves_text? task item).wanting hsub
        dsimp only
        split <;> rename_i h <;> rw [h] at htext
        · rw [reads_applyEdit]
          exact htext
        · exact htext
  · exact hstill

theorem moves_follow (provider : String) (left : List (String × PasteScript))
    {next : Bool → Desk → PasteStage × Bool × Desk}
    (hnext : ∀ cancelled desk,
      Moves desk.reads (next cancelled desk).2.2.reads [] p.transfer.cells)
    (reply : Reply × Bool × Desk) :
    Moves reply.2.2.reads (p.follow task provider left next reply).2.2.reads []
      p.transfer.cells := by
  have hstill : ∀ reads, Moves reads reads [] p.transfer.cells :=
    fun reads => (Moves.refl reads).wanting (List.nil_subset _)
  obtain ⟨answer | ⟨script, since⟩ | _, cancelled, desk⟩ := reply
  · dsimp only [follow]
    rcases answer with error | _ | edit
    · dsimp only [heed]
      split <;> exact hstill _
    · exact hnext cancelled (desk.record task (.answered provider (.ok none) cancelled))
    · dsimp only [heed]
      split
      · exact hnext cancelled (desk.record task (.answered provider (.ok (some edit)) cancelled))
      · dsimp only
        rw [reads_applyEdit]
        exact hstill _
  · exact hstill _
  · exact hstill _

/-- **All providers that are left** are handed the same transfer. -/
theorem moves_scan (left : List (String × PasteScript)) (cancelled : Bool) (desk : Desk) :
    Moves desk.reads (p.scan task left cancelled desk).2.2.reads [] p.transfer.cells := by
  induction left generalizing cancelled desk with
  | nil => exact p.moves_fallBack task desk
  | cons q left ih =>
      obtain ⟨provider, script⟩ := q
      rw [scan]
      split
      · exact (Moves.refl _).wanting (List.nil_subset _)
      · have hrun := script.moves_run (p.call task provider) p.transfer none cancelled
          (desk.note task provider (.asked p.document p.selection p.transfer))
        exact hrun.again (p.moves_follow task provider left ih _)

variable {p task}

/-- **The turn of a paste** makes no cell, and nothing is asked for but what the paste holds. -/
theorem Polled.fits {result : Option (Option Transfer)} {desk : Desk} {out : PasteRun × Desk}
    {chart : List Cell} (h : Polled p task result desk out) (hp : p.transfer.On chart)
    (hresult : ∀ t, result = some (some t) → t.On chart) (hledger : Ledger chart desk.reads) :
    Ledger chart out.2.reads ∧ out.1.transfer.On chart := by
  have hmoves : ∀ {t : Transfer} {reads : Reads}, t.On chart →
      Moves desk.reads reads [] t.cells → Ledger chart reads := fun ht hmoves => by
    have hledger' := hmoves.ledger ht.cells hledger
    rwa [List.append_nil] at hledger'
  cases h with
  | idle hstage => exact ⟨hledger, hp⟩
  | waits since hsince hcancelled hnone hlimit => exact ⟨hledger, hp⟩
  | stops since hsince hcancelled => exact ⟨hledger, hp⟩
  | asks since copied hsince hsupplied =>
      have hmerged : (p.supply copied).transfer.On chart := by
        cases copied with
        | none => exact hp.delete handleMime
        | some t =>
            have ht : t.On chart := by
              rcases hsupplied with ⟨-, hnone⟩ | ⟨-, hready | ⟨-, hnone, -⟩⟩
              · cases hnone
              · exact hresult t hready
              · cases hnone
            exact (hp.merge ht).delete handleMime
      exact ⟨hmoves hmerged ((p.supply copied).moves_scan task _ _ desk), hmerged⟩
  | resumes provider script since rest hstage =>
      have hrun := script.moves_run (p.call task provider) p.transfer (some since) p.cancelled desk
      have hfollow := p.moves_follow task provider rest (p.moves_scan task rest)
        (script.run (p.call task provider) p.transfer (some since) p.cancelled desk)
      exact ⟨hmoves hp (hrun.again hfollow), hp⟩
  | fallsBack hstage => exact ⟨hmoves hp (p.moves_scan task [] p.cancelled desk), hp⟩

end PasteRun

/-! ## Events -/

/-- Whether an item of a payload is a source of the platform. -/
def PayloadItem.fromPlatform (x : PayloadItem) : Bool := x.item?.any fun e => e.2.cell.fromPlatform

/-- The items of the payload that an event brings. -/
def Event.items : Event → List PayloadItem
  | .copy payload _ | .paste payload _ => (payload.map (·.items)).getD []
  | _ => []

theorem countP_cellsFrom (n : Nat) (items : List PayloadItem) :
    (cellsFrom n items).countP Cell.fromPlatform = items.countP PayloadItem.fromPlatform := by
  induction items generalizing n with
  | nil => rfl
  | cons x rest ih =>
      have hx : x.fromPlatform = x.item?.any fun e => e.2.cell.fromPlatform := rfl
      rw [cellsFrom, List.countP_cons, hx]
      cases x.item? with
      | none => simpa using ih n
      | some e =>
          obtain ⟨mime, item⟩ := e
          have hcell : (item.cell.withId n).fromPlatform = item.cell.fromPlatform := by
            cases item <;> rfl
          simpa [List.countP_cons, hcell] using ih (n + 1)

namespace Coordinator

/-- Everything that the tasks of a coordinator hold is on the chart. -/
structure Fits (m : Coordinator) (chart : List Cell) : Prop where
  ledger : Ledger chart m.desk.reads
  copies : ∀ c ∈ m.copies, c.On chart
  pastes : ∀ p ∈ m.pastes, p.transfer.On chart

theorem fits_start (config : Config) : ({ config } : Coordinator).Fits [] where
  ledger := .empty
  copies := fun _ hc => absurd hc List.not_mem_nil
  pastes := fun _ hp => absurd hp List.not_mem_nil

section Events

variable {m : Coordinator} {chart : List Cell}

/-- Somebody else than a task in its turn changes the coordinator. -/
theorem Fits.aside (h : m.Fits chart) {m' : Coordinator} (hreads : m'.desk.reads = m.desk.reads)
    (hcopies : ∀ c ∈ m'.copies, ∃ d ∈ m.copies,
      c.base = d.base ∧ c.lanes = d.lanes ∧ c.result = d.result)
    (hpastes : ∀ p ∈ m'.pastes, ∃ q ∈ m.pastes, p.transfer = q.transfer) : m'.Fits chart where
  ledger := hreads ▸ h.ledger
  copies := fun c hc => by
    obtain ⟨d, hd, hbase, hlanes, hresult⟩ := hcopies c hc
    obtain ⟨hdbase, hdforks, hdresult⟩ := h.copies d hd
    exact ⟨hbase ▸ hdbase, hlanes ▸ hdforks, hresult ▸ hdresult⟩
  pastes := fun p hp => by
    obtain ⟨q, hq, htransfer⟩ := hpastes p hp
    exact htransfer ▸ h.pastes q hq

theorem desk_wake (m : Coordinator) (task : Task) : (m.wake task).desk = m.desk := by
  obtain ⟨ready, hwake⟩ := m.exists_wake task
  rw [hwake]

theorem desk_wakeAll (m : Coordinator) (tasks : List Task) : (m.wakeAll tasks).desk = m.desk := by
  obtain ⟨ready, hwake⟩ := m.exists_wakeAll tasks
  rw [hwake]

/-- Neither a turn nor a copy or a paste that goes on. -/
theorem reads_of_aside {e : Event} (hturn : e ≠ .turn) (hmark : m.mark? e = none)
    (hpastes : (m.handle e).pastes = m.pastes) : (m.handle e).desk.reads = m.desk.reads := by
  cases e with
  | edit change =>
      show (m.edit change).desk.reads = _
      unfold Coordinator.edit
      split <;> rfl
  | copy given fresh =>
      show (m.copy given fresh).2.2.desk.reads = _
      cases hdecision : (m.copy given fresh).1 with
      | declined reason => rw [copy_declined hdecision]
      | started handle => simp [mark?, hdecision] at hmark
  | paste given cancelled =>
      show (m.paste given cancelled).2.desk.reads = _
      cases hdecision : (m.paste given cancelled).1 with
      | declined reason => rw [paste_declined hdecision]
      | taken index =>
          obtain ⟨-, payload, document, selection, providers, handle, -, hafter⟩ :=
            paste_taken hdecision
          have hlength : (m.paste given cancelled).2.pastes.length = m.pastes.length :=
            congrArg List.length hpastes
          rw [hafter, List.length_append] at hlength
          exact absurd hlength (Nat.succ_ne_self _)
  | run i =>
      show (m.run i).desk.reads = _
      unfold run
      split
      · split
        · rw [desk_wake]
        · rfl
      · rfl
  | cancel i =>
      show (m.cancel i).desk.reads = _
      unfold cancel
      split
      · dsimp only
        split
        · rw [desk_wake]
        · rfl
      · rfl
  | dispose => simp [mark?] at hmark
  | replace config => simp [mark?] at hmark
  | release gate =>
      show (m.release gate).desk.reads = _
      unfold release
      rw [desk_wakeAll]
  | tick =>
      show m.tick.desk.reads = _
      unfold tick
      rw [desk_wakeAll]
  | turn => exact absurd rfl hturn
  | _ => rfl

/-- A copy that is recorded elsewhere with other seats or another flag. -/
theorem copies_set {i : Nat} {c c' : CopyRun} (hc : m.copies[i]? = some c)
    (hbase : c'.base = c.base) (hlanes : c'.lanes = c.lanes) (hresult : c'.result = c.result) :
    ∀ d ∈ m.copies.set i c', ∃ d' ∈ m.copies,
      d.base = d'.base ∧ d.lanes = d'.lanes ∧ d.result = d'.result := by
  intro d hd
  obtain hd | rfl := List.mem_or_eq_of_mem_set hd
  · exact ⟨d, hd, rfl, rfl, rfl⟩
  · exact ⟨c, List.mem_of_getElem? hc, hbase, hlanes, hresult⟩

theorem pastes_set {i : Nat} {p p' : PasteRun} (hp : m.pastes[i]? = some p)
    (htransfer : p'.transfer = p.transfer) :
    ∀ q ∈ m.pastes.set i p', ∃ q' ∈ m.pastes, q.transfer = q'.transfer := by
  intro q hq
  obtain hq | rfl := List.mem_or_eq_of_mem_set hq
  · exact ⟨q, hq, rfl⟩
  · exact ⟨p, List.mem_of_getElem? hp, htransfer⟩

/-- What a new copy holds is what the payload held. -/
theorem on_newCopy (m : Coordinator) (fresh : Handle) (document : Document) (selection : Selection)
    {base : Transfer} (hbase : base.On chart) (providers : List (String × CopyScript)) :
    (m.newCopy fresh document selection base providers).On chart where
  base := hbase
  forks := fun lane hlane => by
    obtain ⟨provider, -, rfl⟩ := List.mem_map.mp hlane
    exact hbase.fork
  result := fun t ht => by cases ht

/-- **Every event** adds no more cells of the platform to the chart than its payload has. -/
theorem Fits.handle (h : m.Fits chart) (e : Event) : ∃ made, (m.handle e).Fits (chart ++ made) ∧
    made.countP Cell.fromPlatform ≤ e.items.countP PayloadItem.fromPlatform := by
  have hsame : (m.handle e).Fits chart → ∃ made, (m.handle e).Fits (chart ++ made) ∧
      made.countP Cell.fromPlatform ≤ e.items.countP PayloadItem.fromPlatform :=
    fun h' => ⟨[], by rwa [List.append_nil], Nat.zero_le _⟩
  have hstep := m.step_handle e
  generalize hafter : m.handle e = m' at hstep hsame ⊢
  cases hstep with
  | aside desk registry ready hlog hdeeds hturn hmark =>
      have hreads : desk.reads = m.desk.reads := by
        by_cases he : e = .turn
        · rw [hturn he]
        · have hreads := reads_of_aside he hmark (by rw [hafter])
          rwa [hafter] at hreads
      exact hsame (h.aside hreads (fun c hc => ⟨c, hc, rfl, rfl, rfl⟩) fun p hp => ⟨p, hp, rfl⟩)
  | starts given fresh payload document selection providers ready he hdecision hworks =>
      obtain ⟨hledger, hon⟩ := Transfer.ledger_ofPayload payload h.ledger
      obtain ⟨rfl, -⟩ := admitCopy_ok hworks
      subst he
      refine ⟨_, ⟨hledger, fun c hc => ?_, fun p hp => (h.pastes p hp).mono _⟩,
        Nat.le_of_eq (countP_cellsFrom _ _)⟩
      obtain hc | hc := List.mem_append.mp hc
      · exact (h.copies c hc).mono _
      · obtain rfl := List.mem_singleton.mp hc
        exact on_newCopy m fresh document selection (hon.delete handleMime) providers
  | takes given cancelled payload document selection providers handle he hdecision hworks =>
      obtain ⟨hledger, hon⟩ := Transfer.ledger_ofPayload payload h.ledger
      obtain ⟨rfl, -⟩ := admitPaste_ok hworks
      subst he
      refine ⟨_, ⟨hledger, fun c hc => (h.copies c hc).mono _, fun p hp => ?_⟩,
        Nat.le_of_eq (countP_cellsFrom _ _)⟩
      obtain hp | hp := List.mem_append.mp hp
      · exact (h.pastes p hp).mono _
      · obtain rfl := List.mem_singleton.mp hp
        exact hon
  | queues i p ready he hp hstage =>
      exact hsame (h.aside rfl (fun c hc => ⟨c, hc, rfl, rfl, rfl⟩) (pastes_set hp rfl))
  | cancels i p ready he hp =>
      exact hsame (h.aside rfl (fun c hc => ⟨c, hc, rfl, rfl, rfl⟩) (pastes_set hp rfl))
  | disposes i c config ready hmark hpending hc =>
      exact hsame (h.aside rfl (copies_set hc rfl rfl rfl) fun p hp => ⟨p, hp, rfl⟩)
  | clears config hmark hpending =>
      exact hsame (h.aside rfl (fun c hc => ⟨c, hc, rfl, rfl, rfl⟩) fun p hp => ⟨p, hp, rfl⟩)
  | copies i c ready he hhead hc =>
      have hon := h.copies c (List.mem_of_getElem? hc)
      obtain ⟨made, hgrown, hpolled⟩ := hon.poll i h.ledger
      refine ⟨made, ⟨hgrown.ledger, fun d hd => ?_, fun p hp => (h.pastes p hp).mono made⟩, ?_⟩
      · obtain hd | rfl := List.mem_or_eq_of_mem_set hd
        · exact (h.copies d hd).mono made
        · exact hpolled
      · rw [List.countP_eq_zero.mpr fun c hc => by simp [hgrown.known c hc]]
        exact Nat.zero_le _
  | pastes i p copies ready he hhead hp hcopies =>
      have hresult : ∀ t, m.result? p.copy = some (some t) → t.On chart := fun t ht => by
        obtain ⟨k, -, hk⟩ := Option.bind_eq_some_iff.mp ht
        obtain ⟨c, hc, ht⟩ := Option.bind_eq_some_iff.mp hk
        exact (h.copies c (List.mem_of_getElem? hc)).result t ht
      obtain ⟨hledger, hon⟩ := (p.polled_poll i (m.result? p.copy) m.desk).fits
        (h.pastes p (List.mem_of_getElem? hp)) hresult h.ledger
      refine hsame ⟨hledger, fun c hc => ?_, fun q hq => ?_⟩
      · rcases hcopies with rfl | ⟨k, d, seats, hd, rfl⟩
        · exact h.copies c hc
        · obtain hc | rfl := List.mem_or_eq_of_mem_set hc
          · exact h.copies c hc
          · obtain ⟨hbase, hforks, hdone⟩ := h.copies d (List.mem_of_getElem? hd)
            exact ⟨hbase, hforks, hdone⟩
      · obtain hq | rfl := List.mem_or_eq_of_mem_set hq
        · exact h.pastes q hq
        · exact hon

/-- **Only a turn reads:** no other event asks for anything. -/
theorem asked_handle (m : Coordinator) {e : Event} (hturn : e ≠ .turn) :
    ∀ i ∈ (m.handle e).desk.reads.asked, i ∈ m.desk.reads.asked := by
  have hstep := m.step_handle e
  generalize hafter : m.handle e = m' at hstep
  cases hstep with
  | aside desk registry ready hlog hdeeds _ hmark =>
      have hreads := reads_of_aside hturn hmark (by rw [hafter])
      rw [hafter] at hreads
      dsimp only at hreads ⊢
      rw [hreads]
      exact fun _ hi => hi
  | starts given fresh payload document selection providers ready he hdecision hworks =>
      exact Transfer.asked_ofPayload payload _
  | takes given cancelled payload document selection providers handle he hdecision hworks =>
      exact Transfer.asked_ofPayload payload _
  | copies i c ready he hhead hc => exact absurd he hturn
  | pastes i p copies ready he hhead hp hcopies => exact absurd he hturn
  | _ => exact fun _ hi => hi

/-- **A history** adds what its payloads have. -/
theorem Fits.after (h : m.Fits chart) (history : List Event) : ∃ made,
    (m.after history).Fits (chart ++ made) ∧ made.countP Cell.fromPlatform ≤
      (history.flatMap Event.items).countP PayloadItem.fromPlatform := by
  induction history generalizing m chart with
  | nil => exact ⟨[], by rwa [List.append_nil], Nat.le_refl 0⟩
  | cons e rest ih =>
      obtain ⟨made, hfits, hcount⟩ := h.handle e
      obtain ⟨made', hfits', hcount'⟩ := ih hfits
      refine ⟨made ++ made', ?_, ?_⟩
      · rw [← List.append_assoc]
        exact hfits'
      · rw [List.flatMap_cons, List.countP_append, List.countP_append]
        exact Nat.add_le_add hcount hcount'

end Events

/-- **The platform is asked no more often than the payloads have sources for,** whatever happens.
After every history a chart shows all that copies and pastes hold. -/
theorem reads_le_sources (config : Config) (history : List Event) : ∃ chart,
    (({ config } : Coordinator).after history).Fits chart ∧
      (({ config } : Coordinator).after history).desk.reads.count ≤
        (history.flatMap Event.items).countP PayloadItem.fromPlatform := by
  obtain ⟨chart, hfits, hcount⟩ := (fits_start config).after history
  refine ⟨chart, hfits, ?_⟩
  rw [hfits.ledger.count]
  refine Nat.le_trans (List.countP_mono_left fun c _ h => ?_) hcount
  simp only [Bool.and_eq_true] at h
  exact h.1

end Coordinator

end CopyPaste
