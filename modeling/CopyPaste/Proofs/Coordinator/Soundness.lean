import CopyPaste.Proofs.Coordinator.Tasks

/-!
# What holds of every coordinator

The invariants of copies and pastes, kept by every event. They say how what a task has come to
fits what the desk recorded of it.

* `CopyRun.Sound` — no type occurs twice on anything that a copy holds;
* `PasteRun.Sound` — the stage of a paste against its questions and deeds;
* **`sound_handle`** — one event;
* **`Reachable.sound`** — all histories.
-/

namespace CopyPaste

/-! ## Copies -/

/-- No type occurs twice on the transfers of a copy. -/
structure CopyRun.Sound (c : CopyRun) : Prop where
  base : c.base.keys.Nodup
  lanes : ∀ l ∈ c.lanes, l.fork.keys.Nodup
  result : ∀ t, c.result = some (some t) → t.keys.Nodup

namespace CopyRun

theorem nodup_keys_runLanes {lanes : List Lane} (hn : ∀ l ∈ lanes, l.fork.keys.Nodup)
    (task : Task) (document : Document) (selection : Selection) (cancelled : Bool) (desk : Desk) :
    ∀ l ∈ (runLanes task document selection cancelled lanes desk).1, l.fork.keys.Nodup := by
  induction lanes generalizing desk with
  | nil => exact hn
  | cons lane rest ih =>
      have hlane := hn lane List.mem_cons_self
      have hrest := fun desk => ih (fun l hl => hn l (List.mem_cons_of_mem lane hl)) desk
      unfold runLanes
      split
      · have hrun := Lane.nodup_keys_run hlane task document selection cancelled desk
        simp only
        split
        · intro l hl
          rcases List.mem_cons.mp hl with rfl | hl
          · exact hrun
          · exact hn l (List.mem_cons_of_mem lane hl)
        · intro l hl
          rcases List.mem_cons.mp hl with rfl | hl
          · exact hrun
          · exact hrest _ l hl
      · intro l hl
        rcases List.mem_cons.mp hl with rfl | hl
        · exact hlane
        · exact hrest _ l hl

theorem Sound.poll {c : CopyRun} (h : c.Sound) (index : Nat) (desk : Desk) :
    (c.poll index desk).1.Sound := by
  unfold CopyRun.poll
  split
  · exact h
  · exact ⟨h.base, nodup_keys_runLanes h.lanes _ _ _ _ desk,
      fun t ht => by
        rw [← absorbAll_of_outcome? ht]
        exact nodup_keys_absorbAll h.base _⟩

end CopyRun

/-! ## Pastes -/

/-- What a paste has come to fits what the desk recorded of it. -/
structure PasteRun.Sound (p : PasteRun) (i : Nat) (desk : Desk) : Prop where
  providers : p.providers ≠ []
  /-- A paste that has not begun to ask left no records. -/
  fresh : p.stage.isUndecided = true →
    desk.questions (.paste i) = [] ∧ desk.deedsOf (.paste i) = []
  /-- All providers asked are asked about the same. -/
  subject : p.stage.isUndecided = false → ∀ q ∈ desk.questions (.paste i),
    q.document = p.document ∧ q.selection = p.selection ∧ q.transfer = p.transfer
  /-- The answers that a paste under way has behind it were no edits. -/
  outstanding : ∀ n, p.stage.outstanding? = some n →
    desk.silences (.paste i) + n = p.providers.length
  /-- A request or a late edit is the end of the paste. -/
  going : p.stage.isOver = false →
    desk.requests (.paste i) = [] ∧ desk.lateEdits (.paste i) = []

namespace PasteRun

theorem Sound.sameRecords {p : PasteRun} {i : Nat} {desk desk' : Desk} (h : p.Sound i desk)
    (hrecords : Coordinator.SameRecords (.paste i) desk desk') : p.Sound i desk' := by
  obtain ⟨hquestions, hdeeds⟩ := hrecords
  refine ⟨h.providers, ?_, ?_, ?_, ?_⟩
  · rw [hquestions, hdeeds]
    exact h.fresh
  · rw [hquestions]
    exact h.subject
  · unfold Desk.silences
    rw [hdeeds]
    exact h.outstanding
  · unfold Desk.requests Desk.lateEdits
    rw [hdeeds]
    exact h.going

/-- **A paste stands right after a scan,** if everything was in order before. -/
theorem sound_of_progress {p : PasteRun} {i owed : Nat} {left : List (String × PasteScript)}
    {desk : Desk} {out : PasteStage × Bool × Desk} {asked : List Question} {deeds : List Deed}
    (h : Progress p (.paste i) owed left desk out asked deeds) (hproviders : p.providers ≠ [])
    (hsubject : ∀ q ∈ desk.questions (.paste i),
      q.document = p.document ∧ q.selection = p.selection ∧ q.transfer = p.transfer)
    (howed : desk.silences (.paste i) + (owed + left.length) = p.providers.length)
    (hgoing : desk.requests (.paste i) = [] ∧ desk.lateEdits (.paste i) = []) :
    (p.settleAt out).1.Sound i (p.settleAt out).2 where
  providers := hproviders
  fresh := fun hundecided => by
    have hdecided : out.1.isUndecided = false := h.decided
    rw [show out.1.isUndecided = true from hundecided] at hdecided
    simp at hdecided
  subject := fun _ q hq => by
    have hquestions : out.2.2.questions (.paste i) = _ := h.questions
    rw [show (p.settleAt out).2 = out.2.2 from rfl, hquestions] at hq
    rcases List.mem_append.mp hq with hq | hq
    · exact hsubject q hq
    · exact h.subject q hq
  outstanding := fun n hn => by
    have hsilent := h.outstanding n hn
    show out.2.2.silences (.paste i) + n = p.providers.length
    unfold Desk.silences at howed ⊢
    rw [h.deedsOf, List.countP_append]
    omega
  going := fun hover => by
    obtain ⟨hrequests, hlate⟩ := h.going hover
    have hdeeds : out.2.2.deedsOf (.paste i) = _ := h.deedsOf
    show out.2.2.requests (.paste i) = [] ∧ out.2.2.lateEdits (.paste i) = []
    unfold Desk.requests Desk.lateEdits at hgoing ⊢
    rw [hdeeds, List.filterMap_append, List.filterMap_append, hrequests, hlate, hgoing.1, hgoing.2]
    exact ⟨rfl, rfl⟩

/-- A paste that stops before it asks anybody. -/
theorem Sound.stopped {p q : PasteRun} {i : Nat} {desk : Desk} (h : p.Sound i desk)
    (hundecided : p.stage.isUndecided = true) (hproviders : q.providers = p.providers)
    (hstage : q.stage = .ended (.ok .cancelled)) : q.Sound i desk := by
  obtain ⟨hquestions, -⟩ := h.fresh hundecided
  refine ⟨?_, ?_, ?_, ?_, ?_⟩
  · rw [hproviders]
    exact h.providers
  · intro hu
    simp [hstage, PasteStage.isUndecided] at hu
  · rw [hquestions]
    exact fun _ q hq => absurd hq List.not_mem_nil
  · intro n hn
    simp [hstage, PasteStage.outstanding?] at hn
  · intro hgoing
    simp [hstage, PasteStage.isOver] at hgoing

theorem Sound.polled {p : PasteRun} {i : Nat} {desk : Desk} (h : p.Sound i desk)
    {result : Option (Option Transfer)} {out : PasteRun × Desk}
    (hpolled : Polled p (.paste i) result desk out) : out.1.Sound i out.2 := by
  cases hpolled with
  | idle hstage => exact h
  | waits since hsince hc hresult hlimit =>
      have hundecided := isUndecided_of_waitsSince? hsince
      exact ⟨h.providers, fun _ => h.fresh hundecided,
        fun hd => by simp [PasteStage.isUndecided] at hd,
        fun n hn => by simp [PasteStage.outstanding?] at hn,
        fun _ => h.going (PasteStage.going_of_isUndecided hundecided)⟩
  | stops since hsince hc => exact h.stopped (isUndecided_of_waitsSince? hsince) rfl rfl
  | asks since copied hsince hsupplied =>
      have hundecided := isUndecided_of_waitsSince? hsince
      obtain ⟨hquestions, hdeeds⟩ := h.fresh hundecided
      obtain ⟨out, asked, deeds, hout, hprogress⟩ := p.progress_asks (.paste i) copied desk
      rw [hout]
      refine sound_of_progress hprogress h.providers ?_ ?_ ?_
      · rw [hquestions]
        exact fun q hq => absurd hq List.not_mem_nil
      · unfold Desk.silences
        rw [hdeeds, List.countP_nil, Nat.zero_add]
        exact Nat.zero_add _
      · exact h.going (PasteStage.going_of_isUndecided hundecided)
  | resumes provider script since rest hstage =>
      obtain ⟨asked, deeds, hprogress⟩ :=
        p.progress_resumes (.paste i) provider script since rest desk
      have hdecided : p.stage.isUndecided = false := by rw [hstage]; rfl
      have hgoing : p.stage.isOver = false := by rw [hstage]; rfl
      have howed := h.outstanding (rest.length + 1) (by rw [hstage]; rfl)
      rw [Nat.add_comm rest.length] at howed
      exact sound_of_progress hprogress h.providers (h.subject hdecided) howed (h.going hgoing)
  | fallsBack hstage =>
      obtain ⟨deeds, hprogress⟩ := p.progress_fallBack (.paste i) p.cancelled desk
      have hdecided : p.stage.isUndecided = false := by rw [hstage]; rfl
      have hgoing : p.stage.isOver = false := by rw [hstage]; rfl
      have howed := h.outstanding 0 (by rw [hstage]; rfl)
      exact sound_of_progress hprogress h.providers (h.subject hdecided) howed (h.going hgoing)

end PasteRun

namespace Coordinator

theorem PasteStep.sound {m : Coordinator} {e : Event} {i : Nat} {p p' : PasteRun} {desk : Desk}
    (hstep : PasteStep m e i p p' desk) (h : p.Sound i m.desk) : p'.Sound i desk := by
  cases hstep with
  | still desk hrecords => exact h.sameRecords hrecords
  | queues desk hstage hrecords =>
      have h' := h.sameRecords hrecords
      have hundecided : p.stage.isUndecided = true := by rw [hstage]; rfl
      have hgoing : p.stage.isOver = false := by rw [hstage]; rfl
      exact ⟨h'.providers, fun _ => h'.fresh hundecided,
        fun hd => by simp [PasteStage.isUndecided] at hd,
        fun n hn => by simp [PasteStage.outstanding?] at hn, fun _ => h'.going hgoing⟩
  | cancels desk he hrecords =>
      have h' := h.sameRecords hrecords
      exact ⟨h'.providers, h'.fresh, h'.subject, h'.outstanding, h'.going⟩
  | polls he hhead => exact h.polled (p.polled_poll i _ m.desk)

/-! ## Coordinators -/

/-- What holds of a coordinator whatever happens to it. -/
structure Sound (m : Coordinator) : Prop where
  copies : ∀ (i : Nat) (c : CopyRun), m.copies[i]? = some c → c.Sound
  pastes : ∀ (i : Nat) (p : PasteRun), m.pastes[i]? = some p → p.Sound i m.desk
  /-- Nothing is recorded of pastes to come. -/
  unborn : ∀ i, m.pastes.length ≤ i →
    m.desk.questions (.paste i) = [] ∧ m.desk.deedsOf (.paste i) = []
  pending : ∀ i, m.pending = some i → i < m.copies.length

theorem sound_start (config : Config) : ({ config } : Coordinator).Sound where
  copies := fun i c hc => by simp at hc
  pastes := fun i p hp => by simp at hp
  unborn := fun i _ => ⟨rfl, rfl⟩
  pending := fun i hi => by simp at hi

theorem CopyStep.sound {m : Coordinator} {e : Event} {i : Nat} {c c' : CopyRun}
    (hstep : CopyStep m e i c c') (h : c.Sound) : c'.Sound := by
  cases hstep with
  | still => exact h
  | seats seats => exact ⟨h.base, h.lanes, h.result⟩
  | cancels hmark hpending => exact ⟨h.base, h.lanes, h.result⟩
  | polls he hhead => exact h.poll i m.desk

theorem sound_newCopy (m : Coordinator) {base : Transfer} (hb : base.keys.Nodup) (handle : Handle)
    (document : Document) (selection : Selection) (providers : List (String × CopyScript)) :
    (m.newCopy handle document selection base providers).Sound where
  base := hb
  lanes := fun l hl => by
    obtain ⟨q, -, rfl⟩ := List.mem_map.mp hl
    exact hb
  result := fun t ht => by simp [newCopy] at ht

theorem running_newCopy (m : Coordinator) (handle : Handle) (document : Document)
    (selection : Selection) (base : Transfer) (providers : List (String × CopyScript)) :
    ∀ l ∈ (m.newCopy handle document selection base providers).lanes, l.isRunning = true := by
  intro l hl
  obtain ⟨q, -, rfl⟩ := List.mem_map.mp hl
  rfl

theorem sound_newPaste {m : Coordinator} {i : Nat} {desk : Desk}
    (hrecords : desk.questions (.paste i) = [] ∧ desk.deedsOf (.paste i) = [])
    {providers : List (String × PasteScript)} (hproviders : providers ≠ []) (handle : String)
    (document : Document) (selection : Selection) (transfer : Transfer) (cancelled : Bool) :
    (m.newPaste handle document selection transfer providers cancelled).Sound i desk where
  providers := hproviders
  fresh := fun _ => hrecords
  subject := fun hd => by simp [newPaste, PasteStage.isUndecided] at hd
  outstanding := fun n hn => by simp [newPaste, PasteStage.outstanding?] at hn
  going := fun _ => by
    unfold Desk.requests Desk.lateEdits
    rw [hrecords.2]
    exact ⟨rfl, rfl⟩

/-- Nothing is recorded of a paste before it is taken over, not even by that event. -/
theorem Sound.unborn_handle {m : Coordinator} (h : m.Sound) {i : Nat} (hi : m.pastes.length ≤ i)
    (e : Event) : (m.handle e).desk.questions (.paste i) = [] ∧
      (m.handle e).desk.deedsOf (.paste i) = [] := by
  obtain ⟨hquestions, hdeeds⟩ | ⟨-, -, hlt⟩ := m.sameRecords_handle e i
  · rw [hquestions, hdeeds]
    exact h.unborn i hi
  · omega

/-- **Every event keeps what holds.** -/
theorem sound_handle {m : Coordinator} (h : m.Sound) (e : Event) : (m.handle e).Sound where
  copies := fun i c' hc' => by
    obtain ⟨c, hc, hstep⟩ | ⟨-, document, selection, base, providers, fresh, rfl, hbase, -⟩ :=
      copyStep_cases hc'
    · exact hstep.sound (h.copies i c hc)
    · exact m.sound_newCopy hbase fresh document selection providers
  pastes := fun i p' hp' => by
    obtain ⟨p, hp, hstep⟩ | ⟨rfl, payload, document, selection, providers, handle, reads,
      cancelled, rfl, hproviders, -⟩ := pasteStep_cases hp'
    · exact hstep.sound (h.pastes i p hp)
    · exact sound_newPaste (h.unborn_handle (Nat.le_refl _) e) hproviders _ _ _ _ _
  unborn := fun i hi => by
    refine h.unborn_handle ?_ e
    obtain hsame | ⟨payload, document, selection, providers, handle, reads, cancelled, hpastes,
      -⟩ := m.pastes_born e
    · omega
    · rw [hpastes, List.length_append] at hi
      omega
  pending := fun i hi => by
    obtain ⟨hlen, -, hpending⟩ | ⟨document, selection, base, providers, fresh, hcopies, -, -,
      hpending⟩ := m.copies_born e
    · rw [hpending] at hi
      split at hi
      · simp at hi
      · rw [hlen]
        exact h.pending i hi
    · rw [hpending] at hi
      rw [hcopies, List.length_append, ← Option.some.inj hi]
      exact Nat.lt_succ_self _

/-- **What holds of a coordinator at the start holds after every history.** -/
theorem Sound.after {m : Coordinator} (h : m.Sound) (history : List Event) :
    (m.after history).Sound := by
  induction history generalizing m with
  | nil => exact h
  | cons e history ih => exact ih (sound_handle h e)

theorem Reachable.sound {m : Coordinator} (h : m.Reachable) : m.Sound := by
  obtain ⟨config, history, rfl⟩ := h
  exact (sound_start config).after history

theorem Reachable.sound_taken {m taken : Coordinator} (h : m.Reachable) {given : Option Payload}
    {cancelled : Bool} {i : Nat} (htaken : m.paste given cancelled = (.taken i, taken)) :
    taken.Sound := by
  obtain rfl : m.handle (.paste given cancelled) = taken := congrArg Prod.snd htaken
  exact sound_handle h.sound _

end Coordinator

end CopyPaste
