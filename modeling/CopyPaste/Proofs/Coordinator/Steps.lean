import CopyPaste.Coordinator.Event
import CopyPaste.Proofs.Pasting.Turn

/-!
# Steps of a coordinator

Everything that one event can do to a coordinator, said once. What is proved about histories
goes through these cases; the order of the queue of ready tasks is left open in all of them,
because no statement depends on it.

* `Coordinator.mark?` — what an event means for the pending copy;
* `Coordinator.Step` — the cases;
* **`step_handle`** — every event is one of them.
-/

namespace CopyPaste.Coordinator

/-! ## Waking -/

theorem exists_wake (m : Coordinator) (task : Task) : ∃ ready, m.wake task = { m with ready } := by
  unfold wake
  split
  · exact ⟨m.ready, rfl⟩
  · exact ⟨m.ready ++ [task], rfl⟩

/-- Waking changes the queue and nothing else. -/
theorem exists_wakeAll (m : Coordinator) (tasks : List Task) :
    ∃ ready, m.wakeAll tasks = { m with ready } := by
  induction tasks generalizing m with
  | nil => exact ⟨m.ready, rfl⟩
  | cons task tasks ih =>
      obtain ⟨ready, hwake⟩ := m.exists_wake task
      obtain ⟨ready', hrest⟩ := ih (m.wake task)
      refine ⟨ready', ?_⟩
      show (m.wake task).wakeAll tasks = _
      rw [hrest, hwake]

/-! ## Admission -/

/-- What a copy that is not declined works on. -/
theorem admitCopy_ok {m : Coordinator} {given : Option Payload} {payload : Payload}
    {document : Document} {selection : Selection} {providers : List (String × CopyScript)}
    (h : m.admitCopy given = .ok (payload, document, selection, providers)) :
    given = some payload ∧ m.editor.document = some document ∧
      m.editor.selection = some selection ∧ selection.isEmpty = false ∧
      providers = m.registry.copiers document ∧ providers ≠ [] := by
  unfold admitCopy at h
  cases given with
  | none => simp at h
  | some p =>
      cases hdocument : m.editor.document with
      | none => simp [hdocument] at h
      | some d =>
          cases hselection : m.editor.selection with
          | none => simp [hdocument, hselection] at h
          | some s =>
              by_cases hs : s.isEmpty = true
              · simp [hdocument, hselection, hs, bind, Except.bind] at h
              · by_cases hq : m.registry.copiers d = []
                · simp [hdocument, hselection, hs, hq, bind, Except.bind] at h
                · obtain ⟨rfl, rfl, rfl, rfl⟩ : p = payload ∧ d = document ∧ s = selection ∧
                      m.registry.copiers d = providers := by
                    simpa [hdocument, hselection, hs, hq] using h
                  exact ⟨rfl, rfl, rfl, by simpa using hs, rfl, hq⟩

/-- What a paste that is not declined works on. -/
theorem admitPaste_ok {m : Coordinator} {given : Option Payload} {payload : Payload}
    {document : Document} {selection : Selection} {providers : List (String × PasteScript)}
    {handle : String}
    (h : m.admitPaste given = .ok (payload, document, selection, providers, handle)) :
    given = some payload ∧ m.editor.document = some document ∧
      m.editor.selection = some selection ∧ providers = m.registry.pasters document ∧
      providers ≠ [] ∧ payload.get? handleMime = some handle := by
  unfold admitPaste at h
  cases hdocument : m.editor.document with
  | none => simp [hdocument] at h
  | some d =>
      cases hselection : m.editor.selection with
      | none => simp [hdocument, hselection] at h
      | some s =>
          cases given with
          | none => simp [hdocument, hselection] at h
          | some p =>
              by_cases hq : m.registry.pasters d = []
              · simp [hdocument, hselection, hq, bind, Except.bind] at h
              · cases hh : p.get? handleMime with
                | none => simp [hdocument, hselection, hq, hh] at h
                | some text =>
                    obtain ⟨rfl, rfl, rfl, rfl, rfl⟩ : p = payload ∧ d = document ∧
                        s = selection ∧ m.registry.pasters d = providers ∧ text = handle := by
                      simpa [hdocument, hselection, hq, hh] using h
                    exact ⟨rfl, rfl, rfl, rfl, hq, hh⟩

/-- What a copy that starts leaves behind. -/
theorem copy_started {m : Coordinator} {given : Option Payload} {fresh handle : Handle}
    (h : (m.copy given fresh).1 = .started handle) :
    handle = fresh ∧ ∃ payload document selection providers ready,
      m.admitCopy given = .ok (payload, document, selection, providers) ∧
      (m.copy given fresh).2.2 =
        { m with
          desk := { m.desk with reads := (Transfer.ofPayload payload m.desk.reads).2 }
          copies := m.copies ++ [m.newCopy fresh document selection
            ((Transfer.ofPayload payload m.desk.reads).1.delete handleMime) providers]
          pending := some m.copies.length
          ready } := by
  unfold copy at h ⊢
  split at h
  · simp at h
  · rename_i payload document selection providers hworks
    obtain ⟨ready, hwake⟩ := exists_wake
      { m with
        desk := { m.desk with reads := (Transfer.ofPayload payload m.desk.reads).2 }
        copies := m.copies ++ [m.newCopy fresh document selection
          ((Transfer.ofPayload payload m.desk.reads).1.delete handleMime) providers]
        pending := some m.copies.length } (.copy m.copies.length)
    exact ⟨by simpa using h.symm, payload, document, selection, providers, ready, hworks, hwake⟩

/-- What a paste that is taken over leaves behind. -/
theorem paste_taken {m : Coordinator} {given : Option Payload} {cancelled : Bool} {index : Nat}
    (h : (m.paste given cancelled).1 = .taken index) :
    index = m.pastes.length ∧ ∃ payload document selection providers handle,
      m.admitPaste given = .ok (payload, document, selection, providers, handle) ∧
      (m.paste given cancelled).2 =
        { m with
          desk := { m.desk with reads := (Transfer.ofPayload payload m.desk.reads).2 }
          pastes := m.pastes ++ [m.newPaste handle document selection
            (Transfer.ofPayload payload m.desk.reads).1 providers cancelled] } := by
  unfold paste at h ⊢
  split at h
  · simp at h
  · rename_i payload document selection providers handle hworks
    exact ⟨by simpa using h.symm, payload, document, selection, providers, handle, hworks, rfl⟩

theorem copy_declined {m : Coordinator} {given : Option Payload} {fresh : Handle}
    {reason : DeclineReason} (h : (m.copy given fresh).1 = .declined reason) :
    (m.copy given fresh).2.2 = m := by
  unfold copy at h ⊢
  split at h
  · rfl
  · simp at h

theorem paste_declined {m : Coordinator} {given : Option Payload} {cancelled : Bool}
    {reason : DeclineReason} (h : (m.paste given cancelled).1 = .declined reason) :
    (m.paste given cancelled).2 = m := by
  unfold paste at h ⊢
  split at h
  · rfl
  · simp at h

/-! ## Cases -/

/-- What an event means for the pending copy: the handle of a copy that starts, `some none` when
whatever is pending is given up, and `none` if the event does not touch it. -/
def mark? (m : Coordinator) : Event → Option (Option Handle)
  | .copy payload fresh =>
    match (m.copy payload fresh).1 with
    | .started handle => some (some handle)
    | .declined _ => none
  | .dispose | .replace _ => some none
  | _ => none

/-- What one event can do. -/
inductive Step (m : Coordinator) (e : Event) : Coordinator → Prop
  /-- Something outside of copies and pastes changes. -/
  | aside (desk : Desk) (registry : Registry) (ready : List Task)
      (hlog : desk.log = m.desk.log) (hdeeds : desk.deeds = m.desk.deeds)
      (hturn : e = .turn → desk = m.desk) (hmark : m.mark? e = none) :
      Step m e { m with desk, registry, ready }
  | starts (given : Option Payload) (fresh : Handle) (payload : Payload) (document : Document)
      (selection : Selection) (providers : List (String × CopyScript)) (ready : List Task)
      (he : e = .copy given fresh) (hdecision : (m.copy given fresh).1 = .started fresh)
      (hworks : m.admitCopy given = .ok (payload, document, selection, providers)) :
      Step m e
        { m with
          desk := { m.desk with reads := (Transfer.ofPayload payload m.desk.reads).2 }
          copies := m.copies ++ [m.newCopy fresh document selection
            ((Transfer.ofPayload payload m.desk.reads).1.delete handleMime) providers]
          pending := some m.copies.length
          ready }
  | takes (given : Option Payload) (cancelled : Bool) (payload : Payload) (document : Document)
      (selection : Selection) (providers : List (String × PasteScript)) (handle : String)
      (he : e = .paste given cancelled)
      (hdecision : (m.paste given cancelled).1 = .taken m.pastes.length)
      (hworks : m.admitPaste given = .ok (payload, document, selection, providers, handle)) :
      Step m e
        { m with
          desk := { m.desk with reads := (Transfer.ofPayload payload m.desk.reads).2 }
          pastes := m.pastes ++ [m.newPaste handle document selection
            (Transfer.ofPayload payload m.desk.reads).1 providers cancelled] }
  | queues (i : Nat) (p : PasteRun) (ready : List Task) (he : e = .run i)
      (hp : m.pastes[i]? = some p) (hstage : p.stage = .held) :
      Step m e { m with pastes := m.pastes.set i { p with stage := .queued }, ready }
  | cancels (i : Nat) (p : PasteRun) (ready : List Task) (he : e = .cancel i)
      (hp : m.pastes[i]? = some p) :
      Step m e { m with pastes := m.pastes.set i { p with cancelled := true }, ready }
  | disposes (i : Nat) (c : CopyRun) (config : Config) (ready : List Task)
      (hmark : m.mark? e = some none) (hpending : m.pending = some i)
      (hc : m.copies[i]? = some c) :
      Step m e
        { m with
          copies := m.copies.set i { c with cancelled := true }, pending := none, config, ready }
  /-- There is nothing to dispose of. -/
  | clears (config : Config) (hmark : m.mark? e = some none)
      (hpending : m.pending.bind (m.copies[·]?) = none) :
      Step m e { m with pending := none, config }
  | copies (i : Nat) (c : CopyRun) (ready : List Task) (he : e = .turn)
      (hhead : m.ready.head? = some (.copy i)) (hc : m.copies[i]? = some c) :
      Step m e
        { m with
          desk := (c.poll i m.desk).2, copies := m.copies.set i (c.poll i m.desk).1, ready }
  | pastes (i : Nat) (p : PasteRun) (copies : List CopyRun) (ready : List Task) (he : e = .turn)
      (hhead : m.ready.head? = some (.paste i)) (hp : m.pastes[i]? = some p)
      (hcopies : copies = m.copies ∨ ∃ k c seats, m.copies[k]? = some c ∧
        copies = m.copies.set k { c with seats }) :
      Step m e
        { m with
          desk := (p.poll i (m.result? p.copy) m.desk).2
          copies
          pastes := m.pastes.set i (p.poll i (m.result? p.copy) m.desk).1
          ready }

/-! ## Every event is one of the cases -/

theorem step_copy (m : Coordinator) (given : Option Payload) (fresh : Handle) :
    Step m (.copy given fresh) (m.copy given fresh).2.2 := by
  cases hdecision : (m.copy given fresh).1 with
  | declined reason =>
      rw [copy_declined hdecision]
      have hmark : m.mark? (.copy given fresh) = none := by
        simp [mark?, hdecision]
      exact .aside m.desk m.registry m.ready rfl rfl (fun _ => rfl) hmark
  | started handle =>
      obtain ⟨rfl, payload, document, selection, providers, ready, hworks, hafter⟩ :=
        copy_started hdecision
      rw [hafter]
      exact .starts given handle payload document selection providers ready rfl hdecision hworks

theorem step_paste (m : Coordinator) (given : Option Payload) (cancelled : Bool) :
    Step m (.paste given cancelled) (m.paste given cancelled).2 := by
  cases hdecision : (m.paste given cancelled).1 with
  | declined reason =>
      rw [paste_declined hdecision]
      exact .aside m.desk m.registry m.ready rfl rfl (fun _ => rfl) rfl
  | taken index =>
      obtain ⟨rfl, payload, document, selection, providers, handle, hworks, hafter⟩ :=
        paste_taken hdecision
      rw [hafter]
      exact .takes given cancelled payload document selection providers handle rfl hdecision hworks

theorem step_still {m : Coordinator} {e : Event} (hmark : m.mark? e = none) (ready : List Task) :
    Step m e { m with ready } :=
  .aside m.desk m.registry ready rfl rfl (fun _ => rfl) hmark

theorem step_run (m : Coordinator) (i : Nat) : Step m (.run i) (m.run i) := by
  unfold run
  cases hp : m.pastes[i]? with
  | none => exact step_still rfl m.ready
  | some p =>
      dsimp only
      cases hstage : p.stage with
      | held =>
          obtain ⟨ready, hwake⟩ := exists_wake
            { m with pastes := m.pastes.set i { p with stage := .queued } } (.paste i)
          dsimp only
          rw [hwake]
          exact .queues i p ready rfl hp hstage
      | _ => exact step_still rfl m.ready

theorem step_cancel (m : Coordinator) (i : Nat) : Step m (.cancel i) (m.cancel i) := by
  unfold cancel
  cases hp : m.pastes[i]? with
  | none => exact step_still rfl m.ready
  | some p =>
      dsimp only
      split
      · obtain ⟨ready, hwake⟩ := exists_wake
          { m with pastes := m.pastes.set i { p with cancelled := true } } (.paste i)
        rw [hwake]
        exact .cancels i p ready rfl hp
      · exact .cancels i p m.ready rfl hp

/-- Whatever is pending is cancelled and forgotten. -/
theorem dispose_cases (m : Coordinator) :
    (m.pending.bind (m.copies[·]?) = none ∧ m.dispose = { m with pending := none }) ∨
      ∃ i c ready, m.pending = some i ∧ m.copies[i]? = some c ∧ m.dispose =
        { m with
          copies := m.copies.set i { c with cancelled := true }, pending := none, ready } := by
  unfold dispose
  cases hpending : m.pending with
  | none =>
      have hm : m = { m with pending := none } := by rw [← hpending]
      exact .inl ⟨rfl, hm⟩
  | some i =>
      dsimp only
      cases hc : m.copies[i]? with
      | none => exact .inl ⟨hc, rfl⟩
      | some c =>
          dsimp only
          split
          · obtain ⟨ready, hwake⟩ := exists_wake
              { m with copies := m.copies.set i { c with cancelled := true }, pending := none }
              (.copy i)
            exact .inr ⟨i, c, ready, rfl, hc, hwake⟩
          · exact .inr ⟨i, c, m.ready, rfl, hc, rfl⟩

theorem step_dispose (m : Coordinator) : Step m .dispose m.dispose := by
  obtain ⟨hnone, h⟩ | ⟨i, c, ready, hpending, hc, h⟩ := m.dispose_cases
  · rw [h]
    exact .clears m.config rfl hnone
  · rw [h]
    exact .disposes i c m.config ready rfl hpending hc

theorem step_replace (m : Coordinator) (config : Config) :
    Step m (.replace config) (m.replace config) := by
  unfold replace
  obtain ⟨hnone, h⟩ | ⟨i, c, ready, hpending, hc, h⟩ := m.dispose_cases
  · rw [h]
    exact .clears config rfl hnone
  · rw [h]
    exact .disposes i c config ready rfl hpending hc

theorem step_pollCopy {m : Coordinator} {i : Nat} {rest : List Task}
    (hready : m.ready = .copy i :: rest) :
    Step m .turn (pollCopy { m with ready := rest } i) := by
  unfold pollCopy
  dsimp only
  cases hc : m.copies[i]? with
  | none => exact step_still rfl rest
  | some c =>
      dsimp only
      have hhead : m.ready.head? = some (.copy i) := by rw [hready]; rfl
      split
      · obtain ⟨ready, hwake⟩ := exists_wakeAll
          { m with
            desk := (c.poll i m.desk).2
            copies := m.copies.set i (c.poll i m.desk).1
            ready := rest } (c.seats.occupants.map .paste)
        rw [hwake]
        exact .copies i c ready rfl hhead hc
      · exact .copies i c rest rfl hhead hc

/-- The seats of one copy change as they are told to, and nothing else does. -/
theorem mapSeats_eq (m : Coordinator) (copy : Option Nat) (f : Seats → Seats) :
    m.mapSeats copy f = m ∨ ∃ k c, m.copies[k]? = some c ∧
      m.mapSeats copy f = { m with copies := m.copies.set k { c with seats := f c.seats } } := by
  unfold mapSeats
  split
  · rename_i k c hbind
    obtain ⟨j, hj, hmap⟩ := Option.bind_eq_some_iff.mp hbind
    obtain ⟨d, hd, heq⟩ := Option.map_eq_some_iff.mp hmap
    obtain ⟨rfl, rfl⟩ := Prod.mk.inj heq
    exact .inr ⟨j, d, hd, rfl⟩
  · exact .inl rfl

/-- Only the seats of one copy change. -/
theorem mapSeats_cases (m : Coordinator) (copy : Option Nat) (f : Seats → Seats) :
    ∃ copies, m.mapSeats copy f = { m with copies } ∧
      (copies = m.copies ∨ ∃ k c seats, m.copies[k]? = some c ∧
        copies = m.copies.set k { c with seats }) := by
  obtain hsame | ⟨k, c, hc, hmap⟩ := m.mapSeats_eq copy f
  · exact ⟨m.copies, hsame, .inl rfl⟩
  · exact ⟨_, hmap, .inr ⟨k, c, f c.seats, hc, rfl⟩⟩

theorem step_pollPaste {m : Coordinator} {i : Nat} {rest : List Task}
    (hready : m.ready = .paste i :: rest) :
    Step m .turn (pollPaste { m with ready := rest } i) := by
  unfold pollPaste
  dsimp only
  cases hp : m.pastes[i]? with
  | none => exact step_still rfl rest
  | some p =>
      dsimp only
      have hhead : m.ready.head? = some (.paste i) := by rw [hready]; rfl
      have hresult : result? { m with ready := rest } p.copy = m.result? p.copy := rfl
      rw [hresult]
      split
      · obtain ⟨copies, hseats, hcopies⟩ := mapSeats_cases
          { m with
            desk := (p.poll i (m.result? p.copy) m.desk).2
            pastes := m.pastes.set i (p.poll i (m.result? p.copy) m.desk).1
            ready := rest } p.copy (·.sit i)
        rw [hseats]
        exact .pastes i p copies rest rfl hhead hp hcopies
      · split
        · obtain ⟨copies, hseats, hcopies⟩ := mapSeats_cases
            { m with
              desk := (p.poll i (m.result? p.copy) m.desk).2
              pastes := m.pastes.set i (p.poll i (m.result? p.copy) m.desk).1
              ready := rest } p.copy (·.leave i)
          rw [hseats]
          exact .pastes i p copies rest rfl hhead hp hcopies
        · exact .pastes i p m.copies rest rfl hhead hp (.inl rfl)

theorem step_turn (m : Coordinator) : Step m .turn m.pollNext := by
  unfold pollNext
  cases hready : m.ready with
  | nil => exact step_still rfl m.ready
  | cons task rest =>
      cases task with
      | copy i => exact step_pollCopy hready
      | paste i => exact step_pollPaste hready

/-- **Every event is one of the cases.** -/
theorem step_handle (m : Coordinator) (e : Event) : Step m e (m.handle e) := by
  have hediting : ∀ (e : Event) (editor : Editor), m.mark? e = none → e ≠ .turn →
      Step m e { m with desk := { m.desk with editor } } := fun e editor hmark hne =>
    .aside { m.desk with editor } m.registry m.ready rfl rfl (fun h => absurd h hne) hmark
  have hregistering : ∀ (e : Event) (registry : Registry), m.mark? e = none →
      Step m e { m with registry } := fun e registry hmark =>
    .aside m.desk registry m.ready rfl rfl (fun _ => rfl) hmark
  cases e with
  | openDocument document => exact hediting _ _ rfl (by simp)
  | closeDocument => exact hediting _ _ rfl (by simp)
  | select selection => exact hediting _ _ rfl (by simp)
  | clearSelection => exact hediting _ _ rfl (by simp)
  | edit change =>
      show Step m _ (m.edit change)
      unfold Coordinator.edit
      split
      · exact hediting _ _ rfl (by simp)
      · exact step_still rfl m.ready
  | register selector provider => exact hregistering _ _ rfl
  | registerDefaults => exact hregistering _ _ rfl
  | deregister id => exact hregistering _ _ rfl
  | copy given fresh => exact step_copy m given fresh
  | paste given cancelled => exact step_paste m given cancelled
  | run i => exact step_run m i
  | cancel i => exact step_cancel m i
  | dispose => exact step_dispose m
  | replace config => exact step_replace m config
  | release gate =>
      let waiting := m.desk.waiters.partition fun w => w.1 == gate
      obtain ⟨ready, hwake⟩ := exists_wakeAll
        { m with
          desk := { m.desk with openGates := gate :: m.desk.openGates, waiters := waiting.2 } }
        (waiting.1.map Prod.snd)
      have hafter : m.handle (.release gate) = _ := hwake
      rw [hafter]
      exact .aside _ m.registry ready rfl rfl (fun h => by simp at h) rfl
  | tick =>
      let ticked := { m with desk := { m.desk with now := m.desk.now + 1 } }
      obtain ⟨ready, hwake⟩ := exists_wakeAll ticked ticked.dueTasks
      have hafter : m.handle .tick = _ := hwake
      rw [hafter]
      exact .aside _ m.registry ready rfl rfl (fun h => by simp at h) rfl
  | turn => exact step_turn m

end CopyPaste.Coordinator
