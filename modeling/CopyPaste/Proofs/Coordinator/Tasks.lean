import CopyPaste.Proofs.Copying.Interleaving
import CopyPaste.Proofs.Coordinator.Steps
import CopyPaste.Proofs.Transfer.Normalized

/-!
# One copy and one paste through a history

A step of the coordinator seen from one copy or from one paste, with the records that the desk
keeps of it. Copies and pastes are never removed, so each of them can be followed by its number
through any history.

* `CopyStep`, `PasteStep` — what an event does to one of them;
* **`copyStep_handle`**, **`pasteStep_handle`** — every event does one of these things;
* **`copyStep_cases`**, **`pasteStep_cases`** — where one of them comes from.
-/

namespace CopyPaste.Coordinator

/-! ## Lists with one element changed -/

private theorem exists_getElem?_set {α : Type} {l : List α} {i : Nat} {x : α} (hx : l[i]? = some x)
    (j : Nat) (y : α) :
    (l.set j y)[i]? = some x ∧ j ≠ i ∨ (l.set j y)[i]? = some y ∧ j = i := by
  by_cases h : j = i
  · subst h
    obtain ⟨hlt, -⟩ := List.getElem?_eq_some_iff.mp hx
    exact .inr ⟨List.getElem?_set_self hlt, rfl⟩
  · exact .inl ⟨by rw [List.getElem?_set_ne h, hx], h⟩

private theorem getElem?_append_of_some {α : Type} {l : List α} {i : Nat} {x : α}
    (hx : l[i]? = some x) (l' : List α) : (l ++ l')[i]? = some x := by
  obtain ⟨hlt, -⟩ := List.getElem?_eq_some_iff.mp hx
  rw [List.getElem?_append_left hlt, hx]

/-! ## One copy -/

/-- What an event does to a copy. -/
inductive CopyStep (m : Coordinator) (e : Event) (i : Nat) (c : CopyRun) : CopyRun → Prop
  | still : CopyStep m e i c c
  /-- A paste takes a seat or leaves it. -/
  | seats (seats : Seats) : CopyStep m e i c { c with seats }
  /-- Only the pending copy is ever cancelled. -/
  | cancels (hmark : m.mark? e = some none) (hpending : m.pending = some i) :
      CopyStep m e i c { c with cancelled := true }
  | polls (he : e = .turn) (hhead : m.ready.head? = some (.copy i)) :
      CopyStep m e i c (c.poll i m.desk).1

/-- **Every event does one of these things to a copy.** -/
theorem copyStep_handle {m : Coordinator} {i : Nat} {c : CopyRun} (hc : m.copies[i]? = some c)
    (e : Event) : ∃ c', (m.handle e).copies[i]? = some c' ∧ CopyStep m e i c c' := by
  have hstep := m.step_handle e
  generalize m.handle e = m' at hstep ⊢
  cases hstep with
  | aside desk registry ready hlog hdeeds hturn hmark => exact ⟨c, hc, .still⟩
  | starts given fresh payload document selection providers ready he hdecision hworks =>
      exact ⟨c, getElem?_append_of_some hc _, .still⟩
  | takes given cancelled payload document selection providers handle he hdecision hworks =>
      exact ⟨c, hc, .still⟩
  | queues j p ready he hp hstage => exact ⟨c, hc, .still⟩
  | cancels j p ready he hp => exact ⟨c, hc, .still⟩
  | disposes j d config ready hmark hpending hd =>
      obtain ⟨h, -⟩ | ⟨h, rfl⟩ := exists_getElem?_set hc j { d with cancelled := true }
      · exact ⟨c, h, .still⟩
      · obtain rfl : c = d := Option.some.inj (hc.symm.trans hd)
        exact ⟨_, h, .cancels hmark hpending⟩
  | clears config hmark hpending => exact ⟨c, hc, .still⟩
  | copies j d ready he hhead hd =>
      obtain ⟨h, -⟩ | ⟨h, rfl⟩ := exists_getElem?_set hc j (d.poll j m.desk).1
      · exact ⟨c, h, .still⟩
      · obtain rfl : c = d := Option.some.inj (hc.symm.trans hd)
        exact ⟨_, h, .polls he hhead⟩
  | pastes j p copies ready he hhead hp hcopies =>
      obtain rfl | ⟨k, d, seats, hd, rfl⟩ := hcopies
      · exact ⟨c, hc, .still⟩
      · obtain ⟨h, -⟩ | ⟨h, rfl⟩ := exists_getElem?_set hc k { d with seats }
        · exact ⟨c, h, .still⟩
        · obtain rfl : c = d := Option.some.inj (hc.symm.trans hd)
          exact ⟨_, h, .seats seats⟩

/-- What an event adds to the copies: a copy that starts, and nothing else. -/
theorem copies_born (m : Coordinator) (e : Event) :
    (m.handle e).copies.length = m.copies.length ∧
        (∀ handle, m.mark? e ≠ some (some handle)) ∧
        ((m.handle e).pending = if m.mark? e = some none then none else m.pending) ∨
      ∃ document selection base providers fresh,
        (m.handle e).copies =
          m.copies ++ [m.newCopy fresh document selection base providers] ∧
        base.keys.Nodup ∧ m.mark? e = some (some fresh) ∧
        (m.handle e).pending = some m.copies.length := by
  have hstep := m.step_handle e
  generalize m.handle e = m' at hstep ⊢
  cases hstep with
  | aside desk registry ready hlog hdeeds hturn hmark =>
      exact .inl ⟨rfl, by simp [hmark], by simp [hmark]⟩
  | starts given fresh payload document selection providers ready he hdecision hworks =>
      refine .inr ⟨document, selection, _, providers, fresh, rfl, ?_, ?_, rfl⟩
      · exact Transfer.nodup_keys_delete (Transfer.nodup_keys_ofPayload payload m.desk.reads) _
      · subst he
        simp [mark?, hdecision]
  | takes given cancelled payload document selection providers handle he hdecision hworks =>
      subst he
      exact .inl ⟨rfl, by simp [mark?], by simp [mark?]⟩
  | queues j p ready he hp hstage =>
      subst he
      exact .inl ⟨rfl, by simp [mark?], by simp [mark?]⟩
  | cancels j p ready he hp =>
      subst he
      exact .inl ⟨rfl, by simp [mark?], by simp [mark?]⟩
  | disposes j d config ready hmark hpending hd =>
      exact .inl ⟨List.length_set, by simp [hmark], by simp [hmark]⟩
  | clears config hmark hpending =>
      exact .inl ⟨rfl, by simp [hmark], by simp [hmark]⟩
  | copies j d ready he hhead hd =>
      subst he
      exact .inl ⟨List.length_set, by simp [mark?], by simp [mark?]⟩
  | pastes j p copies ready he hhead hp hcopies =>
      subst he
      refine .inl ⟨?_, by simp [mark?], by simp [mark?]⟩
      obtain rfl | ⟨k, d, seats, hd, rfl⟩ := hcopies
      · rfl
      · exact List.length_set

theorem getElem?_concat_cases {α : Type} {l : List α} {x y : α} {i : Nat}
    (h : (l ++ [x])[i]? = some y) : l[i]? = some y ∨ i = l.length ∧ y = x := by
  by_cases hi : i < l.length
  · rw [List.getElem?_append_left hi] at h
    exact .inl h
  · obtain ⟨hlt, -⟩ := List.getElem?_eq_some_iff.mp h
    rw [List.length_append, List.length_singleton] at hlt
    obtain rfl : i = l.length := by omega
    rw [List.getElem?_concat_length] at h
    exact .inr ⟨rfl, (Option.some.inj h).symm⟩

/-- Where a copy comes from: from itself before the event, or from the event. -/
theorem copyStep_cases {m : Coordinator} {e : Event} {i : Nat} {c' : CopyRun}
    (hc' : (m.handle e).copies[i]? = some c') :
    (∃ c, m.copies[i]? = some c ∧ CopyStep m e i c c') ∨
      i = m.copies.length ∧ ∃ document selection base providers fresh,
        c' = m.newCopy fresh document selection base providers ∧ base.keys.Nodup ∧
        m.mark? e = some (some fresh) := by
  cases hc : m.copies[i]? with
  | some c =>
      obtain ⟨d, hd, hstep⟩ := copyStep_handle hc e
      obtain rfl : c' = d := Option.some.inj (hc'.symm.trans hd)
      exact .inl ⟨c, rfl, hstep⟩
  | none =>
      have hlen : m.copies.length ≤ i := List.getElem?_eq_none_iff.mp hc
      obtain ⟨hlt, -⟩ := List.getElem?_eq_some_iff.mp hc'
      obtain ⟨hsame, -⟩ | ⟨document, selection, base, providers, fresh, hcopies, hbase, hmark, -⟩ :=
        m.copies_born e
      · omega
      · rw [hcopies] at hc'
        obtain h | ⟨hi, h⟩ := getElem?_concat_cases hc'
        · rw [hc] at h
          simp at h
        · exact .inr ⟨hi, document, selection, base, providers, fresh, h, hbase, hmark⟩

/-! ## One paste -/

/-- Two desks hold the same records of a task. -/
def SameRecords (task : Task) (desk desk' : Desk) : Prop :=
  desk'.questions task = desk.questions task ∧ desk'.deedsOf task = desk.deedsOf task

theorem sameRecords_of_eq {desk desk' : Desk} (hlog : desk'.log = desk.log)
    (hdeeds : desk'.deeds = desk.deeds) (task : Task) : SameRecords task desk desk' := by
  unfold SameRecords Desk.questions Desk.deedsOf
  rw [hlog, hdeeds]
  exact ⟨rfl, rfl⟩

/-- What an event does to a paste, and to the records that the desk keeps of it. -/
inductive PasteStep (m : Coordinator) (e : Event) (i : Nat) (p : PasteRun) :
    PasteRun → Desk → Prop
  | still (desk : Desk) (hrecords : SameRecords (.paste i) m.desk desk) : PasteStep m e i p p desk
  | queues (desk : Desk) (hstage : p.stage = .held)
      (hrecords : SameRecords (.paste i) m.desk desk) :
      PasteStep m e i p { p with stage := .queued } desk
  | cancels (desk : Desk) (he : e = .cancel i) (hrecords : SameRecords (.paste i) m.desk desk) :
      PasteStep m e i p { p with cancelled := true } desk
  | polls (he : e = .turn) (hhead : m.ready.head? = some (.paste i)) :
      PasteStep m e i p (p.poll i (m.result? p.copy) m.desk).1
        (p.poll i (m.result? p.copy) m.desk).2

/-- The records of a task change only when the task has its turn. -/
theorem sameRecords_handle (m : Coordinator) (e : Event) (i : Nat) :
    SameRecords (.paste i) m.desk (m.handle e).desk ∨
      e = .turn ∧ m.ready.head? = some (.paste i) ∧ i < m.pastes.length := by
  have hstep := m.step_handle e
  generalize m.handle e = m' at hstep ⊢
  cases hstep with
  | aside desk registry ready hlog hdeeds hturn hmark =>
      exact .inl (sameRecords_of_eq hlog hdeeds _)
  | starts given fresh payload document selection providers ready he hdecision hworks =>
      exact .inl (sameRecords_of_eq rfl rfl _)
  | takes given cancelled payload document selection providers handle he hdecision hworks =>
      exact .inl (sameRecords_of_eq rfl rfl _)
  | queues j q ready he hq hstage => exact .inl ⟨rfl, rfl⟩
  | cancels j q ready he hq => exact .inl ⟨rfl, rfl⟩
  | disposes j d config ready hmark hpending hd => exact .inl ⟨rfl, rfl⟩
  | clears config hmark hpending => exact .inl ⟨rfl, rfl⟩
  | copies j d ready he hhead hd =>
      have hscripted := d.scripted_poll j m.desk
      exact .inl ⟨hscripted.questions _, hscripted.deedsOf _⟩
  | pastes j q copies ready he hhead hq hcopies =>
      by_cases hj : j = i
      · subst hj
        exact .inr ⟨he, hhead, (List.getElem?_eq_some_iff.mp hq).1⟩
      · exact .inl ((q.polled_poll j (m.result? q.copy) m.desk).others (by simpa using hj))

/-- **Every event does one of these things to a paste.** -/
theorem pasteStep_handle {m : Coordinator} {i : Nat} {p : PasteRun} (hp : m.pastes[i]? = some p)
    (e : Event) : ∃ p', (m.handle e).pastes[i]? = some p' ∧
      PasteStep m e i p p' (m.handle e).desk := by
  have hstep := m.step_handle e
  generalize m.handle e = m' at hstep ⊢
  cases hstep with
  | aside desk registry ready hlog hdeeds hturn hmark =>
      exact ⟨p, hp, .still _ (sameRecords_of_eq hlog hdeeds _)⟩
  | starts given fresh payload document selection providers ready he hdecision hworks =>
      exact ⟨p, hp, .still _ (sameRecords_of_eq rfl rfl _)⟩
  | takes given cancelled payload document selection providers handle he hdecision hworks =>
      exact ⟨p, getElem?_append_of_some hp _, .still _ (sameRecords_of_eq rfl rfl _)⟩
  | queues j q ready he hq hstage =>
      obtain ⟨h, -⟩ | ⟨h, rfl⟩ := exists_getElem?_set hp j { q with stage := .queued }
      · exact ⟨p, h, .still _ ⟨rfl, rfl⟩⟩
      · obtain rfl : p = q := Option.some.inj (hp.symm.trans hq)
        exact ⟨_, h, .queues _ hstage ⟨rfl, rfl⟩⟩
  | cancels j q ready he hq =>
      obtain ⟨h, -⟩ | ⟨h, rfl⟩ := exists_getElem?_set hp j { q with cancelled := true }
      · exact ⟨p, h, .still _ ⟨rfl, rfl⟩⟩
      · obtain rfl : p = q := Option.some.inj (hp.symm.trans hq)
        exact ⟨_, h, .cancels _ he ⟨rfl, rfl⟩⟩
  | disposes j d config ready hmark hpending hd => exact ⟨p, hp, .still _ ⟨rfl, rfl⟩⟩
  | clears config hmark hpending => exact ⟨p, hp, .still _ ⟨rfl, rfl⟩⟩
  | copies j d ready he hhead hd =>
      have hscripted := d.scripted_poll j m.desk
      exact ⟨p, hp, .still _ ⟨hscripted.questions _, hscripted.deedsOf _⟩⟩
  | pastes j q copies ready he hhead hq hcopies =>
      obtain ⟨h, hne⟩ | ⟨h, rfl⟩ := exists_getElem?_set hp j (q.poll j (m.result? q.copy) m.desk).1
      · have hothers := (q.polled_poll j (m.result? q.copy) m.desk).others
          (by simpa using hne : Task.paste j ≠ .paste i)
        exact ⟨p, h, .still _ hothers⟩
      · obtain rfl : p = q := Option.some.inj (hp.symm.trans hq)
        exact ⟨_, h, .polls he hhead⟩

/-- What an event adds to the pastes: a paste that is taken over, and nothing else. -/
theorem pastes_born (m : Coordinator) (e : Event) :
    (m.handle e).pastes.length = m.pastes.length ∨
      ∃ payload document selection providers handle reads cancelled,
        (m.handle e).pastes = m.pastes ++ [m.newPaste handle document selection
          (Transfer.ofPayload payload reads).1 providers cancelled] ∧
        providers ≠ [] ∧ payload.get? handleMime = some handle := by
  have hstep := m.step_handle e
  generalize m.handle e = m' at hstep ⊢
  cases hstep with
  | takes given cancelled payload document selection providers handle he hdecision hworks =>
      obtain ⟨-, -, -, -, hproviders, hhandle⟩ := admitPaste_ok hworks
      exact .inr ⟨payload, document, selection, providers, handle, m.desk.reads, cancelled, rfl,
        hproviders, hhandle⟩
  | queues j q ready he hq hstage => exact .inl List.length_set
  | cancels j q ready he hq => exact .inl List.length_set
  | pastes j q copies ready he hhead hq hcopies => exact .inl List.length_set
  | _ => exact .inl rfl

/-- Where a paste comes from: from itself before the event, or from the event. -/
theorem pasteStep_cases {m : Coordinator} {e : Event} {i : Nat} {p' : PasteRun}
    (hp' : (m.handle e).pastes[i]? = some p') :
    (∃ p, m.pastes[i]? = some p ∧ PasteStep m e i p p' (m.handle e).desk) ∨
      i = m.pastes.length ∧ ∃ payload document selection providers handle reads cancelled,
        p' = m.newPaste handle document selection (Transfer.ofPayload payload reads).1 providers
          cancelled ∧ providers ≠ [] ∧ payload.get? handleMime = some handle := by
  cases hp : m.pastes[i]? with
  | some p =>
      obtain ⟨q, hq, hstep⟩ := pasteStep_handle hp e
      obtain rfl : p' = q := Option.some.inj (hp'.symm.trans hq)
      exact .inl ⟨p, rfl, hstep⟩
  | none =>
      have hlen : m.pastes.length ≤ i := List.getElem?_eq_none_iff.mp hp
      obtain ⟨hlt, -⟩ := List.getElem?_eq_some_iff.mp hp'
      obtain hsame | ⟨payload, document, selection, providers, handle, reads, cancelled, hpastes,
        hproviders, hhandle⟩ := m.pastes_born e
      · omega
      · rw [hpastes] at hp'
        obtain h | ⟨hi, h⟩ := getElem?_concat_cases hp'
        · rw [hp] at h
          simp at h
        · exact .inr ⟨hi, payload, document, selection, providers, handle, reads, cancelled, h,
            hproviders, hhandle⟩

end CopyPaste.Coordinator
