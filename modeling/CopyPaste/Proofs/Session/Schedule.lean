import CopyPaste.Proofs.Coordinator.Settling
import CopyPaste.Session.Basic

/-!
# A paste under any schedule

While a session waits for a paste, the runtime gives the turns in whatever order it likes and lets
as much time pass as it likes. A copy and the paste that belongs to it come to the same under all
schedules: the copy has its turn before the paste looks, or the paste waits and is woken by it, or
the time that the paste may wait is up first.

* `Coordinator.Brings` — a copy that will come to a transfer of a kind;
* `Coordinator.Underway` — a paste that has not begun to ask its providers;
* **`underway_beat`** — what one beat makes of it;
* **`ended_settle`** — every schedule lets the paste end.
-/

namespace CopyPaste

/-! ## Copies that are awaited -/

/-- A copy comes to a transfer of a kind in its turn, whoever sits in its seats and whatever the
desk is like. -/
def CopyRun.Owes (c : CopyRun) (k : Nat) (kind : Transfer → Prop) : Prop :=
  c.result = none ∧ ∀ seats desk, ∃ t,
    (poll { c with seats } k desk).1.result = some (some t) ∧ kind t

namespace Coordinator

/-- A copy has come to a transfer of a kind, or its turn stands in the queue and it will. -/
def Brings (m : Coordinator) (k : Nat) (kind : Transfer → Prop) : Prop :=
  ∃ c, m.copies[k]? = some c ∧
    (c.Owes k kind ∧ .copy k ∈ m.ready ∨ ∃ t, c.result = some (some t) ∧ kind t)

variable {m : Coordinator} {k : Nat} {kind : Transfer → Prop}

/-- Seats are no concern of what a copy brings. -/
theorem Brings.reseat {m' : Coordinator} (h : m.Brings k kind)
    (hcopies : ∀ c, m.copies[k]? = some c → ∃ seats, m'.copies[k]? = some { c with seats })
    (hready : .copy k ∈ m.ready → .copy k ∈ m'.ready) : m'.Brings k kind := by
  obtain ⟨c, hc, hbrings⟩ := h
  obtain ⟨seats, hc'⟩ := hcopies c hc
  refine ⟨_, hc', hbrings.imp (fun ⟨howes, hturn⟩ => ⟨?_, hready hturn⟩) id⟩
  exact ⟨howes.1, fun seats desk => howes.2 seats desk⟩

theorem Brings.requeue (h : m.Brings k kind) {ready : List Task}
    (hready : .copy k ∈ m.ready → .copy k ∈ ready) : Brings { m with ready } k kind :=
  h.reseat (fun c hc => ⟨c.seats, hc⟩) hready

theorem Brings.pollPaste (h : m.Brings k kind) (i : Nat) : (m.pollPaste i).Brings k kind := by
  obtain ⟨-, hsame⟩ | ⟨p, copies, -, hpoll, hcopies⟩ := m.pollPaste_cases i
  · rwa [hsame]
  · rw [hpoll]
    refine h.reseat (fun c hc => ?_) id
    obtain rfl | ⟨j, d, seats, hd, rfl, -⟩ := hcopies
    · exact ⟨c.seats, hc⟩
    · by_cases hj : j = k
      · subst hj
        obtain rfl := Option.some.inj (hd.symm.trans hc)
        exact ⟨seats, List.getElem?_set_self (List.getElem?_eq_some_iff.mp hd).1⟩
      · exact ⟨c.seats, (List.getElem?_set_ne hj).trans hc⟩

/-- The turn of another copy. -/
theorem Brings.pollCopy_of_ne (h : m.Brings k kind) {j : Nat} (hj : j ≠ k) :
    (m.pollCopy j).Brings k kind := by
  obtain ⟨-, hsame⟩ | ⟨d, woken, -, hpoll, -⟩ := m.pollCopy_cases j
  · rwa [hsame]
  · rw [hpoll]
    exact h.reseat (fun c hc => ⟨c.seats, (List.getElem?_set_ne hj).trans hc⟩)
      (List.mem_append_left woken)

/-- Its own turn, with which it leaves the queue. -/
theorem Brings.pollCopy_self (h : m.Brings k kind) (ready : List Task) :
    (Coordinator.pollCopy { m with ready } k).Brings k kind := by
  obtain ⟨c, hc, hbrings⟩ := h
  obtain ⟨hnone, -⟩ | ⟨d, woken, hd, hpoll, -⟩ := pollCopy_cases { m with ready } k
  · exact absurd (hc.symm.trans hnone) (Option.some_ne_none c)
  · obtain rfl := Option.some.inj (hd.symm.trans hc)
    rw [hpoll]
    refine ⟨_, List.getElem?_set_self (List.getElem?_eq_some_iff.mp hd).1, .inr ?_⟩
    obtain ⟨howes, -⟩ | ⟨t, hresult, hkind⟩ := hbrings
    · exact howes.2 d.seats m.desk
    · obtain hkept | ⟨hnone, -⟩ := (poll_copy_cases d k m.desk).2
      · exact ⟨t, hkept.trans hresult, hkind⟩
      · exact absurd (hresult.symm.trans hnone) (Option.some_ne_none _)

theorem Brings.pollReady (h : m.Brings k kind) (task : Task) :
    (m.pollReady task).Brings k kind := by
  unfold Coordinator.pollReady
  split
  · cases task with
    | paste i => exact (h.requeue (List.mem_erase_of_ne (by simp)).mpr).pollPaste i
    | copy j =>
        by_cases hj : j = k
        · subst hj
          exact h.pollCopy_self (m.ready.erase (.copy j))
        · have hne : Task.copy k ≠ .copy j := fun heq => hj (Task.copy.inj heq).symm
          exact (h.requeue (List.mem_erase_of_ne hne).mpr).pollCopy_of_ne hj
  · exact h

theorem Brings.beat (h : m.Brings k kind) (b : Beat) : (m.beat b).Brings k kind := by
  cases b with
  | turn task => exact h.pollReady task
  | tick =>
      obtain ⟨woken, htick⟩ := m.tick_cases
      rw [Coordinator.beat, htick]
      exact h.requeue (List.mem_append_left woken)

/-- What one beat changes while nothing was pasted: the desk, the queue and one copy, which has its
turn. -/
theorem beat_cases (hpastes : m.pastes = []) (b : Beat) : ∃ desk copies ready,
    m.beat b = { m with desk, copies, ready } ∧
      (copies = m.copies ∨ ∃ k c, m.copies[k]? = some c ∧
        copies = m.copies.set k (c.poll k m.desk).1) := by
  cases b with
  | tick =>
      obtain ⟨woken, htick⟩ := m.tick_cases
      exact ⟨_, m.copies, _, htick, .inl rfl⟩
  | turn task =>
      rw [Coordinator.beat]
      unfold Coordinator.pollReady
      split
      · cases task with
        | copy k =>
            obtain ⟨-, hsame⟩ | ⟨c, woken, hc, hpoll, -⟩ :=
              pollCopy_cases { m with ready := m.ready.erase (.copy k) } k
            · exact ⟨m.desk, m.copies, _, hsame, .inl rfl⟩
            · exact ⟨_, _, _, hpoll, .inr ⟨k, c, hc, rfl⟩⟩
        | paste i =>
            refine ⟨m.desk, m.copies, m.ready.erase (.paste i), ?_, .inl rfl⟩
            simp [poll, pollPaste, hpastes]
      · exact ⟨m.desk, m.copies, m.ready, rfl, .inl rfl⟩

end Coordinator

/-- A turn out of order makes nobody miss a wakeup either. -/
theorem Coordinator.attends_pollReady {m : Coordinator} (h : m.Attends m.ready) (task : Task) :
    (m.pollReady task).Attends (m.pollReady task).ready := by
  unfold pollReady
  split
  next htask =>
    have hfirst : m.Attends (task :: m.ready.erase task) :=
      h.mono (List.perm_cons_erase htask).subset
    cases task with
    | copy k => exact attends_pollCopy hfirst
    | paste i => exact attends_pollPaste hfirst
  · exact h

/-! ## A paste underway -/

/-- Whether a paste has not begun to ask its providers, and if it waits, waits for a copy. -/
def PasteRun.IsEarly (p : PasteRun) : Prop :=
  p.cancelled = false ∧
    (p.stage = .queued ∨ p.copy.isSome = true ∧ ∃ since, p.stage = .waiting since)

/-- What a paste may be supplied with if its copy brings a transfer of a kind: that transfer, and
nothing if it has no copy or may run out of time. -/
def PasteRun.Allows (p : PasteRun) (kind : Transfer → Prop) : Option Transfer → Prop
  | some t => kind t
  | none => p.copy = none ∨ p.limit.isSome = true

/-- Whatever the paste is supplied with, it ends well in the turn in which it asks its providers,
if the editor is then as it was when the paste was taken over. -/
def PasteRun.EndsWell (q : PasteRun) (e : Editor) (kind : Transfer → Prop)
    (final : Editor → Prop) : Prop :=
  ∀ stage copied desk, q.Allows kind copied → desk.editor = e → ∃ outcome,
    (askAll { q with stage } (.paste 0) copied desk).1.stage = .ended (.ok outcome) ∧
      final (askAll { q with stage } (.paste 0) copied desk).2.editor

/-- The turn of a paste that has not begun to ask: it waits for its copy, or asks now. -/
theorem PasteRun.poll_early {p : PasteRun} (hearly : p.IsEarly) (i : Nat)
    (result : Option (Option Transfer)) (desk : Desk) :
    (∃ since, p.copy.isSome = true ∧
      p.poll i result desk = ({ p with stage := .waiting since }, desk)) ∨
    ∃ copied, p.poll i result desk = p.askAll (.paste i) copied desk ∧
      (p.copy = none ∧ copied = none ∨ result = some copied ∨
        copied = none ∧ p.limit.isSome = true) := by
  obtain ⟨hcancelled, hstage⟩ := hearly
  by_cases hcopy : p.copy = none
  · obtain hqueued | ⟨hsome, -⟩ := hstage
    · refine .inr ⟨none, ?_, .inl ⟨hcopy, rfl⟩⟩
      unfold poll
      rw [hqueued, hcopy]
    · rw [hcopy] at hsome
      cases hsome
  · obtain ⟨k, hk⟩ := Option.ne_none_iff_exists'.mp hcopy
    obtain ⟨since, hpoll⟩ : ∃ since,
        p.poll i result desk = p.await (.paste i) result since desk := by
      obtain hqueued | ⟨-, since, hwaiting⟩ := hstage
      · exact ⟨desk.now, by unfold poll; rw [hqueued, hk]⟩
      · exact ⟨since, by unfold poll; rw [hwaiting]⟩
    rw [hpoll]
    unfold await WaitEnd.now?
    rw [if_neg (by simp [hcancelled])]
    cases result with
    | some copied => exact .inr ⟨copied, rfl, .inr (.inl rfl)⟩
    | none =>
        dsimp only
        cases hexpired : hasExpired p.limit since desk.now with
        | false => exact .inl ⟨since, by rw [hk]; rfl, rfl⟩
        | true =>
            refine .inr ⟨none, rfl, .inr (.inr ⟨rfl, ?_⟩)⟩
            cases hlimit : p.limit with
            | none => simp [hlimit, hasExpired] at hexpired
            | some ms => rfl

namespace Coordinator

/-- The only paste has not begun to ask its providers. It is the paste `q`, at some stage, whose
copy brings a transfer of a kind, and the editor is still the one that it was taken over in. -/
structure Underway (m : Coordinator) (q : PasteRun) (e : Editor) (kind : Transfer → Prop) :
    Prop where
  editor : m.editor = e
  paste : ∃ stage, m.pastes = [{ q with stage }] ∧ PasteRun.IsEarly { q with stage }
  brings : ∀ k, q.copy = some k → m.Brings k kind
  attends : m.Attends m.ready
  seated : m.Seated

/-- The only paste has ended well, and the editor is as it should be. -/
def Ended (m : Coordinator) (final : Editor → Prop) : Prop :=
  ∃ p outcome, m.pastes = [p] ∧ p.stage = .ended (.ok outcome) ∧ final m.editor

variable {m : Coordinator} {q : PasteRun} {e : Editor} {kind : Transfer → Prop}
  {final : Editor → Prop}

theorem Brings.lt {k : Nat} (h : m.Brings k kind) : k < m.copies.length := by
  obtain ⟨c, hc, -⟩ := h
  exact (List.getElem?_eq_some_iff.mp hc).1

/-- A paste that is held alone is underway once it is run, if nobody sits waiting for a copy. -/
theorem underway_run (hpastes : m.pastes = [q]) (hheld : q.stage = .held)
    (hcancelled : q.cancelled = false) (hvacant : ∀ c ∈ m.copies, c.seats = {})
    (hbrings : ∀ k, q.copy = some k → m.Brings k kind) :
    (m.run 0).Underway q m.editor kind := by
  have honly : ∀ i p, m.pastes[i]? = some p → p = q := fun i p hp =>
    List.mem_singleton.mp (hpastes ▸ List.mem_of_getElem? hp)
  have hattends : m.Attends m.ready := by
    refine ⟨fun k c hc => ?_, fun i k p c hp hwaiting => ?_, fun i k p hp hcopy => ?_,
      fun i p hp hcalled => ?_⟩
    · rw [hvacant c (List.mem_of_getElem? hc)]
      exact Seats.sound_none
    · rw [honly i p hp, PasteRun.isWaiting, hheld] at hwaiting
      cases hwaiting
    · rw [honly i p hp] at hcopy
      exact (hbrings k hcopy).lt
    · rw [honly i p hp, PasteRun.isCalled, hheld] at hcalled
      cases hcalled
  have hrun : m.run 0 =
      Coordinator.wakeAll { m with pastes := [{ q with stage := .queued }] } [.paste 0] := by
    simp [run, hpastes, hheld, wakeAll]
  obtain ⟨woken, hwake, -⟩ :=
    wakeAll_cases { m with pastes := [{ q with stage := .queued }] } [.paste 0]
  have hattends := attends_run hattends 0
  rw [hrun, hwake] at hattends ⊢
  exact
    { editor := rfl
      paste := ⟨.queued, rfl, hcancelled, .inl rfl⟩
      brings := fun k hk => (hbrings k hk).requeue (List.mem_append_left woken)
      attends := hattends
      seated := fun c hc i hi => by
        rw [hvacant c hc] at hi
        exact absurd hi List.not_mem_nil }

/-- What the copy of a paste has come to is of the kind that it brings. -/
theorem Brings.kind_of_result? {k : Nat} (h : m.Brings k kind) {copied : Option Transfer}
    (hresult : m.result? (some k) = some copied) : ∃ t, copied = some t ∧ kind t := by
  obtain ⟨c, hc, hbrings⟩ := h
  rw [result?, Option.bind_some, hc, Option.bind_some] at hresult
  obtain ⟨howes, -⟩ | ⟨t, hdone, hkind⟩ := hbrings
  · rw [howes.1] at hresult
    cases hresult
  · exact ⟨t, Option.some.inj (hresult.symm.trans hdone), hkind⟩

/-- The turn of the paste: it waits for its copy, or it asks its providers and ends. -/
theorem Underway.pollPaste (h : m.Underway q e kind) (hends : q.EndsWell e kind final)
    (ready : List Task) :
    (Coordinator.pollPaste { m with ready } 0).editor = e ∧
        (∃ stage, (Coordinator.pollPaste { m with ready } 0).pastes = [{ q with stage }] ∧
          PasteRun.IsEarly { q with stage }) ∨
      (Coordinator.pollPaste { m with ready } 0).Ended final := by
  obtain ⟨stage, hpastes, hearly⟩ := h.paste
  obtain ⟨hnone, -⟩ | ⟨p, copies, hp, hpoll, -⟩ := pollPaste_cases { m with ready } 0
  · simp [hpastes] at hnone
  obtain rfl : p = { q with stage } := by simpa [hpastes] using hp.symm
  have hset : ∀ p' : PasteRun, m.pastes.set 0 p' = [p'] := by simp [hpastes]
  rw [hpoll]
  obtain ⟨since, hcopy, hwaits⟩ | ⟨copied, hasks, hsupplied⟩ :=
    PasteRun.poll_early hearly 0 (result? { m with ready } q.copy) m.desk
  · refine .inl ⟨?_, .waiting since, ?_, hearly.1, .inr ⟨hcopy, since, rfl⟩⟩
    · show (PasteRun.poll _ _ _ _).2.editor = e
      rw [hwaits]
      exact h.editor
    · show m.pastes.set 0 (PasteRun.poll _ _ _ _).1 = _
      rw [hset, hwaits]
  · have hallowed : q.Allows kind copied := by
      obtain ⟨hnone, rfl⟩ | hresult | ⟨rfl, hlimit⟩ := hsupplied
      · exact .inl hnone
      · cases hcopy : q.copy with
        | none =>
            rw [hcopy] at hresult
            cases hresult
        | some k =>
            rw [hcopy] at hresult
            obtain ⟨t, rfl, hkind⟩ := (h.brings k hcopy).kind_of_result? hresult
            exact hkind
      · exact .inr hlimit
    obtain ⟨outcome, hstage, hfinal⟩ := hends stage copied m.desk hallowed h.editor
    rw [← hasks] at hstage hfinal
    exact .inr ⟨_, outcome, hset _, hstage, hfinal⟩

theorem Underway.pollReady (h : m.Underway q e kind) (hends : q.EndsWell e kind final)
    (task : Task) :
    (m.pollReady task).Underway q e kind ∨ (m.pollReady task).Ended final := by
  suffices hturn : (m.pollReady task).editor = e ∧
      (∃ stage, (m.pollReady task).pastes = [{ q with stage }] ∧
        PasteRun.IsEarly { q with stage }) ∨ (m.pollReady task).Ended final from
    hturn.imp_left fun ⟨heditor, hpaste⟩ => ⟨heditor, hpaste,
      fun k hk => (h.brings k hk).pollReady task, attends_pollReady h.attends task,
      h.seated.pollReady task⟩
  unfold Coordinator.pollReady
  split
  · cases task with
    | copy k =>
        obtain ⟨-, hsame⟩ | ⟨c, woken, -, hpoll, -⟩ :=
          pollCopy_cases { m with ready := m.ready.erase (.copy k) } k
        · rw [poll, hsame]
          exact .inl ⟨h.editor, h.paste⟩
        · rw [poll, hpoll]
          exact .inl ⟨(c.scripted_poll k m.desk).editor.trans h.editor, h.paste⟩
    | paste i =>
        by_cases hi : i = 0
        · subst hi
          exact h.pollPaste hends (m.ready.erase (.paste 0))
        · obtain ⟨stage, hpastes, -⟩ := h.paste
          have hnone : m.pastes[i]? = none := by
            rw [hpastes, List.getElem?_eq_none_iff, List.length_singleton]
            omega
          have hsame : Coordinator.pollPaste { m with ready := m.ready.erase (.paste i) } i =
              { m with ready := m.ready.erase (.paste i) } := by
            unfold Coordinator.pollPaste
            rw [hnone]
          rw [poll, hsame]
          exact .inl ⟨h.editor, h.paste⟩
  · exact .inl ⟨h.editor, h.paste⟩

theorem Underway.tick (h : m.Underway q e kind) : m.tick.Underway q e kind := by
  obtain ⟨woken, htick⟩ := m.tick_cases
  have hattends := attends_tick h.attends
  rw [htick] at hattends ⊢
  exact ⟨h.editor, h.paste, fun k hk => (h.brings k hk).requeue (List.mem_append_left woken),
    hattends, h.seated⟩

/-- **What one beat makes of a paste underway.** -/
theorem underway_beat (h : m.Underway q e kind) (hends : q.EndsWell e kind final) (b : Beat) :
    (m.beat b).Underway q e kind ∨ (m.beat b).Ended final := by
  cases b with
  | turn task => exact h.pollReady hends task
  | tick => exact .inl h.tick

/-- Nothing comes after the end of the paste. -/
theorem Ended.pollReady (h : m.Ended final) (task : Task) : (m.pollReady task).Ended final := by
  obtain ⟨p, outcome, hpastes, hstage, hfinal⟩ := h
  unfold Coordinator.pollReady
  split
  · cases task with
    | copy k =>
        obtain ⟨-, hsame⟩ | ⟨c, woken, -, hpoll, -⟩ :=
          pollCopy_cases { m with ready := m.ready.erase (.copy k) } k
        · rw [poll, hsame]
          exact ⟨p, outcome, hpastes, hstage, hfinal⟩
        · refine ⟨p, outcome, ?_, hstage, ?_⟩ <;> rw [poll, hpoll]
          · exact hpastes
          · show final (c.poll k m.desk).2.editor
            rw [(c.scripted_poll k m.desk).editor]
            exact hfinal
    | paste i =>
        obtain ⟨-, hsame⟩ | ⟨p', copies, hp', hpoll, -⟩ :=
          pollPaste_cases { m with ready := m.ready.erase (.paste i) } i
        · rw [poll, hsame]
          exact ⟨p, outcome, hpastes, hstage, hfinal⟩
        · have hover : p'.stage.isOver = true ∧ m.pastes.set i p' = [p] := by
            have hp' : m.pastes[i]? = some p' := hp'
            rw [hpastes] at hp' ⊢
            cases i with
            | zero =>
                obtain rfl := Option.some.inj hp'
                exact ⟨by rw [hstage]; rfl, rfl⟩
            | succ i => simp at hp'
          rw [PasteRun.poll_of_isOver hover.1] at hpoll
          rw [poll, hpoll]
          exact ⟨p, outcome, hover.2, hstage, hfinal⟩
  · exact ⟨p, outcome, hpastes, hstage, hfinal⟩

theorem Ended.beat (h : m.Ended final) (b : Beat) : (m.beat b).Ended final := by
  cases b with
  | turn task => exact h.pollReady task
  | tick =>
      obtain ⟨p, outcome, hpastes, hstage, hfinal⟩ := h
      obtain ⟨woken, htick⟩ := m.tick_cases
      rw [Coordinator.beat, htick]
      exact ⟨p, outcome, hpastes, hstage, hfinal⟩

theorem Ended.pass (h : m.Ended final) (schedule : List Beat) :
    (m.pass schedule).Ended final := by
  induction schedule generalizing m with
  | nil => exact h
  | cons b schedule ih => exact ih (h.beat b)

theorem Ended.pollTimes (h : m.Ended final) (n : Nat) : (pollTimes n m).Ended final := by
  induction n generalizing m with
  | zero => exact h
  | succ n ih =>
      rw [Coordinator.pollTimes]
      split
      · exact h
      next hready =>
        obtain ⟨task, rest, hrest⟩ := List.exists_cons_of_ne_nil (mt List.isEmpty_iff.mpr hready)
        rw [pollNext_eq_pollReady hrest]
        exact ih (h.pollReady task)

/-- **A paste underway is never stuck:** either its copy has a turn, or it has one itself. -/
theorem Underway.ready_ne_nil (h : m.Underway q e kind) : m.ready ≠ [] := by
  intro hready
  obtain ⟨stage, hpastes, hcancelled, hstage⟩ := h.paste
  have hget : m.pastes[0]? = some { q with stage } := by rw [hpastes]; rfl
  have hasleep := h.attends.awake 0 _ hget
  rw [hready] at hasleep
  refine List.not_mem_nil (hasleep ?_)
  obtain rfl | ⟨hcopy, since, rfl⟩ := hstage
  · rfl
  · obtain ⟨k, hk⟩ := Option.isSome_iff_exists.mp hcopy
    have hk : q.copy = some k := hk
    obtain ⟨c, hc, ⟨-, hturn⟩ | ⟨t, hresult, -⟩⟩ := h.brings k hk
    · rw [hready] at hturn
      exact absurd hturn List.not_mem_nil
    · have hthere : m.result? q.copy = some (some t) := by simp [result?, hk, hc, hresult]
      simp only [PasteRun.isCalled, WaitEnd.now?, hthere]
      split <;> rfl

theorem Underway.pollTimes (h : m.Underway q e kind) (hends : q.EndsWell e kind final) (n : Nat) :
    (pollTimes n m).Underway q e kind ∨ (pollTimes n m).Ended final := by
  induction n generalizing m with
  | zero => exact .inl h
  | succ n ih =>
      obtain ⟨task, rest, hrest⟩ := List.exists_cons_of_ne_nil h.ready_ne_nil
      rw [Coordinator.pollTimes, if_neg (by simp [hrest]), pollNext_eq_pollReady hrest]
      obtain hunderway | hended := h.pollReady hends task
      · exact ih hunderway
      · exact .inr (hended.pollTimes n)

/-- **Every schedule lets the paste end,** and end well. -/
theorem ended_settle (h : m.Underway q e kind) (hends : q.EndsWell e kind final)
    (schedule : List Beat) : (m.pass schedule).settle.Ended final := by
  induction schedule generalizing m with
  | nil =>
      -- once the queue is empty the paste cannot be underway
      obtain hunderway | hended := h.pollTimes hends m.turns
      · exact absurd h.seated.ready_settle hunderway.ready_ne_nil
      · exact hended
  | cons b schedule ih =>
      obtain hunderway | hended := underway_beat h hends b
      · exact ih hunderway
      · exact (hended.pass schedule).pollTimes _

end Coordinator

end CopyPaste
