import CopyPaste.Proofs.Coordinator.Soundness

/-!
# No wakeup is lost

A paste that waits for its copy sits in a seat of the copy and watches the clock and its own
cancellation. Whenever there is something for it to see, its turn stands in the queue, whatever the
other tasks did meanwhile.

* `Seats.Sound` — the empty seats of a row are just what they are listed as;
* `PasteRun.isCalled` — whether there is something for a paste to see;
* `Coordinator.Attends` — everybody who waits has a seat, and everybody who is called has a turn;
* **`attends_handle`** — one event;
* **`Reachable.attends`** — all histories.
-/

namespace CopyPaste

/-! ## Seats -/

/-- Nobody sits in a seat that is listed as empty, and no seat is listed twice. -/
structure Seats.Sound (s : Seats) : Prop where
  nodup : s.empty.Nodup
  vacant : ∀ i ∈ s.empty, s.row[i]? = some none

namespace Seats

variable {s : Seats} {who other : Nat}

theorem sound_none : Sound {} where
  nodup := List.nodup_nil
  vacant := fun _ hi => absurd hi List.not_mem_nil

theorem mem_occupants_iff : who ∈ s.occupants ↔ some who ∈ s.row := by
  simp [occupants]

theorem Sound.sit (h : s.Sound) (who : Nat) : (s.sit who).Sound := by
  unfold Seats.sit
  cases hempty : s.empty with
  | nil => exact ⟨List.nodup_nil, fun _ hi => absurd hi List.not_mem_nil⟩
  | cons i empty =>
      have hnodup := h.nodup
      rw [hempty] at hnodup
      obtain ⟨hi, hnodup⟩ := List.nodup_cons.mp hnodup
      refine ⟨hnodup, fun j hj => ?_⟩
      dsimp only at hj ⊢
      have hne : i ≠ j := fun hij => hi (hij ▸ hj)
      rw [List.getElem?_set_ne hne]
      exact h.vacant j (hempty ▸ List.mem_cons_of_mem i hj)

theorem Sound.leave (h : s.Sound) (who : Nat) : (s.leave who).Sound := by
  unfold Seats.leave
  cases hfind : s.row.findIdx? (· == some who) with
  | none => exact h
  | some i =>
      obtain ⟨hlt, hwho, -⟩ := List.findIdx?_eq_some_iff_getElem.mp hfind
      have hrow : s.row[i]? = some (some who) := by
        rw [List.getElem?_eq_getElem hlt]
        simpa using hwho
      -- a seat that is listed as empty is not the one that `who` leaves
      have hne : ∀ j ∈ s.empty, i ≠ j := by
        rintro j hj rfl
        rw [h.vacant i hj] at hrow
        simp at hrow
      refine ⟨List.nodup_cons.mpr ⟨fun hi => hne i hi rfl, h.nodup⟩, fun j hj => ?_⟩
      dsimp only
      rcases List.mem_cons.mp hj with rfl | hj
      · exact List.getElem?_set_self hlt
      · rw [List.getElem?_set_ne (hne j hj)]
        exact h.vacant j hj

/-- Who comes has a seat, and nobody loses one. -/
theorem Sound.mem_sit (h : s.Sound) (hmem : other = who ∨ other ∈ s.occupants) :
    other ∈ (s.sit who).occupants := by
  rw [mem_occupants_iff] at hmem ⊢
  unfold Seats.sit
  cases hempty : s.empty with
  | nil =>
      rcases hmem with rfl | hmem
      · simp
      · simp [hmem]
  | cons i empty =>
      have hvacant := h.vacant i (hempty ▸ List.mem_cons_self)
      obtain ⟨hlt, -⟩ := List.getElem?_eq_some_iff.mp hvacant
      dsimp only
      rcases hmem with rfl | hmem
      · exact List.mem_set hlt _
      · obtain ⟨j, hj⟩ := List.mem_iff_getElem?.mp hmem
        refine List.mem_of_getElem? (i := j) ?_
        have hne : i ≠ j := by
          rintro rfl
          rw [hvacant] at hj
          simp at hj
        rw [List.getElem?_set_ne hne, hj]

/-- Who leaves takes nobody's seat away. -/
theorem mem_leave (hmem : other ∈ s.occupants) (hne : other ≠ who) :
    other ∈ (s.leave who).occupants := by
  rw [mem_occupants_iff] at hmem ⊢
  unfold Seats.leave
  cases hfind : s.row.findIdx? (· == some who) with
  | none => exact hmem
  | some i =>
      obtain ⟨hlt, hwho, -⟩ := List.findIdx?_eq_some_iff_getElem.mp hfind
      obtain ⟨j, hj⟩ := List.mem_iff_getElem?.mp hmem
      refine List.mem_of_getElem? (i := j) ?_
      have hij : i ≠ j := by
        rintro rfl
        rw [List.getElem?_eq_getElem hlt, Option.some.injEq] at hj
        rw [hj] at hwho
        exact hne (by simpa using hwho)
      dsimp only
      rw [List.getElem?_set_ne hij, hj]

end Seats

/-! ## Pastes that are called -/

namespace PasteRun

/-- Whether there is something for a paste to see before it has begun to ask its providers: its
first turn, or an end of waiting. -/
def isCalled (p : PasteRun) (result : Option (Option Transfer)) (now : Nat) : Bool :=
  match p.stage with
  | .queued => true
  | .waiting since => (WaitEnd.now? p.cancelled result (hasExpired p.limit since now)).isSome
  | _ => false

variable {p : PasteRun} {result : Option (Option Transfer)} {now : Nat}

theorem undecided_of_isCalled (h : p.isCalled result now = true) :
    p.stage.isUndecided = true := by
  unfold isCalled at h
  split at h
  · rename_i hstage
    rw [hstage]
    rfl
  · rename_i hstage
    rw [hstage]
    rfl
  · simp at h

theorem quiet_of_decided (h : p.stage.isUndecided = false) : p.isCalled result now = false := by
  cases hcalled : p.isCalled result now with
  | false => rfl
  | true =>
      rw [undecided_of_isCalled hcalled] at h
      exact absurd h.symm Bool.false_ne_true

/-- Only while it waits is a paste called by anything new. -/
theorem isWaiting_of_isCalled {result' : Option (Option Transfer)} {now' : Nat}
    (hbefore : p.isCalled result now ≠ true) (hcalled : p.isCalled result' now' = true) :
    p.isWaiting = true := by
  unfold isCalled at hbefore hcalled
  unfold isWaiting
  cases hstage : p.stage with
  | queued =>
      rw [hstage] at hbefore
      exact absurd rfl hbefore
  | waiting since => rfl
  | _ => simp [hstage] at hcalled

/-- A turn leaves nothing for the paste to see. -/
theorem quiet_poll (p : PasteRun) (i : Nat) (result : Option (Option Transfer)) (desk : Desk) :
    (p.poll i result desk).1.isCalled result desk.now = false := by
  have hpolled := p.polled_poll i result desk
  generalize p.poll i result desk = out at hpolled
  cases hpolled with
  | idle hstage =>
      rcases hstage with hheld | hover
      · unfold isCalled
        rw [hheld]
      · exact quiet_of_decided (PasteStage.decided_of_isOver hover)
  | waits since hsince hcancelled hresult hlimit =>
      simp [isCalled, WaitEnd.now?, hcancelled, hresult, hlimit]
  | stops since hsince hcancelled => rfl
  | asks since copied hsince hsupplied =>
      exact quiet_of_decided (p.decided_askAll _ copied desk)
  | resumes provider script since rest hstage =>
      obtain ⟨asked, deeds, hprogress⟩ :=
        p.progress_resumes (.paste i) provider script since rest desk
      exact quiet_of_decided hprogress.decided
  | fallsBack hstage =>
      obtain ⟨deeds, hprogress⟩ := p.progress_fallBack (.paste i) p.cancelled desk
      exact quiet_of_decided hprogress.decided

/-! ## The clock stands still in a turn -/

theorem now_applyEdit (p : PasteRun) (task : Task) (edit : Edit) (outcome : PasteOutcome)
    (desk : Desk) : (p.applyEdit task edit outcome desk).2.now = desk.now := by
  unfold applyEdit
  dsimp only
  split <;> rfl

theorem now_fallBack (p : PasteRun) (task : Task) (desk : Desk) :
    (p.fallBack task desk).2.now = desk.now := by
  obtain ⟨asked, hasked, ⟨edit, -, h⟩ | ⟨-, h⟩ | ⟨edit, -, h⟩⟩ := p.fallBack_cases task desk
  · rw [h]
    exact hasked.now
  · rw [h]
    exact hasked.now
  · rw [h, now_applyEdit]
    exact hasked.now

theorem now_follow (p : PasteRun) (task : Task) (provider : String)
    (left : List (String × PasteScript)) {next : Bool → Desk → PasteStage × Bool × Desk}
    (hnext : ∀ cancelled desk, (next cancelled desk).2.2.now = desk.now)
    (reply : Reply × Bool × Desk) :
    (p.follow task provider left next reply).2.2.now = reply.2.2.now := by
  obtain ⟨answer | ⟨script, since⟩ | _, cancelled, desk⟩ := reply
  · have hrecord : (desk.record task (.answered provider answer cancelled)).now = desk.now := rfl
    dsimp only [follow]
    rcases answer with error | _ | edit
    · dsimp only [heed]
      split <;> exact hrecord
    · exact (hnext cancelled _).trans hrecord
    · dsimp only [heed]
      split
      · exact (hnext cancelled _).trans hrecord
      · exact (p.now_applyEdit task edit _ _).trans hrecord
  · rfl
  · rfl

theorem now_scan (p : PasteRun) (task : Task) (left : List (String × PasteScript))
    (cancelled : Bool) (desk : Desk) : (p.scan task left cancelled desk).2.2.now = desk.now := by
  induction left generalizing cancelled desk with
  | nil => exact p.now_fallBack task desk
  | cons q left ih =>
      obtain ⟨provider, script⟩ := q
      rw [scan]
      split
      · rfl
      · rw [p.now_follow task provider left ih]
        exact (PasteScript.scripted_run _ _ script _ _ _).now

theorem now_poll (p : PasteRun) (i : Nat) (result : Option (Option Transfer)) (desk : Desk) :
    (p.poll i result desk).2.now = desk.now := by
  have hpolled := p.polled_poll i result desk
  generalize p.poll i result desk = out at hpolled
  cases hpolled with
  | idle hstage => rfl
  | waits since hsince hcancelled hresult hlimit => rfl
  | stops since hsince hcancelled => rfl
  | asks since copied hsince hsupplied => exact (p.supply copied).now_scan _ _ _ desk
  | resumes provider script since rest hstage =>
      refine (p.now_follow _ provider rest (p.now_scan _ rest) _).trans ?_
      exact (PasteScript.scripted_run _ _ script _ _ desk).now
  | fallsBack hstage => exact p.now_scan _ [] p.cancelled desk

end PasteRun

/-! ## Who has a turn -/

namespace Coordinator

/-- Every paste that waits for its copy has a seat there until the result comes, and every paste
that is called has a turn among those in the queue. -/
structure Attends (m : Coordinator) (queue : List Task) : Prop where
  seats : ∀ (k : Nat) (c : CopyRun), m.copies[k]? = some c → c.seats.Sound
  seated : ∀ (i k : Nat) (p : PasteRun) (c : CopyRun), m.pastes[i]? = some p →
    p.isWaiting = true → p.copy = some k → m.copies[k]? = some c → c.result = none →
      i ∈ c.seats.occupants
  known : ∀ (i k : Nat) (p : PasteRun), m.pastes[i]? = some p → p.copy = some k →
    k < m.copies.length
  awake : ∀ (i : Nat) (p : PasteRun), m.pastes[i]? = some p →
    p.isCalled (m.result? p.copy) m.desk.now = true → .paste i ∈ queue

section Steps

variable {m m' : Coordinator} {queue queue' : List Task}

theorem Attends.mono (h : m.Attends queue) (hsub : queue ⊆ queue') : m.Attends queue' :=
  ⟨h.seats, h.seated, h.known, fun i p hp hcalled => hsub (h.awake i p hp hcalled)⟩

/-- Copies, pastes and the clock are all that matters. -/
theorem Attends.aside (h : m.Attends queue) (hcopies : m'.copies = m.copies)
    (hpastes : m'.pastes = m.pastes) (hnow : m'.desk.now = m.desk.now) : m'.Attends queue where
  seats := by
    rw [hcopies]
    exact h.seats
  seated := by
    rw [hcopies, hpastes]
    exact h.seated
  known := by
    rw [hcopies, hpastes]
    exact h.known
  awake := by
    unfold result?
    rw [hcopies, hpastes, hnow]
    exact h.awake

theorem mem_ready_wake {task other : Task} :
    other ∈ (m.wake task).ready ↔ other ∈ m.ready ∨ other = task := by
  unfold wake
  split
  · rename_i h
    have hmem : task ∈ m.ready := by simpa using h
    exact ⟨.inl, fun hother => hother.elim id fun heq => heq ▸ hmem⟩
  · simp

theorem mem_ready_wakeAll {tasks : List Task} {other : Task} :
    other ∈ (m.wakeAll tasks).ready ↔ other ∈ m.ready ∨ other ∈ tasks := by
  induction tasks generalizing m with
  | nil => simp [wakeAll]
  | cons task tasks ih =>
      show other ∈ ((m.wake task).wakeAll tasks).ready ↔ _
      rw [ih, mem_ready_wake, List.mem_cons, or_assoc]

/-- Whoever is woken has a turn in the queue. -/
theorem Attends.wakeAll {tasks : List Task} (h : m.Attends queue)
    (hsub : ∀ task ∈ queue, task ∈ m.ready ∨ task ∈ tasks) :
    (m.wakeAll tasks).Attends (m.wakeAll tasks).ready := by
  obtain ⟨ready, hwake⟩ := m.exists_wakeAll tasks
  have hmono := h.mono fun task htask => mem_ready_wakeAll.mpr (hsub task htask)
  exact hmono.aside (by rw [hwake]) (by rw [hwake]) (by rw [hwake])

theorem Attends.wake {task : Task} (h : m.Attends queue)
    (hsub : ∀ other ∈ queue, other ∈ m.ready ∨ other = task) :
    (m.wake task).Attends (m.wake task).ready := by
  show (m.wakeAll [task]).Attends (m.wakeAll [task]).ready
  refine h.wakeAll fun other hother => ?_
  simpa using hsub other hother

/-! ## One copy or one paste changes -/

theorem result?_set {k : Nat} {c c' : CopyRun} (hc : m.copies[k]? = some c)
    (hcopies : m'.copies = m.copies.set k c') (copy : Option Nat) :
    m'.result? copy = if copy = some k then c'.result else m.result? copy := by
  unfold result?
  cases copy with
  | none => rfl
  | some j =>
      rw [Option.bind_some, Option.bind_some, hcopies]
      by_cases hj : j = k
      · subst hj
        obtain ⟨hlt, -⟩ := List.getElem?_eq_some_iff.mp hc
        rw [List.getElem?_set_self hlt, if_pos rfl]
        rfl
      · rw [List.getElem?_set_ne (Ne.symm hj), if_neg (by simpa using hj)]

/-- A copy goes on, and whoever sits there is woken if it comes to a result. -/
theorem Attends.setCopy (h : m.Attends queue) {k : Nat} {c : CopyRun}
    (hc : m.copies[k]? = some c) (c' : CopyRun) (hseats : c'.seats = c.seats)
    (hresult : c'.result = c.result ∨
      c.result = none ∧ ∀ i ∈ c.seats.occupants, .paste i ∈ queue')
    (hsub : queue ⊆ queue') (hcopies : m'.copies = m.copies.set k c')
    (hpastes : m'.pastes = m.pastes) (hnow : m'.desk.now = m.desk.now) : m'.Attends queue' := by
  obtain ⟨hlt, -⟩ := List.getElem?_eq_some_iff.mp hc
  have hself : m'.copies[k]? = some c' := by rw [hcopies, List.getElem?_set_self hlt]
  have hother : ∀ j, j ≠ k → m'.copies[j]? = m.copies[j]? := fun j hj => by
    rw [hcopies, List.getElem?_set_ne (Ne.symm hj)]
  refine ⟨fun j d hd => ?_, fun i j p d hp hwaiting hcopy hd hnone => ?_, fun i j p hp hcopy => ?_,
    fun i p hp hcalled => ?_⟩
  · by_cases hj : j = k
    · subst hj
      obtain rfl : c' = d := Option.some.inj (hself.symm.trans hd)
      rw [hseats]
      exact h.seats j c hc
    · exact h.seats j d ((hother j hj).symm.trans hd)
  · rw [hpastes] at hp
    by_cases hj : j = k
    · subst hj
      obtain rfl : c' = d := Option.some.inj (hself.symm.trans hd)
      rw [hseats]
      refine h.seated i j p c hp hwaiting hcopy hc ?_
      exact hresult.elim (fun hsame => hsame.symm.trans hnone) And.left
    · exact h.seated i j p d hp hwaiting hcopy ((hother j hj).symm.trans hd) hnone
  · rw [hpastes] at hp
    rw [hcopies, List.length_set]
    exact h.known i j p hp hcopy
  · rw [hpastes] at hp
    rw [hnow, result?_set hc hcopies] at hcalled
    by_cases hold : p.isCalled (m.result? p.copy) m.desk.now = true
    · exact hsub (h.awake i p hp hold)
    · -- the paste was not called before, so it is the result of its copy that calls it
      by_cases hcopy : p.copy = some k
      · have hpresent : m.result? p.copy = c.result := by
          rw [hcopy]
          show (m.copies[k]?).bind _ = _
          rw [hc]
          rfl
        rw [if_pos hcopy] at hcalled
        rw [hpresent] at hold
        rcases hresult with hsame | ⟨hnone, hwoken⟩
        · rw [hsame] at hcalled
          exact absurd hcalled hold
        · have hwaiting := PasteRun.isWaiting_of_isCalled hold hcalled
          exact hwoken i (h.seated i k p c hp hwaiting hcopy hc hnone)
      · rw [if_neg hcopy] at hcalled
        exact absurd hcalled hold

theorem result?_congr (hlength : m'.copies.length = m.copies.length)
    (hcopies : ∀ (k : Nat) (c' : CopyRun), m'.copies[k]? = some c' →
      ∃ c, m.copies[k]? = some c ∧ c'.result = c.result) (copy : Option Nat) :
    m'.result? copy = m.result? copy := by
  unfold result?
  cases copy with
  | none => rfl
  | some k =>
      rw [Option.bind_some, Option.bind_some]
      cases hc' : m'.copies[k]? with
      | none =>
          have hle := List.getElem?_eq_none_iff.mp hc'
          rw [List.getElem?_eq_none_iff.mpr (hlength ▸ hle)]
      | some c' =>
          obtain ⟨c, hc, hresult⟩ := hcopies k c' hc'
          rw [hc]
          exact hresult

/-- What becomes of the seats of a copy when the paste with the given number changes. -/
structure Reseated (i : Nat) (c c' : CopyRun) : Prop where
  result : c'.result = c.result
  sound : c.seats.Sound → c'.seats.Sound
  others : ∀ j ∈ c.seats.occupants, j ≠ i → j ∈ c'.seats.occupants

/-- A paste goes on, and takes a seat if it waits for its copy now. -/
theorem Attends.setPaste {i : Nat} (h : m.Attends (.paste i :: queue)) {p p' : PasteRun}
    (hp : m.pastes[i]? = some p) (hcopy : p'.copy = p.copy)
    (hcalled : p'.isCalled (m.result? p.copy) m.desk.now = true → .paste i ∈ queue)
    (hlength : m'.copies.length = m.copies.length)
    (hcopies : ∀ k c', m'.copies[k]? = some c' →
      ∃ c, m.copies[k]? = some c ∧ Reseated i c c' ∧
        (p'.isWaiting = true → p.copy = some k → c.result = none → i ∈ c'.seats.occupants))
    (hpastes : m'.pastes = m.pastes.set i p') (hnow : m'.desk.now = m.desk.now) :
    m'.Attends queue := by
  obtain ⟨hlt, -⟩ := List.getElem?_eq_some_iff.mp hp
  have hself : m'.pastes[i]? = some p' := by rw [hpastes, List.getElem?_set_self hlt]
  have hother : ∀ j, j ≠ i → m'.pastes[j]? = m.pastes[j]? := fun j hj => by
    rw [hpastes, List.getElem?_set_ne (Ne.symm hj)]
  have hresult : ∀ copy, m'.result? copy = m.result? copy :=
    result?_congr hlength fun k c' hc' => by
      obtain ⟨c, hc, hreseated, -⟩ := hcopies k c' hc'
      exact ⟨c, hc, hreseated.result⟩
  refine ⟨fun k c' hc' => ?_, fun j k q c' hq hwaiting hqcopy hc' hnone => ?_,
    fun j k q hq hqcopy => ?_, fun j q hq hqcalled => ?_⟩
  · obtain ⟨c, hc, hreseated, -⟩ := hcopies k c' hc'
    exact hreseated.sound (h.seats k c hc)
  · obtain ⟨c, hc, hreseated, hseated⟩ := hcopies k c' hc'
    have hnone' : c.result = none := hreseated.result.symm.trans hnone
    by_cases hj : j = i
    · subst hj
      obtain rfl : p' = q := Option.some.inj (hself.symm.trans hq)
      exact hseated hwaiting (hcopy.symm.trans hqcopy) hnone'
    · refine hreseated.others j ?_ hj
      exact h.seated j k q c ((hother j hj).symm.trans hq) hwaiting hqcopy hc hnone'
  · rw [hlength]
    by_cases hj : j = i
    · subst hj
      obtain rfl : p' = q := Option.some.inj (hself.symm.trans hq)
      exact h.known j k p hp (hcopy.symm.trans hqcopy)
    · exact h.known j k q ((hother j hj).symm.trans hq) hqcopy
  · rw [hnow, hresult] at hqcalled
    by_cases hj : j = i
    · subst hj
      obtain rfl : p' = q := Option.some.inj (hself.symm.trans hq)
      rw [hcopy] at hqcalled
      exact hcalled hqcalled
    · have hmem := h.awake j q ((hother j hj).symm.trans hq) hqcalled
      rcases List.mem_cons.mp hmem with heq | hmem
      · exact absurd (Task.paste.inj heq) hj
      · exact hmem

/-- The seats of copies stay as they are. -/
theorem Attends.setPaste_of_copies {i : Nat} (h : m.Attends queue) {p : PasteRun}
    (hp : m.pastes[i]? = some p) (p' : PasteRun) (hcopy : p'.copy = p.copy)
    (hwaiting : p'.isWaiting = true → p.isWaiting = true)
    (hcalled : p'.isCalled (m.result? p.copy) m.desk.now = true → .paste i ∈ queue')
    (hsub : queue ⊆ .paste i :: queue') (hcopies : m'.copies = m.copies)
    (hpastes : m'.pastes = m.pastes.set i p') (hnow : m'.desk.now = m.desk.now) :
    m'.Attends queue' := by
  refine (h.mono hsub).setPaste hp hcopy hcalled (by rw [hcopies]) (fun k c hc => ?_) hpastes hnow
  rw [hcopies] at hc
  exact ⟨c, hc, ⟨rfl, id, fun _ hj _ => hj⟩,
    fun hw hk hnone => h.seated i k p c hp (hwaiting hw) hk hc hnone⟩

/-! ## Events -/

theorem attends_run (h : m.Attends m.ready) (i : Nat) : (m.run i).Attends (m.run i).ready := by
  unfold run
  cases hp : m.pastes[i]? with
  | none => exact h
  | some p =>
      dsimp only
      cases hstage : p.stage with
      | held =>
          have hqueued : Attends { m with pastes := m.pastes.set i { p with stage := .queued } }
              (m.ready ++ [.paste i]) :=
            h.setPaste_of_copies hp { p with stage := .queued } rfl
              (fun hwaits => by simp [PasteRun.isWaiting] at hwaits) (fun _ => by simp)
              (fun task htask => by simp [htask]) rfl rfl rfl
          exact hqueued.wake fun other hother => by simpa using hother
      | _ => exact h

theorem attends_cancel (h : m.Attends m.ready) (i : Nat) :
    (m.cancel i).Attends (m.cancel i).ready := by
  unfold cancel
  cases hp : m.pastes[i]? with
  | none => exact h
  | some p =>
      dsimp only
      -- a paste that is called now and was not before heeds its cancellation
      have hqueued : Attends { m with pastes := m.pastes.set i { p with cancelled := true } }
          (m.ready ++ if p.heedsCancellation then [.paste i] else []) := by
        refine h.setPaste_of_copies hp { p with cancelled := true } rfl id (fun hcalled => ?_)
          (fun task htask => by simp [htask]) rfl rfl rfl
        unfold PasteRun.isCalled at hcalled
        cases hstage : p.stage with
        | queued =>
            refine List.mem_append_left _ (h.awake i p hp ?_)
            unfold PasteRun.isCalled
            rw [hstage]
        | waiting since => simp [PasteRun.heedsCancellation, hstage]
        | _ => simp [hstage] at hcalled
      split
      · rename_i hheeds
        rw [if_pos hheeds] at hqueued
        exact hqueued.wake fun other hother => by simpa using hother
      · rename_i hheeds
        rw [if_neg hheeds, List.append_nil] at hqueued
        exact hqueued

theorem attends_dispose (h : m.Attends m.ready) : m.dispose.Attends m.dispose.ready := by
  unfold dispose
  cases hpending : m.pending with
  | none => exact h
  | some k =>
      dsimp only
      cases hc : m.copies[k]? with
      | none => exact h.aside rfl rfl rfl
      | some c =>
          have hset : Attends
              { m with copies := m.copies.set k { c with cancelled := true }, pending := none }
              m.ready :=
            h.setCopy hc { c with cancelled := true } rfl (.inl rfl) (List.Subset.refl _) rfl rfl
              rfl
          dsimp only
          split
          · exact hset.wake fun other hother => .inl hother
          · exact hset

theorem attends_tick (h : m.Attends m.ready) : m.tick.Attends m.tick.ready := by
  let ticked : Coordinator := { m with desk := { m.desk with now := m.desk.now + 1 } }
  have hdue : ticked.Attends (m.ready ++ ticked.dueTasks) := by
    refine ⟨h.seats, h.seated, h.known, fun i p hp hcalled => ?_⟩
    by_cases hold : p.isCalled (m.result? p.copy) m.desk.now = true
    · exact List.mem_append_left _ (h.awake i p hp hold)
    · -- only the end of its time can call a paste when the clock moves
      have hisDue : p.isDue (m.desk.now + 1) = true := by
        have hcalled' : p.isCalled (m.result? p.copy) (m.desk.now + 1) = true := hcalled
        unfold PasteRun.isCalled WaitEnd.now? at hcalled' hold
        unfold PasteRun.isDue
        cases hstage : p.stage with
        | waiting since =>
            rw [hstage] at hcalled' hold
            cases hexpired : hasExpired p.limit since (m.desk.now + 1) with
            | true => simpa using hexpired
            | false => cases hresult : m.result? p.copy <;> simp_all
        | _ => simp [hstage] at hcalled' hold
      refine List.mem_append_right _ (List.mem_append_right _ ?_)
      refine List.mem_map.mpr ⟨(p, i), List.mem_filter.mpr ⟨?_, hisDue⟩, rfl⟩
      exact List.mem_zipIdx_iff_getElem?.mpr hp
  exact hdue.wakeAll fun task htask => List.mem_append.mp htask

theorem attends_release (h : m.Attends m.ready) (gate : String) :
    (m.release gate).Attends (m.release gate).ready := by
  unfold release
  exact Attends.wakeAll (h.aside rfl rfl rfl) fun task htask => .inl htask

theorem attends_copy (h : m.Attends m.ready) (given : Option Payload) (fresh : Handle) :
    (m.copy given fresh).2.2.Attends (m.copy given fresh).2.2.ready := by
  unfold copy
  split
  · exact h
  · rename_i payload document selection providers hworks
    dsimp only
    refine Attends.wake (?_ : Attends _ m.ready) fun other hother => .inl hother
    refine ⟨fun k c hc => ?_, fun i k p c hp hwaiting hcopy hc hnone => ?_,
      fun i k p hp hcopy => ?_, fun i p hp hcalled => ?_⟩
    · obtain hc | ⟨-, rfl⟩ := getElem?_concat_cases hc
      · exact h.seats k c hc
      · exact Seats.sound_none
    · obtain hc | ⟨rfl, -⟩ := getElem?_concat_cases hc
      · exact h.seated i k p c hp hwaiting hcopy hc hnone
      · exact absurd (h.known i _ p hp hcopy) (Nat.lt_irrefl _)
    · rw [List.length_append]
      exact Nat.lt_add_right _ (h.known i k p hp hcopy)
    · refine h.awake i p hp ?_
      rw [← hcalled]
      congr 1
      -- the copy of the paste stood before the new one
      unfold result?
      cases hcopy : p.copy with
      | none => rfl
      | some k =>
          rw [Option.bind_some, Option.bind_some,
            List.getElem?_append_left (h.known i k p hp hcopy)]

theorem attends_paste (h : m.Attends m.ready) (hm : m.Sound) (given : Option Payload)
    (cancelled : Bool) : (m.paste given cancelled).2.Attends (m.paste given cancelled).2.ready := by
  unfold paste
  split
  · exact h
  · rename_i payload document selection providers handle hworks
    dsimp only
    refine ⟨h.seats, fun i k p c hp hwaiting hcopy hc hnone => ?_, fun i k p hp hcopy => ?_,
      fun i p hp hcalled => ?_⟩
    · obtain hp | ⟨-, rfl⟩ := getElem?_concat_cases hp
      · exact h.seated i k p c hp hwaiting hcopy hc hnone
      · simp [newPaste, PasteRun.isWaiting] at hwaiting
    · obtain hp | ⟨-, rfl⟩ := getElem?_concat_cases hp
      · exact h.known i k p hp hcopy
      · obtain ⟨handle', -, hpending⟩ := Option.bind_eq_some_iff.mp hcopy
        split at hpending
        · exact hm.pending k hpending
        · simp at hpending
    · obtain hp | ⟨-, rfl⟩ := getElem?_concat_cases hp
      · exact h.awake i p hp hcalled
      · simp [newPaste, PasteRun.isCalled] at hcalled

/-! ## Turns -/

/-- A copy keeps its seats in its turn, and it keeps its result if it has one. -/
theorem poll_copy_cases (c : CopyRun) (k : Nat) (desk : Desk) :
    (c.poll k desk).1.seats = c.seats ∧
      ((c.poll k desk).1.result = c.result ∨
        c.result = none ∧ (c.poll k desk).1.result.isSome = true) := by
  unfold CopyRun.poll
  split
  · exact ⟨rfl, .inl rfl⟩
  · rename_i hnone
    have hnone : c.result = none := by simpa using hnone
    refine ⟨rfl, ?_⟩
    dsimp only
    cases hresult : CopyRun.outcome? c.base c.policy c.cancelled
      (CopyRun.runLanes (.copy k) c.document c.selection c.cancelled c.lanes desk).1 with
    | none => exact .inl hnone.symm
    | some result => exact .inr ⟨hnone, rfl⟩

theorem attends_pollCopy {k : Nat} {rest : List Task} (h : m.Attends (.copy k :: rest)) :
    (pollCopy { m with ready := rest } k).Attends (pollCopy { m with ready := rest } k).ready := by
  have hrest : m.Attends rest := ⟨h.seats, h.seated, h.known, fun i p hp hcalled =>
    (List.mem_cons.mp (h.awake i p hp hcalled)).elim (fun heq => by simp at heq) id⟩
  unfold pollCopy
  dsimp only
  cases hc : m.copies[k]? with
  | none => exact hrest.aside rfl rfl rfl
  | some c =>
      obtain ⟨hseats, hresult⟩ := poll_copy_cases c k m.desk
      have hnow := (c.scripted_poll k m.desk).now
      dsimp only
      split
      · rename_i hcomes
        have hnone : c.result = none := by
          simp only [Bool.and_eq_true, Option.isNone_iff_eq_none] at hcomes
          exact hcomes.1
        have hset : Attends
            { m with
              desk := (c.poll k m.desk).2, copies := m.copies.set k (c.poll k m.desk).1
              ready := rest }
            (rest ++ c.seats.occupants.map .paste) :=
          hrest.setCopy hc _ hseats (.inr ⟨hnone, fun i hi =>
            List.mem_append_right _ (List.mem_map.mpr ⟨i, hi, rfl⟩)⟩)
            (List.subset_append_left _ _) rfl rfl hnow
        exact hset.wakeAll fun task htask => List.mem_append.mp htask
      · rename_i hcomes
        have hsame : (c.poll k m.desk).1.result = c.result := by
          rcases hresult with hsame | ⟨hnone, hsome⟩
          · exact hsame
          · exact absurd (by rw [hnone, hsome]; rfl) hcomes
        exact hrest.setCopy hc _ hseats (.inl hsame) (List.Subset.refl _) rfl rfl hnow

/-- The seats of one copy change, if any. -/
theorem copies_mapSeats {copy : Option Nat} {f : Seats → Seats} {k : Nat} {c' : CopyRun}
    (hc' : (m.mapSeats copy f).copies[k]? = some c') : ∃ c, m.copies[k]? = some c ∧
      c' = if copy = some k then { c with seats := f c.seats } else c := by
  unfold mapSeats at hc'
  split at hc'
  · rename_i j d hbind
    obtain ⟨j', rfl, hmap⟩ := Option.bind_eq_some_iff.mp hbind
    obtain ⟨d', hd, heq⟩ := Option.map_eq_some_iff.mp hmap
    obtain ⟨rfl, rfl⟩ := Prod.mk.inj heq
    by_cases hk : j' = k
    · subst hk
      obtain ⟨hlt, -⟩ := List.getElem?_eq_some_iff.mp hd
      rw [List.getElem?_set_self hlt] at hc'
      exact ⟨d', hd, by rw [if_pos rfl, Option.some.inj hc']⟩
    · rw [List.getElem?_set_ne hk] at hc'
      exact ⟨c', hc', by rw [if_neg (by simpa using hk)]⟩
  · rename_i hnone
    have hk : copy ≠ some k := by
      rintro rfl
      rw [Option.bind_some, hc', Option.map_some] at hnone
      simp at hnone
    exact ⟨c', hc', by rw [if_neg hk]⟩

/-- A paste has its turn, and the seats of its copy change in a way that keeps it seated if it
waits. -/
theorem Attends.mapSeats {i : Nat} (m' : Coordinator) (h : m.Attends (.paste i :: m'.ready))
    {p p' : PasteRun} (hp : m.pastes[i]? = some p) (hcopy : p'.copy = p.copy)
    (hquiet : p'.isCalled (m.result? p.copy) m.desk.now = false)
    (hcopies : m'.copies = m.copies) (hpastes : m'.pastes = m.pastes.set i p')
    (hnow : m'.desk.now = m.desk.now) {f : Seats → Seats}
    (hsound : ∀ s : Seats, s.Sound → (f s).Sound)
    (hothers : ∀ s : Seats, s.Sound → ∀ j ∈ s.occupants, j ≠ i → j ∈ (f s).occupants)
    (hseated : p'.isWaiting = true → ∀ s : Seats, s.Sound → i ∈ (f s).occupants) :
    (m'.mapSeats p.copy f).Attends (m'.mapSeats p.copy f).ready := by
  obtain ⟨copies, hmapped, hchanged⟩ := m'.mapSeats_cases p.copy f
  have hlength : copies.length = m.copies.length := by
    rw [← hcopies]
    rcases hchanged with rfl | ⟨k, c, seats, -, rfl⟩
    · rfl
    · exact List.length_set
  have hset : (m'.mapSeats p.copy f).Attends m'.ready := by
    refine h.setPaste hp hcopy (fun hcalled => ?_) ?_ (fun k c' hc' => ?_) ?_ ?_
    · rw [hquiet] at hcalled
      exact absurd hcalled Bool.false_ne_true
    · rw [hmapped]
      exact hlength
    · obtain ⟨c, hc, rfl⟩ := copies_mapSeats hc'
      rw [hcopies] at hc
      have hseats := h.seats k c hc
      refine ⟨c, hc, ?_⟩
      by_cases hk : p.copy = some k
      · rw [if_pos hk]
        exact ⟨⟨rfl, hsound c.seats, hothers c.seats hseats⟩,
          fun hwaits _ _ => hseated hwaits c.seats hseats⟩
      · rw [if_neg hk]
        exact ⟨⟨rfl, id, fun _ hj _ => hj⟩, fun _ hk' => absurd hk' hk⟩
    · rw [hmapped]
      exact hpastes
    · rw [hmapped]
      exact hnow
  rw [hmapped] at hset ⊢
  exact hset

theorem attends_pollPaste {i : Nat} {rest : List Task} (h : m.Attends (.paste i :: rest)) :
    (pollPaste { m with ready := rest } i).Attends
      (pollPaste { m with ready := rest } i).ready := by
  unfold pollPaste
  dsimp only
  cases hp : m.pastes[i]? with
  | none =>
      refine ⟨h.seats, h.seated, h.known, fun j q hq hcalled => ?_⟩
      rcases List.mem_cons.mp (h.awake j q hq hcalled) with heq | hmem
      · obtain rfl := Task.paste.inj heq
        rw [hp] at hq
        simp at hq
      · exact hmem
  | some p =>
      have hresult : result? { m with ready := rest } p.copy = m.result? p.copy := rfl
      have hcopy : (p.poll i (m.result? p.copy) m.desk).1.copy = p.copy :=
        (congrArg PasteRun.copy (p.polled_poll i (m.result? p.copy) m.desk).origin :)
      have hquiet := p.quiet_poll i (m.result? p.copy) m.desk
      have hnow := p.now_poll i (m.result? p.copy) m.desk
      dsimp only
      rw [hresult]
      generalize p.poll i (m.result? p.copy) m.desk = out at hcopy hquiet hnow ⊢
      split
      · exact Attends.mapSeats
          { m with desk := out.2, pastes := m.pastes.set i out.1, ready := rest } h hp hcopy
          hquiet rfl rfl hnow (fun s hs => hs.sit i) (fun s hs j hj _ => hs.mem_sit (.inr hj))
          fun _ s hs => hs.mem_sit (.inl rfl)
      · rename_i hstays
        split
        · rename_i hleaves
          refine Attends.mapSeats
            { m with desk := out.2, pastes := m.pastes.set i out.1, ready := rest } h hp
            hcopy hquiet rfl rfl hnow (fun s hs => hs.leave i)
            (fun s _ j hj hne => Seats.mem_leave hj hne) fun hwaits => ?_
          simp [hwaits] at hleaves
        · refine h.setPaste_of_copies hp out.1 hcopy (fun hwaits => ?_) (fun hcalled => ?_)
            (List.Subset.refl _) rfl rfl hnow
          · simpa [hwaits] using hstays
          · rw [hquiet] at hcalled
            exact absurd hcalled Bool.false_ne_true

theorem attends_turn (h : m.Attends m.ready) : m.pollNext.Attends m.pollNext.ready := by
  unfold pollNext
  cases hready : m.ready with
  | nil =>
      rw [hready] at h
      rwa [hready]
  | cons task rest =>
      rw [hready] at h
      cases task with
      | copy k => exact attends_pollCopy h
      | paste i => exact attends_pollPaste h

/-- **No event makes anybody miss a wakeup.** -/
theorem attends_handle (h : m.Attends m.ready) (hm : m.Sound) (e : Event) :
    (m.handle e).Attends (m.handle e).ready := by
  cases e with
  | edit change =>
      show (m.edit change).Attends (m.edit change).ready
      unfold Coordinator.edit
      split
      · exact h.aside rfl rfl rfl
      · exact h
  | copy given fresh => exact attends_copy h given fresh
  | paste given cancelled => exact attends_paste h hm given cancelled
  | run i => exact attends_run h i
  | cancel i => exact attends_cancel h i
  | dispose => exact attends_dispose h
  | replace config => exact (attends_dispose h).aside rfl rfl rfl
  | release gate => exact attends_release h gate
  | tick => exact attends_tick h
  | turn => exact attends_turn h
  | _ => exact h.aside rfl rfl rfl

end Steps

theorem attends_start (config : Config) :
    ({ config } : Coordinator).Attends ({ config } : Coordinator).ready where
  seats := fun k c hc => by simp at hc
  seated := fun i k p c hp => by simp at hp
  known := fun i k p hp => by simp at hp
  awake := fun i p hp => by simp at hp

theorem Attends.after {m : Coordinator} (h : m.Attends m.ready) (hm : m.Sound)
    (history : List Event) : (m.after history).Attends (m.after history).ready := by
  induction history generalizing m with
  | nil => exact h
  | cons e history ih => exact ih (attends_handle h hm e) (sound_handle hm e)

/-- **No wakeup is ever lost.** -/
theorem Reachable.attends {m : Coordinator} (h : m.Reachable) : m.Attends m.ready := by
  obtain ⟨config, history, rfl⟩ := h
  exact (attends_start config).after (sound_start config) history

end Coordinator

end CopyPaste
