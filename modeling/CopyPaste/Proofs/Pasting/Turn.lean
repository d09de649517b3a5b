import CopyPaste.Proofs.Pasting.Scan

/-!
# The turn of a paste

Everything that can come of one turn of a paste, as a case analysis with one case for each way
through `poll`. What is proved about turns follows from the cases; nothing else opens `poll`.

* `PasteRun.Supplied` — what a paste is supplied with when it begins to ask its providers;
* `PasteRun.Polled` — the cases;
* **`polled_poll`** — every turn is one of them;
* **`Polled.origin`** — what was fixed when the paste was taken over stays fixed.
-/

namespace CopyPaste

namespace PasteRun

/-! ## Cases -/

/-- Since when a paste that has not begun to ask waits at its next turn. -/
def waitsSince? (p : PasteRun) (now : Nat) : Option Nat :=
  match p.stage with
  | .queued => some now
  | .waiting since => some since
  | _ => none

/-- What the copy of a paste supplies when the paste begins to ask: nothing without a copy, the
result if it is there, and nothing once the time is up. -/
def Supplied (p : PasteRun) (result : Option (Option Transfer)) (since now : Nat)
    (copied : Option Transfer) : Prop :=
  (p.copy = none ∧ copied = none) ∨
    (p.cancelled = false ∧
      (result = some copied ∨
        (result = none ∧ copied = none ∧ hasExpired p.limit since now = true)))

/-- What can come of one turn. -/
inductive Polled (p : PasteRun) (task : Task) (result : Option (Option Transfer)) (desk : Desk) :
    PasteRun × Desk → Prop
  /-- Only a paste that was not run yet or that is over does nothing. -/
  | idle (hstage : p.stage = .held ∨ p.stage.isOver = true) : Polled p task result desk (p, desk)
  | waits (since : Nat) (hsince : p.waitsSince? desk.now = some since)
      (hcancelled : p.cancelled = false) (hresult : result = none)
      (hlimit : hasExpired p.limit since desk.now = false) :
      Polled p task result desk ({ p with stage := .waiting since }, desk)
  | stops (since : Nat) (hsince : p.waitsSince? desk.now = some since)
      (hcancelled : p.cancelled = true) :
      Polled p task result desk ({ p with stage := .ended (.ok .cancelled) }, desk)
  | asks (since : Nat) (copied : Option Transfer) (hsince : p.waitsSince? desk.now = some since)
      (hsupplied : p.Supplied result since desk.now copied) :
      Polled p task result desk (p.askAll task copied desk)
  | resumes (provider : String) (script : PasteScript) (since : Nat)
      (rest : List (String × PasteScript)) (hstage : p.stage = .asking provider script since rest) :
      Polled p task result desk
        (p.settleAt (p.follow task provider rest (p.scan task rest)
          (script.run (p.call task provider) p.transfer (some since) p.cancelled desk)))
  | fallsBack (hstage : p.stage = .fallingBack) :
      Polled p task result desk (p.settleAt (p.scan task [] p.cancelled desk))

theorem polled_await {p : PasteRun} {desk : Desk} {since : Nat}
    (hsince : p.waitsSince? desk.now = some since) (task : Task)
    (result : Option (Option Transfer)) :
    Polled p task result desk (p.await task result since desk) := by
  unfold await WaitEnd.now?
  by_cases hc : p.cancelled = true
  · rw [if_pos hc]
    exact .stops since hsince hc
  · have hc' : p.cancelled = false := by simpa using hc
    rw [if_neg hc]
    cases result with
    | some copied =>
        exact .asks since copied hsince (.inr ⟨hc', .inl rfl⟩)
    | none =>
        by_cases hlimit : hasExpired p.limit since desk.now = true
        · simp only [hlimit, if_true]
          exact .asks since none hsince (.inr ⟨hc', .inr ⟨rfl, rfl, hlimit⟩⟩)
        · have hlimit' : hasExpired p.limit since desk.now = false := by simpa using hlimit
          simp only [hlimit', Bool.false_eq_true, if_false]
          exact .waits since hsince hc' rfl hlimit'

/-- **Every turn of a paste is one of the cases.** -/
theorem polled_poll (p : PasteRun) (index : Nat) (result : Option (Option Transfer))
    (desk : Desk) : Polled p (.paste index) result desk (p.poll index result desk) := by
  unfold poll
  cases hstage : p.stage with
  | held => exact .idle (.inl hstage)
  | queued =>
      have hsince : p.waitsSince? desk.now = some desk.now := by
        unfold waitsSince?
        rw [hstage]
      cases hcopy : p.copy with
      | none => exact .asks desk.now none hsince (.inl ⟨hcopy, rfl⟩)
      | some k => exact polled_await hsince _ result
  | waiting since =>
      have hsince : p.waitsSince? desk.now = some since := by
        unfold waitsSince?
        rw [hstage]
      exact polled_await hsince _ result
  | asking provider script since rest => exact .resumes provider script since rest hstage
  | fallingBack => exact .fallsBack hstage
  | ended outcome => exact .idle (.inr (by rw [hstage]; rfl))
  | crashed => exact .idle (.inr (by rw [hstage]; rfl))

/-- A paste that is over does nothing in its turn. -/
theorem poll_of_isOver {p : PasteRun} (hover : p.stage.isOver = true) (index : Nat)
    (result : Option (Option Transfer)) (desk : Desk) : p.poll index result desk = (p, desk) := by
  unfold poll
  cases hstage : p.stage with
  | ended outcome => rfl
  | crashed => rfl
  | _ => simp [hstage, PasteStage.isOver] at hover

/-! ## What stays -/

/-- What is fixed when a paste is taken over. -/
def origin (p : PasteRun) : PasteRun :=
  { p with transfer := {}, cancelled := false, stage := .held }

/-- A turn changes nothing of it. -/
theorem Polled.origin {p : PasteRun} {task : Task} {result : Option (Option Transfer)} {desk : Desk}
    {out : PasteRun × Desk} (h : Polled p task result desk out) : out.1.origin = p.origin := by
  cases h <;> rfl

theorem isUndecided_of_waitsSince? {p : PasteRun} {now since : Nat}
    (h : p.waitsSince? now = some since) : p.stage.isUndecided = true := by
  unfold waitsSince? at h
  split at h
  · rename_i hstage
    rw [hstage]
    rfl
  · rename_i hstage
    rw [hstage]
    rfl
  · simp at h

theorem cancelled_scan (p : PasteRun) (task : Task) (left : List (String × PasteScript))
    (desk : Desk) : (p.scan task left true desk).2.1 = true := by
  cases left <;> rfl

theorem cancelled_follow (p : PasteRun) (task : Task) (left : List (String × PasteScript))
    (provider : String) {reply : Reply × Bool × Desk} (hcancelled : reply.2.1 = true) :
    (p.follow task provider left (p.scan task left) reply).2.1 = true := by
  obtain ⟨answer | ⟨script, since⟩ | _, cancelled, desk⟩ := reply
  · have hc : cancelled = true := hcancelled
    subst hc
    rcases answer with error | _ | edit
    · show (p.heed _ _ _ _ _ _).2.1 = true
      unfold heed
      dsimp only
      split <;> rfl
    · exact p.cancelled_scan task left _
    · cases edit with
      | nil => exact p.cancelled_scan task left _
      | cons r edit => rfl
  · exact hcancelled
  · exact hcancelled

theorem Polled.cancelled {p : PasteRun} {task : Task} {result : Option (Option Transfer)}
    {desk : Desk} {out : PasteRun × Desk} (h : Polled p task result desk out)
    (hcancelled : p.cancelled = true) : out.1.cancelled = true := by
  cases h with
  | idle hstage => exact hcancelled
  | waits since hsince hc hresult hlimit => exact hcancelled
  | stops since hsince hc => exact hcancelled
  | asks since copied hsince hsupplied =>
      show (scan _ _ _ p.cancelled desk).2.1 = true
      rw [hcancelled]
      exact cancelled_scan _ _ _ desk
  | resumes provider script since rest hstage =>
      refine p.cancelled_follow _ rest provider ?_
      rw [hcancelled]
      exact PasteScript.cancelled_run _ _ script _ desk
  | fallsBack hstage => exact hcancelled

/-! ## What a turn did -/

theorem progress_asks (p : PasteRun) (task : Task) (copied : Option Transfer) (desk : Desk) :
    ∃ out asked deeds, p.askAll task copied desk = (p.supply copied).settleAt out ∧
      Progress (p.supply copied) task 0 p.providers desk out asked deeds := by
  obtain ⟨asked, deeds, h⟩ := progress_scan (p.supply copied) task p.providers p.cancelled desk
  exact ⟨_, asked, deeds, rfl, h⟩

/-- A paste that is cancelled before it begins to ask. -/
theorem askAll_of_cancelled {p : PasteRun} (hcancelled : p.cancelled = true)
    (hproviders : p.providers ≠ []) (task : Task) (copied : Option Transfer) (desk : Desk) :
    p.askAll task copied desk =
      ({ p.supply copied with stage := .ended (.ok .cancelled) }, desk) := by
  show (p.supply copied).settleAt ((p.supply copied).scan task p.providers p.cancelled desk) = _
  rw [hcancelled, scan_of_cancelled _ task desk hproviders]
  simp [settleAt, supply, hcancelled]

/-- Once a paste has begun to ask it does not wait for its copy again. -/
theorem decided_askAll (p : PasteRun) (task : Task) (copied : Option Transfer) (desk : Desk) :
    (p.askAll task copied desk).1.stage.isUndecided = false := by
  obtain ⟨out, asked, deeds, hout, hprogress⟩ := p.progress_asks task copied desk
  rw [hout]
  exact hprogress.decided

theorem progress_resumes (p : PasteRun) (task : Task) (provider : String) (script : PasteScript)
    (since : Nat) (rest : List (String × PasteScript)) (desk : Desk) : ∃ asked deeds,
      Progress p task 1 rest desk
        (p.follow task provider rest (p.scan task rest)
          (script.run (p.call task provider) p.transfer (some since) p.cancelled desk))
        asked deeds := by
  obtain ⟨asked, deeds, h⟩ := progress_follow p task rest provider
    (script.run (p.call task provider) p.transfer (some since) p.cancelled desk)
    (progress_scan p task rest)
  exact ⟨asked, deeds, h.scripted (PasteScript.scripted_run _ _ script _ _ desk)⟩

/-- **The turn of a paste leaves no record of another task.** -/
theorem Polled.others {p : PasteRun} {task other : Task} {result : Option (Option Transfer)}
    {desk : Desk} {out : PasteRun × Desk} (h : Polled p task result desk out)
    (hne : task ≠ other) :
    out.2.questions other = desk.questions other ∧
      out.2.deedsOf other = desk.deedsOf other := by
  cases h with
  | idle hstage => exact ⟨rfl, rfl⟩
  | waits since hsince hc hresult hlimit => exact ⟨rfl, rfl⟩
  | stops since hsince hc => exact ⟨rfl, rfl⟩
  | asks since copied hsince hsupplied =>
      obtain ⟨out, asked, deeds, hout, hprogress⟩ := p.progress_asks task copied desk
      rw [hout]
      exact hprogress.others other hne
  | resumes provider script since rest hstage =>
      obtain ⟨asked, deeds, hprogress⟩ :=
        p.progress_resumes task provider script since rest desk
      exact hprogress.others other hne
  | fallsBack hstage =>
      obtain ⟨deeds, hprogress⟩ := p.progress_fallBack task p.cancelled desk
      exact hprogress.others other hne

/-- A paste that is cancelled asks nobody in its turn. -/
theorem Polled.questions_of_cancelled {p : PasteRun} {task : Task}
    {result : Option (Option Transfer)} {desk : Desk} {out : PasteRun × Desk}
    (h : Polled p task result desk out) (hcancelled : p.cancelled = true) :
    out.2.questions task = desk.questions task := by
  cases h with
  | idle hstage => rfl
  | waits since hsince hc hresult hlimit => rfl
  | stops since hsince hc => rfl
  | asks since copied hsince hsupplied =>
      show (scan _ _ _ p.cancelled desk).2.2.questions task = _
      rw [hcancelled]
      exact questions_scan_of_cancelled _ task _ desk
  | resumes provider script since rest hstage =>
      have hrun := PasteScript.cancelled_run (p.call task provider) p.transfer script
        (some since) desk
      have hscripted := PasteScript.scripted_run (p.call task provider) p.transfer script
        (some since) true desk
      show (p.follow task provider rest (p.scan task rest) _).2.2.questions task = _
      rw [hcancelled, p.questions_follow_of_cancelled task rest provider hrun]
      exact hscripted.questions task
  | fallsBack hstage =>
      rw [hcancelled]
      exact p.questions_scan_of_cancelled task [] desk

end PasteRun

end CopyPaste
