import CopyPaste.Proofs.Coordinator.Correlation

/-!
# The lifetime of a copy

A copy lives until its providers have ended, whatever happens to the coordinator meanwhile. Only
one thing reaches it from outside: it is cancelled when the coordinator is disposed of or replaced
while the copy is the pending one. A copy that starts later takes its place, and from then on
nothing cancels it any more. What the copy comes to is fixed in the turn in which its last
provider ends, or in which one crashes.

* `CopyRun.isGoing` — some provider has not ended and none has crashed;
* `GivenUp` — the coordinator gives up a copy in the course of a history;
* **`givenUp_iff_marks`** — it does if a disposal comes before every other copy;
* **`cancelled_after_iff`** — a copy is cancelled if it is given up;
* **`result_comes`** — the one turn in which a copy comes to its result;
* **`copy_lifetime`** — all of it, for every copy that starts.
-/

namespace CopyPaste

/-! ## What lanes come to -/

namespace CopyRun

/-- Whether some provider has not ended and none has crashed. -/
def isGoing (c : CopyRun) : Bool := !c.lanes.any Lane.hasCrashed && c.lanes.any Lane.isRunning

/-- What makes a copy come to nothing: a crash, its cancellation, or under `abortAll` a failure. -/
def comesToNothing (c : CopyRun) (cancelled : Bool) : Prop :=
  c.lanes.any Lane.hasCrashed = true ∨ cancelled = true ∨
    c.policy = .abortAll ∧ c.lanes.any Lane.failed = true

theorem outcome?_eq_none_iff (base : Transfer) (policy : FailurePolicy) (cancelled : Bool)
    (lanes : List Lane) : outcome? base policy cancelled lanes = none ↔
      (!lanes.any Lane.hasCrashed && lanes.any Lane.isRunning) = true := by
  unfold outcome?
  cases lanes.any Lane.hasCrashed <;> cases lanes.any Lane.isRunning <;> simp

/-- A copy under way has no result, and a copy that is not under way has one. -/
def Awaited (c : CopyRun) : Prop := c.result = none ↔ c.isGoing = true

theorem Awaited.poll {c : CopyRun} (h : c.Awaited) (index : Nat) (desk : Desk) :
    (c.poll index desk).1.Awaited := by
  unfold CopyRun.poll
  split
  · exact h
  · exact outcome?_eq_none_iff _ _ _ _

/-- The turn in which a copy comes to its result. -/
theorem poll_brings {c : CopyRun} {index : Nat} {desk : Desk} (hnone : c.result = none)
    {r : Option Transfer} (hr : (c.poll index desk).1.result = some r) :
    r = none ↔ (c.poll index desk).1.comesToNothing c.cancelled := by
  unfold CopyRun.poll comesToNothing at *
  simp only [hnone, Option.isSome_none, Bool.false_eq_true, if_false] at hr ⊢
  generalize (runLanes (.copy index) c.document c.selection c.cancelled c.lanes desk).1 = lanes
    at hr ⊢
  unfold outcome? at hr
  cases hcrashed : lanes.any Lane.hasCrashed with
  | true => simp [hcrashed] at hr; simp [← hr]
  | false =>
      cases hrunning : lanes.any Lane.isRunning with
      | true => simp [hcrashed, hrunning] at hr
      | false =>
          simp only [hcrashed, hrunning, Bool.false_eq_true, if_false, Option.some.injEq] at hr
          rw [← hr]
          unfold collect
          by_cases hcancelled : c.cancelled = true
          · simp [hcancelled]
          · by_cases hfailed : c.policy = .abortAll ∧ lanes.any Lane.failed = true
            · simp [hcancelled, hfailed]
            · simp [hcancelled]

end CopyRun

namespace Coordinator

/-! ## Steps -/

section Steps

variable {m : Coordinator} {e : Event} {i : Nat} {c c' : CopyRun}

theorem mark?_eq_some_none_iff (m : Coordinator) (e : Event) :
    m.mark? e = some none ↔ e = .dispose ∨ ∃ config, e = .replace config := by
  cases e with
  | copy given fresh =>
      unfold mark?
      cases hdecision : (m.copy given fresh).1 <;> simp [hdecision]
  | _ => simp [mark?]

theorem CopyStep.awaited (h : CopyStep m e i c c') (hc : c.Awaited) : c'.Awaited := by
  cases h with
  | polls he hhead => exact hc.poll i m.desk
  | _ => exact hc

/-- A copy that has its result does nothing more. -/
theorem CopyStep.lanes (h : CopyStep m e i c c') (hr : c.result.isSome = true) :
    c'.lanes = c.lanes := by
  cases h with
  | polls he hhead => rw [CopyRun.poll_of_result hr]
  | _ => rfl

theorem CopyStep.policy (h : CopyStep m e i c c') : c'.policy = c.policy :=
  (congrArg CopyRun.policy h.origin :)

/-- A copy comes to its result in a turn of its own. -/
theorem CopyStep.brings (h : CopyStep m e i c c') (hnone : c.result = none)
    {r : Option Transfer} (hr : c'.result = some r) :
    e = .turn ∧ (r = none ↔ c'.comesToNothing c.cancelled) := by
  cases h with
  | polls he hhead => exact ⟨he, CopyRun.poll_brings hnone hr⟩
  | _ => exact absurd (hnone.symm.trans hr) (Option.some_ne_none r).symm

/-- A disposal cancels the pending copy. -/
theorem copies_disposal (hmark : m.mark? e = some none) (hpending : m.pending = some i)
    (hc : m.copies[i]? = some c) :
    (m.handle e).copies[i]? = some { c with cancelled := true } := by
  have hdispose : m.dispose.copies[i]? = some { c with cancelled := true } := by
    obtain ⟨hlt, -⟩ := List.getElem?_eq_some_iff.mp hc
    obtain ⟨hnone, -⟩ | ⟨j, d, ready, hj, hd, hafter⟩ := m.dispose_cases
    · rw [hpending, Option.bind_some, hc] at hnone
      simp at hnone
    · obtain rfl : i = j := Option.some.inj (hpending.symm.trans hj)
      obtain rfl : c = d := Option.some.inj (hc.symm.trans hd)
      rw [hafter]
      exact List.getElem?_set_self hlt
  obtain rfl | ⟨config, rfl⟩ := (m.mark?_eq_some_none_iff e).mp hmark
  · exact hdispose
  · exact hdispose

/-- One event cancels a copy if it is a disposal and the copy is the pending one. -/
theorem cancelled_handle_iff (hc : m.copies[i]? = some c)
    (hc' : (m.handle e).copies[i]? = some c') :
    c'.cancelled = true ↔
      c.cancelled = true ∨ m.mark? e = some none ∧ m.pending = some i := by
  constructor
  · intro hcancelled
    obtain ⟨d, hd, hstep⟩ := copyStep_handle hc e
    obtain rfl : c' = d := Option.some.inj (hc'.symm.trans hd)
    cases hstep with
    | still => exact .inl hcancelled
    | seats seats => exact .inl hcancelled
    | cancels hmark hpending => exact .inr ⟨hmark, hpending⟩
    | polls he hhead =>
        rw [CopyRun.cancelled_poll] at hcancelled
        exact .inl hcancelled
  · rintro (hcancelled | ⟨hmark, hpending⟩)
    · obtain ⟨d, hd, hstep⟩ := copyStep_handle hc e
      obtain rfl : c' = d := Option.some.inj (hc'.symm.trans hd)
      cases hstep with
      | cancels hmark hpending => rfl
      | polls he hhead => rw [CopyRun.cancelled_poll]; exact hcancelled
      | _ => exact hcancelled
    · rw [copies_disposal hmark hpending hc] at hc'
      rw [← Option.some.inj hc']

end Steps

/-! ## Giving up a copy -/

/-- In the course of a history the coordinator is disposed of or replaced while the copy with the
given number is the pending one. -/
def GivenUp (m : Coordinator) (i : Nat) (history : List Event) : Prop :=
  ∃ early e late, history = early ++ e :: late ∧
    (e = .dispose ∨ ∃ config, e = .replace config) ∧ (m.after early).pending = some i

theorem not_givenUp_nil (m : Coordinator) (i : Nat) : ¬GivenUp m i [] := by
  rintro ⟨early, e, late, h, -⟩
  simp at h

theorem givenUp_cons_iff (m : Coordinator) (i : Nat) (e : Event) (history : List Event) :
    GivenUp m i (e :: history) ↔
      m.mark? e = some none ∧ m.pending = some i ∨ GivenUp (m.handle e) i history := by
  constructor
  · rintro ⟨early, e', late, hsplit, hdisposal, hpending⟩
    cases early with
    | nil =>
        obtain ⟨rfl, rfl⟩ := List.cons.inj hsplit
        exact .inl ⟨(m.mark?_eq_some_none_iff e).mpr hdisposal, hpending⟩
    | cons e'' early =>
        obtain ⟨rfl, rfl⟩ := List.cons.inj hsplit
        exact .inr ⟨early, e', late, rfl, hdisposal, hpending⟩
  · rintro (⟨hmark, hpending⟩ | ⟨early, e', late, rfl, hdisposal, hpending⟩)
    · exact ⟨[], e, history, rfl, (m.mark?_eq_some_none_iff e).mp hmark, hpending⟩
    · exact ⟨e :: early, e', late, rfl, hdisposal, hpending⟩

/-- **A copy is cancelled if it is given up,** and in no other way. -/
theorem cancelled_after_iff {m : Coordinator} {i : Nat} {c c' : CopyRun} {history : List Event}
    (hc : m.copies[i]? = some c) (hc' : (m.after history).copies[i]? = some c') :
    c'.cancelled = true ↔ c.cancelled = true ∨ GivenUp m i history := by
  induction history generalizing m c with
  | nil =>
      obtain rfl : c = c' := Option.some.inj (hc.symm.trans hc')
      simp [not_givenUp_nil]
  | cons e history ih =>
      obtain ⟨d, hd, -⟩ := copyStep_handle hc e
      rw [givenUp_cons_iff, ih hd hc', cancelled_handle_iff hc hd, or_assoc]

/-- A copy that is not pending never becomes pending again. -/
theorem pending_ne_after {m : Coordinator} {i : Nat} (hi : i < m.copies.length)
    (hpending : m.pending ≠ some i) (history : List Event) :
    (m.after history).pending ≠ some i := by
  induction history generalizing m with
  | nil => exact hpending
  | cons e history ih =>
      obtain ⟨hlen, -, hafter⟩ | ⟨document, selection, base, providers, fresh, hcopies, -, -,
        hafter⟩ := m.copies_born e
      · refine ih (by rwa [hlen]) ?_
        rw [hafter]
        split
        · exact (Option.some_ne_none i).symm
        · exact hpending
      · refine ih (by rw [hcopies, List.length_append]; omega) ?_
        rw [hafter]
        intro h
        have hlt := Option.some.inj h
        omega

/-- **A copy is given up if a disposal comes before every other copy:** whatever follows on
another copy no longer reaches it. -/
theorem givenUp_iff_marks {m : Coordinator} {i : Nat} (hi : i < m.copies.length)
    (hpending : m.pending = some i) (history : List Event) :
    GivenUp m i history ↔ (marks m history).head? = some none := by
  induction history generalizing m with
  | nil => simp [not_givenUp_nil, marks]
  | cons e history ih =>
      rw [givenUp_cons_iff]
      show _ ↔ ((m.mark? e).toList ++ marks (m.handle e) history).head? = some none
      obtain ⟨hlen, hnohandle, hafter⟩ | ⟨document, selection, base, providers, fresh, hcopies, -,
        hmark, hafter⟩ := m.copies_born e
      · cases hmark : m.mark? e with
        | none =>
            have hnext := ih (m := m.handle e) (by rwa [hlen])
              (by rw [hafter, hmark]; exact hpending)
            simpa using hnext
        | some mark =>
            cases mark with
            | none => simp [hpending]
            | some handle => exact absurd hmark (hnohandle handle)
      · -- the next copy takes the place of this one
        have hnot : ¬GivenUp (m.handle e) i history := by
          rintro ⟨early, e', late, -, -, hlater⟩
          refine pending_ne_after (m := m.handle e) ?_ ?_ early hlater
          · rw [hcopies, List.length_append]
            omega
          · rw [hafter]
            intro h
            have hlt := Option.some.inj h
            omega
        simp [hmark, hnot]

/-! ## The result of a copy -/

/-- **A copy comes to its result in one turn,** and what it is depends on the state it is in by
then. -/
theorem result_comes {m : Coordinator} {i : Nat} {c c' : CopyRun} {history : List Event}
    (hc : m.copies[i]? = some c) (hnone : c.result = none)
    (hc' : (m.after history).copies[i]? = some c') {r : Option Transfer}
    (hr : c'.result = some r) :
    ∃ early late before, history = early ++ .turn :: late ∧
      (m.after early).copies[i]? = some before ∧ before.result = none ∧
      (m.after (early ++ [.turn])).result? (some i) = some r ∧
      (r = none ↔ c'.comesToNothing before.cancelled) := by
  induction history generalizing m c with
  | nil =>
      obtain rfl : c = c' := Option.some.inj (hc.symm.trans hc')
      exact absurd (hnone.symm.trans hr) (Option.some_ne_none r).symm
  | cons e history ih =>
      obtain ⟨d, hd, hstep⟩ := copyStep_handle hc e
      cases hresult : d.result with
      | none =>
          obtain ⟨early, late, before, rfl, hbefore, hearly, hturn, hiff⟩ := ih hd hresult hc'
          exact ⟨e :: early, late, before, rfl, hbefore, hearly, hturn, hiff⟩
      | some r' =>
          -- from here on neither the result nor the lanes change
          obtain ⟨d', hd', hfinal, hlanes, hpolicy⟩ := copy_after
            (P := fun x => x.result = some r' ∧ x.lanes = d.lanes ∧ x.policy = d.policy)
            (fun hstep' h => ⟨hstep'.result h.1, (hstep'.lanes (by rw [h.1]; rfl)).trans h.2.1,
              hstep'.policy.trans h.2.2⟩) hd ⟨hresult, rfl, rfl⟩ history
          obtain rfl : c' = d' := Option.some.inj (hc'.symm.trans hd')
          obtain rfl : r = r' := Option.some.inj (hr.symm.trans hfinal)
          obtain ⟨rfl, hiff⟩ := hstep.brings hnone hresult
          refine ⟨[], history, c, rfl, hc, hnone, ?_, ?_⟩
          · show (m.handle .turn).result? (some i) = some r
            unfold result?
            rw [Option.bind_some, hd, Option.bind_some, hresult]
          · unfold CopyRun.comesToNothing at hiff ⊢
            rw [hlanes, hpolicy]
            exact hiff

/-- What a copy is when it starts. -/
theorem started_copy {m started : Coordinator} {given left : Option Payload} {fresh handle : Handle}
    (h : m.copy given fresh = (.started handle, left, started)) : ∃ c,
      started.copies[m.copies.length]? = some c ∧
      started.pending = some m.copies.length ∧ c.handle = handle ∧
      c.policy = m.config.copyFailure ∧ c.cancelled = false ∧ c.result = none ∧
      c.isGoing = true := by
  obtain ⟨rfl, payload, document, selection, providers, ready, hworks, hafter⟩ :=
    copy_started (congrArg Prod.fst h)
  obtain ⟨-, -, -, -, -, hproviders⟩ := admitCopy_ok hworks
  obtain rfl : (m.copy given handle).2.2 = started := congrArg (·.2.2) h
  rw [hafter]
  refine ⟨_, List.getElem?_concat_length, rfl, rfl, rfl, rfl, rfl, ?_⟩
  cases providers with
  | nil => exact absurd rfl hproviders
  | cons p rest =>
      simp [CopyRun.isGoing, newCopy, Lane.hasCrashed, Lane.isRunning]

/-- **The lifetime of a copy.** `later` leads from its start to any moment after it: the copy is
cancelled by then if the coordinator was given up before another copy started; it has its result
if its providers have ended or one has crashed; and the result was fixed in the turn in which that
came to be, for every moment after it. -/
theorem copy_lifetime {m started : Coordinator} {given left : Option Payload}
    {fresh handle : Handle} (hstarted : m.copy given fresh = (.started handle, left, started))
    (later : List Event) :
    ∃ c, (started.after later).copies[m.copies.length]? = some c ∧ c.handle = handle ∧
      c.policy = m.config.copyFailure ∧
      (c.cancelled = true ↔ GivenUp started m.copies.length later) ∧
      (GivenUp started m.copies.length later ↔ (marks started later).head? = some none) ∧
      (c.result = none ↔ c.isGoing = true) ∧
      ∀ r, c.result = some r →
        (∃ early late before, later = early ++ .turn :: late ∧
          (started.after early).copies[m.copies.length]? = some before ∧ before.isGoing = true ∧
          (started.after (early ++ [.turn])).result? (some m.copies.length) = some r ∧
          (r = none ↔ c.lanes.any Lane.hasCrashed = true ∨
            GivenUp started m.copies.length early ∨
            m.config.copyFailure = .abortAll ∧ c.lanes.any Lane.failed = true)) ∧
        ∀ more, ((started.after later).after more).result? (some m.copies.length) = some r := by
  obtain ⟨c₀, hc₀, hpending, hhandle, hpolicy, hcancelled, hnone, hgoing⟩ := started_copy hstarted
  have hawaited : c₀.Awaited := by
    unfold CopyRun.Awaited
    rw [hnone, hgoing]
    exact ⟨fun _ => rfl, fun _ => rfl⟩
  obtain ⟨hlt, -⟩ := List.getElem?_eq_some_iff.mp hc₀
  have hcourse : ∀ history, ∃ c, (started.after history).copies[m.copies.length]? = some c ∧
      c.origin = c₀.origin ∧ c.Awaited ∧
      (c.cancelled = true ↔ GivenUp started m.copies.length history) := by
    intro history
    obtain ⟨c, hc, horigin, hc'⟩ := copy_after (P := fun c => c.origin = c₀.origin ∧ c.Awaited)
      (fun hstep h => ⟨hstep.origin.trans h.1, hstep.awaited h.2⟩) hc₀ ⟨rfl, hawaited⟩ history
    refine ⟨c, hc, horigin, hc', ?_⟩
    rw [cancelled_after_iff hc₀ hc, hcancelled]
    simp
  obtain ⟨c, hc, horigin, hresult, hc'⟩ := hcourse later
  have hcpolicy : c.policy = m.config.copyFailure :=
    (congrArg CopyRun.policy horigin :).trans hpolicy
  refine ⟨c, hc, (congrArg CopyRun.handle horigin :).trans hhandle, hcpolicy, hc',
    givenUp_iff_marks hlt hpending later, hresult, fun r hr => ⟨?_, fun more => ?_⟩⟩
  · obtain ⟨early, late, before, hsplit, hbefore, hwithout, hturn, hiff⟩ :=
      result_comes hc₀ hnone hc hr
    obtain ⟨b, hb, -, hawaitedb, hgivenUp⟩ := hcourse early
    obtain rfl : before = b := Option.some.inj (hbefore.symm.trans hb)
    refine ⟨early, late, before, hsplit, hbefore, hawaitedb.mp hwithout, hturn, ?_⟩
    rw [hiff]
    unfold CopyRun.comesToNothing
    rw [hgivenUp, hcpolicy]
  · refine result_after ?_ more
    unfold result?
    rw [Option.bind_some, hc, Option.bind_some, hr]

/-- A coordinator with some text selected and one copy provider. -/
def withCopier (script : CopyScript) : Coordinator :=
  ({} : Coordinator).after
    [.openDocument { uri := "a", language := "l", text := "ab" }, .select ⟨0, 1⟩,
      .register .any { name := "p", copy := some script }]

/-- The provider of a copy waits at a gate. Before the gate opens another copy starts and the
coordinator is disposed of: the first copy is not cancelled, and comes to a transfer. -/
theorem superseded_copy_comes_to_transfer :
    let started := ((withCopier [.pause (.gate "g"), .set "m" "x"]).copy (some {}) ⟨1⟩).2.2
    let history := [.turn, .copy (some {}) ⟨2⟩, .dispose, .release "g", .turn, .turn]
    ∃ c, (started.after history).copies[0]? = some c ∧ c.cancelled = false ∧
      c.result.join.isSome = true := by
  intro started history
  have hdecision : ((withCopier [.pause (.gate "g"), .set "m" "x"]).copy (some {}) ⟨1⟩).1 =
      .started ⟨1⟩ := by
    decide +kernel
  obtain ⟨c, hc, -, -, hcancelled, hmarks, -⟩ :=
    copy_lifetime (Prod.ext hdecision rfl) history
  have hfirst : (marks started history).head? = some (some ⟨2⟩) := by decide +kernel
  refine ⟨c, hc, ?_, ?_⟩
  · rw [Bool.eq_false_iff, ne_eq, hcancelled, hmarks, hfirst]
    simp
  · have hresult : ((started.after history).copies[0]?).map (·.result.join.isSome) = some true := by
      decide +kernel
    have hc' : (started.after history).copies[0]? = some c := hc
    rw [hc'] at hresult
    exact Option.some.inj hresult

end Coordinator

end CopyPaste
