import CopyPaste.Coordinator.Copying
import CopyPaste.Proofs.Transfer.Anonymous

/-!
# A copy script on its own

What a copy provider does to its fork depends on nothing that happens beside it. The waits of a
script decide when the next action runs, and the desk decides which identities new values get;
what the script records on its fork and how it ends is fixed by the script, the call and the
fork it began with. A report may have to wait as well, for items that the platform holds back.

* `Lane.alone` — a script run by itself, its waits and reports left out;
* **`verdict_runScript_congr`** — another desk and other identities change nothing that shows;
* **`verdict_finish_run`** — going on until the next wait does not change where a lane ends up;
* **`nodup_keys_run`** — no type comes to occur twice on a fork.
-/

namespace CopyPaste

/-- Whether an action may have to wait. -/
def CopyAction.mayWait : CopyAction → Bool
  | .pause _ | .report _ => true
  | _ => false

/-- A script without the actions that may have to wait, none of which touches the fork. -/
def CopyScript.unpaused (script : CopyScript) : CopyScript := script.filter fun a => !a.mayWait

namespace Lane

/-- What shows of a lane: how far it has come, and its fork up to identities. -/
def verdict (l : Lane) : LaneStatus × Transfer := (l.status, l.fork.anonymous)

/-- A script run by itself on a fork, its waits and reports left out. -/
def alone (call : Call) (script : CopyScript) (fork : Transfer) : Lane :=
  (runScript call false script.unpaused none fork {}).1

/-- A lane with what is left of its script run by itself. -/
def finish (call : Call) (l : Lane) : Lane :=
  if l.isRunning then alone call l.script l.fork else l

end Lane

/-! ## One action -/

namespace CopyAction

/-- Waiting leaves the fork alone. -/
theorem perform_of_mayWait {a : CopyAction} (ha : a.mayWait = true) (call : Call)
    (cancelled : Bool) (begun : Option Nat) (fork : Transfer) (desk : Desk) :
    ∃ desk', a.perform call cancelled begun fork desk = (.next, fork, desk') ∨
      a.perform call cancelled begun fork desk = (.wait, fork, desk') := by
  cases a with
  | pause p =>
      simp only [perform, Desk.pause]
      split
      · exact ⟨desk, .inl rfl⟩
      · split
        · exact ⟨desk, .inr rfl⟩
        · exact ⟨desk.enqueue call.task p, .inr rfl⟩
  | report r =>
      cases r with
      | items =>
          simp only [perform, Desk.report]
          split
          · exact ⟨_, .inl rfl⟩
          · exact ⟨_, .inr rfl⟩
      | _ => exact ⟨_, .inl rfl⟩
  | _ => simp [mayWait] at ha

/-- Nothing else has to wait. -/
theorem perform_ne_wait {a : CopyAction} (ha : a.mayWait = false) (call : Call)
    (cancelled : Bool) (begun : Option Nat) (fork : Transfer) (desk : Desk) :
    (a.perform call cancelled begun fork desk).1 ≠ .wait := by
  cases a with
  | pause p => simp [mayWait] at ha
  | report r => simp [mayWait] at ha
  | setSnippet =>
      unfold perform
      cases Snippet.ofSelection? call.document call.selection <;> simp
  | _ => simp [perform]

/-- Any other action does the same to equal forks, whatever the desk is like. -/
theorem perform_congr {a : CopyAction} (ha : a.mayWait = false) {fork fork' : Transfer}
    (hfork : fork.anonymous = fork'.anonymous) (call : Call) (cancelled cancelled' : Bool)
    (begun begun' : Option Nat) (desk desk' : Desk) :
    (a.perform call cancelled begun fork desk).1 =
        (a.perform call cancelled' begun' fork' desk').1 ∧
      (a.perform call cancelled begun fork desk).2.1.anonymous =
        (a.perform call cancelled' begun' fork' desk').2.1.anonymous := by
  cases a with
  | pause p => simp [mayWait] at ha
  | report r => simp [mayWait] at ha
  | set mime text =>
      refine ⟨rfl, ?_⟩
      simp only [perform, Transfer.anonymous_set, hfork]
      rfl
  | setFile mime name uri content =>
      refine ⟨rfl, ?_⟩
      simp only [perform, Transfer.anonymous_set, hfork]
      rfl
  | setSlice mime =>
      refine ⟨rfl, ?_⟩
      simp only [perform, Transfer.anonymous_set, hfork]
      rfl
  | delete mime =>
      refine ⟨rfl, ?_⟩
      simp only [perform, Transfer.anonymous_delete, hfork]
  | setSnippet =>
      unfold perform
      cases Snippet.ofSelection? call.document call.selection with
      | none => exact ⟨rfl, hfork⟩
      | some snippet =>
          refine ⟨rfl, ?_⟩
          simp only [Transfer.anonymous_set, hfork]
          rfl
  | fail error => exact ⟨rfl, hfork⟩
  | crash => exact ⟨rfl, hfork⟩

theorem nodup_keys_perform {fork : Transfer} (hn : fork.keys.Nodup) (a : CopyAction)
    (call : Call) (cancelled : Bool) (begun : Option Nat) (desk : Desk) :
    (a.perform call cancelled begun fork desk).2.1.keys.Nodup := by
  cases a with
  | set mime text => exact Transfer.nodup_keys_set hn _ _
  | setFile mime name uri content => exact Transfer.nodup_keys_set hn _ _
  | setSlice mime => exact Transfer.nodup_keys_set hn _ _
  | delete mime => exact Transfer.nodup_keys_delete hn mime
  | setSnippet =>
      unfold perform
      cases Snippet.ofSelection? call.document call.selection with
      | none => exact hn
      | some snippet => exact Transfer.nodup_keys_set hn _ _
  | _ => exact hn

end CopyAction

/-! ## Whole scripts -/

namespace Lane

theorem provider_runScript (call : Call) (cancelled : Bool) (script : CopyScript)
    (begun : Option Nat) (fork : Transfer) (desk : Desk) :
    (runScript call cancelled script begun fork desk).1.provider = call.provider := by
  induction script generalizing begun fork desk with
  | nil => rfl
  | cons a rest ih =>
      unfold runScript
      split
      · exact ih _ _ _
      · rfl
      · rfl
      · rfl

theorem nodup_keys_runScript {fork : Transfer} (hn : fork.keys.Nodup) (call : Call)
    (cancelled : Bool) (script : CopyScript) (begun : Option Nat) (desk : Desk) :
    (runScript call cancelled script begun fork desk).1.fork.keys.Nodup := by
  induction script generalizing begun fork desk with
  | nil => exact hn
  | cons a rest ih =>
      have hperform := CopyAction.nodup_keys_perform hn a call cancelled begun desk
      unfold runScript
      split <;> rename_i hp <;> rw [hp] at hperform
      · exact ih hperform _ _
      · exact hperform
      · exact hperform
      · exact hperform

/-- **Another desk and other identities change nothing that shows.** -/
theorem verdict_runScript_congr {script : CopyScript} (hs : ∀ a ∈ script, a.mayWait = false)
    {fork fork' : Transfer} (hfork : fork.anonymous = fork'.anonymous) (call : Call)
    (cancelled cancelled' : Bool) (begun begun' : Option Nat) (desk desk' : Desk) :
    (runScript call cancelled script begun fork desk).1.verdict =
      (runScript call cancelled' script begun' fork' desk').1.verdict := by
  -- equal up to identities is all that one action hands on to the next
  induction script generalizing fork fork' begun begun' desk desk' with
  | nil => simp [runScript, verdict, hfork]
  | cons a rest ih =>
      obtain ⟨hturn, hnext⟩ := CopyAction.perform_congr (hs a List.mem_cons_self) hfork call
        cancelled cancelled' begun begun' desk desk'
      rcases hp : a.perform call cancelled begun fork desk with ⟨turn, next, after⟩
      rcases hp' : a.perform call cancelled' begun' fork' desk' with ⟨turn', next', after'⟩
      rw [hp, hp'] at hturn hnext
      subst hturn
      unfold runScript
      rw [hp, hp']
      cases turn with
      | next => exact ih (fun b hb => hs b (List.mem_cons_of_mem a hb)) hnext _ _ _ _
      | wait => simpa [verdict] using hnext
      | done result => simpa [verdict] using hnext
      | crash => simpa [verdict] using hnext

theorem not_mayWait_of_mem_unpaused {script : CopyScript} :
    ∀ a ∈ script.unpaused, a.mayWait = false := by
  intro a ha
  simpa using (List.mem_filter.mp ha).2

/-- **Going on until the next wait does not change where a script ends up.** -/
theorem verdict_finish_runScript (call : Call) (script : CopyScript) (begun : Option Nat)
    (fork : Transfer) (desk : Desk) :
    (finish call (runScript call false script begun fork desk).1).verdict =
      (alone call script fork).verdict := by
  induction script generalizing begun fork desk with
  | nil => rfl
  | cons a rest ih =>
      by_cases ha : a.mayWait = true
      · -- the action is left out when the script runs by itself
        have halone : alone call (a :: rest) fork = alone call rest fork := by
          simp [alone, CopyScript.unpaused, ha]
        unfold runScript
        obtain ⟨desk', hp | hp⟩ :=
          CopyAction.perform_of_mayWait ha call false begun fork desk
        · rw [hp, halone]
          exact ih none fork desk'
        · rw [hp]
          rfl
      · have ha : a.mayWait = false := by simpa using ha
        have halone : alone call (a :: rest) fork =
            (runScript call false (a :: CopyScript.unpaused rest) none fork {}).1 := by
          simp [alone, CopyScript.unpaused, ha]
        obtain ⟨hturn, hnext⟩ := CopyAction.perform_congr ha (rfl : fork.anonymous = _) call
          false false begun none desk {}
        have hwait := CopyAction.perform_ne_wait ha call false begun fork desk
        rcases hp : a.perform call false begun fork desk with ⟨turn, next, after⟩
        rcases hp' : a.perform call false none fork {} with ⟨turn', next', after'⟩
        rw [hp, hp'] at hturn hnext
        rw [hp] at hwait
        subst hturn
        rw [halone]
        unfold runScript
        rw [hp, hp']
        cases turn with
        | next =>
            calc (finish call (runScript call false rest none next after).1).verdict
                = (alone call rest next).verdict := ih none next after
              _ = _ := verdict_runScript_congr not_mayWait_of_mem_unpaused hnext call
                    false false none none {} after'
        | wait => exact absurd rfl hwait
        | done result => simpa [verdict, finish, isRunning] using hnext
        | crash => simpa [verdict, finish, isRunning] using hnext

/-! ## Lanes -/

theorem provider_run (l : Lane) (task : Task) (document : Document) (selection : Selection)
    (cancelled : Bool) (desk : Desk) :
    (l.run task document selection cancelled desk).1.provider = l.provider :=
  provider_runScript _ _ _ _ _ _

theorem nodup_keys_run {l : Lane} (hn : l.fork.keys.Nodup) (task : Task) (document : Document)
    (selection : Selection) (cancelled : Bool) (desk : Desk) :
    (l.run task document selection cancelled desk).1.fork.keys.Nodup :=
  nodup_keys_runScript hn _ _ _ _ _

/-- **Going on until the next wait does not change where a lane ends up.** -/
theorem verdict_finish_run {l : Lane} (hl : l.isRunning = true) (task : Task)
    (document : Document) (selection : Selection) (desk : Desk) :
    (finish (l.call task document selection)
        (l.run task document selection false desk).1).verdict =
      (finish (l.call task document selection) l).verdict := by
  have halone : finish (l.call task document selection) l =
      alone (l.call task document selection) l.script l.fork := if_pos hl
  rw [halone]
  exact verdict_finish_runScript _ l.script l.begun l.fork desk

end Lane

end CopyPaste
