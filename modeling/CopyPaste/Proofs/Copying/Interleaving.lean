import CopyPaste.Coordinator.Basic
import CopyPaste.Proofs.Copying.Alone
import CopyPaste.Proofs.Transfer.Replay

/-!
# Interleavings of a copy

The lanes of a copy go on in turns. A move lets one lane run until it waits or ends, and finds
the desk in whatever state the rest of the world has left it; an interleaving is a list of moves
in any order. Where a lane ends up is the same after every interleaving in which it ends.

* `CopyRun.interleave` — the lanes after a list of moves;
* **`outlook_interleave`** — a move does not change where any lane ends up;
* **`get?_absorbAll`** — what the absorbed forks hold under a type is decided by the lane of
  highest priority that succeeded and recorded a change of it;
* **`exists_moves_runLanes`** — a turn of the whole copy is a list of moves.
-/

namespace CopyPaste

/-! ## Moves -/

namespace Lane

/-- Whether the provider has ended, in success or in failure. -/
def hasEnded (l : Lane) : Bool := l.succeeded || l.failed

theorem not_isRunning_of_hasEnded {l : Lane} (h : l.hasEnded = true) : l.isRunning = false := by
  cases hs : l.status <;> simp_all [hasEnded, succeeded, failed, isRunning]

theorem not_hasCrashed_of_hasEnded {l : Lane} (h : l.hasEnded = true) : l.hasCrashed = false := by
  cases hs : l.status <;> simp_all [hasEnded, succeeded, failed, hasCrashed]

theorem hasEnded_of_not_isRunning {l : Lane} (hr : l.isRunning = false)
    (hc : l.hasCrashed = false) : l.hasEnded = true := by
  unfold hasEnded succeeded failed
  unfold isRunning at hr
  unfold hasCrashed at hc
  cases hs : l.status with
  | running => simp [hs] at hr
  | crashed => simp [hs] at hc
  | ended result => cases result <;> rfl

/-- What a lane amounts to: its provider, and where it ends up. -/
def outlook (task : Task) (document : Document) (selection : Selection) (l : Lane) :
    String × LaneStatus × Transfer :=
  (l.provider, (l.finish (l.call task document selection)).verdict)

end Lane

namespace CopyRun

/-- The lanes after one of them has gone on until it waits or ends, the desk being as given. -/
def move (c : CopyRun) (task : Task) (lanes : List Lane) (index : Nat) (desk : Desk) : List Lane :=
  lanes.modify index fun l =>
    if l.isRunning then (l.run task c.document c.selection false desk).1 else l

/-- Lanes after moves in the order given. -/
def moveAll (c : CopyRun) (task : Task) (lanes : List Lane) (moves : List (Nat × Desk)) :
    List Lane :=
  moves.foldl (fun lanes m => c.move task lanes m.1 m.2) lanes

/-- The lanes of a copy after moves in the order given. -/
def interleave (c : CopyRun) (task : Task) (moves : List (Nat × Desk)) : List Lane :=
  c.moveAll task c.lanes moves

/-- Every script run by itself on the fork that its lane began with. -/
def soloists (c : CopyRun) (task : Task) : List Lane :=
  c.lanes.map fun l => Lane.alone (l.call task c.document c.selection) l.script l.fork

/-- The lane that decides about a type: the first that succeeded and recorded a change of it. -/
def decider? (mime : String) (lanes : List Lane) : Option Lane :=
  lanes.find? fun l => l.succeeded && decide (mime ∈ l.fork.touched)

/-! ## Where the lanes end up -/

/-- A function that a change keeps is kept when one element is changed. -/
theorem map_modify_of_eq {α β : Type} {f : α → α} {g : α → β} (h : ∀ x, g (f x) = g x)
    (l : List α) (i : Nat) : (l.modify i f).map g = l.map g := by
  induction l generalizing i with
  | nil => cases i <;> rfl
  | cons x l ih =>
      cases i with
      | zero => simp [h]
      | succ i => simp [ih]

theorem outlook_move (c : CopyRun) (task : Task) (lanes : List Lane) (index : Nat) (desk : Desk) :
    (c.move task lanes index desk).map (Lane.outlook task c.document c.selection) =
      lanes.map (Lane.outlook task c.document c.selection) := by
  apply map_modify_of_eq
  intro l
  by_cases hl : l.isRunning = true
  · rw [if_pos hl]
    have hprovider := l.provider_run task c.document c.selection false desk
    have hcall : ((l.run task c.document c.selection false desk).1).call task c.document
        c.selection = l.call task c.document c.selection := by
      unfold Lane.call
      rw [hprovider]
    unfold Lane.outlook
    rw [hcall, hprovider, Lane.verdict_finish_run hl]
  · rw [if_neg hl]

/-- **No interleaving changes where the lanes end up.** -/
theorem outlook_interleave (c : CopyRun) (task : Task) (moves : List (Nat × Desk)) :
    (c.interleave task moves).map (Lane.outlook task c.document c.selection) =
      c.lanes.map (Lane.outlook task c.document c.selection) := by
  unfold interleave moveAll
  generalize c.lanes = lanes
  induction moves generalizing lanes with
  | nil => rfl
  | cons m moves ih => rw [List.foldl_cons, ih, outlook_move]

/-- Lanes that have all ended show what the soloists show. -/
theorem verdict_interleave {c : CopyRun} (hstart : ∀ l ∈ c.lanes, l.isRunning = true)
    (task : Task) {moves : List (Nat × Desk)}
    (hended : ∀ l ∈ c.interleave task moves, l.hasEnded = true) :
    (c.interleave task moves).map Lane.verdict = (c.soloists task).map Lane.verdict := by
  have hverdict : ∀ {lanes : List Lane},
      lanes.map (fun l => (l.finish (l.call task c.document c.selection)).verdict) =
        (lanes.map (Lane.outlook task c.document c.selection)).map Prod.snd := by
    intro lanes
    simp [Lane.outlook, Function.comp_def]
  calc (c.interleave task moves).map Lane.verdict
      = (c.interleave task moves).map
          fun l => (l.finish (l.call task c.document c.selection)).verdict := by
        apply List.map_congr_left
        intro l hl
        unfold Lane.finish
        rw [if_neg (by simp [Lane.not_isRunning_of_hasEnded (hended l hl)])]
    _ = c.lanes.map fun l => (l.finish (l.call task c.document c.selection)).verdict := by
        rw [hverdict, outlook_interleave, ← hverdict]
    _ = (c.soloists task).map Lane.verdict := by
        unfold soloists
        rw [List.map_map]
        apply List.map_congr_left
        intro l hl
        unfold Lane.finish
        rw [if_pos (hstart l hl)]
        rfl

theorem nodup_keys_move {lanes : List Lane} (hn : ∀ l ∈ lanes, l.fork.keys.Nodup) (c : CopyRun)
    (task : Task) (index : Nat) (desk : Desk) :
    ∀ l ∈ c.move task lanes index desk, l.fork.keys.Nodup := by
  intro l hl
  obtain ⟨i, hi⟩ := List.getElem?_of_mem hl
  unfold move at hi
  rw [List.getElem?_modify] at hi
  obtain ⟨before, hbefore, rfl⟩ := Option.map_eq_some_iff.mp hi
  have hmem := hn before (List.mem_of_getElem? hbefore)
  by_cases hindex : index = i
  · by_cases hrun : before.isRunning = true
    · simpa [hindex, hrun] using Lane.nodup_keys_run hmem task c.document c.selection false desk
    · simpa [hindex, hrun] using hmem
  · simpa [hindex] using hmem

theorem nodup_keys_interleave {c : CopyRun} (hn : ∀ l ∈ c.lanes, l.fork.keys.Nodup)
    (task : Task) (moves : List (Nat × Desk)) :
    ∀ l ∈ c.interleave task moves, l.fork.keys.Nodup := by
  unfold interleave moveAll
  generalize c.lanes = lanes at hn
  induction moves generalizing lanes with
  | nil => exact hn
  | cons m moves ih => exact ih _ (nodup_keys_move hn c task m.1 m.2)

/-! ## Turns of the whole copy -/

theorem moveAll_append (c : CopyRun) (task : Task) (lanes : List Lane)
    (first second : List (Nat × Desk)) :
    c.moveAll task lanes (first ++ second) =
      c.moveAll task (c.moveAll task lanes first) second :=
  List.foldl_append

/-- Moves of the lanes behind the first one. -/
theorem moveAll_cons (c : CopyRun) (task : Task) (l : Lane) (lanes : List Lane)
    (moves : List (Nat × Desk)) :
    c.moveAll task (l :: lanes) (moves.map fun m => (m.1 + 1, m.2)) =
      l :: c.moveAll task lanes moves := by
  induction moves generalizing lanes with
  | nil => rfl
  | cons m moves ih => exact ih (c.move task lanes m.1 m.2)

/-- **A turn of the whole copy is a list of moves.** -/
theorem exists_moves_runLanes (c : CopyRun) (task : Task) (lanes : List Lane) (desk : Desk) :
    ∃ moves, (runLanes task c.document c.selection false lanes desk).1 =
      c.moveAll task lanes moves := by
  induction lanes generalizing desk with
  | nil => exact ⟨[], rfl⟩
  | cons l rest ih =>
      unfold runLanes
      split
      · rename_i hl
        have hfirst : c.moveAll task (l :: rest) [(0, desk)] =
            (l.run task c.document c.selection false desk).1 :: rest := by
          show c.move task (l :: rest) 0 desk = _
          simp [move, hl]
        dsimp only
        split
        · -- the lane crashed, and those behind it get no turn
          exact ⟨[(0, desk)], hfirst.symm⟩
        · obtain ⟨moves, hmoves⟩ := ih (l.run task c.document c.selection false desk).2
          refine ⟨(0, desk) :: moves.map fun m => (m.1 + 1, m.2), ?_⟩
          show _ = c.moveAll task (c.moveAll task (l :: rest) [(0, desk)]) _
          rw [hfirst, moveAll_cons, ← hmoves]
      · obtain ⟨moves, hmoves⟩ := ih desk
        refine ⟨moves.map fun m => (m.1 + 1, m.2), ?_⟩
        rw [moveAll_cons, ← hmoves]

/-! ## Absorbing the forks -/

theorem nodup_keys_absorbAll {base : Transfer} (hb : base.keys.Nodup) (lanes : List Lane) :
    (absorbAll base lanes).keys.Nodup := by
  induction lanes with
  | nil => exact hb
  | cons l lanes ih =>
      show (if l.succeeded then (absorbAll base lanes).absorb l.fork
        else absorbAll base lanes).keys.Nodup
      split
      · exact Transfer.nodup_keys_absorb ih l.fork
      · exact ih

/-- **The lane of highest priority that succeeded and recorded a change decides.** -/
theorem get?_absorbAll {base : Transfer} (hb : base.keys.Nodup) {lanes : List Lane}
    (hn : ∀ l ∈ lanes, l.fork.keys.Nodup) (mime : String) :
    (absorbAll base lanes).get? mime =
      match decider? mime lanes with
      | some l => l.fork.get? mime
      | none => base.get? mime := by
  induction lanes with
  | nil => rfl
  | cons l lanes ih =>
      have hrest := ih fun x hx => hn x (List.mem_cons_of_mem l hx)
      have hcons : absorbAll base (l :: lanes) =
          if l.succeeded then (absorbAll base lanes).absorb l.fork
          else absorbAll base lanes := rfl
      rw [hcons]
      unfold decider? at hrest ⊢
      by_cases hs : l.succeeded = true
      · rw [if_pos hs, Transfer.get?_absorb (nodup_keys_absorbAll hb lanes)
          (hn l List.mem_cons_self)]
        by_cases hm : mime ∈ l.fork.touched
        · simp [hs, hm]
        · simpa [hs, hm] using hrest
      · rw [if_neg hs]
        simpa [hs] using hrest

/-- Lanes that did not succeed contribute nothing. -/
theorem absorbAll_filter_succeeded (base : Transfer) (lanes : List Lane) :
    absorbAll base (lanes.filter Lane.succeeded) = absorbAll base lanes := by
  induction lanes with
  | nil => rfl
  | cons l lanes ih =>
      unfold absorbAll at ih ⊢
      by_cases hs : l.succeeded = true <;> simp [hs, ih]

/-! ## What shows of the absorbed forks -/

theorem succeeded_congr {l l' : Lane} (h : l.verdict = l'.verdict) :
    l.succeeded = l'.succeeded := by
  have hstatus : l.status = l'.status := congrArg Prod.fst h
  unfold Lane.succeeded
  rw [hstatus]

theorem failed_congr {l l' : Lane} (h : l.verdict = l'.verdict) : l.failed = l'.failed := by
  have hstatus : l.status = l'.status := congrArg Prod.fst h
  unfold Lane.failed
  rw [hstatus]

/-- Lists of lanes that show the same are compared lane by lane. -/
theorem verdict_induction {P : List Lane → List Lane → Prop} (nil : P [] [])
    (cons : ∀ l l' lanes lanes', l.verdict = l'.verdict → P lanes lanes' →
      P (l :: lanes) (l' :: lanes'))
    {lanes lanes' : List Lane} (h : lanes.map Lane.verdict = lanes'.map Lane.verdict) :
    P lanes lanes' := by
  induction lanes generalizing lanes' with
  | nil =>
      obtain rfl : lanes' = [] := by simpa using h.symm
      exact nil
  | cons l lanes ih =>
      cases lanes' with
      | nil => simp at h
      | cons l' lanes' =>
          obtain ⟨hl, hrest⟩ := List.cons.inj h
          exact cons l l' lanes lanes' hl (ih hrest)

theorem anonymous_absorbAll_congr (base : Transfer) {lanes lanes' : List Lane}
    (h : lanes.map Lane.verdict = lanes'.map Lane.verdict) :
    (absorbAll base lanes).anonymous = (absorbAll base lanes').anonymous := by
  refine verdict_induction
    (P := fun lanes lanes' => (absorbAll base lanes).anonymous = (absorbAll base lanes').anonymous)
    rfl ?_ h
  intro l l' lanes lanes' hl ih
  have hfork : l.fork.anonymous = l'.fork.anonymous := congrArg Prod.snd hl
  show (if l.succeeded then (absorbAll base lanes).absorb l.fork
    else absorbAll base lanes).anonymous =
      (if l'.succeeded then (absorbAll base lanes').absorb l'.fork
        else absorbAll base lanes').anonymous
  rw [succeeded_congr hl]
  split
  · rw [Transfer.anonymous_absorb, Transfer.anonymous_absorb, ih, hfork]
  · exact ih

theorem decider?_congr (mime : String) {lanes lanes' : List Lane}
    (h : lanes.map Lane.verdict = lanes'.map Lane.verdict) :
    (decider? mime lanes).map Lane.verdict = (decider? mime lanes').map Lane.verdict := by
  refine verdict_induction (P := fun lanes lanes' =>
    (decider? mime lanes).map Lane.verdict = (decider? mime lanes').map Lane.verdict) rfl ?_ h
  intro l l' lanes lanes' hl ih
  have htouched : l.fork.touched = l'.fork.touched := congrArg (fun v => v.2.touched) hl
  unfold decider? at ih ⊢
  rw [List.find?_cons, List.find?_cons, succeeded_congr hl, htouched]
  split
  · exact congrArg some hl
  · exact ih

theorem any_failed_congr {lanes lanes' : List Lane}
    (h : lanes.map Lane.verdict = lanes'.map Lane.verdict) :
    lanes.any Lane.failed = lanes'.any Lane.failed := by
  refine verdict_induction
    (P := fun lanes lanes' => lanes.any Lane.failed = lanes'.any Lane.failed) rfl ?_ h
  intro l l' lanes lanes' hl ih
  rw [List.any_cons, List.any_cons, failed_congr hl, ih]

/-! ## Results -/

/-- A copy that came to something has no lane that waits or crashed. -/
theorem ended_of_outcome? {base t : Transfer} {policy : FailurePolicy} {cancelled : Bool}
    {lanes : List Lane} (h : outcome? base policy cancelled lanes = some (some t)) :
    ∀ l ∈ lanes, l.hasEnded = true := by
  unfold outcome? at h
  split at h
  · simp at h
  · rename_i hcrashed
    split at h
    · simp at h
    · rename_i hrunning
      intro l hl
      rw [Bool.not_eq_true, List.any_eq_false] at hcrashed hrunning
      have hc : l.hasCrashed = false := by simpa using hcrashed l hl
      have hr : l.isRunning = false := by simpa using hrunning l hl
      exact Lane.hasEnded_of_not_isRunning hr hc

/-- What a copy that came to something comes to is what its lanes absorb to. -/
theorem absorbAll_of_outcome? {base t : Transfer} {policy : FailurePolicy} {cancelled : Bool}
    {lanes : List Lane} (h : outcome? base policy cancelled lanes = some (some t)) :
    absorbAll base lanes = t := by
  unfold outcome? collect at h
  split at h
  · simp at h
  · split at h
    · simp at h
    · split at h
      · simp at h
      · split at h
        · simp at h
        · simpa using h

end CopyRun

end CopyPaste
