import CopyPaste.Proofs.Coordinator.Wakeups
import Mathlib.Data.List.Perm.Subperm

/-!
# Settling

Settling gives as many turns as there can be. Every turn takes a task from the queue, and only a
copy that comes to its result puts others there: those who sit waiting for it, each of them once. A
copy comes to its result once, so the turns come to an end, in whatever order they are given.

* `pollCopy_cases`, `pollPaste_cases` — what a turn does to the queue and to the seats;
* `Seated` — whoever sits waiting for a copy is a paste;
* **`turns_pollReady_lt`** — a turn, whoever has it, leaves fewer turns to come;
* **`Reachable.ready_settle`** — after settling no task is ready.
-/

namespace CopyPaste

/-! ## One turn -/

theorem Seats.mem_of_mem_sit {s : Seats} {who other : Nat} (h : other ∈ (s.sit who).occupants) :
    other = who ∨ other ∈ s.occupants := by
  rw [mem_occupants_iff] at h ⊢
  unfold Seats.sit at h
  split at h
  · simpa [or_comm, eq_comm] using h
  · obtain h | h := List.mem_or_eq_of_mem_set h
    · exact .inr h
    · exact .inl (Option.some.inj h)

theorem Seats.mem_of_mem_leave {s : Seats} {who other : Nat}
    (h : other ∈ (s.leave who).occupants) : other ∈ s.occupants := by
  rw [mem_occupants_iff] at h ⊢
  unfold Seats.leave at h
  split at h
  · exact (List.mem_or_eq_of_mem_set h).resolve_right (by simp)
  · exact h

namespace Coordinator

/-- Waking puts those tasks into the queue that do not stand there, each of them once. -/
theorem wakeAll_cases (m : Coordinator) (tasks : List Task) : ∃ woken,
    m.wakeAll tasks = { m with ready := m.ready ++ woken } ∧ woken.Nodup ∧
      ∀ task ∈ woken, task ∈ tasks ∧ task ∉ m.ready := by
  induction tasks generalizing m with
  | nil => exact ⟨[], by simp [wakeAll], List.nodup_nil, fun _ h => absurd h List.not_mem_nil⟩
  | cons task tasks ih =>
      have hrest : m.wakeAll (task :: tasks) = (m.wake task).wakeAll tasks := rfl
      obtain ⟨woken, hwake, hnodup, hwoken⟩ := ih (m.wake task)
      rw [hrest, hwake]
      by_cases htask : task ∈ m.ready
      · have hsame : m.wake task = m := by simp [wake, htask]
        rw [hsame] at hwoken ⊢
        exact ⟨woken, rfl, hnodup,
          fun other h => ⟨List.mem_cons_of_mem task (hwoken other h).1, (hwoken other h).2⟩⟩
      · have hlast : m.wake task = { m with ready := m.ready ++ [task] } := by simp [wake, htask]
        rw [hlast] at hwoken ⊢
        have hnew : ∀ other ∈ woken, other ∈ tasks ∧ other ∉ m.ready ∧ other ≠ task := by
          intro other h
          obtain ⟨hmem, hnot⟩ := hwoken other h
          simpa [not_or] using And.intro hmem hnot
        refine ⟨task :: woken, by simp, List.nodup_cons.mpr ⟨fun h => ?_, hnodup⟩, ?_⟩
        · exact (hnew task h).2.2 rfl
        · rintro other h
          obtain rfl | h := List.mem_cons.mp h
          · exact ⟨List.mem_cons_self, htask⟩
          · exact ⟨List.mem_cons_of_mem task (hnew other h).1, (hnew other h).2.1⟩

/-- A millisecond passes, and some tasks are woken by it. -/
theorem tick_cases (m : Coordinator) : ∃ woken, m.tick =
    { m with desk := { m.desk with now := m.desk.now + 1 }, ready := m.ready ++ woken } := by
  obtain ⟨woken, hwake, -⟩ :=
    wakeAll_cases { m with desk := { m.desk with now := m.desk.now + 1 } }
      (dueTasks { m with desk := { m.desk with now := m.desk.now + 1 } })
  exact ⟨woken, hwake⟩

/-- What the turn of a copy does: the copy changes, and if it comes to its result those who sit
waiting for it are woken. -/
theorem pollCopy_cases (m : Coordinator) (k : Nat) :
    m.copies[k]? = none ∧ m.pollCopy k = m ∨ ∃ c woken, m.copies[k]? = some c ∧
      m.pollCopy k = { m with
        desk := (c.poll k m.desk).2
        copies := m.copies.set k (c.poll k m.desk).1
        ready := m.ready ++ woken } ∧
      (woken = [] ∨ c.result = none ∧ (c.poll k m.desk).1.result.isSome = true) ∧
      woken.Nodup ∧ ∀ task ∈ woken, ∃ i ∈ c.seats.occupants, task = .paste i := by
  unfold pollCopy
  cases hc : m.copies[k]? with
  | none => exact .inl ⟨rfl, rfl⟩
  | some c =>
      refine .inr ⟨c, ?_⟩
      dsimp only
      split
      next hcomes =>
        obtain ⟨woken, hwake, hnodup, hwoken⟩ := wakeAll_cases
          { m with
            desk := (c.poll k m.desk).2
            copies := m.copies.set k (c.poll k m.desk).1 } (c.seats.occupants.map .paste)
        rw [Bool.and_eq_true, Option.isNone_iff_eq_none] at hcomes
        refine ⟨woken, rfl, hwake, .inr hcomes, hnodup, fun task htask => ?_⟩
        obtain ⟨i, hi, rfl⟩ := List.mem_map.mp (hwoken task htask).1
        exact ⟨i, hi, rfl⟩
      next =>
        exact ⟨[], rfl, by simp, .inl rfl, List.nodup_nil, fun _ h => absurd h List.not_mem_nil⟩

/-- What the turn of a paste does: the paste changes, and the seats of one copy do, in which nobody
but this paste sits down. -/
theorem pollPaste_cases (m : Coordinator) (i : Nat) :
    m.pastes[i]? = none ∧ m.pollPaste i = m ∨ ∃ p copies, m.pastes[i]? = some p ∧
      m.pollPaste i = { m with
        desk := (p.poll i (m.result? p.copy) m.desk).2
        pastes := m.pastes.set i (p.poll i (m.result? p.copy) m.desk).1
        copies } ∧
      (copies = m.copies ∨ ∃ k c seats, m.copies[k]? = some c ∧
        copies = m.copies.set k { c with seats } ∧
        ∀ j ∈ seats.occupants, j = i ∨ j ∈ c.seats.occupants) := by
  unfold pollPaste
  cases hp : m.pastes[i]? with
  | none => exact .inl ⟨rfl, rfl⟩
  | some p =>
      obtain ⟨out, hout⟩ : ∃ out, out = p.poll i (m.result? p.copy) m.desk := ⟨_, rfl⟩
      have hseats : ∀ f : Seats → Seats,
          (∀ s : Seats, ∀ j ∈ (f s).occupants, j = i ∨ j ∈ s.occupants) →
          ∃ copies, mapSeats { m with desk := out.2, pastes := m.pastes.set i out.1 } p.copy f =
              { m with desk := out.2, pastes := m.pastes.set i out.1, copies } ∧
            (copies = m.copies ∨ ∃ k c seats, m.copies[k]? = some c ∧
              copies = m.copies.set k { c with seats } ∧
              ∀ j ∈ seats.occupants, j = i ∨ j ∈ c.seats.occupants) := by
        intro f hf
        obtain hsame | ⟨k, c, hc, hmap⟩ :=
          mapSeats_eq { m with desk := out.2, pastes := m.pastes.set i out.1 } p.copy f
        · exact ⟨m.copies, hsame, .inl rfl⟩
        · exact ⟨_, hmap, .inr ⟨k, c, f c.seats, hc, rfl, hf c.seats⟩⟩
      refine .inr ⟨p, ?_⟩
      dsimp only
      rw [← hout]
      split
      · obtain ⟨copies, hmap, hcopies⟩ := hseats (·.sit i) fun s j => Seats.mem_of_mem_sit
        exact ⟨copies, rfl, hmap, hcopies⟩
      · split
        · obtain ⟨copies, hmap, hcopies⟩ :=
            hseats (·.leave i) fun s j h => .inr (Seats.mem_of_mem_leave h)
          exact ⟨copies, rfl, hmap, hcopies⟩
        · exact ⟨m.copies, rfl, rfl, .inl rfl⟩

/-! ## Settling -/

/-- Whoever sits waiting for a copy is a paste. -/
def Seated (m : Coordinator) : Prop :=
  ∀ c ∈ m.copies, ∀ i ∈ c.seats.occupants, i < m.pastes.length

theorem Seated.pollCopy {m : Coordinator} (h : m.Seated) (k : Nat) : (m.pollCopy k).Seated := by
  obtain ⟨-, hsame⟩ | ⟨c, woken, hc, hpoll, -⟩ := m.pollCopy_cases k
  · rwa [hsame]
  · rw [hpoll]
    intro d hd
    obtain hd | rfl := List.mem_or_eq_of_mem_set hd
    · exact h d hd
    · rw [(poll_copy_cases c k m.desk).1]
      exact h c (List.mem_of_getElem? hc)

theorem Seated.pollPaste {m : Coordinator} (h : m.Seated) (i : Nat) : (m.pollPaste i).Seated := by
  obtain ⟨-, hsame⟩ | ⟨p, copies, hp, hpoll, hcopies⟩ := m.pollPaste_cases i
  · rwa [hsame]
  · have hi : i < m.pastes.length := (List.getElem?_eq_some_iff.mp hp).1
    rw [hpoll]
    intro d hd
    dsimp only
    rw [List.length_set]
    obtain rfl | ⟨k, c, seats, hc, rfl, hseats⟩ := hcopies
    · exact h d hd
    · obtain hd | rfl := List.mem_or_eq_of_mem_set hd
      · exact h d hd
      · intro other hother
        obtain rfl | hother := hseats other hother
        · exact hi
        · exact h c (List.mem_of_getElem? hc) other hother

/-- How many copies have not come to their result. -/
def unfinished (copies : List CopyRun) : Nat := copies.countP fun c => c.result.isNone

theorem turns_eq (m : Coordinator) :
    m.turns = m.ready.length + unfinished m.copies * m.pastes.length := by
  rw [turns, unfinished, List.countP_eq_length_filter]

theorem unfinished_set {copies : List CopyRun} {k : Nat} {c : CopyRun} (hc : copies[k]? = some c)
    (c' : CopyRun) : unfinished (copies.set k c') + c.result.isNone.toNat =
      unfinished copies + c'.result.isNone.toNat := by
  obtain ⟨hlt, hget⟩ := List.getElem?_eq_some_iff.mp hc
  have hcounted : c.result.isNone.toNat ≤ unfinished copies := by
    cases hnone : c.result.isNone with
    | false => exact Nat.zero_le _
    | true => exact List.countP_pos_iff.mpr ⟨c, List.mem_of_getElem? hc, hnone⟩
  have hset := List.countP_set (p := fun c : CopyRun => c.result.isNone) (a := c') hlt
  rw [hget] at hset
  have htoNat : ∀ b : Bool, (if b = true then 1 else 0) = b.toNat := by decide
  rw [htoNat, htoNat] at hset
  unfold unfinished at hcounted ⊢
  omega

/-- A copy that comes to its result wakes each paste at most once, and comes to it once. -/
theorem turns_pollCopy_le {m : Coordinator} (h : m.Seated) (k : Nat) :
    (m.pollCopy k).turns ≤ m.turns := by
  obtain ⟨-, hsame⟩ | ⟨c, woken, hc, hpoll, hwakes, hnodup, hwoken⟩ := m.pollCopy_cases k
  · exact Nat.le_of_eq (congrArg turns hsame)
  have hcount := unfinished_set hc (c.poll k m.desk).1
  rw [hpoll, turns_eq, turns_eq]
  dsimp only
  rw [List.length_append]
  obtain hkept | ⟨hnone, hsome⟩ := (poll_copy_cases c k m.desk).2
  · obtain rfl : woken = [] := hwakes.resolve_right fun hcomes => by
      rw [hkept, hcomes.1] at hcomes
      exact absurd hcomes.2 (by simp)
    rw [hkept] at hcount
    rw [Nat.add_right_cancel hcount]
    simp
  · have hfewer : unfinished (m.copies.set k (c.poll k m.desk).1) + 1 = unfinished m.copies := by
      obtain ⟨result, hresult⟩ := Option.isSome_iff_exists.mp hsome
      simpa [hnone, hresult] using hcount
    have hlength : woken.length ≤ m.pastes.length := by
      have hsub : woken ⊆ (List.range m.pastes.length).map Task.paste := fun task htask => by
        obtain ⟨i, hi, rfl⟩ := hwoken task htask
        exact List.mem_map_of_mem (List.mem_range.mpr (h c (List.mem_of_getElem? hc) i hi))
      simpa using (List.subperm_of_subset hnodup hsub).length_le
    rw [← hfewer, Nat.succ_mul]
    omega

theorem turns_pollPaste (m : Coordinator) (i : Nat) : (m.pollPaste i).turns = m.turns := by
  obtain ⟨-, hsame⟩ | ⟨p, copies, hp, hpoll, hcopies⟩ := m.pollPaste_cases i
  · exact congrArg turns hsame
  · have hcount : unfinished copies = unfinished m.copies := by
      obtain rfl | ⟨k, c, seats, hc, rfl, -⟩ := hcopies
      · rfl
      · exact Nat.add_right_cancel (unfinished_set hc { c with seats })
    rw [hpoll, turns_eq, turns_eq]
    dsimp only
    rw [hcount, List.length_set]

section Turns

variable {m : Coordinator} {task : Task}

theorem Seated.pollReady (h : m.Seated) (task : Task) : (m.pollReady task).Seated := by
  unfold Coordinator.pollReady
  split
  · cases task with
    | copy k => exact Seated.pollCopy (m := { m with ready := m.ready.erase (.copy k) }) h k
    | paste i => exact Seated.pollPaste (m := { m with ready := m.ready.erase (.paste i) }) h i
  · exact h

/-- **A turn, whoever has it, leaves fewer turns to come.** -/
theorem turns_pollReady_lt (h : m.Seated) (htask : task ∈ m.ready) :
    (m.pollReady task).turns < m.turns := by
  have hlength := List.length_erase_of_mem htask
  have hpos := List.length_pos_of_mem htask
  have hleft : ({ m with ready := m.ready.erase task } : Coordinator).turns < m.turns := by
    simp only [turns_eq]
    omega
  unfold pollReady
  rw [if_pos htask]
  cases task with
  | copy k =>
      exact Nat.lt_of_le_of_lt
        (turns_pollCopy_le (m := { m with ready := m.ready.erase (.copy k) }) h k) hleft
  | paste i =>
      rw [← turns_pollPaste _ i] at hleft
      exact hleft

/-- The next turn is that of the first task in the queue. -/
theorem pollNext_eq_pollReady {rest : List Task} (h : m.ready = task :: rest) :
    m.pollNext = m.pollReady task := by
  unfold pollNext pollReady
  rw [h]
  simp

theorem ready_pollTimes {n : Nat} (h : m.Seated) (hturns : m.turns ≤ n) :
    (pollTimes n m).ready = [] := by
  induction n generalizing m with
  | zero =>
      have hlength : m.ready.length = 0 := by
        rw [turns] at hturns
        omega
      exact List.length_eq_zero_iff.mp hlength
  | succ n ih =>
      rw [pollTimes]
      split
      next hready => exact List.isEmpty_iff.mp hready
      next hready =>
        obtain ⟨task, rest, hrest⟩ := List.exists_cons_of_ne_nil (mt List.isEmpty_iff.mpr hready)
        have htask : task ∈ m.ready := by
          rw [hrest]
          exact List.mem_cons_self
        have hfewer := turns_pollReady_lt h htask
        rw [pollNext_eq_pollReady hrest]
        exact ih (h.pollReady task) (by omega)

theorem Seated.ready_settle (h : m.Seated) : m.settle.ready = [] :=
  ready_pollTimes h (Nat.le_refl m.turns)

end Turns

/-! ## All histories -/

section Events

variable {m m' : Coordinator}

/-- Nobody sits down, and no paste is lost. -/
theorem Seated.of_copies (h : m.Seated)
    (hcopies : ∀ c' ∈ m'.copies, c'.seats = {} ∨ ∃ c ∈ m.copies, c'.seats = c.seats)
    (hpastes : m.pastes.length ≤ m'.pastes.length) : m'.Seated := by
  intro c' hc' i hi
  obtain hvacant | ⟨c, hc, hseats⟩ := hcopies c' hc'
  · rw [hvacant] at hi
    exact absurd hi List.not_mem_nil
  · rw [hseats] at hi
    exact Nat.lt_of_lt_of_le (h c hc i hi) hpastes

theorem Seated.wakeAll (h : m.Seated) (tasks : List Task) : (m.wakeAll tasks).Seated := by
  obtain ⟨ready, hwake⟩ := m.exists_wakeAll tasks
  rw [hwake]
  exact h

theorem Seated.withDesk (h : m.Seated) (desk : Desk) : Seated { m with desk } := h

theorem Seated.setPastes (h : m.Seated) (i : Nat) (p : PasteRun) :
    Seated { m with pastes := m.pastes.set i p } :=
  h.of_copies (fun c hc => .inr ⟨c, hc, rfl⟩) (Nat.le_of_eq List.length_set.symm)

theorem seated_dispose (h : m.Seated) : m.dispose.Seated := by
  unfold dispose
  split
  next i hpending =>
    split
    next c hc =>
      have hset : Seated { m with
          copies := m.copies.set i { c with cancelled := true }, pending := none } := by
        refine h.of_copies (fun c' hc' => .inr ?_) (Nat.le_refl _)
        obtain hc' | rfl := List.mem_or_eq_of_mem_set hc'
        · exact ⟨c', hc', rfl⟩
        · exact ⟨c, List.mem_of_getElem? hc, rfl⟩
      dsimp only
      split
      · exact hset.wakeAll [.copy i]
      · exact hset
    · exact h
  · exact h

theorem seated_handle (h : m.Seated) (e : Event) : (m.handle e).Seated := by
  cases e with
  | edit change =>
      show (m.edit change).Seated
      unfold Coordinator.edit
      split <;> exact h
  | copy given fresh =>
      show (m.copy given fresh).2.2.Seated
      unfold Coordinator.copy
      split
      · exact h
      · dsimp only
        show (Coordinator.wakeAll _ [_]).Seated
        refine Seated.wakeAll (?_ : Seated _) _
        refine h.of_copies (fun c' hc' => ?_) (Nat.le_refl _)
        obtain hc' | hc' := List.mem_append.mp hc'
        · exact .inr ⟨c', hc', rfl⟩
        · rw [List.mem_singleton.mp hc']
          exact .inl rfl
  | paste given cancelled =>
      show (m.paste given cancelled).2.Seated
      unfold Coordinator.paste
      split
      · exact h
      · exact h.of_copies (fun c hc => .inr ⟨c, hc, rfl⟩) (by simp)
  | run i =>
      show (m.run i).Seated
      unfold Coordinator.run
      split
      · split
        · exact (h.setPastes i _).wakeAll [.paste i]
        · exact h
      · exact h
  | cancel i =>
      show (m.cancel i).Seated
      unfold Coordinator.cancel
      split
      · dsimp only
        split
        · exact (h.setPastes i _).wakeAll [.paste i]
        · exact h.setPastes i _
      · exact h
  | dispose => exact seated_dispose h
  | replace config => exact seated_dispose h
  | release gate =>
      show (m.release gate).Seated
      unfold Coordinator.release
      exact (h.withDesk _).wakeAll _
  | tick =>
      show m.tick.Seated
      unfold Coordinator.tick
      exact (h.withDesk _).wakeAll _
  | turn =>
      show m.pollNext.Seated
      cases hready : m.ready with
      | nil =>
          unfold pollNext
          rw [hready]
          exact h
      | cons task rest =>
          rw [pollNext_eq_pollReady hready]
          exact h.pollReady task
  | _ => exact h

end Events

theorem Reachable.seated {m : Coordinator} (h : m.Reachable) : m.Seated := by
  obtain ⟨config, history, rfl⟩ := h
  have hstart : ({ config } : Coordinator).Seated := fun c hc => absurd hc List.not_mem_nil
  generalize ({ config } : Coordinator) = m at hstart
  induction history generalizing m with
  | nil => exact hstart
  | cons e history ih => exact ih _ (seated_handle hstart e)

/-- **After settling no task is ready,** in every state that a history leads to. -/
theorem Reachable.ready_settle {m : Coordinator} (h : m.Reachable) : m.settle.ready = [] :=
  h.seated.ready_settle

end Coordinator

end CopyPaste
