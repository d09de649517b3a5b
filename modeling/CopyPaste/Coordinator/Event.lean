import CopyPaste.Coordinator.Basic

/-!
# Events

Everything that can happen to a coordinator from outside, and the turns that its tasks take in
between. A history is a list of events, the earliest first, and a coordinator can be in a state
when some history leads there from the start.

* `Coordinator.handle` — what one event does;
* `Coordinator.after` — what a history does;
* `Coordinator.Reachable` — the states that histories lead to;
* **`settle_eq_after`** — settling is a history of turns.
-/

namespace CopyPaste

/-- What can happen to a coordinator. -/
inductive Event
  | openDocument (document : Document)
  | closeDocument
  | select (selection : Selection)
  | clearSelection
  /-- Somebody other than a paste edits the document. -/
  | edit (edit : Edit)
  | register (selector : Selector) (provider : Provider)
  | registerDefaults
  | deregister (id : Nat)
  | copy (payload : Option Payload) (fresh : Handle)
  | paste (payload : Option Payload) (cancelled : Bool)
  | run (index : Nat)
  | cancel (index : Nat)
  | dispose
  | replace (config : Config)
  | release (gate : String)
  | tick
  /-- The first task in the queue has its turn. -/
  | turn
deriving Repr

namespace Coordinator

def mapRegistry (m : Coordinator) (f : Registry → Registry) : Coordinator :=
  { m with registry := f m.registry }

/-- The coordinator after somebody edited the document; an edit that is refused changes nothing. -/
def edit (m : Coordinator) (edit : Edit) : Coordinator :=
  match m.editor.apply edit m.editor.id with
  | .ok editor => m.mapEditor fun _ => editor
  | .error _ => m

/-- The coordinator after an event. -/
def handle (m : Coordinator) : Event → Coordinator
  | .openDocument d => m.mapEditor (·.openDocument d)
  | .closeDocument => m.mapEditor (·.close)
  | .select s => m.mapEditor (·.select s)
  | .clearSelection => m.mapEditor (·.clearSelection)
  | .edit e => m.edit e
  | .register s p => m.mapRegistry (·.register s p)
  | .registerDefaults => m.mapRegistry (·.registerDefaults)
  | .deregister id => m.mapRegistry (·.deregister id)
  | .copy payload fresh => (m.copy payload fresh).2.2
  | .paste payload cancelled => (m.paste payload cancelled).2
  | .run i => m.run i
  | .cancel i => m.cancel i
  | .dispose => m.dispose
  | .replace config => m.replace config
  | .release gate => m.release gate
  | .tick => m.tick
  | .turn => m.pollNext

/-- The coordinator after a history. -/
def after (m : Coordinator) (history : List Event) : Coordinator := history.foldl handle m

@[simp] theorem after_nil (m : Coordinator) : m.after [] = m := rfl

@[simp] theorem after_cons (m : Coordinator) (e : Event) (history : List Event) :
    m.after (e :: history) = (m.handle e).after history := rfl

theorem after_append (m : Coordinator) (first second : List Event) :
    m.after (first ++ second) = (m.after first).after second := by
  simp [after, List.foldl_append]

/-- The states that a history leads to from a coordinator that has done nothing yet. -/
def Reachable (m : Coordinator) : Prop :=
  ∃ (config : Config) (history : List Event), m = ({ config } : Coordinator).after history

/-- Giving at most `n` turns is a history of at most `n` turns. -/
theorem pollTimes_eq_after (n : Nat) (m : Coordinator) :
    ∃ k, k ≤ n ∧ pollTimes n m = m.after (List.replicate k .turn) := by
  induction n generalizing m with
  | zero => exact ⟨0, Nat.le_refl 0, rfl⟩
  | succ n ih =>
    rw [pollTimes]
    split
    · exact ⟨0, Nat.zero_le _, rfl⟩
    · obtain ⟨k, hk, he⟩ := ih m.pollNext
      exact ⟨k + 1, Nat.succ_le_succ hk, he⟩

/-- **Settling is a history of turns.** -/
theorem settle_eq_after (m : Coordinator) : ∃ k, m.settle = m.after (List.replicate k .turn) := by
  obtain ⟨k, -, he⟩ := pollTimes_eq_after m.turns m
  exact ⟨k, he⟩

theorem Reachable.after {m : Coordinator} (h : m.Reachable) (history : List Event) :
    (m.after history).Reachable := by
  obtain ⟨config, past, rfl⟩ := h
  exact ⟨config, past ++ history, (after_append _ past history).symm⟩

end Coordinator

end CopyPaste
