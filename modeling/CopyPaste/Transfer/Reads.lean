/-!
# Deferred values

A value that is read when first needed. Every copy of it carries the same identity, and the
ledger of reads remembers which identities have been asked for and which have been resolved, so
however many copies are resolved, and in whatever order, the platform is asked at most once.

* `Reads.defer` — a new value with an identity of its own;
* `Reads.ask` — what the ledger says once somebody wants the value;
* `Reads.resolve` — what the ledger says once the value is known;
* **`Reads.resolve_resolve`** — asking again changes nothing.
-/

namespace CopyPaste

/-- A value read when first needed; its copies share `id`. -/
structure Deferred (α : Type) where
  id : Nat
  value : α
  /-- Whether the first resolution asks the platform. -/
  fromPlatform : Bool
  /-- The gate that the value is held back behind. -/
  gate : Option String := none
deriving Repr

/-- The ledger of reads. -/
structure Reads where
  /-- The identity of the next deferred value. -/
  next : Nat := 0
  /-- The values that somebody asked for. -/
  asked : List Nat := []
  /-- The values that are known by now. -/
  resolved : List Nat := []
  /-- How many times the platform has been asked. -/
  count : Nat := 0
deriving Repr

namespace Reads

/-- A value with a new identity, not read yet. -/
def defer (r : Reads) (value : α) (fromPlatform : Bool) (gate : Option String := none) :
    Deferred α × Reads :=
  (⟨r.next, value, fromPlatform, gate⟩, { r with next := r.next + 1 })

/-- Whether the value is known without reading. -/
def isResolved (r : Reads) (d : Deferred α) : Bool := r.resolved.contains d.id

/-- The ledger once somebody has asked for the value. -/
def ask (r : Reads) (d : Deferred α) : Reads :=
  if r.asked.contains d.id then r
  else
    { r with
      asked := d.id :: r.asked
      count := if d.fromPlatform then r.count + 1 else r.count }

/-- The ledger once somebody has asked for the value and it is known. -/
def resolve (r : Reads) (d : Deferred α) : Reads :=
  if r.isResolved d then r else { r.ask d with resolved := d.id :: r.resolved }

@[simp] theorem isResolved_resolve (r : Reads) (d : Deferred α) :
    (r.resolve d).isResolved d = true := by
  unfold resolve
  split
  next h => exact h
  · simp [isResolved]

theorem resolve_of_isResolved {r : Reads} {d : Deferred α} (h : r.isResolved d = true) :
    r.resolve d = r := by
  rw [resolve, if_pos h]

/-- **Asking again changes nothing.** -/
theorem resolve_resolve (r : Reads) (d : Deferred α) : (r.resolve d).resolve d = r.resolve d :=
  resolve_of_isResolved (isResolved_resolve r d)

end Reads

end CopyPaste
