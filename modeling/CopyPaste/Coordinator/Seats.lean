/-!
# Seats

Pastes that wait for the same copy sit in a row of seats and are called in the order of the
seats. Who comes takes the seat left last, if any is empty, and a new one at the end otherwise.
-/

namespace CopyPaste

/-- A row of seats. -/
structure Seats where
  /-- Who sits where. -/
  row : List (Option Nat) := []
  /-- The empty seats, the one left last in front. -/
  empty : List Nat := []
deriving DecidableEq, Repr

namespace Seats

def sit (s : Seats) (who : Nat) : Seats :=
  match s.empty with
  | [] => { s with row := s.row ++ [some who] }
  -- The seat left last is taken first.
  | i :: empty => { row := s.row.set i (some who), empty }

def leave (s : Seats) (who : Nat) : Seats :=
  match s.row.findIdx? (· == some who) with
  | some i => { row := s.row.set i none, empty := i :: s.empty }
  | none => s

/-- Who sits, in the order of the seats. -/
def occupants (s : Seats) : List Nat := s.row.filterMap id

end Seats

end CopyPaste
