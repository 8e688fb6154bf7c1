import Mathlib.Data.List.Basic

/-!
# Stores and their logs

A store is a function from cells to values.  Its log says what was done to it,
in order; `lastAt` looks up the last access that touched a cell.  A store holds
its log if each cell has the value of its last access, or its first value if
there was none.
-/

namespace KernelDrivers
namespace Lib

variable {β : Type*}

/-- What is done to a store. -/
inductive Access (β : Type*) where
  | write (off : Nat) (data : List β)
  | fill (b : β)
  deriving DecidableEq

/-- What an access puts into a cell, if it touches it. -/
def Access.put (a : Access β) (i : Nat) : Option β :=
  match a with
  | .write off data => if off ≤ i then data[i - off]? else none
  | .fill b => some b

/-- What the last access that touched a cell put into it. -/
def lastAt (log : List (Access β)) (i : Nat) : Option β :=
  log.foldl (fun last a => (a.put i).or last) none

/-- A cell after a log, from its first value on. -/
def cellAfter (first : Nat → β) (log : List (Access β)) (i : Nat) : β :=
  (lastAt log i).getD (first i)

/-- The first `size` cells hold what the log says. -/
def Holds (size : Nat) (first m : Nat → β) (log : List (Access β)) : Prop :=
  ∀ i < size, m i = cellAfter first log i

/-- What a read of `n` cells gives after a log. -/
def readAfter (first : Nat → β) (log : List (Access β)) (off n : Nat) : List β :=
  (List.range n).map fun i => cellAfter first log (off + i)

variable {size : Nat} {first m m' : Nat → β} {log : List (Access β)}

theorem lastAt_concat (log : List (Access β)) (a : Access β) (i : Nat) :
    lastAt (log ++ [a]) i = (a.put i).or (lastAt log i) := by
  simp [lastAt]

theorem cellAfter_concat (first : Nat → β) (log : List (Access β))
    (a : Access β) (i : Nat) :
    cellAfter first (log ++ [a]) i =
      (a.put i).getD (cellAfter first log i) := by
  unfold cellAfter
  rw [lastAt_concat]
  cases a.put i <;> rfl

theorem holds_nil (size : Nat) (m : Nat → β) : Holds size m m [] :=
  fun _ _ => rfl

/-- An access does to each cell what the log says of it. -/
theorem Holds.access (h : Holds size first m log) {a : Access β}
    (hm : ∀ i < size, m' i = (a.put i).getD (m i)) :
    Holds size first m' (log ++ [a]) := by
  intro i hi
  rw [hm i hi, cellAfter_concat, h i hi]

theorem Holds.read (h : Holds size first m log) {off n : Nat}
    (hin : off + n ≤ size) :
    ((List.range n).map fun i => m (off + i)) = readAfter first log off n := by
  apply List.map_congr_left
  intro i hi
  exact h (off + i) (by have := List.mem_range.mp hi; omega)

end Lib
end KernelDrivers
