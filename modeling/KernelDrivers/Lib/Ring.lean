import Mathlib.Data.Nat.ModEq
import Mathlib.Logic.Function.Basic
import Mathlib.Data.List.Basic

/-!
# Circular windows

A ring of `N` cells keeps a queue in the cells from a start index on, taken
modulo `N`.  `window` reads the queue off; the three lemmas that follow say
what a store behind the window, the removal of its first cell and a store
outside it do to it.  A window never holds more than `N` cells without
repeating one, so the free cell behind it exists only below that length.
-/

namespace KernelDrivers
namespace Lib
namespace Ring

variable {α : Type*}

/-- The `k` cells from index `start` on, in order, around a ring of `N`
cells. -/
def window (cell : Nat → α) (N start k : Nat) : List α :=
  (List.range k).map fun i => cell ((start + i) % N)

@[simp] theorem window_zero (cell : Nat → α) (N start : Nat) :
    window cell N start 0 = [] := rfl

@[simp] theorem length_window (cell : Nat → α) (N start k : Nat) :
    (window cell N start k).length = k := by
  simp [window]

theorem window_succ (cell : Nat → α) (N start k : Nat) :
    window cell N start (k + 1) =
      window cell N start k ++ [cell ((start + k) % N)] := by
  simp [window, List.range_succ]

/-- The first cell of a nonempty window, and the window behind it. -/
theorem window_eq_cons (cell : Nat → α) (N start k : Nat) :
    window cell N start (k + 1) =
      cell (start % N) :: window cell N (start + 1) k := by
  simp only [window, List.range_succ_eq_map, List.map_cons, List.map_map,
    Nat.add_zero]
  congr 2
  funext i
  simp only [Function.comp_apply, Nat.succ_eq_add_one]
  congr 2
  omega

/-- The start of a window counts only modulo the ring size. -/
theorem window_mod_start (cell : Nat → α) (N start k : Nat) :
    window cell N (start % N) k = window cell N start k := by
  simp [window]

/-- Equal cells make equal windows. -/
theorem window_congr {cell cell' : Nat → α} {N start k : Nat}
    (h : ∀ i < k, cell ((start + i) % N) = cell' ((start + i) % N)) :
    window cell N start k = window cell' N start k := by
  apply List.map_congr_left
  intro i hi
  exact h i (List.mem_range.mp hi)

/-- Two offsets of the same window below the ring size denote two cells. -/
theorem index_ne {N start i j : Nat} (hij : i < j) (hj : j < N) :
    (start + i) % N ≠ (start + j) % N := by
  intro h
  have hmod : i ≡ j [MOD N] := Nat.ModEq.add_left_cancel' start h
  have hi : i % N = i := Nat.mod_eq_of_lt (by omega)
  have hj' : j % N = j := Nat.mod_eq_of_lt hj
  rw [Nat.ModEq, hi, hj'] at hmod
  omega

/-- A store into the cell behind a window with room leaves the window as it
was. -/
theorem window_update_behind (cell : Nat → α) {N start k : Nat} (hk : k < N)
    (a : α) :
    window (Function.update cell ((start + k) % N) a) N start k =
      window cell N start k := by
  apply window_congr
  intro i hi
  exact Function.update_of_ne (index_ne hi hk) a cell

/-- Storing behind a window with room and extending the window over the new
cell appends the stored value. -/
theorem window_push (cell : Nat → α) {N start k : Nat} (hk : k < N) (a : α) :
    window (Function.update cell ((start + k) % N) a) N start (k + 1) =
      window cell N start k ++ [a] := by
  rw [window_succ, window_update_behind cell hk, Function.update_self]

end Ring
end Lib
end KernelDrivers
