import Mathlib.Data.List.Basic
import Mathlib.Data.List.Count
import Mathlib.Data.List.Perm.Basic

/-!
# What a component holds

A list of entries says what was acquired, used and released, in order.  What
is held after it is computed from what was held before; a resource that is
acquired twice is held twice.  The entries are covered when everything that
they use or release is held at that moment.
-/

namespace KernelDrivers
namespace Lib

inductive Entry (R : Type*) where
  | acquired (r : R)
  | used (r : R)
  | released (r : R)
  deriving DecidableEq

namespace Holdings

variable {R : Type*} [DecidableEq R]

/-- What is held after the entries. -/
def settle : List R → List (Entry R) → List R
  | held, [] => held
  | held, .acquired r :: entries => settle (r :: held) entries
  | held, .used _ :: entries => settle held entries
  | held, .released r :: entries => settle (held.erase r) entries

/-- What is used or released is held. -/
def Covered : List R → List (Entry R) → Prop
  | _, [] => True
  | held, .acquired r :: entries => Covered (r :: held) entries
  | held, .used r :: entries => r ∈ held ∧ Covered held entries
  | held, .released r :: entries => r ∈ held ∧ Covered (held.erase r) entries

instance decidableCovered :
    (held : List R) → (entries : List (Entry R)) →
      Decidable (Covered held entries)
  | _, [] => .isTrue trivial
  | held, .acquired r :: entries => decidableCovered (r :: held) entries
  | held, .used _ :: entries =>
      @instDecidableAnd _ _ _ (decidableCovered held entries)
  | held, .released r :: entries =>
      @instDecidableAnd _ _ _ (decidableCovered (held.erase r) entries)

variable {held : List R} {before after : List (Entry R)}

@[simp] theorem settle_nil : settle held [] = held := rfl

@[simp] theorem covered_nil : Covered held [] := trivial

theorem settle_append :
    settle held (before ++ after) = settle (settle held before) after := by
  induction before generalizing held with
  | nil => rfl
  | cons entry before ih => cases entry <;> exact ih

theorem covered_append : Covered held (before ++ after) ↔
    Covered held before ∧ Covered (settle held before) after := by
  induction before generalizing held with
  | nil => exact (and_iff_right trivial).symm
  | cons entry before ih =>
      cases entry with
      | acquired r => exact ih
      | used r =>
          show r ∈ held ∧ Covered held (before ++ after) ↔ _
          rw [ih, ← and_assoc]
          rfl
      | released r =>
          show r ∈ held ∧ Covered (held.erase r) (before ++ after) ↔ _
          rw [ih, ← and_assoc]
          rfl

/-- Entries that are covered release no resource more often than it was
acquired: the balance is what is held. -/
theorem Covered.balance (h : Covered held before) (r : R) :
    held.count r + before.count (.acquired r) =
      before.count (.released r) + (settle held before).count r := by
  induction before generalizing held with
  | nil => simp
  | cons entry before ih =>
      cases entry with
      | acquired q =>
          have hrest := ih h
          by_cases hqr : q = r
          · subst hqr
            rw [List.count_cons_self] at hrest
            simp [settle]
            omega
          · rw [List.count_cons_of_ne hqr] at hrest
            simpa [settle, List.count_cons, hqr] using hrest
      | used q =>
          have hrest := ih h.2
          simpa [List.count_cons, settle] using hrest
      | released q =>
          have hrest := ih h.2
          by_cases hqr : q = r
          · subst hqr
            have hpos : 0 < held.count q := List.count_pos_iff.mpr h.1
            rw [List.count_erase_self] at hrest
            simp [settle]
            omega
          · rw [List.count_erase_of_ne (Ne.symm hqr)] at hrest
            simpa [settle, List.count_cons, hqr] using hrest

/-- Entries that are covered and leave nothing release everything exactly as
often as it was acquired. -/
theorem Covered.released_eq_acquired (h : Covered [] before)
    (hnothing : settle [] before = []) (r : R) :
    before.count (.released r) = before.count (.acquired r) := by
  have hbalance := h.balance r
  rw [hnothing] at hbalance
  simpa using hbalance.symm

/-- Acquisitions only. -/
theorem covered_acquired (rs : List R) : Covered held (rs.map .acquired) := by
  induction rs generalizing held with
  | nil => trivial
  | cons r rs ih => exact ih

theorem settle_acquired (rs : List R) :
    (settle held (rs.map .acquired)).Perm (rs ++ held) := by
  induction rs generalizing held with
  | nil => exact List.Perm.refl _
  | cons r rs ih => exact (@ih (r :: held)).trans List.perm_middle

/-- A list of releases is covered and leaves nothing exactly when it is what
is held. -/
theorem released_all_iff (rs : List R) :
    Covered held (rs.map .released) ∧ settle held (rs.map .released) = [] ↔
      held.Perm rs := by
  induction rs generalizing held with
  | nil => exact (and_iff_right trivial).trans List.perm_nil.symm
  | cons r rs ih =>
      rw [List.perm_comm, List.cons_perm_iff_perm_erase, List.perm_comm, ← ih,
        ← and_assoc]
      rfl

end Holdings
end Lib
end KernelDrivers
