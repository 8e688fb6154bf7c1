import KernelDrivers.Lib.System
import Mathlib.Algebra.Ring.Nat

/-!
# Ledgers

A ledger counts a resource along a run: the events that bring one in, the
events that give one back, and the holders that a state has of it.  It is
balanced when everything that was brought in has been given back or still has
a holder.
-/

namespace KernelDrivers
namespace Lib

/-- The two sides of an account and what a state still holds of it. -/
structure Ledger (σ ε : Type*) where
  credit : ε → Nat
  debit : ε → Nat
  balance : σ → Nat

namespace Ledger

variable {σ α ε : Type*} (L : Ledger σ ε)

def credits (tr : List ε) : Nat := (tr.map L.credit).sum

def debits (tr : List ε) : Nat := (tr.map L.debit).sum

/-- What was brought in was given back or is still held. -/
def Balanced (s : σ) (tr : List ε) : Prop :=
  L.credits tr = L.debits tr + L.balance s

/-- One step keeps the account balanced. -/
def StepBalances (s : σ) (ev : List ε) (s' : σ) : Prop :=
  L.balance s + L.credits ev = L.debits ev + L.balance s'

@[simp] theorem credits_nil : L.credits [] = 0 := rfl

@[simp] theorem debits_nil : L.debits [] = 0 := rfl

@[simp] theorem credits_cons (e : ε) (tr : List ε) :
    L.credits (e :: tr) = L.credit e + L.credits tr := by
  simp [credits]

@[simp] theorem debits_cons (e : ε) (tr : List ε) :
    L.debits (e :: tr) = L.debit e + L.debits tr := by
  simp [debits]

@[simp] theorem credits_append (tr ev : List ε) :
    L.credits (tr ++ ev) = L.credits tr + L.credits ev := by
  simp [credits]

@[simp] theorem debits_append (tr ev : List ε) :
    L.debits (tr ++ ev) = L.debits tr + L.debits ev := by
  simp [debits]

/-- A ledger whose entries are single events counts them. -/
theorem sum_toNat (p : ε → Bool) (tr : List ε) :
    (tr.map fun e => (p e).toNat).sum = tr.countP p := by
  induction tr with
  | nil => rfl
  | cons e tr ih =>
      rw [List.map_cons, List.sum_cons, ih, List.countP_cons]
      cases p e <;> simp [Nat.add_comm]

theorem Balanced.append {s s' : σ} {tr ev : List ε} (h : L.Balanced s tr)
    (hstep : L.StepBalances s ev s') : L.Balanced s' (tr ++ ev) := by
  unfold Balanced at h ⊢
  unfold StepBalances at hstep
  rw [credits_append, debits_append]
  omega

/-- A run of steps that keep the account balanced ends with a balanced
account. -/
theorem balanced_of_run (M : System σ α ε) (hinit : L.balance M.init = 0)
    (hstep : ∀ s a s' ev, M.Reachable s → M.step s a = some (s', ev) →
      L.StepBalances s ev s') {actions : List α} {s : σ} {tr : List ε}
    (hrun : M.run actions = some (s, tr)) : L.Balanced s tr := by
  refine M.run_induction (P := fun _ s tr => L.Balanced s tr) ?_ ?_ hrun
  · simp [Balanced, hinit]
  · intro actions s tr a s' ev hrun ih hlast
    exact ih.append L (hstep s a s' ev ⟨actions, tr, hrun⟩ hlast)

end Ledger
end Lib
end KernelDrivers
