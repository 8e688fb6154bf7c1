import KernelDrivers.Lib.System

/-!
# Runs that can be brought to an end

A system is given some of its actions, those by which what is under way goes
on, and a measure of what is still to be done.  If in every reachable state
that is not at rest one of these actions can be taken and lowers the measure,
then every run can be continued by them to a state at rest.  Nothing is said
about a scheduler: the rule shows that no run has come into a dead end.

If every step lowers the measure, the runs are bounded by it.
-/

namespace KernelDrivers
namespace Lib
namespace System

variable {σ α ε : Type*} {M : System σ α ε}

/-- One of the actions can be taken, and lowers the measure. -/
def Advances (M : System σ α ε) (goesOn : α → Prop) (work : σ → Nat) (s : σ) :
    Prop :=
  ∃ a s' ev, goesOn a ∧ M.step s a = some (s', ev) ∧ work s' < work s

/-- Some of the actions lead from a run to a state of a kind, in no more steps
than a bound. -/
def CanEnd (M : System σ α ε) (goesOn : α → Prop) (Rest : σ → Prop)
    (bound : Nat) (actions : List α) : Prop :=
  ∃ more s tr, (∀ a ∈ more, goesOn a) ∧ more.length ≤ bound ∧
    M.run (actions ++ more) = some (s, tr) ∧ Rest s

variable {goesOn : α → Prop} {work : σ → Nat} {Rest : σ → Prop}

/-- Where something can be done as long as something is left to do, every run
can be brought to rest. -/
theorem canEnd_of_advances
    (hadvances : ∀ s, M.Reachable s → Rest s ∨ M.Advances goesOn work s)
    {actions : List α} {s : σ} {tr : List ε}
    (hrun : M.run actions = some (s, tr)) :
    M.CanEnd goesOn Rest (work s) actions := by
  induction hw : work s using Nat.strongRecOn generalizing actions s tr with
  | ind w ih =>
      rcases hadvances s ⟨actions, tr, hrun⟩ with hrest | hadvance
      · exact ⟨[], s, tr, by simp, Nat.zero_le _, by simpa using hrun, hrest⟩
      · obtain ⟨a, s', ev, ha, hstep, hless⟩ := hadvance
        have hrun' := M.run_concat_of_step hrun hstep
        obtain ⟨more, s'', tr', hmore, hlength, hend, hrest⟩ :=
          ih (work s') (hw ▸ hless) hrun' rfl
        refine ⟨a :: more, s'', tr', ?_, ?_, ?_, hrest⟩
        · simpa using ⟨ha, hmore⟩
        · rw [List.length_cons]
          omega
        · simpa using hend

/-- Where every step lowers the measure, so many steps are left. -/
theorem length_add_work_le
    (hless : ∀ s a s' ev, M.step s a = some (s', ev) → work s' < work s)
    {actions : List α} {s : σ} {tr : List ε}
    (hrun : M.run actions = some (s, tr)) :
    actions.length + work s ≤ work M.init := by
  refine M.run_induction
    (P := fun actions s _ => actions.length + work s ≤ work M.init) ?_ ?_ hrun
  · simp
  · intro actions s tr a s' ev _ ih hstep
    have hlower := hless s a s' ev hstep
    rw [List.length_append, List.length_singleton]
    omega

end System
end Lib
end KernelDrivers
