import KernelDrivers.Lib.System

/-!
# Conservation along a run

A component takes items in on one side, gives items out on the other and holds
a queue of items in between.  It loses, repeats and reorders nothing exactly
when, at every point of a run, what went in is what came out followed by what
is still held.  `put` and `take` read the two sides off the events and `held`
reads the queue off the state.
-/

namespace KernelDrivers
namespace Lib

/-- The two sides of a component and the queue between them. -/
structure Channel (σ ε β : Type*) where
  put : ε → List β
  take : ε → List β
  held : σ → List β

namespace Channel

variable {σ α ε β : Type*} (C : Channel σ ε β)

/-- Everything put in by a list of events. -/
def puts (tr : List ε) : List β := tr.flatMap C.put

/-- Everything taken out by a list of events. -/
def takes (tr : List ε) : List β := tr.flatMap C.take

/-- What went in is what came out followed by what is held. -/
def Conserved (s : σ) (tr : List ε) : Prop :=
  C.puts tr = C.takes tr ++ C.held s

/-- One step conserves the items. -/
def StepConserves (s : σ) (ev : List ε) (s' : σ) : Prop :=
  C.held s ++ C.puts ev = C.takes ev ++ C.held s'

@[simp] theorem puts_nil : C.puts [] = [] := rfl

@[simp] theorem takes_nil : C.takes [] = [] := rfl

@[simp] theorem puts_append (tr ev : List ε) :
    C.puts (tr ++ ev) = C.puts tr ++ C.puts ev :=
  List.flatMap_append

@[simp] theorem takes_append (tr ev : List ε) :
    C.takes (tr ++ ev) = C.takes tr ++ C.takes ev :=
  List.flatMap_append

@[simp] theorem puts_singleton (e : ε) : C.puts [e] = C.put e := by
  simp [puts]

@[simp] theorem takes_singleton (e : ε) : C.takes [e] = C.take e := by
  simp [takes]

/-- From a point where the items are conserved, the next step conserves them
on the whole exactly when it does so by itself. -/
theorem conserved_append_iff {s s' : σ} {tr ev : List ε}
    (h : C.Conserved s tr) :
    C.Conserved s' (tr ++ ev) ↔ C.StepConserves s ev s' := by
  unfold Conserved at h
  unfold Conserved StepConserves
  rw [puts_append, takes_append, h, List.append_assoc, List.append_assoc,
    List.append_cancel_left_eq]

/-- Conservation at every point of a run, from its conservation by every step
that meets a condition. -/
theorem always_conserved {M : System σ α ε} {ok : σ → α → Prop}
    {actions : List α} (hmeets : M.Meets ok actions)
    (hinit : C.held M.init = [])
    (hstep : ∀ s a s' ev, M.Reachable s → M.step s a = some (s', ev) →
      ok s a → C.StepConserves s ev s') : M.Always C.Conserved actions := by
  refine hmeets.always ?_ ?_
  · simp [Conserved, hinit]
  · intro s tr a s' ev hreach hlaw hlast hok
    exact (C.conserved_append_iff hlaw).mpr (hstep s a s' ev hreach hlast hok)

end Channel
end Lib
end KernelDrivers
