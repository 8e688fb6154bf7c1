import KernelDrivers.Lib.Holdings
import KernelDrivers.Lib.System

/-!
# Modules that are loaded and unloaded

A module's init routine runs with the outcomes of the calls that it makes; it
leaves the module's variables, returns a value (or never returns) and says what
it acquired, used and released on the way.  The module is loaded when the
value is 0.  Its exit routine sees the variables only.  Every load starts with
fresh variables, but what an earlier load did not give back is still held.

`always_ledger_iff` reduces a ledger over all sequences of loads and unloads
to one load, and to one load with the unload after it.
-/

namespace KernelDrivers
namespace Lib

/-- A module with variables `V`, outcomes `C` of its calls and resources
`R`. -/
structure Loadable (V C R : Type*) where
  init : C → V × Option Int × List (Entry R)
  exit : V → List (Entry R)

namespace Loadable

variable {V C R : Type*}

inductive Status (V : Type*) where
  | unloaded
  | loaded (vars : V)
  /-- The init routine has not returned and will not. -/
  | stuck

inductive Event (C R : Type*) where
  | init (calls : C) (rv : Option Int) (entries : List (Entry R))
  | exit (entries : List (Entry R))

inductive Act (C : Type*) where
  | load (calls : C)
  | unload

/-- The init routine returned something else than 0. -/
def Failed (rv : Option Int) : Prop :=
  ∃ n ∈ rv, n ≠ 0

instance (rv : Option Int) : Decidable (Failed rv) :=
  inferInstanceAs (Decidable (∃ n ∈ rv, n ≠ 0))

/-- After an init routine that left `vars` and returned `rv`. -/
def after (vars : V) : Option Int → Status V
  | none => .stuck
  | some rv => if rv = 0 then .loaded vars else .unloaded

def step (M : Loadable V C R) :
    Status V → Act C → Option (Status V × List (Event C R))
  | .unloaded, .load calls =>
      let result := M.init calls
      some (after result.1 result.2.1, [.init calls result.2.1 result.2.2])
  | .loaded vars, .unload => some (.unloaded, [.exit (M.exit vars)])
  | _, _ => none

def system (M : Loadable V C R) : System (Status V) (Act C) (Event C R) where
  init := .unloaded
  step := M.step

def Event.entries : Event C R → List (Entry R)
  | .init _ _ entries => entries
  | .exit entries => entries

variable [DecidableEq R]

/-- What is held after a run. -/
def holding (tr : List (Event C R)) : List R :=
  Holdings.settle [] (tr.flatMap Event.entries)

/-- The exit routine releases and uses only what is held. -/
def ExitCovered (before : List (Event C R)) (e : Event C R) : Prop :=
  ∀ entries, e = .exit entries → Holdings.Covered (holding before) entries

/-- The ledger of a module: every load is as demanded, every unload releases
and uses only what is held, and nothing is held while the module is not
loaded. -/
structure Ledger (demand : C → Option Int → List (Entry R) → Prop)
    (s : Status V) (tr : List (Event C R)) : Prop where
  loads : ∀ calls rv entries, .init calls rv entries ∈ tr →
    demand calls rv entries
  unloads : History ExitCovered tr
  unloaded : s = .unloaded → holding tr = []

/-- The loads that keep the ledger, and the states of the module in which it
can be unloaded. -/
def Proper (okLoad : C → Prop) (okUnload : V → Prop) :
    Status V → Act C → Prop
  | _, .load calls => okLoad calls
  | .loaded vars, .unload => okUnload vars
  | _, .unload => True

variable {M : Loadable V C R} {demand : C → Option Int → List (Entry R) → Prop}
  {okLoad : C → Prop} {okUnload : V → Prop} {s s' : Status V} {a : Act C}
  {tr ev : List (Event C R)}

/-- A loaded module holds what its load left. -/
def FromInit (M : Loadable V C R) (okLoad : C → Prop) (s : Status V)
    (tr : List (Event C R)) : Prop :=
  ∀ vars, s = .loaded vars → ∃ calls, okLoad calls ∧
    (M.init calls).1 = vars ∧ (M.init calls).2.1 = some 0 ∧
    holding tr = Holdings.settle [] (M.init calls).2.2

theorem holding_concat (tr : List (Event C R)) (e : Event C R) :
    holding (tr ++ [e]) = Holdings.settle (holding tr) e.entries := by
  unfold holding
  rw [List.flatMap_append, Holdings.settle_append]
  simp

theorem after_eq_unloaded {vars : V} {rv : Option Int} :
    after vars rv = .unloaded ↔ Failed rv := by
  cases rv with
  | none => simp [after, Failed]
  | some n => by_cases hn : n = 0 <;> simp [after, Failed, hn]

theorem after_eq_loaded {vars vars' : V} {rv : Option Int} :
    after vars rv = .loaded vars' ↔ rv = some 0 ∧ vars = vars' := by
  cases rv with
  | none => simp [after]
  | some n => by_cases hn : n = 0 <;> simp [after, hn]

/-- A load, from a state in which nothing is held. -/
theorem ledger_load_iff (h : Ledger demand (.unloaded : Status V) tr)
    (calls : C) :
    Ledger demand (after (M.init calls).1 (M.init calls).2.1)
        (tr ++ [.init calls (M.init calls).2.1 (M.init calls).2.2]) ↔
      demand calls (M.init calls).2.1 (M.init calls).2.2 ∧
        (Failed (M.init calls).2.1 →
          Holdings.settle [] (M.init calls).2.2 = []) := by
  have hnothing := h.unloaded rfl
  constructor
  · intro hafter
    refine ⟨hafter.loads _ _ _ (by simp), fun hrv => ?_⟩
    have hheld := hafter.unloaded (after_eq_unloaded.mpr hrv)
    rwa [holding_concat, hnothing] at hheld
  · rintro ⟨hdemand, hfailed⟩
    refine ⟨fun calls' rv entries hmem => ?_, ?_, fun hunloaded => ?_⟩
    · rcases List.mem_append.mp hmem with hmem | hmem
      · exact h.loads calls' rv entries hmem
      · cases List.mem_singleton.mp hmem
        exact hdemand
    · rw [history_concat]
      refine ⟨h.unloads, fun entries heq => ?_⟩
      cases heq
    · rw [holding_concat, hnothing]
      exact hfailed (after_eq_unloaded.mp hunloaded)

/-- An unload of a module that holds what its load left. -/
theorem ledger_unload_iff {vars : V} {held : List R}
    (h : Ledger demand (.loaded vars) tr) (hheld : holding tr = held) :
    Ledger demand (.unloaded : Status V) (tr ++ [.exit (M.exit vars)]) ↔
      Holdings.Covered held (M.exit vars) ∧
        Holdings.settle held (M.exit vars) = [] := by
  subst hheld
  constructor
  · intro hafter
    have hcovered := (history_concat.mp hafter.unloads).2 _ rfl
    have hnothing := hafter.unloaded rfl
    rw [holding_concat] at hnothing
    exact ⟨hcovered, hnothing⟩
  · rintro ⟨hcovered, hnothing⟩
    refine ⟨fun calls rv entries hmem => ?_, ?_, fun _ => ?_⟩
    · refine h.loads calls rv entries ?_
      rcases List.mem_append.mp hmem with hmem | hmem
      · exact hmem
      · cases List.mem_singleton.mp hmem
    · rw [history_concat]
      refine ⟨h.unloads, fun entries heq => ?_⟩
      cases heq
      exact hcovered
    · rw [holding_concat]
      exact hnothing

/-- The exact condition for a ledger over every sequence of loads and unloads,
from one load and from one load with the unload after it. -/
theorem always_ledger_iff
    (hload : ∀ calls, (demand calls (M.init calls).2.1 (M.init calls).2.2 ∧
      (Failed (M.init calls).2.1 →
        Holdings.settle [] (M.init calls).2.2 = [])) ↔ okLoad calls)
    (hunload : ∀ calls, okLoad calls → (M.init calls).2.1 = some 0 →
      ((Holdings.Covered (Holdings.settle [] (M.init calls).2.2)
          (M.exit (M.init calls).1) ∧
        Holdings.settle (Holdings.settle [] (M.init calls).2.2)
          (M.exit (M.init calls).1) = []) ↔ okUnload (M.init calls).1))
    (acts : List (Act C)) :
    M.system.Always (Ledger demand) acts ↔
      M.system.Meets (Proper okLoad okUnload) acts := by
  refine System.always_iff_meets_of_invariant (FromInit M okLoad)
    ⟨by simp, history_nil, fun _ => rfl⟩ (fun _ hinit => by cases hinit)
    ?_ ?_ acts
  · intro s tr a s' ev _ hlaw _ hstep hafter vars hloaded
    cases s with
    | unloaded =>
        cases a with
        | load calls =>
            cases hstep
            obtain ⟨hrv, hvars⟩ := after_eq_loaded.mp hloaded
            have hok := (hload calls).mp ((ledger_load_iff hlaw calls).mp hafter)
            refine ⟨calls, hok, hvars, hrv, ?_⟩
            rw [holding_concat, hlaw.unloaded rfl]
            rfl
        | unload => cases hstep
    | loaded vars' =>
        cases a with
        | load calls => cases hstep
        | unload => cases hstep; cases hloaded
    | stuck => cases a <;> cases hstep
  · intro s tr a s' ev _ hlaw hinv hstep
    cases s with
    | unloaded =>
        cases a with
        | load calls =>
            cases hstep
            exact (ledger_load_iff hlaw calls).trans (hload calls)
        | unload => cases hstep
    | loaded vars =>
        cases a with
        | load calls => cases hstep
        | unload =>
            cases hstep
            obtain ⟨calls, hok, rfl, hrv, hheld⟩ := hinv vars rfl
            exact (ledger_unload_iff hlaw hheld).trans (hunload calls hok hrv)
    | stuck => cases a <;> cases hstep

/-- A ledger over one load and the unload after it. -/
theorem exit_covered_of_always {calls : C}
    (h : M.system.Always (Ledger demand) [.load calls, .unload])
    (hloaded : (M.init calls).2.1 = some 0) :
    Holdings.Covered (Holdings.settle [] (M.init calls).2.2)
      (M.exit (M.init calls).1) := by
  have hload : M.system.run [.load calls] =
      some (.loaded (M.init calls).1,
        [.init calls (M.init calls).2.1 (M.init calls).2.2]) := by
    simp [System.run, System.advance, system, step, after, hloaded]
  have hrun := M.system.run_concat_of_step hload
    (show M.system.step _ .unload = some (.unloaded, _) from rfl)
  have hlaw := h _ _ _ List.prefix_rfl hrun
  simpa [holding, Event.entries] using
    (history_concat.mp hlaw.unloads).2 _ rfl

/-- Where the loads, too, release and use only what is held, the whole run
does. -/
theorem covered_of_always {acts : List (Act C)}
    (h : M.system.Always
      (Ledger fun _ _ entries => Holdings.Covered [] entries) acts)
    (hrun : M.system.run acts = some (s, tr)) :
    Holdings.Covered [] (tr.flatMap Event.entries) := by
  refine M.system.run_induction
    (P := fun before _ tr => before <+: acts →
      Holdings.Covered [] (tr.flatMap Event.entries))
    (fun _ => trivial) ?_ hrun List.prefix_rfl
  intro before s tr a s' ev hrun ih hstep hpre
  have hbefore := (List.prefix_append before [a]).trans hpre
  have hlaw := h before s tr hbefore hrun
  have hafter := h _ s' _ hpre (M.system.run_concat_of_step hrun hstep)
  rw [List.flatMap_append, Holdings.covered_append]
  refine ⟨ih hbefore, ?_⟩
  change Holdings.Covered (holding tr) _
  cases s with
  | unloaded =>
      cases a with
      | load calls =>
          cases hstep
          rw [hlaw.unloaded rfl, List.flatMap_singleton]
          exact hafter.loads calls (M.init calls).2.1 (M.init calls).2.2 (by simp)
      | unload => cases hstep
  | loaded vars =>
      cases a with
      | load calls => cases hstep
      | unload =>
          cases hstep
          rw [List.flatMap_singleton]
          exact (history_concat.mp hafter.unloads).2 _ rfl
  | stuck => cases a <;> cases hstep

/-- Then, while the module is not loaded, every resource was released exactly
as often as it was acquired. -/
theorem released_eq_acquired {acts : List (Act C)}
    (h : M.system.Always
      (Ledger fun _ _ entries => Holdings.Covered [] entries) acts)
    (hrun : M.system.run acts = some (.unloaded, tr)) (r : R) :
    (tr.flatMap Event.entries).count (.released r) =
      (tr.flatMap Event.entries).count (.acquired r) := by
  have hnothing := (h acts _ tr List.prefix_rfl hrun).unloaded rfl
  exact (covered_of_always h hrun).released_eq_acquired hnothing r

end Loadable
end Lib
end KernelDrivers
