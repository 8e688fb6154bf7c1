import Mathlib.Data.List.Induction

/-!
# Step systems, runs and invariants

A system takes one action at a time and shows a list of events.  An action
that is not enabled in a state yields `none`, so a run is a list of actions
all of which were enabled.  The file supplies the two rules that every safety
proof over such a system uses:

* `run_induction`, and its special case `reachable_induction`, derive a fact
  about every run from the empty run and one more step;
* `always_iff_meets` derives an exact condition on the steps of a run from
  what one step does to a law that held so far.

`watch` puts an observer beside a system, for laws that depend on more of a
run than its last state and its events.
-/

namespace KernelDrivers
namespace Lib

/-- A state machine with an initial state and a partial, deterministic step.
All nondeterminism is in the choice of the next action. -/
structure System (σ α ε : Type*) where
  init : σ
  step : σ → α → Option (σ × List ε)

namespace System

variable {σ α ε : Type*} (M : System σ α ε)

/-- Take one more action at the end of a run that is at a state with the
events shown so far. -/
def advance (before : σ × List ε) (a : α) : Option (σ × List ε) :=
  (M.step before.1 a).map fun after => (after.1, before.2 ++ after.2)

/-- The state after a list of actions, with all events shown on the way. -/
def run (actions : List α) : Option (σ × List ε) :=
  actions.foldlM M.advance (M.init, [])

@[simp] theorem run_nil : M.run [] = some (M.init, []) := rfl

theorem run_append (before after : List α) :
    M.run (before ++ after) =
      (M.run before).bind fun state => after.foldlM M.advance state := by
  simp [run, List.foldlM_append]

theorem run_concat (actions : List α) (a : α) :
    M.run (actions ++ [a]) =
      (M.run actions).bind fun state => M.advance state a := by
  rw [run_append]
  congr 1
  funext state
  cases h : M.advance state a <;> simp [h]

/-- Inversion of the last step of a run. -/
theorem run_concat_eq_some {actions : List α} {a : α} {s' : σ} {tr' : List ε}
    (h : M.run (actions ++ [a]) = some (s', tr')) :
    ∃ s tr ev, M.run actions = some (s, tr) ∧ M.step s a = some (s', ev) ∧
      tr' = tr ++ ev := by
  rw [run_concat] at h
  obtain ⟨⟨s, tr⟩, hrun, hadv⟩ := Option.bind_eq_some_iff.mp h
  obtain ⟨⟨t, ev⟩, hstep, hpair⟩ := Option.map_eq_some_iff.mp hadv
  obtain ⟨rfl, rfl⟩ := Prod.mk.inj hpair
  exact ⟨s, tr, ev, hrun, hstep, rfl⟩

theorem run_concat_of_step {actions : List α} {a : α} {s s' : σ}
    {tr ev : List ε} (hrun : M.run actions = some (s, tr))
    (hstep : M.step s a = some (s', ev)) :
    M.run (actions ++ [a]) = some (s', tr ++ ev) := by
  simp [run_concat, hrun, advance, hstep]

/-- A run that goes on behind a part of it takes its next step there. -/
theorem run_through {before rest : List α} {a : α} {s s' : σ}
    {tr tr' : List ε} (hrun : M.run before = some (s, tr))
    (h : M.run (before ++ a :: rest) = some (s', tr')) :
    ∃ t ev, M.step s a = some (t, ev) := by
  rw [run_append, hrun, Option.bind_some, List.foldlM_cons] at h
  obtain ⟨after, hadv, -⟩ := Option.bind_eq_some_iff.mp h
  obtain ⟨⟨t, ev⟩, hstep, -⟩ := Option.map_eq_some_iff.mp hadv
  exact ⟨t, ev, hstep⟩

/-- What holds of the empty run and survives one more step holds of every
run. -/
theorem run_induction {P : List α → σ → List ε → Prop}
    (hnil : P [] M.init [])
    (hstep : ∀ actions s tr a s' ev, M.run actions = some (s, tr) →
      P actions s tr → M.step s a = some (s', ev) →
      P (actions ++ [a]) s' (tr ++ ev)) :
    ∀ {actions s tr}, M.run actions = some (s, tr) → P actions s tr := by
  intro actions
  induction actions using List.reverseRecOn with
  | nil =>
      intro s tr h
      obtain ⟨rfl, rfl⟩ := Prod.mk.inj (Option.some.inj h)
      exact hnil
  | append_singleton actions a ih =>
      intro s' tr' h
      obtain ⟨s, tr, ev, hrun, hlast, rfl⟩ := M.run_concat_eq_some h
      exact hstep actions s tr a s' ev hrun (ih hrun) hlast

/-- A state is reached by some run. -/
def Reachable (s : σ) : Prop :=
  ∃ actions tr, M.run actions = some (s, tr)

theorem Reachable.step {s s' : σ} {a : α} {ev : List ε}
    (h : M.Reachable s) (hstep : M.step s a = some (s', ev)) :
    M.Reachable s' := by
  obtain ⟨actions, tr, hrun⟩ := h
  exact ⟨actions ++ [a], tr ++ ev, M.run_concat_of_step hrun hstep⟩

/-- A fact about states that holds at the start and survives every step from
a reachable state holds in every reachable state. -/
theorem reachable_induction {I : σ → Prop} (hinit : I M.init)
    (hstep : ∀ s a s' ev, M.Reachable s → I s → M.step s a = some (s', ev) →
      I s') {s : σ} (h : M.Reachable s) : I s := by
  obtain ⟨actions, tr, hrun⟩ := h
  refine M.run_induction (P := fun _ s _ => I s) hinit ?_ hrun
  intro actions s tr a s' ev hrun hs hs'
  exact hstep s a s' ev ⟨actions, tr, hrun⟩ hs hs'

/-- An inductive invariant of the states holds in every reachable state. -/
theorem reachable_invariant {I : σ → Prop} (hinit : I M.init)
    (hstep : ∀ s a s' ev, I s → M.step s a = some (s', ev) → I s')
    {s : σ} (h : M.Reachable s) : I s :=
  M.reachable_induction hinit (fun s a s' ev _ => hstep s a s' ev) h

/-- What holds after a part of a run and survives every step holds at the
end. -/
theorem run_persists {P : σ → List ε → Prop} {before actions : List α}
    {s₁ s : σ} {tr₁ tr : List ε} (hbefore : M.run before = some (s₁, tr₁))
    (hP : P s₁ tr₁) (hpre : before <+: actions)
    (hstep : ∀ s tr a s' ev, P s tr → M.step s a = some (s', ev) →
      P s' (tr ++ ev)) (hrun : M.run actions = some (s, tr)) : P s tr := by
  obtain ⟨rest, rfl⟩ := hpre
  induction rest using List.reverseRecOn generalizing s tr with
  | nil =>
      rw [List.append_nil, hbefore] at hrun
      obtain ⟨rfl, rfl⟩ := Prod.mk.inj (Option.some.inj hrun)
      exact hP
  | append_singleton rest a ih =>
      rw [← List.append_assoc] at hrun
      obtain ⟨s₂, tr₂, ev, hrun₂, hlast, rfl⟩ := M.run_concat_eq_some hrun
      exact hstep s₂ tr₂ a s ev (ih hrun₂) hlast

/-- A law of a state and the events shown so far holds at every point of a
run: after each of its prefixes. -/
def Always (Law : σ → List ε → Prop) (actions : List α) : Prop :=
  ∀ before s tr, before <+: actions → M.run before = some (s, tr) → Law s tr

/-- Every step taken in a run meets a condition on the state before it and
the action. -/
def Meets (ok : σ → α → Prop) (actions : List α) : Prop :=
  ∀ before a s tr, before ++ [a] <+: actions → M.run before = some (s, tr) →
    (M.step s a).isSome → ok s a

variable {M} {Law : σ → List ε → Prop} {ok : σ → α → Prop}

theorem Always.mono {actions before : List α} (h : M.Always Law actions)
    (hpre : before <+: actions) : M.Always Law before :=
  fun earlier s tr hearlier => h earlier s tr (hearlier.trans hpre)

theorem Meets.mono {actions before : List α} (h : M.Meets ok actions)
    (hpre : before <+: actions) : M.Meets ok before :=
  fun earlier a s tr hearlier => h earlier a s tr (hearlier.trans hpre)

theorem Meets.and {ok' : σ → α → Prop} {actions : List α}
    (h : M.Meets ok actions) (h' : M.Meets ok' actions) :
    M.Meets (fun s a => ok s a ∧ ok' s a) actions :=
  fun earlier a s tr hpre hrun henabled =>
    ⟨h earlier a s tr hpre hrun henabled, h' earlier a s tr hpre hrun henabled⟩

/-- What holds of the empty run and survives every step that meets the
condition holds at every point of a run whose steps all meet it. -/
theorem Meets.run_induction {actions : List α} (hmeets : M.Meets ok actions)
    {P : List α → σ → List ε → Prop} (hnil : P [] M.init [])
    (hstep : ∀ before s tr a s' ev, M.run before = some (s, tr) →
      P before s tr → M.step s a = some (s', ev) → ok s a →
      P (before ++ [a]) s' (tr ++ ev)) :
    ∀ before s tr, before <+: actions → M.run before = some (s, tr) →
      P before s tr := by
  intro before s tr hpre hrun
  refine M.run_induction
    (P := fun before s tr => before <+: actions → P before s tr)
    (fun _ => hnil) ?_ hrun hpre
  intro before s tr a s' ev hrun ih hlast hpre
  have hbefore : P before s tr := ih ((List.prefix_append before [a]).trans hpre)
  have hok : ok s a :=
    hmeets before a s tr hpre hrun (by simp [hlast])
  exact hstep before s tr a s' ev hrun hbefore hlast hok

/-- If the law holds at the start and every step that meets the condition
keeps it, then it holds throughout every run whose steps all meet it. -/
theorem Meets.always {actions : List α} (hmeets : M.Meets ok actions)
    (hinit : Law M.init [])
    (hstep : ∀ s tr a s' ev, M.Reachable s → Law s tr →
      M.step s a = some (s', ev) → ok s a → Law s' (tr ++ ev)) :
    M.Always Law actions := by
  refine hmeets.run_induction (P := fun _ s tr => Law s tr) hinit ?_
  intro before s tr a s' ev hrun hlaw hlast hok
  exact hstep s tr a s' ev ⟨before, tr, hrun⟩ hlaw hlast hok

/-- If, from a point where the law holds, a step that does not meet the
condition breaks it, then the condition is also necessary. -/
theorem Always.meets {actions : List α} (halways : M.Always Law actions)
    (hbreak : ∀ s tr a s' ev, M.Reachable s → Law s tr →
      M.step s a = some (s', ev) → ¬ ok s a → ¬ Law s' (tr ++ ev)) :
    M.Meets ok actions := by
  intro before a s tr hpre hrun henabled
  by_contra hbad
  obtain ⟨⟨s', ev⟩, hlast⟩ := Option.isSome_iff_exists.mp henabled
  have hlaw : Law s tr :=
    halways before s tr ((List.prefix_append before [a]).trans hpre) hrun
  have hafter : Law s' (tr ++ ev) :=
    halways _ s' _ hpre (M.run_concat_of_step hrun hlast)
  exact hbreak s tr a s' ev ⟨before, tr, hrun⟩ hlaw hlast hbad hafter

/-- Whether every step of a given run meets the condition, computed along the
run. -/
def check (M : System σ α ε) (ok : σ → α → Prop) [∀ s a, Decidable (ok s a)] :
    σ → List α → Bool
  | _, [] => true
  | s, a :: actions =>
      match M.step s a with
      | none => true
      | some (s', _) => decide (ok s a) && check M ok s' actions

theorem ok_of_check [∀ s a, Decidable (ok s a)] {s₀ : σ} {tr₀ : List ε}
    {actions before : List α} {a : α} {s : σ} {tr : List ε}
    (hcheck : M.check ok s₀ actions = true) (hpre : before ++ [a] <+: actions)
    (hrun : before.foldlM M.advance (s₀, tr₀) = some (s, tr))
    (henabled : (M.step s a).isSome) : ok s a := by
  induction before generalizing s₀ tr₀ actions with
  | nil =>
      obtain ⟨rest, rfl⟩ := hpre
      obtain ⟨rfl, rfl⟩ := Prod.mk.inj (Option.some.inj hrun)
      obtain ⟨⟨s', ev⟩, hstep⟩ := Option.isSome_iff_exists.mp henabled
      simp only [List.nil_append, List.singleton_append, check, hstep,
        Bool.and_eq_true, decide_eq_true_eq] at hcheck
      exact hcheck.1
  | cons b before ih =>
      obtain ⟨rest, rfl⟩ := hpre
      obtain ⟨⟨s₁, tr₁⟩, hadv, hrest⟩ := Option.bind_eq_some_iff.mp hrun
      obtain ⟨⟨s', ev⟩, hstep, hpair⟩ := Option.map_eq_some_iff.mp hadv
      obtain ⟨rfl, rfl⟩ := Prod.mk.inj hpair
      simp only [List.cons_append, check, hstep, Bool.and_eq_true] at hcheck
      exact ih hcheck.2 ⟨rest, rfl⟩ hrest

/-- The computed check decides about a given run. -/
theorem meets_of_check [∀ s a, Decidable (ok s a)] {actions : List α}
    (h : M.check ok M.init actions = true) : M.Meets ok actions :=
  fun _ _ _ _ hpre hrun henabled => ok_of_check h hpre hrun henabled

/-- The exact condition on a run, with the help of an invariant that holds as
long as the law does: one step keeps the law if and only if it meets the
condition. -/
theorem always_iff_meets_of_invariant (Inv : σ → List ε → Prop)
    (hinit : Law M.init []) (hinvInit : Inv M.init [])
    (hinv : ∀ s tr a s' ev, M.Reachable s → Law s tr → Inv s tr →
      M.step s a = some (s', ev) → Law s' (tr ++ ev) → Inv s' (tr ++ ev))
    (hstep : ∀ s tr a s' ev, M.Reachable s → Law s tr → Inv s tr →
      M.step s a = some (s', ev) → (Law s' (tr ++ ev) ↔ ok s a))
    (actions : List α) :
    M.Always Law actions ↔ M.Meets ok actions := by
  constructor
  · intro halways
    -- the law holds at every prefix, and carries the invariant along
    have hinvAll : ∀ before s tr, M.run before = some (s, tr) →
        before <+: actions → Law s tr ∧ Inv s tr := by
      intro before s tr hrun
      refine M.run_induction
        (P := fun before s tr => before <+: actions → Law s tr ∧ Inv s tr)
        (fun _ => ⟨hinit, hinvInit⟩) ?_ hrun
      intro before s tr a s' ev hrun ih hlast hpre
      obtain ⟨hlaw, hinvs⟩ := ih ((List.prefix_append before [a]).trans hpre)
      have hafter : Law s' (tr ++ ev) :=
        halways _ s' _ hpre (M.run_concat_of_step hrun hlast)
      exact ⟨hafter,
        hinv s tr a s' ev ⟨before, tr, hrun⟩ hlaw hinvs hlast hafter⟩
    intro before a s tr hpre hrun henabled
    obtain ⟨⟨s', ev⟩, hlast⟩ := Option.isSome_iff_exists.mp henabled
    obtain ⟨hlaw, hinvs⟩ :=
      hinvAll before s tr hrun ((List.prefix_append before [a]).trans hpre)
    have hafter : Law s' (tr ++ ev) :=
      halways _ s' _ hpre (M.run_concat_of_step hrun hlast)
    exact (hstep s tr a s' ev ⟨before, tr, hrun⟩ hlaw hinvs hlast).mp hafter
  · -- a step that meets the condition keeps both
    intro hmeets before s tr hpre hrun
    refine (hmeets.run_induction (P := fun _ s tr => Law s tr ∧ Inv s tr)
      ⟨hinit, hinvInit⟩ ?_ before s tr hpre hrun).1
    rintro before s tr a s' ev hrun ⟨hlaw, hinvs⟩ hlast hok
    have hreach : M.Reachable s := ⟨before, tr, hrun⟩
    have hafter : Law s' (tr ++ ev) :=
      (hstep s tr a s' ev hreach hlaw hinvs hlast).mpr hok
    exact ⟨hafter, hinv s tr a s' ev hreach hlaw hinvs hlast hafter⟩

/-- The exact condition on a run: one step keeps the law if and only if it
meets the condition. -/
theorem always_iff_meets (hinit : Law M.init [])
    (hstep : ∀ s tr a s' ev, M.Reachable s → Law s tr →
      M.step s a = some (s', ev) → (Law s' (tr ++ ev) ↔ ok s a))
    (actions : List α) :
    M.Always Law actions ↔ M.Meets ok actions :=
  always_iff_meets_of_invariant (fun _ _ => True) hinit trivial
    (fun _ _ _ _ _ _ _ _ _ _ => trivial)
    (fun s tr a s' ev hreach hlaw _ => hstep s tr a s' ev hreach hlaw) actions

/-! ## Observers -/

section Watch

variable {γ : Type*} (start : γ) (observe : σ → α → List ε → γ → γ)

/-- The machine with an observer beside it, which keeps a record of the run
and takes no part in it. -/
def watch (M : System σ α ε) : System (σ × γ) α ε where
  init := (M.init, start)
  step s a := (M.step s.1 a).map fun after =>
    ((after.1, observe s.1 a after.2 s.2), after.2)

variable {start observe}

theorem watch_step {s s' : σ × γ} {a : α} {ev : List ε}
    (h : (M.watch start observe).step s a = some (s', ev)) :
    M.step s.1 a = some (s'.1, ev) ∧ s'.2 = observe s.1 a ev s.2 := by
  obtain ⟨⟨t, ev'⟩, hstep, heq⟩ := Option.map_eq_some_iff.mp h
  cases heq
  exact ⟨hstep, rfl⟩

variable (M start observe) in
/-- The observed machine has the runs of the machine itself. -/
theorem run_watch (actions : List α) :
    ((M.watch start observe).run actions).map
      (fun after => (after.1.1, after.2)) = M.run actions := by
  induction actions using List.reverseRecOn with
  | nil => rfl
  | append_singleton actions a ih =>
      rw [run_concat, run_concat, ← ih]
      cases (M.watch start observe).run actions with
      | none => rfl
      | some before =>
          obtain ⟨⟨s, g⟩, tr⟩ := before
          cases hstep : M.step s a <;> simp [advance, watch, hstep]

theorem Reachable.of_watch {s : σ × γ}
    (h : (M.watch start observe).Reachable s) : M.Reachable s.1 := by
  obtain ⟨actions, tr, hrun⟩ := h
  have hsame := M.run_watch start observe actions
  rw [hrun] at hsame
  exact ⟨actions, tr, hsame.symm⟩

end Watch

end System

/-! ## Laws about single events -/

section History

variable {ε : Type*} {P : List ε → ε → Prop}

/-- Every event of a trace satisfies a predicate on it and on the events
before it. -/
def History (P : List ε → ε → Prop) (tr : List ε) : Prop :=
  ∀ before e after, tr = before ++ e :: after → P before e

theorem history_nil : History P [] := by
  intro before e after h
  simp at h

theorem history_concat {tr : List ε} {e : ε} :
    History P (tr ++ [e]) ↔ History P tr ∧ P tr e := by
  constructor
  · intro h
    refine ⟨fun before d after heq => ?_, h tr e [] rfl⟩
    exact h before d (after ++ [e]) (by simp [heq])
  · rintro ⟨htr, he⟩ before d after heq
    rcases List.eq_nil_or_concat after with rfl | ⟨after, last, rfl⟩
    · obtain ⟨rfl, hlast⟩ := List.append_inj' heq rfl
      cases hlast
      exact he
    · refine htr before d after ?_
      have heq' : tr ++ [e] = (before ++ d :: after) ++ [last] := by
        simpa using heq
      exact (List.append_inj' heq' rfl).1

/-- The law of a trace in two parts. -/
theorem history_append {tr ev : List ε} :
    History P (tr ++ ev) ↔
      History P tr ∧ History (fun before => P (tr ++ before)) ev := by
  induction ev using List.reverseRecOn with
  | nil => simp [history_nil]
  | append_singleton ev e ih =>
      rw [← List.append_assoc, history_concat, ih, history_concat, and_assoc]

/-- A law about single events is kept by events of which it asks nothing. -/
theorem History.append {tr ev : List ε} (h : History P tr)
    (hev : ∀ before, ∀ e ∈ ev, P before e) : History P (tr ++ ev) := by
  induction ev using List.reverseRecOn with
  | nil => simpa using h
  | append_singleton ev e ih =>
      rw [← List.append_assoc, history_concat]
      exact ⟨ih fun before d hd => hev before d (by simp [hd]),
        hev _ e (by simp)⟩

end History

end Lib
end KernelDrivers
