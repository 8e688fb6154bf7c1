import KernelDrivers.Lib.System
import Mathlib.Logic.Function.Basic
import Mathlib.Tactic.SplitIfs

/-!
# The two threads of `thread2.c` and `signal2.c`

Both modules start a worker and a default thread that loop until they are told
to stop or find a SIGKILL pending, and then leave with `do_exit`.  In
`signal2.c` a thread clears the module's pointer to it before; in `thread2.c`
the statement that clears it comes after `do_exit` and is never reached.
`kernel_thread_exit` stops the threads that it finds a pointer to.

`kthread_stop` tells the thread and waits until it has exited.  A thread that
is told before it first ran exits without running its function, and a SIGKILL
is ignored until the thread allows it.
-/

namespace KernelDrivers
namespace Kthread

open Lib

inductive Source where
  | thread2
  | signal2
  deriving DecidableEq

inductive Task where
  | worker
  | default
  deriving DecidableEq

/-- The next statement of `worker_task_handler_fn` or
`default_task_handler_fn`. -/
inductive ThreadPc where
  /-- Created, and not run yet. -/
  | created
  | allowSignal
  | loopTest
  /-- The message and `ssleep`. -/
  | body
  | signalTest
  /-- `worker_task=NULL` or `default_task=NULL`. -/
  | clear
  | doExit
  | exited
  deriving DecidableEq

/-- The first statement after the loop. -/
def Source.afterLoop : Source → ThreadPc
  | .thread2 => .doExit
  | .signal2 => .clear

structure Thread where
  pc : ThreadPc
  shouldStop : Bool
  signalPending : Bool
  /-- The module's pointer to it is not `NULL`. -/
  pointed : Bool
  deriving DecidableEq

/-- What `kernel_thread_exit` does about one task. -/
inductive Phase where
  /-- `if(worker_task)`. -/
  | test
  /-- The pointer is read again, as the argument of `kthread_stop`. -/
  | argument
  /-- The call, with a task or with `NULL`. -/
  | stop (task : Bool)
  | wait
  deriving DecidableEq

/-- The next statement of `kernel_thread_exit`. -/
inductive ExitPc where
  | idle
  | task (w : Task) (phase : Phase)
  | returned
  /-- `kthread_stop(NULL)`. -/
  | oops
  deriving DecidableEq

structure State where
  exit : ExitPc
  threads : Task → Thread

/-- `kthread_stop`: whether it was given a task, and whether that had
exited. -/
inductive Event where
  | kthreadStop (w : Task) (task exited : Bool)
  deriving DecidableEq

inductive Act where
  | thread (w : Task)
  | sigkill (w : Task)
  | exit
  deriving DecidableEq

/-- One statement of a thread. -/
def threadStep (source : Source) (t : Thread) : Option Thread :=
  match t.pc with
  | .created =>
      some { t with pc := if t.shouldStop then .exited else .allowSignal }
  | .allowSignal => some { t with pc := .loopTest }
  | .loopTest =>
      some { t with pc := if t.shouldStop then source.afterLoop else .body }
  | .body => some { t with pc := .signalTest }
  | .signalTest =>
      some { t with pc := if t.signalPending then source.afterLoop else .loopTest }
  | .clear => some { t with pc := .doExit, pointed := false }
  | .doExit => some { t with pc := .exited }
  | .exited => none

/-- A SIGKILL for a thread. -/
def sigkill (t : Thread) : Option Thread :=
  match t.pc with
  | .exited => none
  | .created => some t
  | .allowSignal => some t
  | _ => some { t with signalPending := true }

/-- After the statements about one task. -/
def Task.next : Task → ExitPc
  | .worker => .task .default .test
  | .default => .returned

/-- One statement of `kernel_thread_exit`. -/
def exitStep (s : State) : Option (State × List Event) :=
  match s.exit with
  | .idle => some ({ s with exit := .task .worker .test }, [])
  | .task w .test =>
      if (s.threads w).pointed then
        some ({ s with exit := .task w .argument }, [])
      else some ({ s with exit := w.next }, [])
  | .task w .argument =>
      some ({ s with exit := .task w (.stop (s.threads w).pointed) }, [])
  | .task w (.stop task) =>
      let call : Event := .kthreadStop w task ((s.threads w).pc = .exited)
      if task then
        some ({ exit := .task w .wait
                threads := Function.update s.threads w
                  { s.threads w with shouldStop := true } }, [call])
      else some ({ s with exit := .oops }, [call])
  | .task w .wait =>
      if (s.threads w).pc = .exited then some ({ s with exit := w.next }, [])
      else none
  | .returned => none
  | .oops => none

def step (source : Source) (s : State) : Act → Option (State × List Event)
  | .thread w =>
      (threadStep source (s.threads w)).map fun t =>
        ({ s with threads := Function.update s.threads w t }, [])
  | .sigkill w =>
      (sigkill (s.threads w)).map fun t =>
        ({ s with threads := Function.update s.threads w t }, [])
  | .exit => exitStep s

/-- The module is loaded: `kernel_thread_init` has created and woken both
threads. -/
def system (source : Source) : System State Act Event where
  init :=
    { exit := .idle
      threads := fun _ => ⟨.created, false, false, true⟩ }
  step := step source

/-- `kthread_stop` is given tasks that have not exited, and when
`kernel_thread_exit` has returned all threads have. -/
structure StoppedAlive (s : State) (tr : List Event) : Prop where
  calls : ∀ w task exited, .kthreadStop w task exited ∈ tr →
    task = true ∧ exited = false
  returned : s.exit = .returned → ∀ w, (s.threads w).pc = .exited

/-- A thread clears its pointer while nobody is between the two looks at it,
and exits when it was told to, or when its pointer is clear and nobody has read
it. -/
def LeavesInTime (e : ExitPc) (w : Task) (t : Thread) : Prop :=
  (t.pc = .clear → e ≠ .task w .argument) ∧
  (t.pc = .doExit → t.shouldStop = true ∨
    (t.pointed = false ∧ e ≠ .task w (.stop true)))

/-- The next statement makes `kernel_thread_exit` return. -/
def Returns (s : State) : Prop :=
  (s.exit = .task .default .test ∧ (s.threads .default).pointed = false) ∨
    s.exit = .task .default .wait

/-- The threads leave in time, and `kernel_thread_exit` returns when those have
exited that it did not tell to stop because their pointers were clear. -/
def InTime (s : State) : Act → Prop
  | .thread w => LeavesInTime s.exit w (s.threads w)
  | .sigkill _ => True
  | .exit => Returns s → ∀ w, (s.threads w).shouldStop = false →
      (s.threads w).pointed = false → (s.threads w).pc = .exited

/-! ## One statement -/

/-- `kernel_thread_exit` is done with a task. -/
def ExitPc.done : ExitPc → Task → Bool
  | .returned, _ => true
  | .task .default _, .worker => true
  | _, _ => false

theorem done_task (w v : Task) (phase phase' : Phase) :
    (ExitPc.task w phase).done v = (ExitPc.task w phase').done v := by
  cases w <;> cases v <;> rfl

@[simp] theorem not_done_self (w : Task) (phase : Phase) :
    (ExitPc.task w phase).done w = false := by
  cases w <;> rfl

theorem done_next {w v : Task} (phase : Phase) :
    w.next.done v = true ↔ (ExitPc.task w phase).done v = true ∨ v = w := by
  cases w <;> cases v <;> simp [Task.next, ExitPc.done]

theorem next_ne_stopping {w v : Task} :
    w.next ≠ .task v .argument ∧ w.next ≠ .task v .wait ∧
      ∀ task, w.next ≠ .task v (.stop task) := by
  cases w <;> simp [Task.next]

variable {source : Source} {s s' : State} {t t' : Thread} {e e' : ExitPc}
  {w : Task} {a : Act} {ev tr : List Event}

/-- A thread goes on, clears its pointer, or exits when it was told to or has
come to `do_exit`. -/
theorem threadStep_cases (h : threadStep source t = some t') :
    t.pc ≠ .exited ∧ t'.shouldStop = t.shouldStop ∧
      ((t'.pointed = t.pointed ∧ t'.pc ≠ .exited) ∨
        (t.pc = .clear ∧ t'.pointed = false ∧ t'.pc ≠ .exited) ∨
        (t'.pointed = t.pointed ∧ t'.pc = .exited ∧
          (t.shouldStop = true ∨ t.pc = .doExit))) := by
  have hloop : source.afterLoop ≠ .exited := by cases source <;> decide
  cases hpc : t.pc <;> simp only [threadStep, hpc] at h <;> cases h
  case created =>
    cases htold : t.shouldStop <;> simp
  case loopTest =>
    cases htold : t.shouldStop <;> simp [hloop]
  case signalTest =>
    cases hpending : t.signalPending <;> simp [hloop]
  all_goals simp

theorem sigkill_cases (h : sigkill t = some t') :
    t'.shouldStop = t.shouldStop ∧ t'.pointed = t.pointed ∧ t'.pc = t.pc := by
  cases hpc : t.pc <;> simp only [sigkill, hpc] at h <;> cases h <;> simp [hpc]

/-- What neither a statement of a thread nor a SIGKILL changes. -/
structure Keeps (t t' : Thread) : Prop where
  told : t'.shouldStop = t.shouldStop
  clear : t.pointed = false → t'.pointed = false
  exited : t.pc = .exited → t'.pc = .exited ∧ t'.pointed = t.pointed

theorem Keeps.refl (t : Thread) : Keeps t t :=
  ⟨rfl, id, fun hexited => ⟨hexited, rfl⟩⟩

theorem keeps_of_threadStep (h : threadStep source t = some t') : Keeps t t' := by
  obtain ⟨hrunning, htold, hcases⟩ := threadStep_cases h
  refine ⟨htold, fun hclear => ?_, fun hexited => absurd hexited hrunning⟩
  rcases hcases with ⟨hpointed, -⟩ | ⟨-, hpointed, -⟩ | ⟨hpointed, -⟩
  · exact hpointed.trans hclear
  · exact hpointed
  · exact hpointed.trans hclear

theorem keeps_of_sigkill (h : sigkill t = some t') : Keeps t t' := by
  obtain ⟨htold, hpointed, hpc⟩ := sigkill_cases h
  exact ⟨htold, hpointed.trans, fun hexited => ⟨hpc.trans hexited, hpointed⟩⟩

theorem keeps_update (h : Keeps (s.threads w) t') (v : Task) :
    Keeps (s.threads v) (Function.update s.threads w t' v) := by
  by_cases hvw : v = w
  · subst hvw
    simpa using h
  · simpa [Function.update_of_ne hvw] using Keeps.refl (s.threads v)

/-- A step is one of the threads, or one of `kernel_thread_exit`. -/
theorem step_cases (h : step source s a = some (s', ev)) :
    (ev = [] ∧ s'.exit = s.exit ∧ ∀ v, Keeps (s.threads v) (s'.threads v)) ∨
      exitStep s = some (s', ev) := by
  cases a with
  | thread w =>
      obtain ⟨t', ht, heq⟩ := Option.map_eq_some_iff.mp h
      cases heq
      exact .inl ⟨rfl, rfl, keeps_update (keeps_of_threadStep ht)⟩
  | sigkill w =>
      obtain ⟨t', ht, heq⟩ := Option.map_eq_some_iff.mp h
      cases heq
      exact .inl ⟨rfl, rfl, keeps_update (keeps_of_sigkill ht)⟩
  | exit => exact .inr h

/-- What `kernel_thread_exit` does in one statement. -/
theorem exitStep_cases (h : exitStep s = some (s', ev)) :
    (s.exit = .idle ∧ s' = { s with exit := .task .worker .test } ∧ ev = []) ∨
    (∃ w, s.exit = .task w .test ∧ (s.threads w).pointed = true ∧
      s' = { s with exit := .task w .argument } ∧ ev = []) ∨
    (∃ w, ((s.exit = .task w .test ∧ (s.threads w).pointed = false) ∨
        (s.exit = .task w .wait ∧ (s.threads w).pc = .exited)) ∧
      s' = { s with exit := w.next } ∧ ev = []) ∨
    (∃ w, s.exit = .task w .argument ∧
      s' = { s with exit := .task w (.stop (s.threads w).pointed) } ∧ ev = []) ∨
    (∃ w, s.exit = .task w (.stop true) ∧
      s' = { exit := .task w .wait
             threads := Function.update s.threads w
               { s.threads w with shouldStop := true } } ∧
      ev = [.kthreadStop w true ((s.threads w).pc = .exited)]) ∨
    (∃ w, s.exit = .task w (.stop false) ∧ s' = { s with exit := .oops } ∧
      ev = [.kthreadStop w false ((s.threads w).pc = .exited)]) := by
  cases hexit : s.exit with
  | idle =>
      simp only [exitStep, hexit] at h
      cases h
      exact .inl ⟨rfl, rfl, rfl⟩
  | task w phase =>
      right
      cases phase with
      | test =>
          simp only [exitStep, hexit] at h
          split_ifs at h with hpointed
          · cases h
            exact .inl ⟨w, rfl, hpointed, rfl, rfl⟩
          · cases h
            exact .inr (.inl ⟨w, .inl ⟨rfl, by simpa using hpointed⟩, rfl, rfl⟩)
      | argument =>
          simp only [exitStep, hexit] at h
          cases h
          exact .inr (.inr (.inl ⟨w, rfl, rfl, rfl⟩))
      | stop task =>
          cases task with
          | true =>
              simp only [exitStep, hexit, if_true] at h
              cases h
              exact .inr (.inr (.inr (.inl ⟨w, rfl, rfl, rfl⟩)))
          | false =>
              simp only [exitStep, hexit, Bool.false_eq_true, if_false] at h
              cases h
              exact .inr (.inr (.inr (.inr ⟨w, rfl, rfl, rfl⟩)))
      | wait =>
          simp only [exitStep, hexit] at h
          split_ifs at h with hexited
          cases h
          exact .inr (.inl ⟨w, .inr ⟨rfl, hexited⟩, rfl, rfl⟩)
  | returned => simp [exitStep, hexit] at h
  | oops => simp [exitStep, hexit] at h

/-! ## The invariant -/

/-- A thread and what `kernel_thread_exit` has done about it. -/
structure Sound (e : ExitPc) (w : Task) (t : Thread) : Prop where
  told : t.shouldStop = true → e = .task w .wait ∨ e.done w = true
  done : e.done w = true →
    t.pc = .exited ∨ (t.shouldStop = false ∧ t.pointed = false)
  exited : t.pc = .exited → t.shouldStop = true ∨ t.pointed = false
  argument : e = .task w .argument → t.pointed = true
  stop : ∀ task, e = .task w (.stop task) → task = true ∧ t.pc ≠ .exited

structure Inv (s : State) : Prop where
  sound : ∀ w, Sound s.exit w (s.threads w)
  returned : s.exit = .returned → ∀ w, (s.threads w).pc = .exited

/-- A thread is not told before `kernel_thread_exit` waits for it. -/
theorem Sound.not_told {phase : Phase} (h : Sound e w t)
    (he : e = .task w phase) (hphase : phase ≠ .wait) :
    t.shouldStop = false := by
  by_contra htold
  subst he
  rcases h.told (by simpa using htold) with hwait | hdone
  · cases hwait
    exact hphase rfl
  · simp at hdone

theorem Sound.threadStep (h : Sound e w t) (hstep : threadStep source t = some t')
    (hok : LeavesInTime e w t) : Sound e w t' := by
  obtain ⟨hrunning, htold, hcases⟩ := threadStep_cases hstep
  refine ⟨fun htold' => h.told (htold ▸ htold'), fun hdone => ?_, fun hexited => ?_,
    fun hargument => ?_, fun task hstop => ⟨(h.stop task hstop).1, fun hexited => ?_⟩⟩
  · have hclear := (h.done hdone).resolve_left hrunning
    exact .inr ⟨htold.trans hclear.1, (keeps_of_threadStep hstep).clear hclear.2⟩
  · rcases hcases with ⟨-, hnot⟩ | ⟨-, -, hnot⟩ | ⟨hpointed, -, hcause⟩
    · exact absurd hexited hnot
    · exact absurd hexited hnot
    · rw [htold, hpointed]
      rcases hcause with hcause | hcause
      · exact .inl hcause
      · exact (hok.2 hcause).imp_right And.left
  · rcases hcases with ⟨hpointed, -⟩ | ⟨hclear, -⟩ | ⟨hpointed, -⟩
    · exact hpointed.trans (h.argument hargument)
    · exact absurd hargument (hok.1 hclear)
    · exact hpointed.trans (h.argument hargument)
  · obtain ⟨rfl, -⟩ := h.stop task hstop
    have hnot : ¬ t.shouldStop = true := by simp [h.not_told hstop nofun]
    rcases hcases with ⟨-, hrun⟩ | ⟨-, -, hrun⟩ | ⟨-, -, hcause⟩
    · exact hrun hexited
    · exact hrun hexited
    · have hexit := hcause.resolve_left hnot
      exact ((hok.2 hexit).resolve_left hnot).2 hstop

theorem Sound.sigkill (h : Sound e w t) (hstep : sigkill t = some t') :
    Sound e w t' := by
  obtain ⟨htold, hpointed, hpc⟩ := sigkill_cases hstep
  exact ⟨htold ▸ h.told, by rw [hpc, hpointed, htold]; exact h.done,
    by rw [hpc, hpointed, htold]; exact h.exited, hpointed ▸ h.argument,
    by rw [hpc]; exact h.stop⟩

/-- `kernel_thread_exit` goes on, and the thread stays as it is. -/
theorem Sound.advance (h : Sound e w t)
    (hwait : e = .task w .wait → e'.done w = true)
    (hkeep : e.done w = true → e'.done w = true)
    (hnew : e'.done w = true →
      e.done w = true ∨ t.pc = .exited ∨
        (t.shouldStop = false ∧ t.pointed = false))
    (hargument : e' = .task w .argument → t.pointed = true)
    (hstop : ∀ task, e' = .task w (.stop task) → task = true ∧ t.pc ≠ .exited) :
    Sound e' w t := by
  refine ⟨fun htold => .inr ?_, fun hdone => ?_, h.exited, hargument, hstop⟩
  · rcases h.told htold with he | he
    · exact hwait he
    · exact hkeep he
  · rcases hnew hdone with he | he
    · exact h.done he
    · exact he

/-- `kernel_thread_exit` goes on with some task `w`. -/
theorem Sound.phase {v : Task} {phase phase' : Phase}
    (h : Sound (.task w phase) v t) (hwait : w = v → phase ≠ .wait)
    (hargument : w = v → phase' = .argument → t.pointed = true)
    (hstop : w = v → ∀ task, phase' = .stop task →
      task = true ∧ t.pc ≠ .exited) :
    Sound (.task w phase') v t := by
  have hsame := done_task w v phase phase'
  refine h.advance ?_ (fun he => hsame ▸ he) (fun he => .inl (hsame ▸ he)) ?_ ?_
  · rintro ⟨⟩
    exact absurd rfl (hwait rfl)
  · rintro ⟨⟩
    exact hargument rfl rfl
  · rintro task ⟨⟩
    exact hstop rfl task rfl

/-- The argument of `kthread_stop` is a task that runs. -/
theorem Sound.running (h : Sound (.task w .argument) w t) : t.pc ≠ .exited := by
  intro hexited
  have hpointed := h.argument rfl
  rcases h.exited hexited with htold | hclear
  · rcases h.told htold with he | he
    · cases he
    · simp at he
  · rw [hpointed] at hclear
    cases hclear

theorem Inv.next (h : Inv s)
    (hleft : (s.exit = .task w .test ∧ (s.threads w).pointed = false) ∨
      (s.exit = .task w .wait ∧ (s.threads w).pc = .exited))
    (hok : InTime s .exit) : Inv { s with exit := w.next } := by
  obtain ⟨phase, hexit⟩ : ∃ phase, s.exit = .task w phase := by
    rcases hleft with ⟨hexit, -⟩ | ⟨hexit, -⟩
    · exact ⟨_, hexit⟩
    · exact ⟨_, hexit⟩
  have hgone : (s.threads w).pc = .exited ∨
      ((s.threads w).shouldStop = false ∧ (s.threads w).pointed = false) := by
    rcases hleft with ⟨hexit, hclear⟩ | ⟨-, hexited⟩
    · exact .inr ⟨(h.sound w).not_told hexit nofun, hclear⟩
    · -- the wait is over when the thread that was told has exited
      exact .inl hexited
  have hsound : ∀ v, Sound w.next v (s.threads v) := by
    intro v
    have hv := h.sound v
    rw [hexit] at hv
    refine hv.advance ?_ (fun he => (done_next phase).mpr (.inl he)) (fun he => ?_)
      (fun he => absurd he next_ne_stopping.1)
      (fun task he => absurd he (next_ne_stopping.2.2 task))
    · rintro ⟨⟩
      exact (done_next .wait).mpr (.inr rfl)
    · rcases (done_next phase).mp he with he | rfl
      · exact .inl he
      · exact .inr hgone
  refine ⟨hsound, fun hreturned v => ?_⟩
  cases w with
  | worker => cases hreturned
  | default =>
      have hreturns : Returns s := hleft.imp_right And.left
      rcases (hsound v).done rfl with hexited | ⟨htold, hclear⟩
      · exact hexited
      · exact hok hreturns v htold hclear

theorem Inv.exitStep (h : Inv s) (hstep : exitStep s = some (s', ev))
    (hok : InTime s .exit) : Inv s' := by
  rcases exitStep_cases hstep with ⟨hexit, rfl, -⟩ |
      ⟨w, hexit, hpointed, rfl, -⟩ | ⟨w, hleft, rfl, -⟩ | ⟨w, hexit, rfl, -⟩ |
      ⟨w, hexit, rfl, -⟩ | ⟨w, hexit, -⟩
  · refine ⟨fun v => ?_, by simp⟩
    have hv := h.sound v
    rw [hexit] at hv
    exact hv.advance (by simp) (by simp [ExitPc.done])
      (by cases v <;> simp [ExitPc.done]) (by simp) (by simp)
  · -- the pointer was tested just now
    refine ⟨fun v => ?_, by simp⟩
    have hv := h.sound v
    rw [hexit] at hv
    exact hv.phase (by simp) (fun hwv _ => hwv ▸ hpointed) (by simp)
  · exact h.next hleft hok
  · -- a thread that runs has not cleared its pointer since the test
    refine ⟨fun v => ?_, by simp⟩
    have hv := h.sound v
    rw [hexit] at hv
    refine hv.phase (by simp) (by simp) ?_
    rintro rfl task ⟨⟩
    exact ⟨hv.argument rfl, hv.running⟩
  · refine ⟨fun v => ?_, by simp⟩
    by_cases hvw : v = w
    · subst hvw
      simp only [Function.update_self]
      exact ⟨fun _ => .inl rfl, by simp, fun _ => .inl rfl, by simp, by simp⟩
    · simp only [Function.update_of_ne hvw]
      have hv := h.sound v
      rw [hexit] at hv
      exact hv.phase (fun hwv => absurd hwv.symm hvw) (by simp) (by simp)
  · -- a clear pointer never gets as far as the call
    exact absurd ((h.sound w).stop false hexit).1 Bool.false_ne_true

/-- A thread that stays exited when it was, and keeps being sound. -/
theorem Inv.update (h : Inv s) (hsound : Sound s.exit w t')
    (hexited : (s.threads w).pc = .exited → t'.pc = .exited) :
    Inv { s with threads := Function.update s.threads w t' } := by
  refine ⟨fun v => ?_, fun hreturned v => ?_⟩
  · by_cases hvw : v = w
    · subst hvw
      simpa using hsound
    · simpa [Function.update_of_ne hvw] using h.sound v
  · by_cases hvw : v = w
    · subst hvw
      simpa using hexited (h.returned hreturned v)
    · simpa [Function.update_of_ne hvw] using h.returned hreturned v

theorem Inv.step (h : Inv s) (hstep : step source s a = some (s', ev))
    (hok : InTime s a) : Inv s' := by
  cases a with
  | thread w =>
      obtain ⟨t', ht, heq⟩ := Option.map_eq_some_iff.mp hstep
      cases heq
      exact h.update ((h.sound w).threadStep ht hok)
        (fun hexited => absurd hexited (threadStep_cases ht).1)
  | sigkill w =>
      obtain ⟨t', ht, heq⟩ := Option.map_eq_some_iff.mp hstep
      cases heq
      exact h.update ((h.sound w).sigkill ht)
        (fun hexited => (sigkill_cases ht).2.2.trans hexited)
  | exit => exact h.exitStep hstep hok

/-- What a step adds to the trace about `kthread_stop`. -/
theorem Inv.call {task exited : Bool} (h : Inv s)
    (hstep : Kthread.step source s a = some (s', ev))
    (hmem : .kthreadStop w task exited ∈ ev) : task = true ∧ exited = false := by
  rcases step_cases hstep with ⟨rfl, -⟩ | hexit
  · cases hmem
  rcases exitStep_cases hexit with ⟨-, -, rfl⟩ | ⟨v, -, -, -, rfl⟩ |
      ⟨v, -, -, rfl⟩ | ⟨v, -, -, rfl⟩ | ⟨v, hstop, -, rfl⟩ | ⟨v, hstop, -⟩
  · cases hmem
  · cases hmem
  · cases hmem
  · cases hmem
  · have hrunning := ((h.sound v).stop true hstop).2
    simp only [List.mem_singleton, Event.kthreadStop.injEq] at hmem
    obtain ⟨-, rfl, rfl⟩ := hmem
    exact ⟨rfl, by simp [hrunning]⟩
  · exact absurd ((h.sound v).stop false hstop).1 Bool.false_ne_true

theorem inv_init : Inv (system source).init :=
  ⟨fun w => ⟨by simp [system], by simp [system, ExitPc.done],
    by simp [system], fun _ => rfl, by simp [system]⟩, by simp [system]⟩

/-! ## A thread that left too early -/

/-- `kernel_thread_exit` has yet to come to the `kthread_stop` of a task, and
the call will go wrong. -/
def Doomed (e : ExitPc) (w : Task) (t : Thread) : Prop :=
  (t.pc = .exited ∧ t.pointed = true ∧ e.done w = false ∧
    e ≠ .task w .wait ∧ e ≠ .oops) ∨
  (e = .task w .argument ∧ t.pointed = false) ∨
  e = .task w (.stop false) ∨
  (e = .task w (.stop true) ∧ t.pc = .exited)

/-- A call has gone wrong. -/
def WentWrong (tr : List Event) : Prop :=
  ∃ w task exited, .kthreadStop w task exited ∈ tr ∧
    ¬ (task = true ∧ exited = false)

theorem WentWrong.append_left (h : WentWrong tr) (ev : List Event) :
    WentWrong (tr ++ ev) := by
  obtain ⟨w, task, exited, hmem, hwrong⟩ := h
  exact ⟨w, task, exited, List.mem_append_left _ hmem, hwrong⟩

theorem WentWrong.append_right (h : WentWrong ev) (tr : List Event) :
    WentWrong (tr ++ ev) := by
  obtain ⟨w, task, exited, hmem, hwrong⟩ := h
  exact ⟨w, task, exited, List.mem_append_right _ hmem, hwrong⟩

theorem StoppedAlive.not_wentWrong (h : StoppedAlive s tr) : ¬ WentWrong tr := by
  rintro ⟨w, task, exited, hmem, hwrong⟩
  exact hwrong (h.calls w task exited hmem)

/-- The call goes wrong before `kernel_thread_exit` ends. -/
theorem Doomed.not_ended (h : Doomed e w t) : e ≠ .returned ∧ e ≠ .oops := by
  rcases h with ⟨-, -, hdone, -, hoops⟩ | ⟨rfl, -⟩ | rfl | ⟨rfl, -⟩
  · refine ⟨?_, hoops⟩
    rintro rfl
    cases hdone
  · simp
  · simp
  · simp

/-- Whatever its thread does, a doomed call stays doomed. -/
theorem Doomed.of_thread (h : Doomed e w t) (hkeeps : Keeps t t') :
    Doomed e w t' := by
  rcases h with ⟨hexited, hpointed, hrest⟩ | ⟨he, hpointed⟩ | he | ⟨he, hexited⟩
  · obtain ⟨hexited', hsame⟩ := hkeeps.exited hexited
    exact .inl ⟨hexited', hsame.trans hpointed, hrest⟩
  · exact .inr (.inl ⟨he, hkeeps.clear hpointed⟩)
  · exact .inr (.inr (.inl he))
  · exact .inr (.inr (.inr ⟨he, (hkeeps.exited hexited).1⟩))

/-- Away from its call, a doomed thread has exited, and is still pointed to. -/
theorem Doomed.gone (h : Doomed e w t) (hargument : e ≠ .task w .argument)
    (hstop : ∀ task, e ≠ .task w (.stop task)) :
    t.pc = .exited ∧ t.pointed = true ∧ e.done w = false ∧ e ≠ .task w .wait := by
  rcases h with ⟨hexited, hpointed, hdone, hwait, -⟩ | ⟨he, -⟩ | he | ⟨he, -⟩
  · exact ⟨hexited, hpointed, hdone, hwait⟩
  · exact absurd he hargument
  · exact absurd he (hstop false)
  · exact absurd he (hstop true)

/-- It stays so until `kernel_thread_exit` is done with it. -/
theorem Doomed.later (h : Doomed e w t) (hargument : e ≠ .task w .argument)
    (hstop : ∀ task, e ≠ .task w (.stop task))
    (hdone : e'.done w = true → e.done w = true) (hwait : e' ≠ .task w .wait)
    (hoops : e' ≠ .oops) : Doomed e' w t := by
  obtain ⟨hexited, hpointed, hnot, -⟩ := h.gone hargument hstop
  refine .inl ⟨hexited, hpointed, ?_, hwait, hoops⟩
  by_contra hdone'
  rw [hdone (by simpa using hdone')] at hnot
  cases hnot

/-- The task that `kernel_thread_exit` leaves is another one. -/
theorem Doomed.ne_left (h : Doomed s.exit w (s.threads w)) {v : Task}
    (hleft : (s.exit = .task v .test ∧ (s.threads v).pointed = false) ∨
      (s.exit = .task v .wait ∧ (s.threads v).pc = .exited)) : w ≠ v := by
  rintro rfl
  rcases hleft with ⟨hexit, hclear⟩ | ⟨hexit, -⟩
  · have hpointed := (h.gone (by simp [hexit]) (by simp [hexit])).2.1
    rw [hclear] at hpointed
    cases hpointed
  · exact (h.gone (by simp [hexit]) (by simp [hexit])).2.2.2 hexit

/-- A doomed thread has exited when `kthread_stop` is called with it. -/
theorem Doomed.exited_of_stop (h : Doomed (.task w (.stop true)) w t) :
    t.pc = .exited := by
  rcases h with ⟨hexited, -⟩ | ⟨he, -⟩ | he | ⟨-, hexited⟩
  · exact hexited
  · cases he
  · cases he
  · exact hexited

/-- The statements of `kernel_thread_exit` lead to the call. -/
theorem doomed_exitStep (h : Doomed s.exit w (s.threads w))
    (hstep : exitStep s = some (s', ev)) :
    WentWrong ev ∨ Doomed s'.exit w (s'.threads w) := by
  rcases exitStep_cases hstep with ⟨hexit, rfl, -⟩ |
      ⟨v, hexit, -, rfl, -⟩ | ⟨v, hleft, rfl, -⟩ | ⟨v, hexit, rfl, -⟩ |
      ⟨v, hexit, rfl, rfl⟩ | ⟨v, hexit, rfl, rfl⟩
  · -- `kernel_thread_exit` is called
    rw [hexit] at h
    exact .inr (h.later (by simp) (by simp) (by cases w <;> simp [ExitPc.done])
      (by simp) (by simp))
  · -- the pointer is set, so its argument is loaded next
    rw [hexit] at h
    exact .inr (h.later (by simp) (by simp)
      (fun he => done_task v w .argument .test ▸ he) (by simp) (by simp))
  · -- it goes on to the next task, or returns
    have hne := h.ne_left hleft
    obtain ⟨phase, hexit, hargument, hstop⟩ : ∃ phase, s.exit = .task v phase ∧
        s.exit ≠ .task w .argument ∧ ∀ task, s.exit ≠ .task w (.stop task) := by
      rcases hleft with ⟨hexit, -⟩ | ⟨hexit, -⟩
      · exact ⟨.test, hexit, by simp [hexit], by simp [hexit]⟩
      · exact ⟨.wait, hexit, by simp [hexit], by simp [hexit]⟩
    refine .inr (h.later hargument hstop (fun he => ?_) next_ne_stopping.2.1 ?_)
    · rw [hexit]
      exact ((done_next phase).mp he).resolve_right hne
    · cases v <;> simp [Task.next]
  · -- the argument is loaded: a pointer that was cleared since gives NULL
    rw [hexit] at h
    rcases h with ⟨hexited, hpointed, hdone, -⟩ | ⟨he, hclear⟩ | he | ⟨he, -⟩
    · rw [done_task v w .argument (.stop (s.threads v).pointed)] at hdone
      exact .inr (.inl ⟨hexited, hpointed, hdone, by simp, by simp⟩)
    · cases he
      exact .inr (.inr (.inr (.inl (by simp [hclear]))))
    all_goals cases he
  · -- `kthread_stop` sets the flag of its own task only
    rw [hexit] at h
    by_cases hvw : v = w
    · subst hvw
      have hexited := h.exited_of_stop
      exact .inl ⟨v, true, _, List.mem_singleton_self _, by simp [hexited]⟩
    · right
      simp only [Function.update_of_ne (Ne.symm hvw)]
      exact h.later (by simp) (by simp [hvw])
        (fun he => done_task v w .wait (.stop true) ▸ he) (by simp [hvw]) (by simp)
  · -- `kthread_stop(NULL)`
    exact .inl ⟨v, false, _, List.mem_singleton_self _, by simp⟩

theorem doomed_step (h : Doomed s.exit w (s.threads w))
    (hstep : step source s a = some (s', ev)) :
    WentWrong ev ∨ Doomed s'.exit w (s'.threads w) := by
  rcases step_cases hstep with ⟨-, hexit, hkeeps⟩ | hexit
  · rw [hexit]
    exact .inr (h.of_thread (hkeeps w))
  · exact doomed_exitStep h hexit

/-- What holds of a thread in every run: it was told before
`kernel_thread_exit` waits for it, and before that is done with it, unless its
pointer was clear. -/
structure Told (e : ExitPc) (w : Task) (t : Thread) : Prop where
  wait : e = .task w .wait → t.shouldStop = true
  done : e.done w = true → t.shouldStop = true ∨ t.pointed = false

theorem Told.of_thread (h : Told e w t) (hkeeps : Keeps t t') : Told e w t' :=
  ⟨hkeeps.told ▸ h.wait, fun he => hkeeps.told ▸ (h.done he).imp_right hkeeps.clear⟩

theorem told_exitStep (h : ∀ v, Told s.exit v (s.threads v))
    (hstep : exitStep s = some (s', ev)) (w : Task) :
    Told s'.exit w (s'.threads w) := by
  have hw := h w
  rcases exitStep_cases hstep with ⟨hexit, rfl, -⟩ |
      ⟨v, hexit, -, rfl, -⟩ | ⟨v, hleft, rfl, -⟩ | ⟨v, hexit, rfl, -⟩ |
      ⟨v, hexit, rfl, -⟩ | ⟨v, hexit, rfl, -⟩
  · exact ⟨by simp, by cases w <;> simp [ExitPc.done]⟩
  · rw [hexit] at hw
    exact ⟨by simp, fun he => hw.done (done_task v w .argument .test ▸ he)⟩
  · -- a task that is left was told, or its pointer was clear
    refine ⟨fun he => absurd he next_ne_stopping.2.1, fun he => ?_⟩
    rcases hleft with ⟨hexit, hclear⟩ | ⟨hexit, -⟩
    · rw [hexit] at hw
      rcases (done_next .test).mp he with he | rfl
      · exact hw.done he
      · exact .inr hclear
    · rw [hexit] at hw
      rcases (done_next .wait).mp he with he | rfl
      · exact hw.done he
      · exact .inl (hw.wait rfl)
  · rw [hexit] at hw
    exact ⟨by simp, fun he => hw.done (done_task v w (.stop _) .argument ▸ he)⟩
  · -- `kthread_stop` is what tells it
    by_cases hvw : w = v
    · subst hvw
      exact ⟨fun _ => by simp, by simp⟩
    · simp only [Function.update_of_ne hvw]
      rw [hexit] at hw
      refine ⟨?_, fun he => hw.done (done_task v w .wait (.stop true) ▸ he)⟩
      rintro ⟨⟩
      exact absurd rfl hvw
  · exact ⟨by simp, by simp [ExitPc.done]⟩

theorem told_step (h : ∀ v, Told s.exit v (s.threads v))
    (hstep : step source s a = some (s', ev)) (w : Task) :
    Told s'.exit w (s'.threads w) := by
  rcases step_cases hstep with ⟨-, hexit, hkeeps⟩ | hexit
  · rw [hexit]
    exact (h w).of_thread (hkeeps w)
  · exact told_exitStep h hexit w

/-- An oops is the end of a call that went wrong. -/
theorem wentWrong_of_oops (hstep : step source s a = some (s', ev))
    (hbefore : s.exit = .oops → WentWrong tr) (hoops : s'.exit = .oops) :
    WentWrong (tr ++ ev) := by
  rcases step_cases hstep with ⟨-, hexit, -⟩ | hexit
  · exact (hbefore (hexit ▸ hoops)).append_left _
  rcases exitStep_cases hexit with ⟨-, rfl, -⟩ | ⟨v, -, -, rfl, -⟩ |
      ⟨v, -, rfl, -⟩ | ⟨v, -, rfl, -⟩ | ⟨v, -, rfl, -⟩ | ⟨v, -, -, rfl⟩
  · cases hoops
  · cases hoops
  · cases v <;> cases hoops
  · cases hoops
  · cases hoops
  · refine WentWrong.append_right ?_ tr
    exact ⟨v, false, _, List.mem_singleton_self _, by simp⟩

theorem told_of_run {acts : List Act} (hrun : (system source).run acts = some (s, tr)) :
    (∀ w, Told s.exit w (s.threads w)) ∧ (s.exit = .oops → WentWrong tr) := by
  refine (system source).run_induction
    (P := fun _ s tr => (∀ w, Told s.exit w (s.threads w)) ∧
      (s.exit = .oops → WentWrong tr)) ⟨fun w => ⟨?_, ?_⟩, ?_⟩ ?_ hrun
  · simp [system]
  · simp [system, ExitPc.done]
  · simp [system]
  · intro _ s tr a s' ev _ ⟨htold, hoops⟩ hstep
    exact ⟨told_step htold hstep, wentWrong_of_oops hstep hoops⟩

/-- A thread that does not leave in time dooms the call that stops it. -/
theorem doomed_of_not_leavesInTime (htold : Told s.exit w (s.threads w))
    (hlaw : StoppedAlive s tr) (hoops : s.exit = .oops → WentWrong tr)
    (ht : threadStep source (s.threads w) = some t')
    (hbad : ¬ LeavesInTime s.exit w (s.threads w)) : Doomed s.exit w t' := by
  rcases Classical.not_and_iff_not_or_not.mp hbad with hclear | hexit
  · push Not at hclear
    obtain ⟨hpc, he⟩ := hclear
    rw [threadStep, hpc] at ht
    cases ht
    exact .inr (.inl ⟨he, rfl⟩)
  · push Not at hexit
    obtain ⟨hpc, hnot, hheld⟩ := hexit
    rw [threadStep, hpc] at ht
    cases ht
    by_cases hpointed : (s.threads w).pointed = false
    · exact .inr (.inr (.inr ⟨hheld hpointed, rfl⟩))
    · refine .inl ⟨rfl, by simpa using hpointed, ?_, fun he => hnot (htold.wait he),
        fun he => hlaw.not_wentWrong (hoops he)⟩
      by_contra hdone
      rcases htold.done (by simpa using hdone) with he | he
      · exact hnot he
      · exact hpointed he

/-! ## Runs -/

/-- A run in which everybody is in time stops its threads alive. -/
theorem stoppedAlive_of_inTime (acts : List Act)
    (hok : (system source).Meets InTime acts) :
    (system source).Always StoppedAlive acts := by
  intro before s tr hpre hrun
  have hlaw := hok.run_induction
    (P := fun _ s tr => Inv s ∧ ∀ w task exited,
      .kthreadStop w task exited ∈ tr → task = true ∧ exited = false)
    ⟨inv_init, by simp⟩ ?_ before s tr hpre hrun
  · exact ⟨hlaw.2, hlaw.1.returned⟩
  · rintro before s tr a s' ev - ⟨hinv, hcalls⟩ hstep hin
    refine ⟨hinv.step hstep hin, fun w task exited hmem => ?_⟩
    rcases List.mem_append.mp hmem with hmem | hmem
    · exact hcalls w task exited hmem
    · exact hinv.call hstep hmem

/-- `kernel_thread_exit` does not return before its time in a run that stops
its threads alive. -/
theorem inTime_exit (hstep : exitStep s = some (s', ev))
    (hafter : StoppedAlive s' (tr ++ ev)) : InTime s .exit := by
  have hreturned : Returns s → s' = { s with exit := .returned } := by
    rintro (⟨hexit, hclear⟩ | hexit)
    · simp only [exitStep, hexit, hclear, Bool.false_eq_true, if_false] at hstep
      cases hstep
      rfl
    · simp only [exitStep, hexit] at hstep
      split_ifs at hstep
      cases hstep
      rfl
  intro hreturns w _ _
  have hlaw := hafter.returned
  rw [hreturned hreturns] at hlaw
  exact hlaw rfl w

/-- In a run in which `kernel_thread_exit` ended, the condition is also
necessary. -/
theorem inTime_of_stoppedAlive {acts : List Act}
    (hrun : (system source).run acts = some (s, tr))
    (hended : s.exit = .returned ∨ s.exit = .oops)
    (halways : (system source).Always StoppedAlive acts) :
    (system source).Meets InTime acts := by
  intro before a s₁ tr₁ hpre hbefore henabled
  by_contra hbad
  obtain ⟨⟨s₂, ev⟩, hstep⟩ := Option.isSome_iff_exists.mp henabled
  have hlaw := halways before s₁ tr₁
    ((List.prefix_append before [a]).trans hpre) hbefore
  have hafter := (system source).run_concat_of_step hbefore hstep
  cases a with
  | exit => exact hbad (inTime_exit hstep (halways _ _ _ hpre hafter))
  | sigkill w => exact hbad trivial
  | thread w =>
      obtain ⟨t', ht, heq⟩ := Option.map_eq_some_iff.mp hstep
      obtain ⟨htold, hoops⟩ := told_of_run hbefore
      have hdoomed : Doomed s₂.exit w (s₂.threads w) := by
        cases heq
        simpa using doomed_of_not_leavesInTime (htold w) hlaw hoops ht hbad
      have hend := (system source).run_persists
        (P := fun s tr => WentWrong tr ∨ Doomed s.exit w (s.threads w))
        hafter (.inr hdoomed) hpre ?_ hrun
      · rcases hend with hwrong | hdoomed
        · exact (halways acts s tr List.prefix_rfl hrun).not_wentWrong hwrong
        · exact hended.elim hdoomed.not_ended.1 hdoomed.not_ended.2
      · rintro s tr a s' ev (hwrong | hdoomed) hstep
        · exact .inl (hwrong.append_left ev)
        · exact (doomed_step hdoomed hstep).imp_left fun h => h.append_right tr

/-- A run in which everybody is in time stops its threads alive, and a run in
which `kernel_thread_exit` ended does so only then. -/
theorem stoppedAlive_iff_inTime (source : Source) (acts : List Act) :
    ((system source).Meets InTime acts →
      (system source).Always StoppedAlive acts) ∧
    ∀ s tr, (system source).run acts = some (s, tr) →
      s.exit = .returned ∨ s.exit = .oops →
      (system source).Always StoppedAlive acts →
      (system source).Meets InTime acts :=
  ⟨stoppedAlive_of_inTime acts, fun _ _ => inTime_of_stoppedAlive⟩

instance {p : Task → Prop} [DecidablePred p] : Decidable (∀ w, p w) :=
  decidable_of_iff (p .worker ∧ p .default)
    ⟨fun h w => by cases w; exacts [h.1, h.2], fun h => ⟨h _, h _⟩⟩

instance (e : ExitPc) (w : Task) (t : Thread) : Decidable (LeavesInTime e w t) :=
  inferInstanceAs (Decidable (_ ∧ _))

instance (s : State) : Decidable (Returns s) :=
  inferInstanceAs (Decidable (_ ∨ _))

instance (s : State) : (a : Act) → Decidable (InTime s a)
  | .thread w => inferInstanceAs (Decidable (LeavesInTime _ w _))
  | .sigkill _ => .isTrue trivial
  | .exit => inferInstanceAs (Decidable (_ → _))

/-- `signal2.c` is unloaded while its worker loops and its default thread has
not run yet. -/
def unloaded : List Act :=
  [.thread .worker, .thread .worker, .exit, .exit, .exit, .exit,
    .thread .worker, .thread .worker, .thread .worker, .exit, .exit, .exit,
    .exit, .thread .default, .exit]

theorem stoppedAlive_unloaded :
    (system .signal2).Always StoppedAlive unloaded ∧
      (system .signal2).Meets InTime unloaded :=
  have hok := System.meets_of_check (by decide +kernel)
  have h := stoppedAlive_iff_inTime .signal2 unloaded
  ⟨h.1 hok, h.2 _ _ rfl (.inl rfl) (h.1 hok)⟩

/-- A thread of either module is killed after its first round.  In `thread2.c`
it exits, and `kthread_stop` is called with it; in `signal2.c` the module is
gone before it has exited. -/
theorem killed_worker :
    (¬ (system .thread2).Always StoppedAlive
      [.thread .worker, .thread .worker, .thread .worker, .thread .worker,
        .sigkill .worker, .thread .worker, .thread .worker, .exit, .exit, .exit,
        .exit]) ∧
    ¬ (system .signal2).Always StoppedAlive
      [.thread .worker, .thread .worker, .thread .worker, .thread .worker,
        .sigkill .worker, .thread .worker, .thread .worker, .exit, .exit, .exit,
        .exit, .exit, .thread .default, .exit] := by
  constructor
  · intro h
    have hlaw := h _ _ _ List.prefix_rfl rfl
    have hcall := hlaw.calls .worker true true (List.mem_singleton_self _)
    exact absurd hcall.2 (by decide)
  · intro h
    have hlaw := h _ _ _ List.prefix_rfl rfl
    exact absurd (hlaw.returned rfl .worker) (by decide)

end Kthread
end KernelDrivers
