import KernelDrivers.Lib.Pool
import KernelDrivers.Lib.System
import Mathlib.Data.UInt

/-!
# The two threads of `sem1.c`

Both thread functions increment `test_global_variable` between a
`down_interruptible` and an `up`.  They ignore what `down_interruptible`
returns, so a thread whose wait was interrupted goes into the section without
the semaphore, and gives back at the end what it never took.

An interruption ends a wait, and `down_interruptible` waits only while the
count is zero.
-/

namespace KernelDrivers
namespace Semaphore

open Lib

/-- The next statement of `thread_function1` or `thread_function2`. -/
inductive ThreadPc where
  | down
  /-- `test_global_variable++` as a load and a store. -/
  | load
  | store (loaded : UInt64)
  | print
  | up
  deriving DecidableEq

/-- A thread, and the number in its message. -/
structure Thread where
  number : Nat
  pc : ThreadPc
  deriving DecidableEq

/-- Between `down_interruptible` and `up`. -/
def ThreadPc.inSection : ThreadPc → Bool
  | .down => false
  | _ => true

def Thread.inSection (t : Thread) : Bool := t.pc.inSection

/-- The next statement of `test_driver_init`. -/
inductive InitPc where
  | semaInit
  | thread1
  | thread2
  | done
  deriving DecidableEq

structure Sem1 where
  /-- The count of `sem`. -/
  count : Nat
  testGlobalVariable : UInt64
  init : InitPc
  threads : List Thread
  deriving DecidableEq

inductive Event where
  /-- The store of `test_global_variable++`. -/
  | incremented
  /-- "In Thread Function". -/
  | printed (number : Nat) (value : UInt64)
  deriving DecidableEq

inductive Act where
  | semaInit
  /-- `kthread_run`.  A failure is an error pointer, which passes the test. -/
  | kthreadRun (started : Bool)
  | thread (i : Nat)
  /-- `down_interruptible` returns `-EINTR`. -/
  | interrupted (i : Nat)
  deriving DecidableEq

/-- One statement of a thread, its `down_interruptible` taking the
semaphore. -/
def threadFunction (s : Sem1) (t : Thread) :
    Option (Sem1 × ThreadPc × List Event) :=
  match t.pc with
  | .down =>
      if s.count = 0 then none
      else some ({ s with count := s.count - 1 }, .load, [])
  | .load => some (s, .store s.testGlobalVariable, [])
  | .store loaded =>
      some ({ s with testGlobalVariable := loaded + 1 }, .print, [.incremented])
  | .print => some (s, .up, [.printed t.number s.testGlobalVariable])
  | .up => some ({ s with count := s.count + 1 }, .down, [])

/-- The interrupted wait of a `down_interruptible`. -/
def interrupt (s : Sem1) (t : Thread) : Option ThreadPc :=
  if t.pc = .down ∧ s.count = 0 then some .load else none

/-- `kthread_run`: the new threads. -/
def spawn (s : Sem1) (number : Nat) (started : Bool) : List Thread :=
  if started then s.threads ++ [⟨number, .down⟩] else s.threads

def Sem1.step (s : Sem1) : Act → Option (Sem1 × List Event)
  | .semaInit =>
      if s.init = .semaInit then
        some ({ s with count := 1, init := .thread1 }, [])
      else none
  | .kthreadRun started =>
      match s.init with
      | .thread1 =>
          some ({ s with init := .thread2, threads := spawn s 1 started }, [])
      | .thread2 =>
          some ({ s with init := .done, threads := spawn s 2 started }, [])
      | _ => none
  | .thread i =>
      match s.threads[i]? with
      | none => none
      | some t =>
          (threadFunction s t).map fun (s', pc, ev) =>
            ({ s' with threads := s.threads.set i { t with pc := pc } }, ev)
  | .interrupted i =>
      match s.threads[i]? with
      | none => none
      | some t =>
          (interrupt s t).map fun pc =>
            ({ s with threads := s.threads.set i { t with pc := pc } }, [])

def Sem1.initial : Sem1 := ⟨0, 0, .semaInit, []⟩

def sem1 : System Sem1 Act Event where
  init := Sem1.initial
  step := Sem1.step

/-! ## What one step can do -/

inductive Step (s : Sem1) : Act → Sem1 → List Event → Prop
  | semaInit : s.init = .semaInit →
      Step s .semaInit { s with count := 1, init := .thread1 } []
  | kthreadRun (number : Nat) (started : Bool) {next : InitPc} :
      s.init ≠ .semaInit → next ≠ .semaInit →
      Step s (.kthreadRun started)
        { s with init := next, threads := spawn s number started } []
  | down {i : Nat} {t : Thread} :
      s.threads[i]? = some t → t.pc = .down → 0 < s.count →
      Step s (.thread i) { s with
        count := s.count - 1
        threads := s.threads.set i { t with pc := .load } } []
  | load {i : Nat} {t : Thread} : s.threads[i]? = some t → t.pc = .load →
      Step s (.thread i) { s with
        threads := s.threads.set i
          { t with pc := .store s.testGlobalVariable } } []
  | store {i : Nat} {t : Thread} {loaded : UInt64} :
      s.threads[i]? = some t → t.pc = .store loaded →
      Step s (.thread i) { s with
        testGlobalVariable := loaded + 1
        threads := s.threads.set i { t with pc := .print } } [.incremented]
  | print {i : Nat} {t : Thread} : s.threads[i]? = some t → t.pc = .print →
      Step s (.thread i)
        { s with threads := s.threads.set i { t with pc := .up } }
        [.printed t.number s.testGlobalVariable]
  | up {i : Nat} {t : Thread} : s.threads[i]? = some t → t.pc = .up →
      Step s (.thread i) { s with
        count := s.count + 1
        threads := s.threads.set i { t with pc := .down } } []
  | interrupted {i : Nat} {t : Thread} :
      s.threads[i]? = some t → t.pc = .down → s.count = 0 →
      Step s (.interrupted i)
        { s with threads := s.threads.set i { t with pc := .load } } []

variable {s s' : Sem1} {a : Act} {tr ev : List Event}

theorem thread_cases {i : Nat} (h : sem1.step s (.thread i) = some (s', ev)) :
    Step s (.thread i) s' ev := by
  simp only [sem1, Sem1.step] at h
  cases ht : s.threads[i]? with
  | none =>
      simp only [ht] at h
      cases h
  | some t =>
      simp only [ht] at h
      obtain ⟨⟨s'', pc, ev'⟩, hstep, heq⟩ := Option.map_eq_some_iff.mp h
      cases heq
      unfold threadFunction at hstep
      cases hpc : t.pc with
      | down =>
          simp only [hpc] at hstep
          split_ifs at hstep with hzero
          cases hstep
          exact .down ht hpc (Nat.pos_of_ne_zero hzero)
      | load =>
          simp only [hpc] at hstep
          cases hstep
          exact .load ht hpc
      | store loaded =>
          simp only [hpc] at hstep
          cases hstep
          exact .store ht hpc
      | print =>
          simp only [hpc] at hstep
          cases hstep
          exact .print ht hpc
      | up =>
          simp only [hpc] at hstep
          cases hstep
          exact .up ht hpc

theorem step_cases (h : sem1.step s a = some (s', ev)) : Step s a s' ev := by
  cases a with
  | semaInit =>
      simp only [sem1, Sem1.step] at h
      split_ifs at h with hinit
      cases h
      exact .semaInit hinit
  | kthreadRun started =>
      simp only [sem1, Sem1.step] at h
      cases hinit : s.init with
      | thread1 =>
          simp only [hinit] at h
          cases h
          exact .kthreadRun 1 started (by simp [hinit]) (by decide)
      | thread2 =>
          simp only [hinit] at h
          cases h
          exact .kthreadRun 2 started (by simp [hinit]) (by decide)
      | semaInit | done =>
          simp only [hinit] at h
          cases h
  | thread i => exact thread_cases h
  | interrupted i =>
      simp only [sem1, Sem1.step] at h
      cases ht : s.threads[i]? with
      | none =>
          simp only [ht] at h
          cases h
      | some t =>
          simp only [ht] at h
          obtain ⟨pc, hpc, heq⟩ := Option.map_eq_some_iff.mp h
          cases heq
          unfold interrupt at hpc
          split_ifs at hpc with hguard
          cases hpc
          exact .interrupted ht hguard.1 hguard.2

/-! ## The count and the section -/

/-- How many threads are between `down_interruptible` and `up`. -/
def inside (threads : List Thread) : Nat := threads.countP Thread.inSection

/-- Increments done. -/
def increments (tr : List Event) : Nat := tr.count .incremented

/-- At most one thread is in the section, the count is 0 or 1, and the variable
has every increment. -/
structure Exclusive (s : Sem1) (tr : List Event) : Prop where
  atMostOne : inside s.threads ≤ 1
  count : s.count = 0 ∨ s.count = 1
  noneLost : s.testGlobalVariable.toNat = increments tr % 2 ^ 64

/-- No wait of a `down_interruptible` is interrupted. -/
def NotInterrupted (_ : Sem1) : Act → Prop
  | .interrupted _ => False
  | _ => True

instance (s : Sem1) (a : Act) : Decidable (NotInterrupted s a) := by
  cases a <;> unfold NotInterrupted <;> infer_instance

/-- Before `sema_init` nothing runs. -/
def NotStarted (s : Sem1) : Prop :=
  s.init = .semaInit ∧ s.count = 0 ∧ s.threads = []

section Inside

variable {i : Nat} {t : Thread} {pc : ThreadPc}

theorem inside_set (ht : s.threads[i]? = some t) (pc : ThreadPc) :
    inside (s.threads.set i { t with pc := pc }) + t.pc.inSection.toNat =
      inside s.threads + pc.inSection.toNat :=
  Pool.countP_set Thread.inSection { t with pc := pc } ht

theorem inside_enter (ht : s.threads[i]? = some t) (hpc : t.pc = .down) :
    inside (s.threads.set i { t with pc := .load }) = inside s.threads + 1 := by
  have hset := inside_set ht .load
  rw [hpc] at hset
  exact hset

theorem inside_stay (ht : s.threads[i]? = some t)
    (hpc : t.pc.inSection = true) (hpc' : pc.inSection = true) :
    inside (s.threads.set i { t with pc := pc }) = inside s.threads := by
  have hset := inside_set ht pc
  rw [hpc, hpc'] at hset
  exact Nat.add_right_cancel hset

theorem inside_leave (ht : s.threads[i]? = some t) (hpc : t.pc = .up) :
    inside (s.threads.set i { t with pc := .down }) + 1 =
      inside s.threads := by
  have hset := inside_set ht .down
  rw [hpc] at hset
  exact hset

theorem inside_spawn (s : Sem1) (number : Nat) (started : Bool) :
    inside (spawn s number started) = inside s.threads := by
  cases started with
  | false => rfl
  | true => exact Pool.countP_concat Thread.inSection ⟨number, .down⟩

end Inside

/-- The count and the threads inside, together, change by an interruption
alone. -/
theorem Step.balance (h : Step s a s' ev) (hinit : s.init ≠ .semaInit)
    (hok : NotInterrupted s a) : s'.init ≠ .semaInit ∧
      s'.count + inside s'.threads = s.count + inside s.threads := by
  cases h with
  | semaInit hfirst => exact absurd hfirst hinit
  | kthreadRun number started _ hnext =>
      exact ⟨hnext, congrArg (s.count + ·) (inside_spawn s number started)⟩
  | down ht hpc hpos =>
      refine ⟨hinit, ?_⟩
      dsimp only
      rw [inside_enter ht hpc]
      omega
  | load ht hpc | store ht hpc | print ht hpc =>
      refine ⟨hinit, congrArg (s.count + ·) ?_⟩
      exact inside_stay ht (by rw [hpc]; rfl) rfl
  | up ht hpc =>
      have hleave := inside_leave ht hpc
      refine ⟨hinit, ?_⟩
      dsimp only
      omega
  | interrupted => exact absurd hok id

/-- A wait ends with a thread inside already: interrupted or not, the count
never falls behind. -/
theorem started_of_reachable (h : sem1.Reachable s) : NotStarted s ∨
    s.init ≠ .semaInit ∧ 1 ≤ s.count + inside s.threads := by
  refine sem1.reachable_invariant (I := fun s => NotStarted s ∨
    s.init ≠ .semaInit ∧ 1 ≤ s.count + inside s.threads) ?_ ?_ h
  · exact Or.inl ⟨rfl, rfl, rfl⟩
  · intro s a s' ev ih hstep
    have hcase := step_cases hstep
    rcases ih with hnot | ⟨hinit, hpos⟩
    · cases hcase with
      | semaInit => exact Or.inr ⟨by simp, Nat.le_add_right 1 _⟩
      | kthreadRun _ _ hother => exact absurd hnot.1 hother
      | down ht | load ht | store ht | print ht | up ht | interrupted ht =>
          rw [hnot.2.2] at ht
          cases ht
    · refine Or.inr ?_
      by_cases hok : NotInterrupted s a
      · have hbalance := hcase.balance hinit hok
        exact ⟨hbalance.1, hbalance.2 ▸ hpos⟩
      · cases hcase with
        | interrupted ht hpc hzero =>
            refine ⟨hinit, ?_⟩
            dsimp only
            rw [inside_enter ht hpc]
            omega
        | _ => exact absurd trivial hok

/-- What holds while no wait is interrupted. -/
structure Inv (s : Sem1) (tr : List Event) : Prop where
  balance : NotStarted s ∨
    s.init ≠ .semaInit ∧ s.count + inside s.threads = 1
  loaded : ∀ t ∈ s.threads, ∀ v, t.pc = .store v → v = s.testGlobalVariable
  total : s.testGlobalVariable.toNat = increments tr % 2 ^ 64

theorem Inv.exclusive (h : Inv s tr) : Exclusive s tr := by
  have hsum : s.count + inside s.threads ≤ 1 := by
    rcases h.balance with ⟨-, hcount, hthreads⟩ | ⟨-, hone⟩
    · rw [hcount, hthreads]
      decide
    · omega
  exact ⟨by omega, by omega, h.total⟩

theorem Inv.loaded_step (h : Inv s tr) (hstep : Step s a s' ev) :
    ∀ t ∈ s'.threads, ∀ v, t.pc = .store v → v = s'.testGlobalVariable := by
  cases hstep with
  | semaInit => exact h.loaded
  | kthreadRun number started =>
      cases started with
      | false => exact h.loaded
      | true => exact Pool.forall_concat h.loaded (by simp)
  | load ht => exact Pool.forall_set h.loaded (by simp)
  | down | print | up | interrupted =>
      exact Pool.forall_set h.loaded (by simp)
  | @store i t loaded ht hpc =>
      intro t' ht' v hv
      obtain ⟨j, hj⟩ := List.mem_iff_getElem?.mp ht'
      rcases Pool.set_cases hj with ⟨-, rfl⟩ | ⟨hji, hj⟩
      · cases hv
      · -- two threads between load and store would both be inside
        have hsame := Pool.eq_of_countP_le_one h.exclusive.atMostOne ht
          (by simp [Thread.inSection, hpc, ThreadPc.inSection]) hj
          (by simp [Thread.inSection, hv, ThreadPc.inSection])
        exact absurd hsame hji

theorem Inv.total_step (h : Inv s tr) (hstep : Step s a s' ev) :
    s'.testGlobalVariable.toNat = increments (tr ++ ev) % 2 ^ 64 := by
  have htotal := h.total
  unfold increments at *
  rw [List.count_append]
  cases hstep with
  | @store i t loaded ht hpc =>
      have hloaded := h.loaded t (List.mem_of_getElem? ht) loaded hpc
      show (loaded + 1).toNat = _
      rw [hloaded, UInt64.toNat_add, htotal, List.count_singleton_self]
      simp
  | _ => simpa using htotal

theorem Inv.step (h : Inv s tr) (hstep : Step s a s' ev)
    (hok : NotInterrupted s a) : Inv s' (tr ++ ev) := by
  refine ⟨?_, h.loaded_step hstep, h.total_step hstep⟩
  rcases h.balance with hnot | ⟨hinit, hone⟩
  · cases hstep with
    | semaInit =>
        refine Or.inr ⟨by simp, ?_⟩
        show 1 + inside s.threads = 1
        rw [hnot.2.2]
        rfl
    | kthreadRun _ _ hother => exact absurd hnot.1 hother
    | down ht | load ht | store ht | print ht | up ht | interrupted ht =>
        rw [hnot.2.2] at ht
        cases ht
  · have hbalance := hstep.balance hinit hok
    exact Or.inr ⟨hbalance.1, hbalance.2.trans hone⟩

/-- The exclusion holds at every point of a run if and only if no wait in it is
interrupted. -/
theorem exclusive_iff_notInterrupted (acts : List Act) :
    sem1.Always Exclusive acts ↔ sem1.Meets NotInterrupted acts := by
  constructor
  · intro halways
    refine halways.meets fun s tr a s' ev hreach _ hstep hbad hafter => ?_
    cases step_cases hstep with
    | @interrupted i t ht hpc hzero =>
        have hone := hafter.atMostOne
        dsimp only at hone
        rw [inside_enter ht hpc] at hone
        rcases started_of_reachable hreach with hnot | ⟨-, hpos⟩
        · rw [hnot.2.2] at ht
          cases ht
        · omega
    | _ => exact hbad trivial
  · intro hmeets before s tr hpre hrun
    have hinv : sem1.Always Inv acts := by
      refine hmeets.always ⟨Or.inl ⟨rfl, rfl, rfl⟩, ?_, rfl⟩ ?_
      · intro t ht
        cases ht
      · intro s tr a s' ev _ h hstep hok
        exact h.step (step_cases hstep) hok
    exact (hinv before s tr hpre hrun).exclusive

/-- The second thread is interrupted in its wait and goes in beside the
first. -/
def interruptedWait : List Act :=
  [.semaInit, .kthreadRun true, .kthreadRun true, .thread 0, .thread 0,
    .interrupted 1, .thread 1, .thread 1, .thread 0, .thread 0, .thread 1,
    .thread 0, .thread 1]

/-- Both threads are through: one of the two increments is lost, and the count
stays at 2. -/
theorem interrupted_wait_loses_increment :
    ∃ s tr, sem1.run interruptedWait = some (s, tr) ∧ ¬ Exclusive s tr ∧
      s.testGlobalVariable = 1 ∧ increments tr = 2 ∧ s.count = 2 := by
  refine ⟨_, _, rfl, fun hlaw => ?_, rfl, rfl, rfl⟩
  exact absurd hlaw.count (by decide)

end Semaphore
end KernelDrivers
