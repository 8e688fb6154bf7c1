import KernelDrivers.Lib.Pool
import KernelDrivers.Lib.System
import Mathlib.Data.UInt

/-!
# The two threads of `atomic1.c`

Both thread functions increment `test_global_variable`, change bit 1 of
`etc_bit_check` and print the variable with the bit as it was.  Each of the
three is atomic, but they are not one section: the other thread may come
between them.
-/

namespace KernelDrivers
namespace AtomicVariable

open Lib

/-- The next statement of `thread_function1` or `thread_function2`. -/
inductive ThreadPc where
  /-- `kthread_should_stop`. -/
  | test
  | atomicInc
  | testAndChangeBit
  | print (prevValue : UInt32)
  | returned
  deriving DecidableEq

/-- A thread, and the number in its message. -/
structure Thread where
  number : Nat
  pc : ThreadPc
  stop : Bool
  deriving DecidableEq

/-- The next `kthread_run` of `test_driver_init`. -/
inductive InitPc where
  | thread1
  | thread2
  | done
  deriving DecidableEq

structure Atomic1 where
  testGlobalVariable : UInt32
  etcBitCheck : UInt32
  init : InitPc
  threads : List Thread
  deriving DecidableEq

inductive Event where
  | incremented
  | changed (prevValue : UInt32)
  /-- "Function [value] [bit]". -/
  | printed (number : Nat) (value bit : UInt32)
  deriving DecidableEq

inductive Act where
  /-- `kthread_run`.  A failure is an error pointer, which passes the test. -/
  | kthreadRun (started : Bool)
  | thread (i : Nat)
  /-- `kthread_stop` tells the thread to return, at any time and in any
  order. -/
  | kthreadStop (i : Nat)
  deriving DecidableEq

/-- `test_and_change_bit`: the bit as it was, and the word. -/
def testAndChangeBit (nr word : UInt32) : UInt32 × UInt32 :=
  ((word >>> nr) &&& 1, word ^^^ (1 <<< nr))

/-- One statement of a thread. -/
def threadFunction (s : Atomic1) (t : Thread) :
    Option (Atomic1 × ThreadPc × List Event) :=
  match t.pc with
  | .test => some (s, if t.stop then .returned else .atomicInc, [])
  | .atomicInc =>
      some ({ s with testGlobalVariable := s.testGlobalVariable + 1 },
        .testAndChangeBit, [.incremented])
  | .testAndChangeBit =>
      let (prevValue, word) := testAndChangeBit 1 s.etcBitCheck
      some ({ s with etcBitCheck := word }, .print prevValue, [.changed prevValue])
  | .print prevValue =>
      some (s, .test, [.printed t.number s.testGlobalVariable prevValue])
  | .returned => none

/-- `kthread_run`: the threads after it. -/
def spawn (s : Atomic1) (number : Nat) (started : Bool) : List Thread :=
  if started then s.threads ++ [⟨number, .test, false⟩] else s.threads

def Atomic1.step (s : Atomic1) : Act → Option (Atomic1 × List Event)
  | .kthreadRun started =>
      match s.init with
      | .thread1 =>
          some ({ s with init := .thread2, threads := spawn s 1 started }, [])
      | .thread2 =>
          some ({ s with init := .done, threads := spawn s 2 started }, [])
      | .done => none
  | .thread i =>
      match s.threads[i]? with
      | none => none
      | some t =>
          (threadFunction s t).map fun (s', pc, ev) =>
            ({ s' with threads := s.threads.set i { t with pc := pc } }, ev)
  | .kthreadStop i =>
      match s.threads[i]? with
      | none => none
      | some t =>
          some ({ s with threads := s.threads.set i { t with stop := true } }, [])

def atomic1 : System Atomic1 Act Event where
  init := ⟨0, 0, .thread1, []⟩
  step := Atomic1.step

/-! ## What one step can do -/

inductive Step (s : Atomic1) : Act → Atomic1 → List Event → Prop
  | kthreadRun1 (started : Bool) : s.init = .thread1 →
      Step s (.kthreadRun started)
        { s with init := .thread2, threads := spawn s 1 started } []
  | kthreadRun2 (started : Bool) : s.init = .thread2 →
      Step s (.kthreadRun started)
        { s with init := .done, threads := spawn s 2 started } []
  | test {i : Nat} {t : Thread} : s.threads[i]? = some t → t.pc = .test →
      Step s (.thread i) { s with
        threads := s.threads.set i
          { t with pc := if t.stop then .returned else .atomicInc } } []
  | atomicInc {i : Nat} {t : Thread} :
      s.threads[i]? = some t → t.pc = .atomicInc →
      Step s (.thread i) { s with
        testGlobalVariable := s.testGlobalVariable + 1
        threads := s.threads.set i { t with pc := .testAndChangeBit } }
        [.incremented]
  | testAndChangeBit {i : Nat} {t : Thread} :
      s.threads[i]? = some t → t.pc = .testAndChangeBit →
      Step s (.thread i) { s with
        etcBitCheck := (testAndChangeBit 1 s.etcBitCheck).2
        threads := s.threads.set i
          { t with pc := .print (testAndChangeBit 1 s.etcBitCheck).1 } }
        [.changed (testAndChangeBit 1 s.etcBitCheck).1]
  | print {i : Nat} {t : Thread} {prevValue : UInt32} :
      s.threads[i]? = some t → t.pc = .print prevValue →
      Step s (.thread i)
        { s with threads := s.threads.set i { t with pc := .test } }
        [.printed t.number s.testGlobalVariable prevValue]
  | kthreadStop {i : Nat} {t : Thread} : s.threads[i]? = some t →
      Step s (.kthreadStop i)
        { s with threads := s.threads.set i { t with stop := true } } []

variable {s s' : Atomic1} {a : Act} {tr ev : List Event}

theorem thread_cases {i : Nat} (h : atomic1.step s (.thread i) = some (s', ev)) :
    Step s (.thread i) s' ev := by
  simp only [atomic1, Atomic1.step] at h
  cases ht : s.threads[i]? with
  | none =>
      simp only [ht] at h
      cases h
  | some t =>
      simp only [ht] at h
      obtain ⟨⟨s'', pc, ev'⟩, hstep, heq⟩ := Option.map_eq_some_iff.mp h
      cases heq
      unfold threadFunction at hstep
      cases hpc : t.pc with
      | test =>
          simp only [hpc] at hstep
          cases hstep
          exact .test ht hpc
      | atomicInc =>
          simp only [hpc] at hstep
          cases hstep
          exact .atomicInc ht hpc
      | testAndChangeBit =>
          simp only [hpc] at hstep
          cases hstep
          exact .testAndChangeBit ht hpc
      | print prevValue =>
          simp only [hpc] at hstep
          cases hstep
          exact .print ht hpc
      | returned =>
          simp only [hpc] at hstep
          cases hstep

theorem step_cases (h : atomic1.step s a = some (s', ev)) : Step s a s' ev := by
  cases a with
  | kthreadRun started =>
      simp only [atomic1, Atomic1.step] at h
      cases hinit : s.init with
      | thread1 =>
          simp only [hinit] at h
          cases h
          exact .kthreadRun1 started hinit
      | thread2 =>
          simp only [hinit] at h
          cases h
          exact .kthreadRun2 started hinit
      | done =>
          simp only [hinit] at h
          cases h
  | thread i => exact thread_cases h
  | kthreadStop i =>
      simp only [atomic1, Atomic1.step] at h
      cases ht : s.threads[i]? with
      | none =>
          simp only [ht] at h
          cases h
      | some t =>
          simp only [ht] at h
          cases h
          exact .kthreadStop ht

/-! ## The counts -/

def increments (tr : List Event) : Nat := tr.count .incremented

/-- What `test_and_change_bit` has returned, in order. -/
def bits (tr : List Event) : List UInt32 :=
  tr.filterMap fun
    | .changed prevValue => some prevValue
    | _ => none

def Event.isPrinted : Event → Bool
  | .printed _ _ _ => true
  | _ => false

def messages (tr : List Event) : Nat := tr.countP Event.isPrinted

/-- Bit 1 before the change with a number, counted from 0. -/
def bitAt (k : Nat) : UInt32 := if k % 2 = 0 then 0 else 1

/-- The variable when message `k + 1` is printed, up to the width of the type:
the increments of the messages so far and at most one more. -/
def Shows (k : Nat) (value : UInt32) : Prop :=
  value = UInt32.ofNat (k + 1) ∨ value = UInt32.ofNat (k + 2)

/-- No increment and no change of the bit is lost, and no message runs ahead or
falls behind. -/
structure Counts (s : Atomic1) (tr : List Event) : Prop where
  value : s.testGlobalVariable = UInt32.ofNat (increments tr)
  word : s.etcBitCheck = 2 * bitAt (bits tr).length
  bits : bits tr = (List.range (bits tr).length).map bitAt
  shown : History (fun before e =>
    ∀ i value bit, e = .printed i value bit → Shows (messages before) value) tr

/-- Between its increment and its message. -/
def Thread.inRound (t : Thread) : Bool :=
  match t.pc with
  | .testAndChangeBit | .print _ => true
  | _ => false

/-- Between its change of the bit and its message. -/
def Thread.atPrint (t : Thread) : Bool :=
  match t.pc with
  | .print _ => true
  | _ => false

/-- How many threads there are at most. -/
def InitPc.started : InitPc → Nat
  | .thread1 => 0
  | .thread2 => 1
  | .done => 2

/-- The rounds that have begun and not ended are those of the threads. -/
structure Rounds (s : Atomic1) (tr : List Event) : Prop where
  inRound : increments tr = messages tr + s.threads.countP Thread.inRound
  atPrint : (bits tr).length = messages tr + s.threads.countP Thread.atPrint
  threads : s.threads.length ≤ s.init.started

theorem testAndChangeBit_bitAt (k : Nat) :
    testAndChangeBit 1 (2 * bitAt k) = (bitAt k, 2 * bitAt (k + 1)) := by
  unfold bitAt
  rcases Nat.mod_two_eq_zero_or_one k with h | h
  · have h' : (k + 1) % 2 = 1 := by omega
    rw [h, h']
    decide
  · have h' : (k + 1) % 2 = 0 := by omega
    rw [h, h']
    decide

/-- A new thread is in no round. -/
theorem countP_spawn (p : Thread → Bool) (hp : ∀ n, p ⟨n, .test, false⟩ = false)
    (number : Nat) (started : Bool) :
    (spawn s number started).countP p = s.threads.countP p := by
  cases started with
  | false => rfl
  | true =>
      refine (Pool.countP_concat p _).trans ?_
      rw [hp]
      rfl

theorem length_spawn (number : Nat) (started : Bool) :
    (spawn s number started).length ≤ s.threads.length + 1 := by
  cases started with
  | false => exact Nat.le_succ _
  | true => simp [spawn]

theorem Rounds.spawn (h : Rounds s tr) (number : Nat) (started : Bool)
    {next : InitPc} (hnext : next.started = s.init.started + 1) :
    Rounds { s with init := next, threads := spawn s number started } tr := by
  have hround := countP_spawn (s := s) Thread.inRound (fun _ => rfl) number started
  have hprint := countP_spawn (s := s) Thread.atPrint (fun _ => rfl) number started
  have hlength := length_spawn (s := s) number started
  have hthreads := h.threads
  exact ⟨h.inRound.trans (congrArg _ hround.symm),
    h.atPrint.trans (congrArg _ hprint.symm), by dsimp only; omega⟩

/-- A step of one thread, and what it does to the counts. -/
theorem Rounds.set (h : Rounds s tr) {i : Nat} {t t' : Thread}
    (ht : s.threads[i]? = some t) (hthreads : s'.threads = s.threads.set i t')
    (hinit : s'.init = s.init)
    (hround : increments ev + t.inRound.toNat = messages ev + t'.inRound.toNat)
    (hprint : (bits ev).length + t.atPrint.toNat =
      messages ev + t'.atPrint.toNat) : Rounds s' (tr ++ ev) := by
  have hincs := h.inRound
  have hchanges := h.atPrint
  have hcount := Pool.countP_set Thread.inRound t' ht
  have hcount' := Pool.countP_set Thread.atPrint t' ht
  have hsum : increments (tr ++ ev) = increments tr + increments ev ∧
      (bits (tr ++ ev)).length = (bits tr).length + (bits ev).length ∧
      messages (tr ++ ev) = messages tr + messages ev := by
    simp [increments, bits, messages]
  refine ⟨?_, ?_, ?_⟩
  · rw [hthreads]
    omega
  · rw [hthreads]
    omega
  · rw [hthreads, hinit, List.length_set]
    exact h.threads

theorem Rounds.step (h : Rounds s tr) (hstep : Step s a s' ev) :
    Rounds s' (tr ++ ev) := by
  cases hstep with
  | kthreadRun1 started hinit =>
      rw [List.append_nil]
      exact h.spawn 1 started (by rw [hinit]; rfl)
  | kthreadRun2 started hinit =>
      rw [List.append_nil]
      exact h.spawn 2 started (by rw [hinit]; rfl)
  | @test i t ht hpc =>
      refine h.set ht rfl rfl ?_ ?_
      · cases t.stop <;> simp [increments, messages, Thread.inRound, hpc]
      · cases t.stop <;> simp [bits, messages, Thread.atPrint, hpc]
  | atomicInc ht hpc =>
      refine h.set ht rfl rfl ?_ ?_
      · simp [increments, messages, Thread.inRound, Event.isPrinted, hpc]
      · simp [bits, messages, Thread.atPrint, Event.isPrinted, hpc]
  | testAndChangeBit ht hpc =>
      refine h.set ht rfl rfl ?_ ?_
      · simp [increments, messages, Thread.inRound, Event.isPrinted, hpc]
      · simp [bits, messages, Thread.atPrint, Event.isPrinted, hpc]
  | print ht hpc =>
      refine h.set ht rfl rfl ?_ ?_
      · simp [increments, messages, Thread.inRound, Event.isPrinted, hpc]
      · simp [bits, messages, Thread.atPrint, Event.isPrinted, hpc]
  | kthreadStop ht => exact h.set ht rfl rfl rfl rfl

/-- When a message is printed, its thread has incremented and the other one may
have. -/
theorem Rounds.shows (h : Rounds s tr) {i : Nat} {t : Thread}
    {prevValue : UInt32} (ht : s.threads[i]? = some t)
    (hpc : t.pc = .print prevValue) :
    increments tr = messages tr + 1 ∨ increments tr = messages tr + 2 := by
  have hround := h.inRound
  have hmem := List.mem_of_getElem? ht
  have hpos : 0 < s.threads.countP Thread.inRound :=
    List.countP_pos_iff.mpr ⟨t, hmem, by simp [Thread.inRound, hpc]⟩
  have hle : s.threads.countP Thread.inRound ≤ s.threads.length :=
    List.countP_le_length
  have hthreads := h.threads
  have htwo : s.init.started ≤ 2 := by
    cases s.init <;> decide
  omega

theorem Counts.step (h : Counts s tr) (hrounds : Rounds s tr)
    (hstep : Step s a s' ev) : Counts s' (tr ++ ev) := by
  cases hstep with
  | kthreadRun1 | kthreadRun2 | test | kthreadStop =>
      rw [List.append_nil]
      exact ⟨h.value, h.word, h.bits, h.shown⟩
  | atomicInc =>
      refine ⟨?_, ?_, ?_, ?_⟩
      · have hincs : increments (tr ++ [.incremented]) = increments tr + 1 := by
          simp [increments]
        rw [hincs, UInt32.ofNat_add, ← h.value]
        rfl
      · simpa [AtomicVariable.bits] using h.word
      · simpa [AtomicVariable.bits] using h.bits
      · refine history_concat.mpr ⟨h.shown, fun i value bit he => ?_⟩
        cases he
  | testAndChangeBit =>
      have hchange := testAndChangeBit_bitAt (AtomicVariable.bits tr).length
      rw [← h.word] at hchange
      have hbits : AtomicVariable.bits
          (tr ++ [.changed (testAndChangeBit 1 s.etcBitCheck).1]) =
          AtomicVariable.bits tr ++ [bitAt (AtomicVariable.bits tr).length] := by
        simp [AtomicVariable.bits, hchange]
      refine ⟨?_, ?_, ?_, ?_⟩
      · simpa [increments] using h.value
      · rw [hbits, List.length_append, List.length_singleton]
        exact congrArg Prod.snd hchange
      · rw [hbits, List.length_append, List.length_singleton, List.range_succ,
          List.map_append, ← h.bits]
        rfl
      · refine history_concat.mpr ⟨h.shown, fun i value bit he => ?_⟩
        cases he
  | print ht hpc =>
      refine ⟨?_, ?_, ?_, ?_⟩
      · simpa [increments] using h.value
      · simpa [AtomicVariable.bits] using h.word
      · simpa [AtomicVariable.bits] using h.bits
      · refine history_concat.mpr ⟨h.shown, fun i value bit he => ?_⟩
        cases he
        unfold Shows
        rw [h.value]
        rcases hrounds.shows ht hpc with hone | htwo
        · exact Or.inl (by rw [hone])
        · exact Or.inr (by rw [htwo])

end AtomicVariable
end KernelDrivers
