import KernelDrivers.Lib.System
import Mathlib.Data.UInt

/-!
# The seqlock of `seqlock1.c`

`test_driver_init` starts the writer and the reader and initialises the lock
after that, with both threads already running.  The lock is static data, so it
works before its initialisation too; but `seqlock_init` sets the sequence
counter to 0 without regard to a write in progress, and then the counter has
the wrong parity from there on.
-/

namespace KernelDrivers
namespace SeqLock

open Lib

/-! ## `seqlock_t` -/

structure Lock where
  sequence : UInt32
  locked : Bool
  deriving DecidableEq

namespace Lock

/-- `seqlock_init`, and what static data starts as. -/
def init : Lock := ⟨0, false⟩

def Odd (l : Lock) : Prop := l.sequence.toNat % 2 = 1

instance (l : Lock) : Decidable l.Odd := inferInstanceAs (Decidable (_ = 1))

/-- `write_seqlock` spins on the inner lock. -/
def writeSeqlock (l : Lock) : Option Lock :=
  if l.locked then none else some ⟨l.sequence + 1, true⟩

def writeSequnlock (l : Lock) : Lock := ⟨l.sequence + 1, false⟩

/-- `read_seqbegin` waits for an even counter. -/
def readSeqbegin (l : Lock) : Option UInt32 :=
  if l.Odd then none else some l.sequence

def readSeqretry (l : Lock) (start : UInt32) : Bool := l.sequence != start

theorem not_odd_init : ¬ init.Odd := by decide

/-- The counter wraps at an even number, so one more changes its parity. -/
theorem odd_succ (l : Lock) (locked : Bool) :
    (⟨l.sequence + 1, locked⟩ : Lock).Odd ↔ ¬ l.Odd := by
  unfold Odd
  simp only [UInt32.toNat_add, UInt32.toNat_one]
  omega

end Lock

/-! ## The module -/

/-- The next statement of `thread_function1`. -/
inductive WriterPc where
  | lock
  /-- `test_global_variable++` as a load and a store. -/
  | load
  | store (loaded : UInt64)
  | unlock
  deriving DecidableEq

/-- The next statement of `thread_function2`. -/
inductive ReaderPc where
  | seqbegin
  | load (seqNo : UInt32)
  | seqretry (seqNo : UInt32) (readValue : UInt64)
  deriving DecidableEq

/-- The next statement of `test_driver_init`. -/
inductive InitPc where
  | thread1
  | thread2
  | seqlock
  | done
  deriving DecidableEq

/-- The module; a thread is `none` until it runs. -/
structure Seqlock1 where
  testSeqLock : Lock
  testGlobalVariable : UInt64
  init : InitPc
  thread1 : Option WriterPc
  thread2 : Option ReaderPc
  deriving DecidableEq

/-- The reader leaves its loop with a value. -/
inductive Event where
  | accepted (readValue : UInt64)
  deriving DecidableEq

inductive Act where
  /-- `kthread_run`.  A failure is an error pointer, which passes the test. -/
  | kthreadRun (started : Bool)
  | seqlockInit
  | writer
  | reader
  deriving DecidableEq

def threadFunction1 (s : Seqlock1) : WriterPc → Option Seqlock1
  | .lock =>
      s.testSeqLock.writeSeqlock.map fun l =>
        { s with testSeqLock := l, thread1 := some .load }
  | .load => some { s with thread1 := some (.store s.testGlobalVariable) }
  | .store loaded =>
      some { s with testGlobalVariable := loaded + 1, thread1 := some .unlock }
  | .unlock =>
      some { s with
        testSeqLock := s.testSeqLock.writeSequnlock, thread1 := some .lock }

def threadFunction2 (s : Seqlock1) :
    ReaderPc → Option (Seqlock1 × List Event)
  | .seqbegin =>
      s.testSeqLock.readSeqbegin.map fun seqNo =>
        ({ s with thread2 := some (.load seqNo) }, [])
  | .load seqNo =>
      some ({ s with
        thread2 := some (.seqretry seqNo s.testGlobalVariable) }, [])
  | .seqretry seqNo readValue =>
      some ({ s with thread2 := some .seqbegin },
        if s.testSeqLock.readSeqretry seqNo then [] else [.accepted readValue])

def testDriverInit (s : Seqlock1) : Act → Option Seqlock1
  | .kthreadRun started =>
      match s.init with
      | .thread1 =>
          some { s with
            init := .thread2, thread1 := if started then some .lock else none }
      | .thread2 =>
          some { s with
            init := .seqlock
            thread2 := if started then some .seqbegin else none }
      | _ => none
  | .seqlockInit =>
      if s.init = .seqlock then
        some { s with init := .done, testSeqLock := .init }
      else none
  | _ => none

def Seqlock1.step (s : Seqlock1) : Act → Option (Seqlock1 × List Event)
  | .writer => (s.thread1.bind (threadFunction1 s)).map fun s' => (s', [])
  | .reader => s.thread2.bind (threadFunction2 s)
  | a => (testDriverInit s a).map fun s' => (s', [])

def Seqlock1.initial : Seqlock1 := ⟨.init, 0, .thread1, none, none⟩

def seqlock1 : System Seqlock1 Act Event where
  init := Seqlock1.initial
  step := Seqlock1.step

/-! ## What one step can do -/

inductive Step (s : Seqlock1) : Act → Seqlock1 → List Event → Prop
  | thread1 (started : Bool) : s.init = .thread1 →
      Step s (.kthreadRun started) { s with
        init := .thread2
        thread1 := if started then some .lock else none } []
  | thread2 (started : Bool) : s.init = .thread2 →
      Step s (.kthreadRun started) { s with
        init := .seqlock
        thread2 := if started then some .seqbegin else none } []
  | seqlockInit : s.init = .seqlock →
      Step s .seqlockInit { s with init := .done, testSeqLock := .init } []
  | writeLock : s.thread1 = some .lock →
      Step s .writer { s with
        testSeqLock := ⟨s.testSeqLock.sequence + 1, true⟩
        thread1 := some .load } []
  | writeLoad : s.thread1 = some .load →
      Step s .writer
        { s with thread1 := some (.store s.testGlobalVariable) } []
  | writeStore {loaded : UInt64} : s.thread1 = some (.store loaded) →
      Step s .writer { s with
        testGlobalVariable := loaded + 1, thread1 := some .unlock } []
  | writeUnlock : s.thread1 = some .unlock →
      Step s .writer { s with
        testSeqLock := ⟨s.testSeqLock.sequence + 1, false⟩
        thread1 := some .lock } []
  | readBegin : s.thread2 = some .seqbegin → ¬ s.testSeqLock.Odd →
      Step s .reader
        { s with thread2 := some (.load s.testSeqLock.sequence) } []
  | readLoad {seqNo : UInt32} : s.thread2 = some (.load seqNo) →
      Step s .reader { s with
        thread2 := some (.seqretry seqNo s.testGlobalVariable) } []
  | readAgain {seqNo : UInt32} {readValue : UInt64} :
      s.thread2 = some (.seqretry seqNo readValue) →
      Step s .reader { s with thread2 := some .seqbegin } []
  | accept {seqNo : UInt32} {readValue : UInt64} :
      s.thread2 = some (.seqretry seqNo readValue) →
      s.testSeqLock.sequence = seqNo →
      Step s .reader { s with thread2 := some .seqbegin }
        [.accepted readValue]

variable {s s' : Seqlock1} {a : Act} {tr ev : List Event}

theorem threadFunction1_cases {pc : WriterPc} (hpc : s.thread1 = some pc)
    (h : threadFunction1 s pc = some s') : Step s .writer s' [] := by
  cases pc with
  | lock =>
      simp only [threadFunction1, Lock.writeSeqlock] at h
      split_ifs at h with hlocked
      · cases h
      · cases Option.some.inj h
        exact .writeLock hpc
  | load =>
      cases h
      exact .writeLoad hpc
  | store loaded =>
      cases h
      exact .writeStore hpc
  | unlock =>
      cases h
      exact .writeUnlock hpc

theorem threadFunction2_cases {pc : ReaderPc} (hpc : s.thread2 = some pc)
    (h : threadFunction2 s pc = some (s', ev)) : Step s .reader s' ev := by
  cases pc with
  | seqbegin =>
      simp only [threadFunction2, Lock.readSeqbegin] at h
      split_ifs at h with hodd
      · cases h
      · cases Option.some.inj h
        exact .readBegin hpc hodd
  | load seqNo =>
      cases h
      exact .readLoad hpc
  | seqretry seqNo readValue =>
      simp only [threadFunction2, Lock.readSeqretry, bne_iff_ne] at h
      split_ifs at h with hretry
      · cases h
        exact .readAgain hpc
      · cases h
        exact .accept hpc (not_not.mp hretry)

theorem step_cases (h : seqlock1.step s a = some (s', ev)) :
    Step s a s' ev := by
  change s.step a = some (s', ev) at h
  cases a with
  | writer =>
      obtain ⟨t, hstep, heq⟩ := Option.map_eq_some_iff.mp h
      cases heq
      obtain ⟨pc, hpc, hstep⟩ := Option.bind_eq_some_iff.mp hstep
      exact threadFunction1_cases hpc hstep
  | reader =>
      obtain ⟨pc, hpc, hstep⟩ := Option.bind_eq_some_iff.mp h
      exact threadFunction2_cases hpc hstep
  | kthreadRun started =>
      obtain ⟨t, hstep, heq⟩ := Option.map_eq_some_iff.mp h
      cases heq
      cases hinit : s.init with
      | thread1 =>
          simp only [testDriverInit, hinit] at hstep
          cases hstep
          exact .thread1 started hinit
      | thread2 =>
          simp only [testDriverInit, hinit] at hstep
          cases hstep
          exact .thread2 started hinit
      | seqlock | done =>
          simp only [testDriverInit, hinit] at hstep
          cases hstep
  | seqlockInit =>
      obtain ⟨t, hstep, heq⟩ := Option.map_eq_some_iff.mp h
      cases heq
      simp only [testDriverInit] at hstep
      split_ifs at hstep with hinit
      cases hstep
      exact .seqlockInit hinit

/-! ## The protocol -/

/-- The writer is between `write_seqlock` and `write_sequnlock`. -/
def Seqlock1.Writing (s : Seqlock1) : Prop :=
  s.thread1 ≠ none ∧ s.thread1 ≠ some .lock

/-- `test_global_variable` had the value at a point of the run with no write in
progress. -/
def WasQuiet (acts : List Act) (value : UInt64) : Prop :=
  ∃ before s tr, before <+: acts ∧ seqlock1.run before = some (s, tr) ∧
    ¬ s.Writing ∧ s.testGlobalVariable = value

/-- The protocol after a run: the counter is odd exactly during a write, a
reader gets past `read_seqbegin` outside a write, and every accepted value is
one that the variable had outside a write. -/
structure Coherent (acts : List Act) (s : Seqlock1) (tr : List Event) :
    Prop where
  odd : s.testSeqLock.Odd ↔ s.Writing
  begins : ¬ s.Writing → (s.testSeqLock.readSeqbegin).isSome
  accepted : ∀ value, .accepted value ∈ tr → WasQuiet acts value

/-- `seqlock_init` is not executed during a write. -/
def InitOutsideWrite (s : Seqlock1) : Act → Prop
  | .seqlockInit => ¬ s.Writing
  | _ => True

variable {acts before : List Act} {value : UInt64}

theorem WasQuiet.mono (h : WasQuiet before value) (hpre : before <+: acts) :
    WasQuiet acts value := by
  obtain ⟨earlier, t, trt, hearlier, hrun, hquiet, hvalue⟩ := h
  exact ⟨earlier, t, trt, hearlier.trans hpre, hrun, hquiet, hvalue⟩

theorem wasQuiet_now (hrun : seqlock1.run acts = some (s, tr))
    (hquiet : ¬ s.Writing) : WasQuiet acts s.testGlobalVariable :=
  ⟨acts, s, tr, List.prefix_rfl, hrun, hquiet, rfl⟩

/-- The writer's side: the parity of the counter, and what the variable holds
in the first half of a write. -/
structure WriterInv (acts : List Act) (s : Seqlock1) : Prop where
  odd : s.testSeqLock.Odd ↔ s.Writing
  notYet : s.init = .thread1 → s.thread1 = none
  unchanged : s.Writing → s.thread1 ≠ some .unlock →
    WasQuiet acts s.testGlobalVariable

/-- The reader's side: its number is even, and the value that it has loaded is
one from outside a write, or the one that the write in progress is going to
leave. -/
structure ReaderInv (acts : List Act) (s : Seqlock1) : Prop where
  seqNo : ∀ n, s.thread2 = some (.load n) → n.toNat % 2 = 0
  loaded : ∀ n v, s.thread2 = some (.seqretry n v) → n.toNat % 2 = 0 ∧
    (WasQuiet acts v ∨ s.thread1 = some .unlock ∧ v = s.testGlobalVariable)

theorem not_writing_lock (h : s.thread1 = some .lock) : ¬ s.Writing :=
  fun hwriting => hwriting.2 h

theorem WriterInv.even (h : WriterInv acts s) (hquiet : ¬ s.Writing) :
    ¬ s.testSeqLock.Odd :=
  fun hodd => hquiet (h.odd.mp hodd)

theorem writerInv_initial : WriterInv [] Seqlock1.initial where
  odd := iff_of_false Lock.not_odd_init fun hwriting => hwriting.1 rfl
  notYet := fun _ => rfl
  unchanged := fun hwriting => absurd rfl hwriting.1

/-- A step that leaves the writer's data alone. -/
theorem WriterInv.frame (h : WriterInv before s) (hpre : before <+: acts)
    (hlock : s'.testSeqLock = s.testSeqLock) (hthread : s'.thread1 = s.thread1)
    (hvalue : s'.testGlobalVariable = s.testGlobalVariable)
    (hinit : s'.init = .thread1 → s.init = .thread1) : WriterInv acts s' := by
  have hwriting : s'.Writing ↔ s.Writing := by
    unfold Seqlock1.Writing
    rw [hthread]
  refine ⟨?_, fun hfirst => ?_, fun hwrite hpc => ?_⟩
  · rw [hlock, hwriting]
    exact h.odd
  · rw [hthread]
    exact h.notYet (hinit hfirst)
  · rw [hvalue]
    rw [hthread] at hpc
    exact (h.unchanged (hwriting.mp hwrite) hpc).mono hpre

/-- A writer that has a statement to execute was started. -/
theorem WriterInv.started (h : WriterInv acts s) {pc : WriterPc}
    (hpc : s.thread1 = some pc) : s.init ≠ .thread1 := by
  intro hfirst
  rw [h.notYet hfirst] at hpc
  cases hpc

theorem WriterInv.step (h : WriterInv acts s)
    (hrun : seqlock1.run acts = some (s, tr)) (hstep : Step s a s' ev)
    (hok : InitOutsideWrite s a) : WriterInv (acts ++ [a]) s' := by
  have hpre := List.prefix_append acts [a]
  cases hstep with
  | thread1 started hinit =>
      have hquiet : ¬ s.Writing := fun hwriting => hwriting.1 (h.notYet hinit)
      have hquiet' : ¬ Seqlock1.Writing { s with
          thread1 := if started then some .lock else none, init := .thread2 } := by
        cases started <;> simp [Seqlock1.Writing]
      refine ⟨?_, by simp, fun hwriting => absurd hwriting hquiet'⟩
      exact iff_of_false (h.even hquiet) hquiet'
  | thread2 started hinit =>
      exact h.frame hpre rfl rfl rfl (fun hfirst => by cases hfirst)
  | seqlockInit hinit =>
      refine ⟨?_, by simp, fun hwriting => absurd hwriting hok⟩
      exact iff_of_false Lock.not_odd_init hok
  | writeLock hpc =>
      -- the write begins, and what the variable holds was quiet until now
      have hquiet := not_writing_lock hpc
      refine ⟨?_, fun hfirst => absurd hfirst (h.started hpc), fun _ _ => ?_⟩
      · rw [Lock.odd_succ]
        exact iff_of_true (h.even hquiet) ⟨by simp, by simp⟩
      · exact (wasQuiet_now hrun hquiet).mono hpre
  | writeLoad hpc =>
      have hwriting : s.Writing := by simp [Seqlock1.Writing, hpc]
      refine ⟨?_, fun hfirst => absurd hfirst (h.started hpc), fun _ _ => ?_⟩
      · exact iff_of_true (h.odd.mpr hwriting) ⟨by simp, by simp⟩
      · exact (h.unchanged hwriting (by simp [hpc])).mono hpre
  | writeStore hpc =>
      have hwriting : s.Writing := by simp [Seqlock1.Writing, hpc]
      refine ⟨?_, fun hfirst => absurd hfirst (h.started hpc), fun _ hother =>
        absurd rfl hother⟩
      exact iff_of_true (h.odd.mpr hwriting) ⟨by simp, by simp⟩
  | writeUnlock hpc =>
      -- the second increment makes the counter even again
      have hwriting : s.Writing := by simp [Seqlock1.Writing, hpc]
      refine ⟨?_, fun hfirst => absurd hfirst (h.started hpc), fun hwrite =>
        absurd rfl hwrite.2⟩
      rw [Lock.odd_succ]
      exact iff_of_false (not_not.mpr (h.odd.mpr hwriting))
        fun hwrite => hwrite.2 rfl
  | readBegin | readLoad | readAgain | accept =>
      exact h.frame hpre rfl rfl rfl id

theorem ReaderInv.step (h : ReaderInv acts s) (hwriter : WriterInv acts s)
    (hrun : seqlock1.run acts = some (s, tr))
    (hrun' : seqlock1.run (acts ++ [a]) = some (s', tr ++ ev))
    (hstep : Step s a s' ev) : ReaderInv (acts ++ [a]) s' := by
  have mono {v : UInt64} (hv : WasQuiet acts v) : WasQuiet (acts ++ [a]) v :=
    hv.mono (List.prefix_append acts [a])
  -- until the writer unlocks, what the reader holds was quiet before
  have quiet {n v} (hpc : s.thread1 ≠ some .unlock)
      (hread : s.thread2 = some (.seqretry n v)) :
      n.toNat % 2 = 0 ∧ WasQuiet (acts ++ [a]) v := by
    obtain ⟨heven, hv | ⟨hunlock, -⟩⟩ := h.loaded n v hread
    · exact ⟨heven, mono hv⟩
    · exact absurd hunlock hpc
  cases hstep with
  | thread1 started hinit =>
      refine ⟨h.seqNo, fun n v hread => ?_⟩
      have hnone := hwriter.notYet hinit
      have hv := quiet (by simp [hnone]) hread
      exact ⟨hv.1, Or.inl hv.2⟩
  | thread2 started hinit =>
      constructor <;> cases started <;> simp
  | seqlockInit =>
      refine ⟨h.seqNo, fun n v hread => ?_⟩
      exact ⟨(h.loaded n v hread).1, (h.loaded n v hread).2.imp mono id⟩
  | writeLock hpc | writeLoad hpc | writeStore hpc =>
      refine ⟨h.seqNo, fun n v hread => ?_⟩
      have hv := quiet (by simp [hpc]) hread
      exact ⟨hv.1, Or.inl hv.2⟩
  | writeUnlock hpc =>
      refine ⟨h.seqNo, fun n v hread => ?_⟩
      obtain ⟨heven, hv | ⟨-, rfl⟩⟩ := h.loaded n v hread
      · exact ⟨heven, Or.inl (mono hv)⟩
      · -- the write is over, so its value is quiet from here on
        have hquiet := wasQuiet_now hrun' fun hwriting => hwriting.2 rfl
        exact ⟨heven, Or.inl hquiet⟩
  | readBegin hpc heven =>
      refine ⟨fun n hread => ?_, by simp⟩
      cases hread
      unfold Lock.Odd at heven
      omega
  | readLoad hpc =>
      refine ⟨by simp, fun n v hread => ?_⟩
      cases hread
      refine ⟨h.seqNo _ hpc, ?_⟩
      by_cases hunlock : s.thread1 = some .unlock
      · exact Or.inr ⟨hunlock, rfl⟩
      · refine Or.inl (mono ?_)
        by_cases hwriting : s.Writing
        · exact hwriter.unchanged hwriting hunlock
        · exact wasQuiet_now hrun hwriting
  | readAgain | accept => exact ⟨by simp, by simp⟩

/-- A reader that accepts has a value from outside a write. -/
theorem accepted_step (h : ReaderInv acts s) (hwriter : WriterInv acts s)
    (hstep : Step s a s' ev) (hv : .accepted value ∈ ev) :
    WasQuiet acts value := by
  cases hstep with
  | @accept seqNo readValue hread hsame =>
      cases List.mem_singleton.mp hv
      obtain ⟨heven, hquiet | ⟨hunlock, -⟩⟩ := h.loaded _ _ hread
      · exact hquiet
      · have hwriting : s.Writing := by simp [Seqlock1.Writing, hunlock]
        have hodd : s.testSeqLock.sequence.toNat % 2 = 1 :=
          hwriter.odd.mpr hwriting
        rw [hsame] at hodd
        omega
  | _ => cases hv

/-- The protocol holds at every point of a run if and only if `seqlock_init` is
not executed during a write. -/
theorem coherent_iff_initOutsideWrite (acts : List Act) :
    (∀ before s tr, before <+: acts → seqlock1.run before = some (s, tr) →
      Coherent before s tr) ↔ seqlock1.Meets InitOutsideWrite acts := by
  constructor
  · intro hcoherent before a s tr hpre hrun henabled
    obtain ⟨⟨s', ev⟩, hstep⟩ := Option.isSome_iff_exists.mp henabled
    cases step_cases hstep with
    | seqlockInit hinit =>
        intro hwriting
        have hafter := hcoherent _ _ _ hpre (seqlock1.run_concat_of_step hrun hstep)
        exact Lock.not_odd_init (hafter.odd.mpr hwriting)
    | _ => trivial
  · intro hmeets before s tr hpre hrun
    -- both sides of the protocol and the accepted values, along the run
    have hinv := hmeets.run_induction (P := fun before s tr =>
      WriterInv before s ∧ ReaderInv before s ∧
        ∀ value, .accepted value ∈ tr → WasQuiet before value) ?_ ?_
        before s tr hpre hrun
    · obtain ⟨hwriter, -, haccepted⟩ := hinv
      refine ⟨hwriter.odd, fun hquiet => ?_, haccepted⟩
      unfold Lock.readSeqbegin
      rw [if_neg (hwriter.even hquiet)]
      rfl
    · refine ⟨writerInv_initial, ⟨?_, ?_⟩, by simp⟩
      · intro n hread
        cases hread
      · intro n v hread
        cases hread
    · rintro before s tr a s' ev hrun ⟨hwriter, hreader, haccepted⟩ hstep hok
      have hcase := step_cases hstep
      have hrun' := seqlock1.run_concat_of_step hrun hstep
      refine ⟨hwriter.step hrun hcase hok,
        hreader.step hwriter hrun hrun' hcase, fun value hv => ?_⟩
      apply WasQuiet.mono _ (List.prefix_append before [a])
      rcases List.mem_append.mp hv with hv | hv
      · exact haccepted value hv
      · exact accepted_step hreader hwriter hcase hv

/-- The writer takes the lock before `seqlock_init` is executed.  The reader
then gets in and accepts the value of the unfinished write. -/
def lateInit : List Act :=
  [.kthreadRun true, .kthreadRun true, .writer, .writer, .seqlockInit,
    .reader, .writer, .reader, .reader, .writer]

/-- After the write the counter is odd and the reader does not get past
`read_seqbegin` any more. -/
theorem late_init_breaks_parity :
    ∃ s tr, seqlock1.run lateInit = some (s, tr) ∧ ¬ Coherent lateInit s tr ∧
      tr = [.accepted 1] ∧ seqlock1.step s .reader = none := by
  refine ⟨_, _, rfl, fun hlaw => ?_, rfl, rfl⟩
  have hwriting := hlaw.odd.mp (by decide)
  exact hwriting.2 rfl

end SeqLock
end KernelDrivers
