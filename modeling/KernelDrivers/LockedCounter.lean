import KernelDrivers.Lib.Rounds
import Mathlib.Data.UInt

/-!
# The threads of `mtx1.c`, `spin1.c` and `spin2.c`

Two threads share `test_global_variable`.  In `mtx1.c` and `spin1.c` both of
them increment and print it between a lock and an unlock.  In `spin2.c` the
first one increments it under the lock for writing, and the second one prints
it under the lock for reading.

The model goes from the two `kthread_run` of `test_driver_init` to the two
`kthread_stop` of `test_driver_exit`.  Before the threads start the mutex is
initialised, and the spin locks are static.  `spin_is_locked` looks at the
lock, as it does where there is more than one processor.
-/

namespace KernelDrivers
namespace LockedCounter

open Lib Lib.Rounds

inductive Message where
  /-- "Spinlock is not locked in Thread Function1" -/
  | notLocked
  /-- "Spinlock is locked in Thread Function1" -/
  | locked
  /-- "In Thread Function". -/
  | inFunction (number : Nat)
  deriving DecidableEq

abbrev Body := List (Stmt Unit Message)

/-- `test_global_variable++`. -/
def increment (_ : Unit) (v : UInt64) : UInt64 := v + 1

/-! ## The thread functions

Each is the body of a `while(!kthread_should_stop())`. -/

namespace Mtx1

def threadFunction1 : Body :=
  [.lock .exclusive, .update (), .print (.inFunction 1), .unlock .exclusive,
    .pause]

def threadFunction2 : Body :=
  [.lock .exclusive, .update (), .print (.inFunction 2), .unlock .exclusive,
    .pause]

end Mtx1

namespace Spin1

def threadFunction1 : Body :=
  [.probe false .notLocked, .lock .exclusive, .probe true .locked, .update (),
    .print (.inFunction 1), .unlock .exclusive, .pause]

def threadFunction2 : Body :=
  [.lock .exclusive, .update (), .print (.inFunction 2), .unlock .exclusive,
    .pause]

end Spin1

namespace Spin2

def threadFunction1 : Body :=
  [.lock .exclusive, .update (), .unlock .exclusive, .pause]

def threadFunction2 : Body :=
  [.lock .shared, .print (.inFunction 2), .unlock .shared, .pause]

end Spin2

inductive Source where
  | mtx1
  | spin1
  | spin2

def Source.threadFunction1 : Source → Body
  | .mtx1 => Mtx1.threadFunction1
  | .spin1 => Spin1.threadFunction1
  | .spin2 => Spin2.threadFunction1

def Source.threadFunction2 : Source → Body
  | .mtx1 => Mtx1.threadFunction2
  | .spin1 => Spin1.threadFunction2
  | .spin2 => Spin2.threadFunction2

/-! ## The module -/

/-- The next call of `test_driver_init` or `test_driver_exit`. -/
inductive Pc where
  | thread1
  | thread2
  | loaded
  /-- In `kthread_stop(test_thread1)`. -/
  | stop1
  | stop2
  /-- Past both of them. -/
  | stopped
  deriving DecidableEq

structure Module where
  pc : Pc
  /-- `test_thread1` and `test_thread2`, unless they are error pointers. -/
  testThread1 : Option Nat
  testThread2 : Option Nat
  threads : Config Unit UInt64 Message

inductive Act where
  | kthreadRun (started : Bool)
  | thread (i : Nat)
  /-- The next step of `test_driver_exit`. -/
  | exit

abbrev Printed := Lib.Rounds.Event Unit UInt64 Message

/-- `kthread_run`.  A failure is an error pointer, which passes the test. -/
def kthreadRun (c : Config Unit UInt64 Message) (body : Body) (started : Bool) :
    Option Nat × Config Unit UInt64 Message :=
  if started then (some c.threads.length, c.start body) else (none, c)

/-- The end of a `kthread_stop`: the thread has returned. -/
def hasReturned (c : Config Unit UInt64 Message) (i : Nat) : Bool :=
  match c.threads[i]? with
  | none => false
  | some t => t.returned

/-- `test_driver_exit`.  Nothing says what `kthread_stop` does with an error
pointer. -/
def testDriverExit (s : Module) : Option Module :=
  match s.pc, s.testThread1, s.testThread2 with
  | .loaded, some i, _ =>
      some { s with pc := .stop1, threads := s.threads.stop i }
  | .stop1, some i, some j =>
      if hasReturned s.threads i then
        some { s with pc := .stop2, threads := s.threads.stop j }
      else none
  | .stop2, _, some j =>
      if hasReturned s.threads j then some { s with pc := .stopped } else none
  | _, _, _ => none

def Module.step (src : Source) (s : Module) : Act → Option (Module × List Printed)
  | .kthreadRun started =>
      match s.pc with
      | .thread1 =>
          let (task, threads) :=
            kthreadRun s.threads src.threadFunction1 started
          some (⟨.thread2, task, s.testThread2, threads⟩, [])
      | .thread2 =>
          let (task, threads) :=
            kthreadRun s.threads src.threadFunction2 started
          some (⟨.loaded, s.testThread1, task, threads⟩, [])
      | _ => none
  | .thread i =>
      (s.threads.run increment i).map fun (threads, ev) =>
        ({ s with threads := threads }, ev)
  | .exit => (testDriverExit s).map fun s => (s, [])

def Module.initial : Module := ⟨.thread1, none, none, ⟨.free, 0, []⟩⟩

def driver (src : Source) : System Module Act Printed where
  init := Module.initial
  step := Module.step src

/-! ## What one step can do -/

/-- `Module.step` as a relation. -/
inductive Step (src : Source) (s : Module) :
    Act → Module → List Printed → Prop
  | kthreadRun1 {started : Bool} : s.pc = .thread1 →
      Step src s (.kthreadRun started)
        ⟨.thread2, (kthreadRun s.threads src.threadFunction1 started).1,
          s.testThread2, (kthreadRun s.threads src.threadFunction1 started).2⟩ []
  | kthreadRun2 {started : Bool} : s.pc = .thread2 →
      Step src s (.kthreadRun started)
        ⟨.loaded, s.testThread1,
          (kthreadRun s.threads src.threadFunction2 started).1,
          (kthreadRun s.threads src.threadFunction2 started).2⟩ []
  | thread {i : Nat} {threads : Config Unit UInt64 Message}
      {ev : List Printed} : s.threads.run increment i = some (threads, ev) →
      Step src s (.thread i) { s with threads := threads } ev
  | stop1 {i : Nat} : s.pc = .loaded → s.testThread1 = some i →
      Step src s .exit { s with pc := .stop1, threads := s.threads.stop i } []
  | stop2 {i j : Nat} : s.pc = .stop1 → s.testThread1 = some i →
      s.testThread2 = some j → hasReturned s.threads i = true →
      Step src s .exit { s with pc := .stop2, threads := s.threads.stop j } []
  | stopped {j : Nat} : s.pc = .stop2 → s.testThread2 = some j →
      hasReturned s.threads j = true →
      Step src s .exit { s with pc := .stopped } []

variable {src : Source} {s s' : Module} {a : Act} {tr ev : List Printed}

theorem step_cases (h : (driver src).step s a = some (s', ev)) :
    Step src s a s' ev := by
  cases a with
  | kthreadRun started =>
      simp only [driver, Module.step] at h
      cases hpc : s.pc with
      | thread1 =>
          simp only [hpc] at h
          cases h
          exact .kthreadRun1 hpc
      | thread2 =>
          simp only [hpc] at h
          cases h
          exact .kthreadRun2 hpc
      | loaded | stop1 | stop2 | stopped =>
          simp only [hpc] at h
          cases h
  | thread i =>
      obtain ⟨⟨threads, ev'⟩, hrun, heq⟩ := Option.map_eq_some_iff.mp h
      cases heq
      exact .thread hrun
  | exit =>
      obtain ⟨s'', hexit, heq⟩ := Option.map_eq_some_iff.mp h
      cases heq
      unfold testDriverExit at hexit
      split at hexit
      case h_1 hpc hfirst =>
        cases hexit
        exact .stop1 hpc hfirst
      case h_2 hpc hfirst hsecond =>
        split_ifs at hexit with hreturned
        cases hexit
        exact .stop2 hpc hfirst hsecond hreturned
      case h_3 hpc hsecond =>
        split_ifs at hexit with hreturned
        cases hexit
        exact .stopped hpc hsecond hreturned
      case h_4 => cases hexit

/-! ## Exclusion -/

theorem closed_threadFunction1 (src : Source) : Closed src.threadFunction1 := by
  cases src <;>
    exact ⟨rfl, by simp [Source.threadFunction1, Mtx1.threadFunction1,
      Spin1.threadFunction1, Spin2.threadFunction1, Disciplined, held]⟩

theorem closed_threadFunction2 (src : Source) : Closed src.threadFunction2 := by
  cases src <;>
    exact ⟨rfl, by simp [Source.threadFunction2, Mtx1.threadFunction2,
      Spin1.threadFunction2, Spin2.threadFunction2, Disciplined, held]⟩

theorem kthreadRun_sound {c : Config Unit UInt64 Message} {body : Body}
    (hsound : c.Sound) (hbody : Closed body) (started : Bool) :
    (kthreadRun c body started).2.Sound := by
  cases started with
  | false => exact hsound
  | true => exact hsound.start hbody

@[simp] theorem kthreadRun_value (c : Config Unit UInt64 Message) (body : Body)
    (started : Bool) : (kthreadRun c body started).2.value = c.value := by
  cases started <;> rfl

theorem Step.sound (h : Step src s a s' ev) (hsound : s.threads.Sound) :
    s'.threads.Sound := by
  cases h with
  | kthreadRun1 => exact kthreadRun_sound hsound (closed_threadFunction1 src) _
  | kthreadRun2 => exact kthreadRun_sound hsound (closed_threadFunction2 src) _
  | thread hrun => exact hsound.run hrun
  | stop1 | stop2 => exact hsound.stop _
  | stopped => exact hsound

theorem sound_of_reachable (h : (driver src).Reachable s) : s.threads.Sound := by
  refine (driver src).reachable_invariant (I := fun s => s.threads.Sound)
    (sound_init 0) ?_ h
  intro s a s' ev hsound hstep
  exact (step_cases hstep).sound hsound

theorem Step.atomic (h : Step src s a s' ev) (hsound : s.threads.Sound)
    (hatomic : Atomic increment 0 s.threads.value tr) :
    Atomic increment 0 s'.threads.value (tr ++ ev) := by
  cases h with
  | thread hrun => exact hatomic.run hsound hrun
  | kthreadRun1 | kthreadRun2 | stop1 | stop2 | stopped => simpa using hatomic

theorem atomic_of_run {acts : List Act} (h : (driver src).run acts = some (s, tr)) :
    Atomic increment 0 s.threads.value tr := by
  refine (driver src).run_induction
    (P := fun _ s tr => Atomic increment 0 s.threads.value tr)
    (atomic_nil 0) ?_ h
  intro before s tr a s' ev hrun ih hstep
  exact (step_cases hstep).atomic (sound_of_reachable ⟨before, tr, hrun⟩) ih

/-! ## The numbers of `mtx1.c` and `spin1.c` -/

/-- The values that were printed. -/
def printedValues (tr : List Printed) : List UInt64 :=
  tr.filterMap fun
    | .printed _ v => some v
    | _ => none

/-- 1, 2, 3 and so on. -/
def counting (n : Nat) : List UInt64 :=
  (List.range n).map fun k => UInt64.ofNat (k + 1)

/-- The threads in a section that may write. -/
def writers (s : Module) : Nat :=
  RwLock.holders Thread.held .exclusive s.threads.threads

/-- At most one thread is between the lock and the unlock, and the numbers that
were printed are 1, 2, 3 and so on. -/
structure InOrder (s : Module) (tr : List Printed) : Prop where
  atMostOne : writers s ≤ 1
  printed : printedValues tr = counting (printedValues tr).length

/-- Each update is followed by a print, and there are no others. -/
def Paired : Body → Prop
  | [] => True
  | .update _ :: .print _ :: rest => held rest = some .exclusive ∧ Paired rest
  | .update _ :: _ => False
  | .print _ :: _ => False
  | .lock _ :: rest | .unlock _ :: rest | .probe _ _ :: rest | .pause :: rest =>
      Paired rest

/-- The thread is between an update and its print. -/
def owes (t : Thread Unit UInt64 Message) : Bool :=
  match t.todo with
  | .print _ :: _ => true
  | _ => false

/-- A thread whose updates are each followed by a print, or that owes one. -/
def Pairs (t : Thread Unit UInt64 Message) : Prop :=
  Paired t.body ∧ (Paired t.todo ∨ t.held = some .exclusive ∧
    ∃ msg rest, t.todo = .print msg :: rest ∧ Paired rest)

theorem owes_of_paired {t : Thread Unit UInt64 Message} (h : Paired t.todo) :
    owes t = false := by
  unfold owes
  split
  case h_1 heq =>
    rw [heq] at h
    exact h.elim
  case h_2 => rfl

theorem counting_succ (n : Nat) :
    counting (n + 1) = counting n ++ [UInt64.ofNat (n + 1)] := by
  simp [counting, List.range_succ]

theorem valueAfter_increment (tr : List Printed) :
    valueAfter increment 0 tr = UInt64.ofNat (updates tr).length := by
  unfold valueAfter
  have hfold : ∀ (l : List Unit) (v : UInt64),
      l.foldl (fun v a => increment a v) v = v + UInt64.ofNat l.length := by
    intro l
    induction l with
    | nil => simp
    | cons a l ih =>
        intro v
        rw [List.foldl_cons, ih, List.length_cons]
        simp only [increment, UInt64.ofNat_add]
        rw [UInt64.add_assoc, UInt64.add_comm 1]
        rfl
  rw [hfold, UInt64.zero_add]

section Pairs

variable {lock lock' : RwLock} {v v' : UInt64}
  {t t' : Thread Unit UInt64 Message}

theorem Pairs.of_paired (hbody : Paired t.body) (h : Paired t.todo) : Pairs t :=
  ⟨hbody, Or.inl h⟩

/-- What is neither an update nor a print leaves the debt. -/
theorem Pairs.next {st : Stmt Unit Message} {rest : Body} (h : Pairs t)
    (heq : t.todo = st :: rest) (hpaired : Paired (st :: rest) → Paired rest)
    (hprint : ∀ msg, st ≠ .print msg) :
    Pairs { t with todo := rest } ∧ owes t = false ∧
      owes { t with todo := rest } = false := by
  have htodo : Paired (st :: rest) := by
    rcases h.2 with hpaired | ⟨-, msg, rest', heq', -⟩
    · exact heq ▸ hpaired
    · rw [heq] at heq'
      cases heq'
      exact absurd rfl (hprint msg)
  have hrest : Paired rest := hpaired htodo
  refine ⟨.of_paired h.1 hrest, owes_of_paired (heq ▸ htodo), owes_of_paired hrest⟩

/-- A step of a thread: an update makes a debt, a print pays it. -/
theorem Pairs.step (h : Pairs t)
    (hstep : Rounds.Step increment lock v t lock' v' t' ev) :
    Pairs t' ∧ (updates ev).length + (owes t).toNat =
      (printedValues ev).length + (owes t').toNat := by
  cases hstep with
  | finish => exact ⟨h, rfl⟩
  | load => exact ⟨h, rfl⟩
  | again hnil =>
      refine ⟨.of_paired h.1 h.1, ?_⟩
      rw [owes_of_paired (t := { t with todo := t.body }) h.1,
        owes_of_paired (t := t) (hnil ▸ trivial)]
      rfl
  | lock heq | unlock heq | pause heq =>
      obtain ⟨hpairs, howes, howes'⟩ := h.next heq id (by simp)
      refine ⟨hpairs, ?_⟩
      rw [howes, howes']
      rfl
  | probe heq =>
      obtain ⟨hpairs, howes, howes'⟩ := h.next heq id (by simp)
      refine ⟨hpairs, ?_⟩
      rw [howes, howes']
      split_ifs <;> rfl
  | @store a rest w heq hloaded =>
      rcases h.2 with hpaired | ⟨-, msg, rest', heq', -⟩
      · rw [heq] at hpaired
        -- the next statement is the print
        match rest, hpaired with
        | .print msg :: rest', ⟨hheld, hpaired⟩ =>
            refine ⟨⟨h.1, Or.inr ⟨hheld, msg, rest', rfl, hpaired⟩⟩, ?_⟩
            simp [owes, heq, updates, printedValues]
      · rw [heq] at heq'
        cases heq'
  | @print msg rest heq =>
      rcases h.2 with hpaired | ⟨-, msg', rest', heq', hpaired⟩
      · rw [heq] at hpaired
        exact hpaired.elim
      · rw [heq] at heq'
        cases heq'
        refine ⟨.of_paired h.1 hpaired, ?_⟩
        rw [owes_of_paired (t := { t with todo := rest }) hpaired]
        simp [owes, heq, updates, printedValues]

/-- A thread that owes a print is in the section. -/
theorem Pairs.held_of_owes (h : Pairs t) (howes : owes t = true) :
    t.held = some .exclusive := by
  rcases h.2 with hpaired | ⟨hheld, -⟩
  · rw [owes_of_paired hpaired] at howes
    cases howes
  · exact hheld

end Pairs

/-- The updates that were not printed yet are those of the threads that owe a
print. -/
structure Balanced (s : Module) (tr : List Printed) : Prop where
  pairs : ∀ t ∈ s.threads.threads, Pairs t
  count : (updates tr).length =
    (printedValues tr).length + s.threads.threads.countP owes
  printed : printedValues tr = counting (printedValues tr).length

theorem Balanced.start (h : Balanced s tr) {body : Body} (hbody : Paired body)
    (started : Bool) {pc : Pc} {task1 task2 : Option Nat} :
    Balanced ⟨pc, task1, task2, (kthreadRun s.threads body started).2⟩ tr := by
  cases started with
  | false => exact ⟨h.pairs, h.count, h.printed⟩
  | true =>
      refine ⟨?_, ?_, h.printed⟩
      · exact Pool.forall_concat h.pairs (.of_paired hbody trivial)
      · refine h.count.trans (congrArg _ ?_)
        exact (Pool.countP_concat owes (Thread.new body)).symm

theorem Balanced.stop (h : Balanced s tr) (i : Nat) {pc : Pc} :
    Balanced { s with pc := pc, threads := s.threads.stop i } tr := by
  have hsame : (∀ t ∈ (s.threads.stop i).threads, Pairs t) ∧
      (s.threads.stop i).threads.countP owes =
        s.threads.threads.countP owes := by
    unfold Config.stop
    cases ht : s.threads.threads[i]? with
    | none => exact ⟨h.pairs, rfl⟩
    | some t =>
        constructor
        · exact Pool.forall_set h.pairs (h.pairs t (List.mem_of_getElem? ht))
        · have hcount := Pool.countP_set owes { t with stop := true } ht
          exact Nat.add_right_cancel hcount
  exact ⟨hsame.1, h.count.trans (congrArg _ hsame.2.symm), h.printed⟩

/-- The threads that owe a print are at most one. -/
theorem Balanced.owes_le_one (h : Balanced s tr) (hsound : s.threads.Sound) :
    s.threads.threads.countP owes ≤ 1 := by
  have hwriters : s.threads.threads.countP owes ≤
      RwLock.holders Thread.held .exclusive s.threads.threads := by
    refine List.countP_mono_left fun t ht howes => ?_
    simpa using (h.pairs t ht).held_of_owes howes
  rw [hsound.tracks.writer] at hwriters
  exact hwriters.trans (Bool.toNat_le _)

theorem Balanced.thread (h : Balanced s tr) (hsound : s.threads.Sound)
    (hatomic : Atomic increment 0 s.threads.value tr) {i : Nat}
    {threads : Config Unit UInt64 Message}
    (hrun : s.threads.run increment i = some (threads, ev)) :
    Balanced { s with threads := threads } (tr ++ ev) := by
  obtain ⟨t, t', ht, hset, hstep⟩ := run_cases hrun
  have hpairs := h.pairs t (List.mem_of_getElem? ht)
  obtain ⟨hpairs', hdebt⟩ := hpairs.step hstep
  refine ⟨?_, ?_, ?_⟩
  · dsimp only
    rw [hset]
    exact Pool.forall_set h.pairs hpairs'
  · dsimp only
    rw [hset]
    have hcount := Pool.countP_set owes t' ht
    have hold := h.count
    simp only [updates, printedValues, List.filterMap_append,
      List.length_append] at hold hdebt ⊢
    omega
  · generalize threads.value = v' at hstep
    generalize threads.lock = lock' at hstep
    cases hstep with
    | @print msg rest heq =>
        -- the printing thread is the only one that owes
        have howes : owes t = true := by simp [owes, heq]
        have hpos : 0 < s.threads.threads.countP owes :=
          List.countP_pos_iff.mpr ⟨t, List.mem_of_getElem? ht, howes⟩
        have hone := h.owes_le_one hsound
        have hcount := h.count
        have hvalue : s.threads.value =
            UInt64.ofNat ((printedValues tr).length + 1) := by
          rw [hatomic.value, valueAfter_increment, hcount]
          congr 2
          omega
        have hprinted : printedValues (tr ++ [.printed msg s.threads.value]) =
            printedValues tr ++ [s.threads.value] := by
          simp [printedValues]
        rw [hprinted, List.length_append, List.length_singleton, counting_succ,
          ← h.printed, hvalue]
    | probe =>
        have hnone : ∀ (p : Prop) [Decidable p] (msg : Message),
            printedValues (tr ++ if p then [.said msg] else []) =
              printedValues tr := by
          intro p _ msg
          split_ifs <;> simp [printedValues]
        rw [hnone]
        exact h.printed
    | _ => simpa [printedValues] using h.printed

theorem Step.balanced (h : Step src s a s' ev)
    (hpaired : Paired src.threadFunction1 ∧ Paired src.threadFunction2)
    (hsound : s.threads.Sound) (hatomic : Atomic increment 0 s.threads.value tr)
    (hb : Balanced s tr) : Balanced s' (tr ++ ev) := by
  cases h with
  | thread hrun => exact hb.thread hsound hatomic hrun
  | kthreadRun1 =>
      rw [List.append_nil]
      exact hb.start hpaired.1 _
  | kthreadRun2 =>
      rw [List.append_nil]
      exact hb.start hpaired.2 _
  | stop1 | stop2 =>
      rw [List.append_nil]
      exact hb.stop _
  | stopped =>
      rw [List.append_nil]
      exact ⟨hb.pairs, hb.count, hb.printed⟩

theorem always_inOrder
    (hpaired : Paired src.threadFunction1 ∧ Paired src.threadFunction2)
    (acts : List Act) : (driver src).Always InOrder acts := by
  intro before s tr _ hrun
  have hbalanced : Balanced s tr := by
    refine (driver src).run_induction (P := fun _ s tr => Balanced s tr)
      ⟨by simp [driver, Module.initial], rfl, rfl⟩ ?_ hrun
    intro before s tr a s' ev hrun ih hstep
    exact (step_cases hstep).balanced hpaired
      (sound_of_reachable ⟨before, tr, hrun⟩) (atomic_of_run hrun) ih
  have hsound := sound_of_reachable ⟨before, tr, hrun⟩
  refine ⟨?_, hbalanced.printed⟩
  rw [writers, hsound.tracks.writer]
  exact Bool.toNat_le _

/-- In `mtx1.c` and in `spin1.c` the threads exclude each other, and print 1,
2, 3 and so on, in every order of their steps. -/
theorem printed_in_order (acts : List Act) :
    (driver .mtx1).Always InOrder acts ∧
      (driver .spin1).Always InOrder acts := by
  constructor
  · refine always_inOrder ?_ acts
    simp [Source.threadFunction1, Source.threadFunction2,
      Mtx1.threadFunction1, Mtx1.threadFunction2, Paired, held]
  · refine always_inOrder ?_ acts
    simp [Source.threadFunction1, Source.threadFunction2,
      Spin1.threadFunction1, Spin1.threadFunction2, Paired, held]

/-! ## The reader of `spin2.c` -/

/-- Nobody is in a section together with a writer, what is read and not yet
written is read by nobody, and every message has the number of the increments
before it. -/
structure Consistent (s : Module) (tr : List Printed) : Prop where
  alone : ∀ (i j : Nat) t u, s.threads.threads[i]? = some t →
    t.held = some .exclusive → s.threads.threads[j]? = some u → j ≠ i →
    u.held = none
  whole : ∀ t ∈ s.threads.threads, t.held = some .shared →
    ∀ u ∈ s.threads.threads, u.loaded = none
  printed : History (fun before e => ∀ msg v, e = .printed msg v →
    v = UInt64.ofNat (updates before).length) tr

/-- A message of the reader has a whole number of increments, whatever the
writer is doing. -/
theorem reads_whole_increments (src : Source) (acts : List Act) :
    (driver src).Always Consistent acts := by
  intro before s tr _ hrun
  have hsound := sound_of_reachable ⟨before, tr, hrun⟩
  have halone : ∀ (i j : Nat) t u, s.threads.threads[i]? = some t →
      t.held = some .exclusive → s.threads.threads[j]? = some u → j ≠ i →
      u.held = none :=
    fun i j t u ht hex hu hji => hsound.tracks.others_out ht hex hu hji
  refine ⟨halone, fun t ht hshared u hu => ?_, fun b e after heq msg v hv => ?_⟩
  · cases hloaded : u.loaded with
    | none => rfl
    | some w =>
        -- between its read and its write a thread is in an exclusive section
        have husound := hsound.threads u hu
        obtain ⟨-, a, rest, htodo⟩ := husound.loaded w hloaded
        have hdisc := husound.todo
        rw [htodo] at hdisc
        have hex : u.held = some .exclusive := by
          rw [Thread.held, htodo]
          exact hdisc.1
        obtain ⟨i, hi⟩ := List.mem_iff_getElem?.mp hu
        obtain ⟨j, hj⟩ := List.mem_iff_getElem?.mp ht
        have hji : j ≠ i := by
          rintro rfl
          rw [Option.some.inj (hi.symm.trans hj), hshared] at hex
          cases hex
        rw [halone i j u t hi hex hj hji] at hshared
        cases hshared
  · rw [← valueAfter_increment]
    exact (atomic_of_run hrun).printed b e after heq msg v hv

/-! ## Unloading -/

/-- The threads that `test_driver_exit` waits for are all there are. -/
structure Tasks (s : Module) : Prop where
  first : ∀ i, s.testThread1 = some i → i < s.threads.threads.length
  second : ∀ j, s.testThread2 = some j → j < s.threads.threads.length
  all : ∀ i, i < s.threads.threads.length →
    s.testThread1 = some i ∨ s.testThread2 = some i
  none1 : s.pc = .thread1 → s.testThread1 = none
  none2 : s.pc = .thread1 ∨ s.pc = .thread2 → s.testThread2 = none

theorem Tasks.congr (h : Tasks s) {pc : Pc} {c : Config Unit UInt64 Message}
    (hpc : pc ≠ .thread1 ∧ pc ≠ .thread2 ∨ pc = s.pc)
    (hlen : c.threads.length = s.threads.threads.length) :
    Tasks { s with pc := pc, threads := c } := by
  refine ⟨?_, ?_, ?_, ?_, ?_⟩
  · simpa only [hlen] using h.first
  · simpa only [hlen] using h.second
  · simpa only [hlen] using h.all
  · intro hfirst
    rcases hpc with hpc | hpc
    · exact absurd hfirst hpc.1
    · exact h.none1 (hpc ▸ hfirst)
  · intro hearly
    rcases hpc with hpc | hpc
    · rcases hearly with hearly | hearly
      · exact absurd hearly hpc.1
      · exact absurd hearly hpc.2
    · exact h.none2 (hpc ▸ hearly)

theorem run_length {c c' : Config Unit UInt64 Message} {i : Nat}
    (h : c.run increment i = some (c', ev)) :
    c'.threads.length = c.threads.length := by
  obtain ⟨t, t', -, hset, -⟩ := run_cases h
  rw [hset, List.length_set]

/-- What `kthread_run` gives back is the one thread that it has added. -/
theorem kthreadRun_task (c : Config Unit UInt64 Message) (body : Body)
    (started : Bool) :
    c.threads.length ≤ (kthreadRun c body started).2.threads.length ∧
      (∀ i, (kthreadRun c body started).1 = some i →
        i < (kthreadRun c body started).2.threads.length) ∧
      ∀ i, i < (kthreadRun c body started).2.threads.length →
        i < c.threads.length ∨ (kthreadRun c body started).1 = some i := by
  cases started with
  | false => exact ⟨Nat.le_refl _, by rintro i ⟨⟩, fun i hi => Or.inl hi⟩
  | true =>
      have hlength : (c.start body).threads.length = c.threads.length + 1 :=
        List.length_append
      refine ⟨?_, fun i hi => ?_, fun i hi => ?_⟩
      · exact hlength ▸ Nat.le_succ _
      · cases hi
        exact hlength ▸ Nat.lt_succ_self _
      · have hlt : i < c.threads.length + 1 := hlength ▸ hi
        rcases Nat.lt_succ_iff_lt_or_eq.mp hlt with hold | rfl
        · exact Or.inl hold
        · exact Or.inr rfl

theorem Step.tasks (h : Step src s a s' ev) (ht : Tasks s) : Tasks s' := by
  cases h with
  | @kthreadRun1 started hpc =>
      have hnone := ht.none2 (Or.inl hpc)
      obtain ⟨-, hown, hall⟩ :=
        kthreadRun_task s.threads src.threadFunction1 started
      refine ⟨hown, fun j hj => ?_, fun i hi => ?_, by simp, fun _ => hnone⟩
      · cases hnone.symm.trans hj
      · rcases hall i hi with hlt | hnew
        · rcases ht.all i hlt with hfirst | hsecond
          · cases (ht.none1 hpc).symm.trans hfirst
          · exact Or.inr hsecond
        · exact Or.inl hnew
  | @kthreadRun2 started hpc =>
      obtain ⟨hle, hown, hall⟩ :=
        kthreadRun_task s.threads src.threadFunction2 started
      refine ⟨fun i hi => (ht.first i hi).trans_le hle, hown, fun i hi => ?_,
        by simp, by simp⟩
      rcases hall i hi with hlt | hnew
      · rcases ht.all i hlt with hfirst | hsecond
        · exact Or.inl hfirst
        · cases (ht.none2 (Or.inr hpc)).symm.trans hsecond
      · exact Or.inr hnew
  | thread hrun => exact ht.congr (Or.inr rfl) (run_length hrun)
  | stop1 | stop2 =>
      exact ht.congr (Or.inl ⟨by decide, by decide⟩) (Config.stop_length _ _)
  | stopped => exact ht.congr (Or.inl ⟨by decide, by decide⟩) rfl

/-- Thread `i` is told to stop. -/
def Told (c : Config Unit UInt64 Message) (i : Nat) : Prop :=
  ∃ t, c.threads[i]? = some t ∧ t.stop = true

theorem hasReturned_iff {c : Config Unit UInt64 Message} {i : Nat} :
    hasReturned c i = true ↔
      ∃ t, c.threads[i]? = some t ∧ t.returned = true := by
  unfold hasReturned
  cases c.threads[i]? with
  | none => simp
  | some t => simp

section Kept

variable {c c' : Config Unit UInt64 Message} {i j : Nat}

theorem told_kept (hkept : Kept c c') (h : Told c i) : Told c' i := by
  obtain ⟨t, ht, hstop⟩ := h
  obtain ⟨t', ht', hsame, -⟩ := hkept i t ht
  exact ⟨t', ht', hsame.trans hstop⟩

theorem hasReturned_kept (hkept : Kept c c') (h : hasReturned c i = true) :
    hasReturned c' i = true := by
  obtain ⟨t, ht, hreturned⟩ := hasReturned_iff.mp h
  obtain ⟨t', ht', -, hsame⟩ := hkept i t ht
  exact hasReturned_iff.mpr ⟨t', ht', hsame hreturned⟩

theorem told_stop (h : i < c.threads.length) : Told (c.stop i) i := by
  have ht : c.threads[i]? = some c.threads[i] := List.getElem?_eq_getElem h
  refine ⟨{ c.threads[i] with stop := true }, ?_, rfl⟩
  simp only [Config.stop, ht]
  exact Pool.set_self ht

theorem hasReturned_stop (h : hasReturned c i = true) (j : Nat) :
    hasReturned (c.stop j) i = true := by
  obtain ⟨t, ht, hreturned⟩ := hasReturned_iff.mp h
  unfold Config.stop
  cases hu : c.threads[j]? with
  | none => exact h
  | some u =>
      apply hasReturned_iff.mpr
      rcases eq_or_ne i j with rfl | hij
      · obtain rfl : t = u := Option.some.inj (ht.symm.trans hu)
        exact ⟨{ t with stop := true }, Pool.set_self hu, hreturned⟩
      · exact ⟨t, (Pool.set_other hij).trans ht, hreturned⟩

end Kept

/-- How far `test_driver_exit` has come. -/
structure Stopping (s : Module) : Prop where
  stop1 : s.pc = .stop1 → ∃ i, s.testThread1 = some i ∧ Told s.threads i
  first : s.pc = .stop2 ∨ s.pc = .stopped →
    ∃ i, s.testThread1 = some i ∧ hasReturned s.threads i = true
  stop2 : s.pc = .stop2 → ∃ j, s.testThread2 = some j ∧ Told s.threads j
  second : s.pc = .stopped →
    ∃ j, s.testThread2 = some j ∧ hasReturned s.threads j = true

theorem Step.stopping (h : Step src s a s' ev) (ht : Tasks s)
    (hs : Stopping s) : Stopping s' := by
  cases h with
  | kthreadRun1 | kthreadRun2 =>
      exact ⟨by simp, by simp, by simp, by simp⟩
  | thread hrun =>
      have hkept := kept_of_run hrun
      refine ⟨fun hpc => ?_, fun hpc => ?_, fun hpc => ?_, fun hpc => ?_⟩
      · obtain ⟨i, hi, htold⟩ := hs.stop1 hpc
        exact ⟨i, hi, told_kept hkept htold⟩
      · obtain ⟨i, hi, hreturned⟩ := hs.first hpc
        exact ⟨i, hi, hasReturned_kept hkept hreturned⟩
      · obtain ⟨j, hj, htold⟩ := hs.stop2 hpc
        exact ⟨j, hj, told_kept hkept htold⟩
      · obtain ⟨j, hj, hreturned⟩ := hs.second hpc
        exact ⟨j, hj, hasReturned_kept hkept hreturned⟩
  | @stop1 i hpc hi =>
      refine ⟨fun _ => ⟨i, hi, told_stop (ht.first i hi)⟩, by simp, by simp, by simp⟩
  | @stop2 i j hpc hi hj hreturned =>
      refine ⟨by simp, fun _ => ⟨i, hi, hasReturned_stop hreturned j⟩,
        fun _ => ⟨j, hj, told_stop (ht.second j hj)⟩, by simp⟩
  | @stopped j hpc hj hreturned =>
      refine ⟨by simp, fun _ => hs.first (Or.inl hpc), by simp,
        fun _ => ⟨j, hj, hreturned⟩⟩

theorem tasks_of_reachable (h : (driver src).Reachable s) :
    Tasks s ∧ Stopping s := by
  refine (driver src).reachable_invariant (I := fun s => Tasks s ∧ Stopping s)
    ?_ ?_ h
  · constructor
    · exact ⟨by simp [driver, Module.initial], by simp [driver, Module.initial],
        by simp [driver, Module.initial], fun _ => rfl, fun _ => rfl⟩
    · exact ⟨by simp [driver, Module.initial], by simp [driver, Module.initial],
        by simp [driver, Module.initial], by simp [driver, Module.initial]⟩
  · rintro s a s' ev ⟨htasks, hstopping⟩ hstep
    have hcase := step_cases hstep
    exact ⟨hcase.tasks htasks, hcase.stopping htasks hstopping⟩

/-- Nothing of the module runs or will run, and nobody has the lock. -/
structure Quiet (src : Source) (s : Module) : Prop where
  returned : ∀ t ∈ s.threads.threads, t.returned = true
  lock : s.threads.lock = .free
  idle : ∀ a, (driver src).step s a = none

/-- Past its two `kthread_stop`, `test_driver_exit` is alone. -/
theorem quiet_of_stopped (h : (driver src).Reachable s)
    (hpc : s.pc = .stopped) : Quiet src s := by
  obtain ⟨htasks, hstopping⟩ := tasks_of_reachable h
  have hsound := sound_of_reachable h
  have hreturned : ∀ t ∈ s.threads.threads, t.returned = true := by
    intro t ht
    obtain ⟨k, hk⟩ := List.mem_iff_getElem?.mp ht
    obtain ⟨hlt, -⟩ := List.getElem?_eq_some_iff.mp hk
    have hdone : hasReturned s.threads k = true := by
      rcases htasks.all k hlt with hfirst | hsecond
      · obtain ⟨i, hi, hdone⟩ := hstopping.first (Or.inr hpc)
        obtain rfl : i = k := Option.some.inj (hi.symm.trans hfirst)
        exact hdone
      · obtain ⟨j, hj, hdone⟩ := hstopping.second hpc
        obtain rfl : j = k := Option.some.inj (hj.symm.trans hsecond)
        exact hdone
    obtain ⟨t', ht', hreturned⟩ := hasReturned_iff.mp hdone
    obtain rfl : t = t' := Option.some.inj (hk.symm.trans ht')
    exact hreturned
  have htodo : ∀ t ∈ s.threads.threads, t.todo = [] :=
    fun t ht => (hsound.threads t ht).returned (hreturned t ht)
  refine ⟨hreturned, hsound.tracks.eq_free fun t ht => ?_, fun a => ?_⟩
  · rw [Thread.held, htodo t ht]
    rfl
  · cases a with
    | kthreadRun started => simp [driver, Module.step, hpc]
    | thread i =>
        cases ht : s.threads.threads[i]? with
        | none => simp [driver, Module.step, Config.run, ht]
        | some t =>
            have hmem := List.mem_of_getElem? ht
            simp [driver, Module.step, Config.run, ht, stmt, htodo t hmem,
              hreturned t hmem]
    | exit => simp [driver, Module.step, testDriverExit, hpc]

/-- Every run that comes to the state can go on to one of which `P` holds. -/
def CanReach (src : Source) (P : Module → Prop) (s : Module) : Prop :=
  ∀ acts tr, (driver src).run acts = some (s, tr) →
    ∃ more s' tr', (driver src).run (acts ++ more) = some (s', tr') ∧ P s'

section CanReach

variable {P : Module → Prop} {i j : Nat}

theorem canReach_self (h : P s) : CanReach src P s :=
  fun acts tr hrun => ⟨[], s, tr, by simpa using hrun, h⟩

theorem canReach_of_step (a : Act) (s' : Module) (ev : List Printed)
    (hstep : (driver src).step s a = some (s', ev))
    (h : (driver src).Reachable s' → CanReach src P s') : CanReach src P s := by
  intro acts tr hrun
  have hrun' := (driver src).run_concat_of_step hrun hstep
  obtain ⟨more, s'', tr', hmore, hP⟩ := h ⟨_, _, hrun'⟩ _ _ hrun'
  rw [List.append_assoc] at hmore
  exact ⟨_, s'', tr', hmore, hP⟩

/-- Whatever the threads can do among themselves, the module can do. -/
theorem canReach_of_steps {c' : Config Unit UInt64 Message}
    (hsteps : Relation.ReflTransGen (Steps increment) s.threads c')
    (h : CanReach src P { s with threads := c' }) : CanReach src P s := by
  induction hsteps with
  | refl => exact h
  | @tail c₁ c₂ _ hlast ih =>
      obtain ⟨i, ev, hrun⟩ := hlast
      refine ih (canReach_of_step (.thread i) _ ev ?_ fun _ => h)
      simp [driver, Module.step, hrun]

/-- A `kthread_stop` that has told its thread to stop comes back. -/
theorem canReach_of_told (htold : Told s.threads i)
    (h : ∀ c, hasReturned c i = true → CanReach src P { s with threads := c }) :
    CanReach src P s := by
  intro acts tr hrun
  obtain ⟨t, ht, hstop⟩ := htold
  obtain ⟨c', hsteps, -, -, t', ht', hreturned⟩ :=
    (sound_of_reachable ⟨acts, tr, hrun⟩).returns increment ht hstop
  have hdone : hasReturned c' i = true := hasReturned_iff.mpr ⟨t', ht', hreturned⟩
  exact canReach_of_steps hsteps (h c' hdone) acts tr hrun

/-- Past its two `kthread_stop`. -/
def Stopped (s : Module) : Prop := s.pc = .stopped

theorem canReach_of_stop2 (hpc : s.pc = .stop2) (hj : s.testThread2 = some j)
    (htold : Told s.threads j) : CanReach src Stopped s := by
  refine canReach_of_told htold fun c hreturned => ?_
  refine canReach_of_step .exit { s with pc := .stopped, threads := c } [] ?_
    fun _ => ?_
  · simp [driver, Module.step, testDriverExit, hpc, hj, hreturned]
  · exact canReach_self rfl

theorem canReach_of_stop1 (hpc : s.pc = .stop1) (hi : s.testThread1 = some i)
    (hj : s.testThread2 = some j) (htold : Told s.threads i) :
    CanReach src Stopped s := by
  refine canReach_of_told htold fun c hreturned => ?_
  refine canReach_of_step .exit { s with pc := .stop2, threads := c.stop j } []
    ?_ fun hreach => ?_
  · simp [driver, Module.step, testDriverExit, hpc, hi, hj, hreturned]
  · obtain ⟨j', hj', htold'⟩ := (tasks_of_reachable hreach).2.stop2 rfl
    exact canReach_of_stop2 rfl hj' htold'

end CanReach

/-- Both threads were started. -/
structure Loaded (s : Module) : Prop where
  done : s.pc ≠ .thread1 ∧ s.pc ≠ .thread2
  first : s.testThread1 ≠ none
  second : s.testThread2 ≠ none

/-- However the threads have gone on since both of them were started,
`test_driver_exit` gets past its two `kthread_stop`, and then it is alone. -/
theorem exit_leaves_nothing_running {acts : List Act}
    (hrun : (driver src).run acts = some (s, tr)) (hloaded : Loaded s) :
    (s.pc = .stopped → Quiet src s) ∧
      ∃ more s' tr', (driver src).run (acts ++ more) = some (s', tr') ∧
        s'.pc = .stopped := by
  have hreach : (driver src).Reachable s := ⟨acts, tr, hrun⟩
  refine ⟨quiet_of_stopped hreach, ?_⟩
  obtain ⟨i, hi⟩ := Option.ne_none_iff_exists'.mp hloaded.first
  obtain ⟨j, hj⟩ := Option.ne_none_iff_exists'.mp hloaded.second
  have hstopping := (tasks_of_reachable hreach).2
  have hcan : CanReach src Stopped s := by
    cases hpc : s.pc with
    | thread1 => exact absurd hpc hloaded.done.1
    | thread2 => exact absurd hpc hloaded.done.2
    | loaded =>
        refine canReach_of_step .exit
          { s with pc := .stop1, threads := s.threads.stop i } [] ?_
          fun hreach' => ?_
        · simp [driver, Module.step, testDriverExit, hpc, hi]
        · obtain ⟨i', hi', htold⟩ := (tasks_of_reachable hreach').2.stop1 rfl
          exact canReach_of_stop1 rfl hi' hj htold
    | stop1 =>
        obtain ⟨i', hi', htold⟩ := hstopping.stop1 hpc
        exact canReach_of_stop1 hpc hi' hj htold
    | stop2 =>
        obtain ⟨j', hj', htold⟩ := hstopping.stop2 hpc
        exact canReach_of_stop2 hpc hj' htold
    | stopped => exact canReach_self hpc
  exact hcan acts tr hrun

/-- The reader has the lock when `test_driver_exit` begins. -/
def midSection : List Act :=
  [.kthreadRun true, .kthreadRun true, .thread 1, .thread 1, .exit]

/-- Both threads come to their end. -/
def midSectionOver : List Act :=
  midSection ++ [.thread 0, .exit] ++ List.replicate 4 (.thread 1) ++ [.exit]

theorem midSection_exits :
    (∃ more s' tr', (driver .spin2).run (midSection ++ more) = some (s', tr') ∧
      s'.pc = .stopped) ∧
    ∃ s tr, (driver .spin2).run midSectionOver = some (s, tr) ∧
      s.pc = .stopped ∧ Quiet .spin2 s :=
  have hrun : (driver .spin2).run midSection =
      some (⟨.stop1, some 0, some 1, ⟨⟨false, 1⟩, 0,
        [⟨Spin2.threadFunction1, [], none, true, false⟩,
          ⟨Spin2.threadFunction2, Spin2.threadFunction2.tail, none, false,
            false⟩]⟩⟩, _) := rfl
  have hover : (driver .spin2).run midSectionOver =
      some (⟨.stopped, some 0, some 1, ⟨.free, 0,
        [⟨Spin2.threadFunction1, [], none, true, true⟩,
          ⟨Spin2.threadFunction2, [], none, true, true⟩]⟩⟩, _) := rfl
  ⟨(exit_leaves_nothing_running hrun ⟨by decide, by simp, by simp⟩).2,
    _, _, hover, rfl,
    (exit_leaves_nothing_running hover ⟨by decide, by simp, by simp⟩).1 rfl⟩

end LockedCounter
end KernelDrivers
