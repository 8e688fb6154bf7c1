import KernelDrivers.Lib.Pool
import KernelDrivers.WaitQueue.Calls

/-!
# Processes in `wait1.c`

Any number of processes run `my_write` and `my_read` at the same time, one
statement of one process after the other.  A process that goes to sleep has
put itself on the wait queue before it looks at `condition`, so its look and
its sleep are one step: a wake-up that comes in between makes the sleep end at
once.  A wake-up and a signal both bring a sleeper back to that look.
-/

namespace KernelDrivers
namespace WaitQueue
namespace Processes

open Lib

/-- The call, with what `get_user` fetches or whether `put_user` faults. -/
inductive Op where
  | write (buf : Option UInt8)
  | read (fault : Bool)
  deriving DecidableEq

def Op.isWrite : Op → Bool
  | .write _ => true
  | .read _ => false

/-- The next statement of the process. -/
inductive Pc where
  /-- `prev = ( head - 1 ) % RINGSIZE` or `next = head`. -/
  | start
  | guard
  /-- `condition=0`. -/
  | reset
  /-- The look at `condition` inside `wait_event_interruptible`. -/
  | sleepTest
  | asleep
  | signalTest
  /-- `get_user` or `put_user`. -/
  | access
  /-- The update of `tail` or `head`. -/
  | advance
  /-- `condition=1`. -/
  | setCondition
  | wakeUp
  | done
  deriving DecidableEq

/-- A process: its call, its local variable `prev` or `next`, and whether a
signal is pending for it. -/
structure Proc where
  op : Op
  pc : Pc
  snap : Int
  pending : Bool
  deriving DecidableEq

/-- What the process reads before its loop. -/
def Op.snapshot (m : Wait1) : Op → Int
  | .write _ => prev m
  | .read _ => m.head

/-- What the process waits to end: for a writer a full ring, for a reader an
empty one. -/
def Op.Blocked (m : Wait1) : Op → Prop
  | .write _ => (m.tail + 1) % ringSize = m.head
  | .read _ => m.head = m.tail

instance (m : Wait1) (op : Op) : Decidable (op.Blocked m) :=
  match op with
  | .write _ => inferInstanceAs (Decidable ((_ : Int) = _))
  | .read _ => inferInstanceAs (Decidable ((_ : Int) = _))

/-- The update of `tail` or `head`. -/
def Op.move (m : Wait1) : Op → Wait1
  | .write _ => { m with tail := (1 + m.tail).tmod ringSize }
  | .read _ => { m with head := (1 + m.head).tmod ringSize }

/-- What a run shows. -/
inductive Event where
  /-- A loop guard was evaluated: whether it was true, and whether the process
  had a reason to block. -/
  | tested (writer stays blocked : Bool)
  | returned (rv : Int)
  deriving DecidableEq

/-- `get_user( ring[ tail ], buf )` or `put_user( ring[ head ], buf )`. -/
def accessStep (m : Wait1) (p : Proc) : Wait1 × Proc × List Event :=
  match p.op with
  | .write none =>
      (m.store m.tail.toNat 0, { p with pc := .done }, [.returned (-EFAULT)])
  | .write (some b) => (m.store m.tail.toNat b, { p with pc := .advance }, [])
  | .read true => (m, { p with pc := .done }, [.returned (-EFAULT)])
  | .read false => (m, { p with pc := .advance }, [])

/-- One statement of a process. -/
def Proc.step (m : Wait1) (p : Proc) : Option (Wait1 × Proc × List Event) :=
  match p.pc with
  | .start => some (m, { p with pc := .guard, snap := p.op.snapshot m }, [])
  | .guard =>
      some (m, { p with pc := if p.snap = m.tail then .reset else .access },
        [.tested p.op.isWrite (p.snap = m.tail) (p.op.Blocked m)])
  | .reset => some ({ m with condition := 0 }, { p with pc := .sleepTest }, [])
  | .sleepTest =>
      if m.condition ≠ 0 ∨ p.pending then
        some (m, { p with pc := .signalTest }, [])
      else some (m, { p with pc := .asleep }, [])
  | .asleep => none
  | .signalTest =>
      if p.pending then
        some (m, { p with pc := .done }, [.returned (-ERESTARTSYS)])
      else some (m, { p with pc := .guard }, [])
  | .access => some (accessStep m p)
  | .advance => some (p.op.move m, { p with pc := .setCondition }, [])
  | .setCondition =>
      some ({ m with condition := 1 }, { p with pc := .wakeUp }, [])
  | .wakeUp => some (m, { p with pc := .done }, [.returned 1])
  | .done => none

/-- A sleeper that is woken up looks at `condition` again. -/
def Proc.woken (p : Proc) : Proc :=
  if p.pc = .asleep then { p with pc := .sleepTest } else p

/-- The module variables and the processes. -/
structure State where
  mem : Wait1
  procs : List Proc

inductive Act where
  | enter (op : Op)
  | signal (i : Nat)
  | proc (i : Nat)
  deriving DecidableEq

/-- One step of the whole.  `wake_up_interruptible` wakes every sleeper. -/
def State.step (s : State) : Act → Option (State × List Event)
  | .enter op =>
      some ({ s with procs := s.procs ++ [⟨op, .start, 0, false⟩] }, [])
  | .signal i =>
      match s.procs[i]? with
      | none => none
      | some p =>
          some ({ s with
            procs := s.procs.set i { p.woken with pending := true } }, [])
  | .proc i =>
      match s.procs[i]? with
      | none => none
      | some p =>
          (p.step s.mem).map fun (m, p', ev) =>
            ({ mem := m
               procs :=
                if p.pc = .wakeUp then (s.procs.set i p').map Proc.woken
                else s.procs.set i p' }, ev)

/-- The module with any number of processes. -/
def wait1 : System State Act Event where
  init := ⟨Wait1.initial, []⟩
  step := State.step

/-- The next `n` statements of one process. -/
def steps (i n : Nat) : List Act := List.replicate n (.proc i)

/-! ## What one step can do -/

section Moves

variable {m m' : Wait1} {p p' : Proc} {ev : List Event}

/-- The statements of a process, case by case. -/
inductive Move (m : Wait1) (p : Proc) : Wait1 → Proc → List Event → Prop
  | start : p.pc = .start →
      Move m p m { p with pc := .guard, snap := p.op.snapshot m } []
  | guard : p.pc = .guard →
      Move m p m
        { p with pc := if p.snap = m.tail then .reset else .access }
        [.tested p.op.isWrite (p.snap = m.tail) (p.op.Blocked m)]
  | reset : p.pc = .reset →
      Move m p { m with condition := 0 } { p with pc := .sleepTest } []
  | goOn : p.pc = .sleepTest → m.condition ≠ 0 ∨ p.pending = true →
      Move m p m { p with pc := .signalTest } []
  | sleep : p.pc = .sleepTest → m.condition = 0 → p.pending = false →
      Move m p m { p with pc := .asleep } []
  | interrupted : p.pc = .signalTest → p.pending = true →
      Move m p m { p with pc := .done } [.returned (-ERESTARTSYS)]
  | retry : p.pc = .signalTest → p.pending = false →
      Move m p m { p with pc := .guard } []
  | fetchFault : p.pc = .access → p.op = .write none →
      Move m p (m.store m.tail.toNat 0) { p with pc := .done }
        [.returned (-EFAULT)]
  | fetch {b} : p.pc = .access → p.op = .write (some b) →
      Move m p (m.store m.tail.toNat b) { p with pc := .advance } []
  | putFault : p.pc = .access → p.op = .read true →
      Move m p m { p with pc := .done } [.returned (-EFAULT)]
  | put : p.pc = .access → p.op = .read false →
      Move m p m { p with pc := .advance } []
  | advance : p.pc = .advance →
      Move m p (p.op.move m) { p with pc := .setCondition } []
  | setCondition : p.pc = .setCondition →
      Move m p { m with condition := 1 } { p with pc := .wakeUp } []
  | wakeUp : p.pc = .wakeUp → Move m p m { p with pc := .done } [.returned 1]

theorem Proc.step_cases (h : p.step m = some (m', p', ev)) :
    Move m p m' p' ev := by
  unfold Proc.step at h
  cases hpc : p.pc with
  | access =>
      rw [hpc] at h
      have hstep : accessStep m p = (m', p', ev) := Option.some.inj h
      unfold accessStep at hstep
      split at hstep
      · cases hstep
        exact .fetchFault hpc ‹_›
      · cases hstep
        exact .fetch hpc ‹_›
      · cases hstep
        exact .putFault hpc ‹_›
      · cases hstep
        exact .put hpc ‹_›
  | sleepTest =>
      simp only [hpc] at h
      split_ifs at h with hgo
      · cases h
        exact .goOn hpc hgo
      · cases h
        push Not at hgo
        exact .sleep hpc hgo.1 (by simpa using hgo.2)
  | signalTest =>
      simp only [hpc] at h
      split_ifs at h with hpending
      · cases h
        exact .interrupted hpc hpending
      · cases h
        exact .retry hpc (by simpa using hpending)
  | asleep =>
      rw [hpc] at h
      cases h
  | done =>
      rw [hpc] at h
      cases h
  | start =>
      rw [hpc] at h
      cases h
      exact .start hpc
  | guard =>
      rw [hpc] at h
      cases h
      exact .guard hpc
  | reset =>
      rw [hpc] at h
      cases h
      exact .reset hpc
  | advance =>
      rw [hpc] at h
      cases h
      exact .advance hpc
  | setCondition =>
      rw [hpc] at h
      cases h
      exact .setCondition hpc
  | wakeUp =>
      rw [hpc] at h
      cases h
      exact .wakeUp hpc

end Moves

/-- The steps of the whole, case by case. -/
inductive Step (s : State) : Act → State → List Event → Prop
  | enter (op : Op) :
      Step s (.enter op)
        { s with procs := s.procs ++ [⟨op, .start, 0, false⟩] } []
  | signal {i : Nat} {p : Proc} : s.procs[i]? = some p →
      Step s (.signal i)
        { s with procs := s.procs.set i { p.woken with pending := true } } []
  | wakeUp {i : Nat} {p : Proc} : s.procs[i]? = some p → p.pc = .wakeUp →
      Step s (.proc i)
        { s with
          procs := (s.procs.set i { p with pc := .done }).map Proc.woken }
        [.returned 1]
  | proc {i : Nat} {p p' : Proc} {m' : Wait1} {ev : List Event} :
      s.procs[i]? = some p → p.pc ≠ .wakeUp → Move s.mem p m' p' ev →
      Step s (.proc i) { mem := m', procs := s.procs.set i p' } ev

theorem step_cases {s s' : State} {a : Act} {ev : List Event}
    (h : wait1.step s a = some (s', ev)) : Step s a s' ev := by
  change s.step a = some (s', ev) at h
  cases a with
  | enter op =>
      cases h
      exact .enter op
  | signal i =>
      cases hp : s.procs[i]? with
      | none =>
          simp only [State.step, hp] at h
          cases h
      | some p =>
          simp only [State.step, hp] at h
          cases h
          exact .signal hp
  | proc i =>
      cases hp : s.procs[i]? with
      | none =>
          simp only [State.step, hp] at h
          cases h
      | some p =>
          simp only [State.step, hp] at h
          obtain ⟨⟨m', p', ev'⟩, hstep, heq⟩ := Option.map_eq_some_iff.mp h
          cases heq
          have hmove := Proc.step_cases hstep
          by_cases hpc : p.pc = .wakeUp
          · cases hmove with
            | wakeUp =>
                rw [if_pos hpc]
                exact .wakeUp hp hpc
            | _ hother => rw [hpc] at hother; cases hother
          · rw [if_neg hpc]
            exact .proc hp hpc hmove

end Processes
end WaitQueue
end KernelDrivers
