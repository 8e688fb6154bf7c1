import KernelDrivers.Errno
import KernelDrivers.Lib.CInt
import KernelDrivers.Lib.Ring
import KernelDrivers.Lib.System
import Mathlib.Tactic.SplitIfs

/-!
# The ring-buffer device of `wait1.c`

The module state is two indices into a ring of bytes and the flag that
sleepers wait for.  `myWrite` and `myRead` are the two file operations as they
run when no other call is in progress: a call that finds its loop guard true
goes to sleep, and with nobody else to set `condition` it gets past
`wait_event_interruptible` only through a signal.  Without one the call does
not complete, which is `none`.
-/

namespace KernelDrivers
namespace WaitQueue

open Lib

/-- `RINGSIZE`. -/
def ringSize : Nat := 512

/-- The static variables of the module. -/
structure Wait1 where
  head : Int
  tail : Int
  ring : Vector UInt8 ringSize
  condition : Int
  deriving DecidableEq

namespace Wait1

/-- The static initial values. -/
def initial : Wait1 where
  head := 0
  tail := 0
  ring := Vector.replicate ringSize 0
  condition := 0

/-- `ring[ i ]`. -/
def cell (s : Wait1) (i : Nat) : UInt8 :=
  s.ring[i]?.getD 0

/-- `ring[ i ] = b`. -/
def store (s : Wait1) (i : Nat) (b : UInt8) : Wait1 :=
  { s with ring := s.ring.setIfInBounds i b }

@[simp] theorem store_head (s : Wait1) (i : Nat) (b : UInt8) :
    (s.store i b).head = s.head := rfl

@[simp] theorem store_tail (s : Wait1) (i : Nat) (b : UInt8) :
    (s.store i b).tail = s.tail := rfl

theorem cell_store (s : Wait1) {i : Nat} (hi : i < ringSize) (b : UInt8) :
    (s.store i b).cell = Function.update s.cell i b := by
  funext j
  by_cases hij : j = i
  · subst hij
    simp [cell, store, hi]
  · have hne : i ≠ j := fun h => hij h.symm
    simp [cell, store, hij, hne]

end Wait1

/-- `( head - 1 ) % RINGSIZE`, the value `my_write` compares with `tail`. -/
def prev (s : Wait1) : Int :=
  (s.head - 1).tmod ringSize

/-- The end of `my_write`, behind its loop: fetch the byte from user space,
which on a fault stores `0`, then advance `tail` and wake the readers. -/
def insertByte (s : Wait1) : Option UInt8 → Int × Wait1
  | none => (-EFAULT, s.store s.tail.toNat 0)
  | some b =>
      (1, { s.store s.tail.toNat b with
            tail := (1 + s.tail).tmod ringSize
            condition := 1 })

/-- The end of `my_read`, behind its loop: hand the byte at `head` to user
space, then advance `head` and wake the writers. -/
def removeByte (s : Wait1) (fault : Bool) : Int × Wait1 :=
  if fault then
    (-EFAULT, s)
  else
    (1, { s with head := (1 + s.head).tmod ringSize, condition := 1 })

/-- A completed `my_write`: what `get_user` fetches and whether a signal
ends the sleep. -/
def myWrite (s : Wait1) (buf : Option UInt8) (signal : Bool) :
    Option (Int × Wait1) :=
  if prev s = s.tail then
    if signal then some (-ERESTARTSYS, { s with condition := 0 }) else none
  else
    some (insertByte s buf)

/-- A completed `my_read`: whether `put_user` faults and whether a signal
ends the sleep. -/
def myRead (s : Wait1) (fault signal : Bool) : Option (Int × Wait1) :=
  if s.head = s.tail then
    if signal then some (-ERESTARTSYS, { s with condition := 0 }) else none
  else
    some (removeByte s fault)

/-- One call of user space. -/
inductive Call where
  | write (buf : Option UInt8) (signal : Bool)
  | read (fault signal : Bool)
  deriving DecidableEq

/-- What a completed call means to its caller. -/
inductive Event where
  | accepted (b : UInt8)
  | delivered (b : UInt8)
  | failed (rv : Int)
  deriving DecidableEq

/-- The outcome of a write: the byte is accepted exactly on the return value
`1`. -/
def writeEvent (buf : Option UInt8) (rv : Int) : Event :=
  match buf with
  | some b => if rv = 1 then .accepted b else .failed rv
  | none => .failed rv

/-- The outcome of a read in the state before it: the byte at `head` is handed
out exactly on the return value `1`. -/
def readEvent (s : Wait1) (rv : Int) : Event :=
  if rv = 1 then .delivered (s.cell s.head.toNat) else .failed rv

/-- The device as a system of completed calls. -/
def wait1 : System Wait1 Call Event where
  init := Wait1.initial
  step := fun s call =>
    match call with
    | .write buf signal =>
        (myWrite s buf signal).map fun (rv, s') => (s', [writeEvent buf rv])
    | .read fault signal =>
        (myRead s fault signal).map fun (rv, s') => (s', [readEvent s rv])

/-- Both indices stay inside the ring. -/
structure InRange (s : Wait1) : Prop where
  head_nonneg : 0 ≤ s.head
  head_lt : s.head < ringSize
  tail_nonneg : 0 ≤ s.tail
  tail_lt : s.tail < ringSize

theorem inRange_initial : InRange Wait1.initial := by
  constructor <;> decide

theorem prev_eq {s : Wait1} (hs : InRange s) : prev s = s.head - 1 :=
  CInt.tmod_pred hs.head_nonneg hs.head_lt (by decide)

end WaitQueue
end KernelDrivers
