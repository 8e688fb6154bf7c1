import KernelDrivers.Errno
import KernelDrivers.Lib.Bytes

/-!
# The device of `usbdrv3.c`

`UsbSkel` holds the fields of `struct usb_skel` that the driver's logic depends
on, and next to them what the USB core knows about its URBs: the read URB, the
write URBs on the anchor `submitted`, and the callbacks that are running.  The
two kinds of callbacks are here too, cut into the pieces between which another
context may run.
-/

namespace KernelDrivers
namespace USB
namespace Skel

open Lib

/-- `WRITES_IN_FLIGHT`. -/
def writesInFlight : Nat := 8

/-- `PAGE_SIZE` of the machines the driver is built for. -/
def pageSize : Nat := 4096

/-- `MAX_TRANSFER`. -/
def maxTransfer : Nat := pageSize - 512

/-- Who can hold `io_mutex`: a system call in progress, or the thread of the
USB core that calls the driver. -/
inductive Owner where
  | call (i : Nat)
  | core
  deriving DecidableEq

/-- How far the completion of a write URB has come. -/
inductive UrbPhase where
  /-- The device has it. -/
  | inFlight
  /-- Its callback is behind the store to `errors`. -/
  | freeCoherent
  /-- Its callback is about to call `up`. -/
  | up
  deriving DecidableEq

/-- A write URB from its submission to the end of its callback. -/
structure WriteUrb where
  transferBuffer : Nat
  transferBufferLength : Nat
  phase : UrbPhase
  deriving DecidableEq

/-- `struct usb_skel` and its URBs. -/
structure UsbSkel where
  limitSem : Nat := 0
  bulkInBuffer : Bytes := fun _ => 0
  bulkInSize : Nat := 0
  bulkInFilled : Nat := 0
  bulkInCopied : Nat := 0
  errors : Int := 0
  ongoingRead : Bool := false
  errLock : Bool := false
  kref : Nat := 0
  ioMutex : Option Owner := none
  disconnected : Bool := false
  /-- The length the read URB was submitted with, while it is in flight. -/
  bulkInUrb : Option Nat := none
  /-- Read callbacks that have dropped `err_lock` and not yet woken anyone. -/
  readCallbacks : Nat := 0
  /-- The write URBs on the anchor. -/
  submitted : List WriteUrb := []
  /-- Coherent buffers are numbered in the order of their allocation. -/
  buffers : Nat := 0
  allocated : Bool := false
  /-- How often `skel_delete` has run. -/
  deleted : Nat := 0

/-- Who gives a coherent buffer back. -/
inductive Freer where
  | writer
  | callback
  deriving DecidableEq

/-- What a run shows. -/
inductive Event where
  | readSubmitted (length : Nat)
  | readCompleted (status : Int) (payload : List UInt8)
  | writeSubmitted (buf : Nat)
  | writeCompleted (status : Int)
  | coherentAllocated (buf : Nat)
  | coherentFreed (buf : Nat) (freer : Freer)
  /-- A read, write or flush returns, with the bytes it copied to user
  space. -/
  | returned (rv : Int) (user : List UInt8)
  /-- `skel_post_reset` has stored `-EPIPE`. -/
  | resetRecorded
  | deleted
  deriving DecidableEq

/-- What the surroundings decide at a step: the service that the step asks for
succeeds, or it fails with an error number. -/
inductive Outcome where
  | ok
  | fails (err : Int)
  deriving DecidableEq

/-- `kref_put`, with `skel_delete` when the count drops to zero. -/
def krefPut (d : UsbSkel) : UsbSkel × List Event :=
  if d.kref = 1 then
    ({ d with kref := 0, deleted := d.deleted + 1 }, [.deleted])
  else
    ({ d with kref := d.kref - 1 }, [])

/-- `(errors == -EPIPE) ? -EPIPE : -EIO`, the value under which `skel_read`
and `skel_write` report an error. -/
def reported (errors : Int) : Int :=
  if errors = -EPIPE then errors else - EIO

/-- The value under which `skel_flush` reads the errors out. -/
def flushed (errors : Int) : Int :=
  if errors ≠ 0 then reported errors else 0

/-- `(rv == -ENOMEM) ? rv : -EIO`, the value of `skel_do_read_io` for a failed
submission. -/
def submitError (rv : Int) : Int :=
  if rv = -ENOMEM then rv else - EIO

/-! ## Completion of the URBs -/

/-- `errors` behind the callback of an URB: every nonzero status is stored,
that of an unlinked URB, too. -/
def errorsAfter (errors status : Int) : Int :=
  if status ≠ 0 then status else errors

/-- What `skel_read_bulk_callback` stores under `err_lock`, behind the bytes
that the device has stored in the buffer.  An URB that failed may have
stored some, too. -/
def UsbSkel.readDone (d : UsbSkel) (status : Int) (payload : List UInt8) :
    UsbSkel :=
  { d with
    bulkInUrb := none
    bulkInBuffer := d.bulkInBuffer.storeList payload
    errors := errorsAfter d.errors status
    bulkInFilled := if status ≠ 0 then d.bulkInFilled else payload.length
    ongoingRead := false
    readCallbacks := d.readCallbacks + 1 }

/-- `skel_read_bulk_callback` up to the end of its critical section. -/
def readCallback (d : UsbSkel) (status : Int) (payload : List UInt8) :
    Option (UsbSkel × List Event) :=
  if d.bulkInUrb = none ∨ d.errLock ∨ 0 < status then none
  else some (d.readDone status payload, [.readCompleted status payload])

/-- `wake_up_interruptible` at the end of `skel_read_bulk_callback`. -/
def readWakeUp (d : UsbSkel) : Option (UsbSkel × List Event) :=
  if d.readCallbacks = 0 then none
  else some ({ d with readCallbacks := d.readCallbacks - 1 }, [])

/-- `skel_write_bulk_callback` of the `k`-th URB on the anchor up to the store
to `errors`, which it makes under `err_lock`. -/
def writeCallback (d : UsbSkel) (k : Nat) (status : Int) :
    Option (UsbSkel × List Event) :=
  match d.submitted[k]? with
  | some ⟨buf, length, .inFlight⟩ =>
      if 0 < status ∨ (status ≠ 0 ∧ d.errLock) then none
      else
        some ({ d with
            errors := errorsAfter d.errors status
            submitted := d.submitted.set k ⟨buf, length, .freeCoherent⟩ },
          [.writeCompleted status])
  | _ => none

/-- The two last statements of `skel_write_bulk_callback`. -/
def writeCallbackTail (d : UsbSkel) (k : Nat) : Option (UsbSkel × List Event) :=
  match d.submitted[k]? with
  | some ⟨buf, length, .freeCoherent⟩ =>
      some ({ d with submitted := d.submitted.set k ⟨buf, length, .up⟩ },
        [.coherentFreed buf .callback])
  | some ⟨_, _, .up⟩ =>
      some ({ d with
          submitted := d.submitted.eraseIdx k
          limitSem := d.limitSem + 1 }, [])
  | _ => none

/-! ## Waiting for the URBs -/

/-- The steps of `skel_draw_down`. -/
inductive DrawDown where
  | waitAnchor
  | killAnchored
  | killRead
  deriving DecidableEq

/-- One step of `skel_draw_down`; `some none` is its end.  Every wait lasts
until the callbacks of the URBs have finished, only the first can time
out. -/
def drawDown (d : UsbSkel) : DrawDown → Outcome → Option (Option DrawDown)
  | .waitAnchor, .ok =>
      if d.submitted = [] then some (some .killRead) else none
  | .waitAnchor, .fails _ => some (some .killAnchored)
  | .killAnchored, _ =>
      if d.submitted = [] then some (some .killRead) else none
  | .killRead, _ =>
      if d.bulkInUrb = none ∧ d.readCallbacks = 0 then some none else none

end Skel
end USB
end KernelDrivers
