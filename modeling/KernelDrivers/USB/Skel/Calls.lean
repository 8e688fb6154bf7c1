import KernelDrivers.USB.Skel.Device

/-!
# The system calls of `usbdrv3.c`

`skel_read`, `skel_write` and `skel_flush`, one statement at a time.  A call
stands at a program counter that carries its live local variables, and a step
moves it to the next one.  A step that has to wait is not enabled.
-/

namespace KernelDrivers
namespace USB
namespace Skel

open Lib

/-! ## `skel_read` -/

/-- What `skel_read` does behind `skel_do_read_io`: take the value and go
back to `retry`, or ignore it and leave with what it has. -/
inductive Resume where
  | retry
  | exit (rv : Int) (user : List UInt8)
  deriving DecidableEq

inductive ReadPc where
  | start
  | locked
  | retry
  | waiting
  | checkErrors
  | clearErrors (rv : Int)
  | inspect
  | copy (available : Nat)
  /-- The statements of `skel_do_read_io`. -/
  | markOngoing (count : Nat) (next : Resume)
  | emptyBuffer (length : Nat) (next : Resume)
  | submit (length : Nat) (next : Resume)
  | submitFailed (rv : Int) (next : Resume)
  | exit (rv : Int) (user : List UInt8)
  | done
  deriving DecidableEq

/-- Where `skel_read` goes on after a successful `skel_do_read_io`. -/
def Resume.succeeded : Resume → ReadPc
  | .retry => .retry
  | .exit rv user => .exit rv user

/-- Where `skel_read` goes on after `skel_do_read_io` failed with `rv`. -/
def Resume.failed (rv : Int) : Resume → ReadPc
  | .retry => .exit rv []
  | .exit rv' user => .exit rv' user

/-- The `copy_to_user` of `skel_read`: its `rv` and what user space gets. -/
def copyToUser (d : UsbSkel) (chunk : Nat) : Outcome → Int × List UInt8
  | .ok => (chunk, Bytes.slice d.bulkInBuffer d.bulkInCopied chunk)
  | .fails _ => (-EFAULT, [])

/-- One step of `skel_read`. -/
def readStep (d : UsbSkel) (me : Owner) (nonblock : Bool) (count : Nat) :
    ReadPc → Outcome → Option (UsbSkel × ReadPc × List Event)
  | .start, o =>
      if count = 0 then some (d, .done, [.returned 0 []])
      else
        match o with
        -- `mutex_lock_interruptible` was interrupted
        | .fails _ => some (d, .done, [.returned (-EINTR) []])
        | .ok =>
            if d.ioMutex = none then
              some ({ d with ioMutex := some me }, .locked, [])
            else none
  | .locked, _ =>
      if d.disconnected then some (d, .exit (-ENODEV) [], [])
      else some (d, .retry, [])
  | .retry, _ =>
      if d.errLock then none
      else if d.ongoingRead then
        if nonblock then some (d, .exit (-EAGAIN) [], [])
        else some (d, .waiting, [])
      else some (d, .checkErrors, [])
  | .waiting, o =>
      -- `wait_event_interruptible` looks at the condition before the signal
      if d.ongoingRead then
        match o with
        | .ok => none
        | .fails _ => some (d, .exit (-ERESTARTSYS) [], [])
      else some (d, .checkErrors, [])
  | .checkErrors, _ =>
      if d.errors < 0 then some (d, .clearErrors d.errors, [])
      else some (d, .inspect, [])
  | .clearErrors rv, _ =>
      some ({ d with errors := 0 }, .exit (reported rv) [], [])
  | .inspect, _ =>
      if d.bulkInFilled = 0 then some (d, .markOngoing count .retry, [])
      else if d.bulkInFilled - d.bulkInCopied = 0 then
        some (d, .markOngoing count .retry, [])
      else some (d, .copy (d.bulkInFilled - d.bulkInCopied), [])
  | .copy available, o =>
      let chunk := min available count
      let (rv, user) := copyToUser d chunk o
      -- the source advances `bulk_in_copied` also behind a fault
      let d := { d with bulkInCopied := d.bulkInCopied + chunk }
      if available < count then
        some (d, .markOngoing (count - chunk) (.exit rv user), [])
      else some (d, .exit rv user, [])
  | .markOngoing count next, _ =>
      if d.errLock then none
      else
        some ({ d with ongoingRead := true },
          .emptyBuffer (min d.bulkInSize count) next, [])
  | .emptyBuffer length next, _ =>
      some ({ d with bulkInFilled := 0, bulkInCopied := 0 },
        .submit length next, [])
  | .submit length next, o =>
      match o with
      | .ok =>
          -- `usb_submit_urb` refuses an URB that is in flight
          if d.bulkInUrb = none then
            some ({ d with bulkInUrb := some length }, next.succeeded,
              [.readSubmitted length])
          else none
      | .fails err =>
          if err < 0 then
            some (d, .submitFailed (submitError err) next, [])
          else none
  | .submitFailed rv next, _ =>
      if d.errLock then none
      else some ({ d with ongoingRead := false }, next.failed rv, [])
  | .exit rv user, _ =>
      some ({ d with ioMutex := none }, .done, [.returned rv user])
  | .done, _ => none

/-! ## `skel_write` -/

inductive WritePc where
  | start
  | checkErrors
  /-- Between the read of `errors` and its reset, with `err_lock` held. -/
  | clearErrors (retval : Int)
  | allocUrb
  | allocCoherent
  | copyFromUser (buf : Nat)
  | lockIo (buf : Nat)
  | locked (buf : Nat)
  | submit (buf : Nat)
  | submitted
  | submitFailed (retval : Int) (buf : Nat)
  /-- The label `error`, with the buffer if there is one. -/
  | error (retval : Int) (buf : Option Nat)
  | up (retval : Int)
  | done
  deriving DecidableEq

/-- One step of `skel_write`. -/
def writeStep (d : UsbSkel) (me : Owner) (nonblock : Bool) (count : Nat) :
    WritePc → Outcome → Option (UsbSkel × WritePc × List Event)
  | .start, o =>
      if count = 0 then some (d, .done, [.returned 0 []])
      else if d.limitSem = 0 then
        if nonblock then some (d, .done, [.returned (-EAGAIN) []])
        else
          match o with
          | .ok => none
          -- `down_interruptible` was interrupted
          | .fails _ => some (d, .done, [.returned (-ERESTARTSYS) []])
      else some ({ d with limitSem := d.limitSem - 1 }, .checkErrors, [])
  | .checkErrors, _ =>
      if d.errLock then none
      else if d.errors < 0 then
        some ({ d with errLock := true }, .clearErrors d.errors, [])
      else some (d, .allocUrb, [])
  | .clearErrors retval, _ =>
      some ({ d with errors := 0, errLock := false },
        .error (reported retval) none, [])
  | .allocUrb, o =>
      match o with
      | .ok => some (d, .allocCoherent, [])
      | .fails _ => some (d, .error (-ENOMEM) none, [])
  | .allocCoherent, o =>
      match o with
      | .ok =>
          some ({ d with buffers := d.buffers + 1 }, .copyFromUser d.buffers,
            [.coherentAllocated d.buffers])
      | .fails _ => some (d, .error (-ENOMEM) none, [])
  | .copyFromUser buf, o =>
      match o with
      | .ok => some (d, .lockIo buf, [])
      | .fails _ => some (d, .error (-EFAULT) (some buf), [])
  | .lockIo buf, _ =>
      if d.ioMutex = none then
        some ({ d with ioMutex := some me }, .locked buf, [])
      else none
  | .locked buf, _ =>
      if d.disconnected then
        some ({ d with ioMutex := none }, .error (-ENODEV) (some buf), [])
      else some (d, .submit buf, [])
  | .submit buf, o =>
      match o with
      | .ok =>
          some ({ d with
              submitted := d.submitted ++
                [⟨buf, min count maxTransfer, .inFlight⟩] },
            .submitted, [.writeSubmitted buf])
      | .fails err =>
          if err < 0 then some (d, .submitFailed err buf, []) else none
  | .submitted, _ =>
      some ({ d with ioMutex := none }, .done,
        [.returned (min count maxTransfer : Nat) []])
  | .submitFailed retval buf, _ =>
      some ({ d with ioMutex := none }, .error retval (some buf), [])
  | .error retval buf, _ =>
      -- `usb_free_coherent` of a null pointer does nothing
      some (d, .up retval,
        buf.toList.map fun buf => .coherentFreed buf .writer)
  | .up retval, _ =>
      some ({ d with limitSem := d.limitSem + 1 }, .done,
        [.returned retval []])
  | .done, _ => none

/-! ## `skel_flush` -/

inductive FlushPc where
  | start
  | drawDown (pc : DrawDown)
  | collect
  | exit (res : Int)
  | done
  deriving DecidableEq

/-- One step of `skel_flush`. -/
def flushStep (d : UsbSkel) (me : Owner) :
    FlushPc → Outcome → Option (UsbSkel × FlushPc × List Event)
  | .start, _ =>
      if d.ioMutex = none then
        some ({ d with ioMutex := some me }, .drawDown .waitAnchor, [])
      else none
  | .drawDown pc, o =>
      match drawDown d pc o with
      | none => none
      | some none => some (d, .collect, [])
      | some (some pc) => some (d, .drawDown pc, [])
  | .collect, _ =>
      if d.errLock then none
      else
        some ({ d with errors := 0 }, .exit (flushed d.errors), [])
  | .exit res, _ =>
      some ({ d with ioMutex := none }, .done, [.returned res []])
  | .done, _ => none

/-! ## A call on an open file -/

/-- A system call on the driver with its arguments and how far it has come. -/
inductive Op where
  | read (nonblock : Bool) (count : Nat) (pc : ReadPc)
  | write (nonblock : Bool) (count : Nat) (pc : WritePc)
  | flush (pc : FlushPc)
  deriving DecidableEq

/-- One step of a call. -/
def Op.step (d : UsbSkel) (me : Owner) : Op → Outcome →
    Option (UsbSkel × Op × List Event)
  | .read nonblock count pc, o =>
      (readStep d me nonblock count pc o).map fun (d, pc, ev) =>
        (d, .read nonblock count pc, ev)
  | .write nonblock count pc, o =>
      (writeStep d me nonblock count pc o).map fun (d, pc, ev) =>
        (d, .write nonblock count pc, ev)
  | .flush pc, o =>
      (flushStep d me pc o).map fun (d, pc, ev) => (d, .flush pc, ev)

/-- The call has not returned yet. -/
def Op.active : Op → Bool
  | .read _ _ pc => pc ≠ .done
  | .write _ _ pc => pc ≠ .done
  | .flush pc => pc ≠ .done

end Skel
end USB
end KernelDrivers
