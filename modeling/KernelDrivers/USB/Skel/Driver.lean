import KernelDrivers.Lib.System
import KernelDrivers.USB.Skel.Calls

/-!
# One device under the driver of `usbdrv3.c`

The state of a device from before `skel_probe` to after `skel_disconnect`:
the object, any number of open files and of system calls on them, and the one
thread of the USB core that calls `skel_probe`, `skel_suspend`, the two reset
functions and `skel_disconnect` under the device lock.  `skelDriver` lets all
of them, and the completions of the URBs, take steps in any order.
-/

namespace KernelDrivers
namespace USB
namespace Skel

open Lib

/-! ## Open files -/

/-- How far `skel_open` and `skel_release` have come on a file. -/
inductive File where
  | findInterface
  | getIntfdata
  | autopmGet
  | krefGet
  | opened
  | autopmPut
  | krefPut
  | closed
  deriving DecidableEq

/-- `skel_open` is in progress. -/
def File.opening : File → Bool
  | .findInterface | .getIntfdata | .autopmGet | .krefGet => true
  | _ => false

/-- The file has a reference to the object. -/
def File.holdsRef : File → Bool
  | .opened | .autopmPut | .krefPut => true
  | _ => false

/-- One step of `skel_open` or `skel_release`.  The release of an open file is
started by an action of its own. -/
def fileStep (d : UsbSkel) (intfdata : Bool) :
    File → Outcome → Option (UsbSkel × File × List Event)
  | .findInterface, .ok => some (d, .getIntfdata, [])
  | .findInterface, .fails _ => some (d, .closed, [])
  | .getIntfdata, _ =>
      if intfdata then some (d, .autopmGet, []) else some (d, .closed, [])
  | .autopmGet, .ok => some (d, .krefGet, [])
  | .autopmGet, .fails _ => some (d, .closed, [])
  | .krefGet, _ => some ({ d with kref := d.kref + 1 }, .opened, [])
  | .opened, _ => none
  | .autopmPut, _ => some (d, .krefPut, [])
  | .krefPut, _ => some ((krefPut d).1, .closed, (krefPut d).2)
  | .closed, _ => none

/-! ## The thread of the USB core -/

/-- Where the thread of the USB core is. -/
inductive Core where
  | unbound
  /-- The statements of `skel_probe` that can fail, and its error path. -/
  | findEndpoints
  | allocBuffer
  | allocUrb
  | setIntfdata
  | registerDev
  | clearIntfdata
  | probeError
  | bound
  | suspend (pc : DrawDown)
  | preReset
  | preResetLocked (pc : DrawDown)
  /-- The device is being reset, with `io_mutex` held. -/
  | inReset
  | postResetUnlock
  /-- The statements of `skel_disconnect`. -/
  | disconnect
  | deregisterDev
  | lockIo
  | setDisconnected
  | killRead
  | killAnchored
  | krefPut
  | gone
  deriving DecidableEq

/-- The object, its files and its callers. -/
structure State where
  dev : UsbSkel
  calls : List (Nat × Op)
  files : List File
  core : Core
  intfdata : Bool
  registered : Bool

/-- The object behind `kzalloc` and the `_init` calls of `skel_probe`. -/
def UsbSkel.fresh : UsbSkel :=
  { kref := 1, limitSem := writesInFlight, allocated := true }

/-- `usb_endpoint_maxp`: the packet size field of `wMaxPacketSize`. -/
def usbEndpointMaxp (wMaxPacketSize : UInt16) : Nat :=
  wMaxPacketSize.toNat % 2048

/-- The next step of the thread of the USB core inside one of the driver's
functions.  `maxp` is the `wMaxPacketSize` of the bulk-in endpoint. -/
def coreStep (s : State) (maxp : UInt16) :
    Core → Outcome → Option (State × List Event)
  | .unbound, .ok =>
      some ({ s with dev := UsbSkel.fresh, core := .findEndpoints }, [])
  | .unbound, .fails _ => some ({ s with core := .gone }, [])
  | .findEndpoints, .ok =>
      some ({ s with
          dev := { s.dev with bulkInSize := usbEndpointMaxp maxp }
          core := .allocBuffer }, [])
  | .findEndpoints, .fails _ => some ({ s with core := .probeError }, [])
  | .allocBuffer, .ok => some ({ s with core := .allocUrb }, [])
  | .allocBuffer, .fails _ => some ({ s with core := .probeError }, [])
  | .allocUrb, .ok => some ({ s with core := .setIntfdata }, [])
  | .allocUrb, .fails _ => some ({ s with core := .probeError }, [])
  | .setIntfdata, _ =>
      some ({ s with intfdata := true, core := .registerDev }, [])
  | .registerDev, .ok =>
      some ({ s with registered := true, core := .bound }, [])
  | .registerDev, .fails _ => some ({ s with core := .clearIntfdata }, [])
  | .clearIntfdata, _ =>
      some ({ s with intfdata := false, core := .probeError }, [])
  | .probeError, _ =>
      some ({ s with dev := (krefPut s.dev).1, core := .gone },
        (krefPut s.dev).2)
  | .bound, _ => none
  | .suspend pc, o =>
      match drawDown s.dev pc o with
      | none => none
      | some none => some ({ s with core := .bound }, [])
      | some (some pc) => some ({ s with core := .suspend pc }, [])
  | .preReset, _ =>
      if s.dev.ioMutex = none then
        some ({ s with
            dev := { s.dev with ioMutex := some .core }
            core := .preResetLocked .waitAnchor }, [])
      else none
  | .preResetLocked pc, o =>
      match drawDown s.dev pc o with
      | none => none
      | some none => some ({ s with core := .inReset }, [])
      | some (some pc) => some ({ s with core := .preResetLocked pc }, [])
  | .inReset, _ =>
      -- "we are sure no URBs are active - no locking needed"
      some ({ s with
          dev := { s.dev with errors := -EPIPE }
          core := .postResetUnlock }, [.resetRecorded])
  | .postResetUnlock, _ =>
      some ({ s with dev := { s.dev with ioMutex := none }, core := .bound },
        [])
  | .disconnect, _ =>
      some ({ s with intfdata := false, core := .deregisterDev }, [])
  | .deregisterDev, _ =>
      -- `usb_deregister_dev` waits out an open in progress
      if s.files.any File.opening then none
      else some ({ s with registered := false, core := .lockIo }, [])
  | .lockIo, _ =>
      if s.dev.ioMutex = none then
        some ({ s with
            dev := { s.dev with ioMutex := some .core }
            core := .setDisconnected }, [])
      else none
  | .setDisconnected, _ =>
      some ({ s with
          dev := { s.dev with disconnected := true, ioMutex := none }
          core := .killRead }, [])
  | .killRead, _ =>
      if s.dev.bulkInUrb = none ∧ s.dev.readCallbacks = 0 then
        some ({ s with core := .killAnchored }, [])
      else none
  | .killAnchored, _ =>
      if s.dev.submitted = [] then some ({ s with core := .krefPut }, [])
      else none
  | .krefPut, _ =>
      some ({ s with dev := (krefPut s.dev).1, core := .gone },
        (krefPut s.dev).2)
  | .gone, _ => none

/-! ## The system -/

/-- Which part takes the next step. -/
inductive Act where
  | core (o : Outcome) (maxp : UInt16)
  | suspend
  | reset
  | disconnect
  | openFile
  | release (f : Nat)
  | file (f : Nat) (o : Outcome)
  | enterRead (f : Nat) (nonblock : Bool) (count : Nat)
  | enterWrite (f : Nat) (nonblock : Bool) (count : Nat)
  | enterFlush (f : Nat)
  | call (i : Nat) (o : Outcome)
  | readCompletes (status : Int) (payload : List UInt8)
  | readWakesUp
  | writeCompletes (k : Nat) (status : Int)
  | writeCallback (k : Nat)

/-- The USB core calls a function of the driver while the interface is
bound. -/
def State.callDriver (s : State) (core : Core) : Option (State × List Event) :=
  if s.core = .bound then some ({ s with core := core }, []) else none

/-- A system call enters the driver on an open file. -/
def State.enter (s : State) (f : Nat) (op : Op) :
    Option (State × List Event) :=
  if s.files[f]? = some .opened then
    some ({ s with calls := s.calls ++ [(f, op)] }, [])
  else none

/-- A completion changes the device only. -/
def State.withDev (s : State) :
    Option (UsbSkel × List Event) → Option (State × List Event) :=
  Option.map fun (d, ev) => ({ s with dev := d }, ev)

/-- One step of the whole. -/
def State.step (s : State) : Act → Option (State × List Event)
  | .core o maxp => coreStep s maxp s.core o
  | .suspend => s.callDriver (.suspend .waitAnchor)
  | .reset => s.callDriver .preReset
  | .disconnect => s.callDriver .disconnect
  | .openFile =>
      if s.registered then
        some ({ s with files := s.files ++ [.findInterface] }, [])
      else none
  | .release f =>
      -- the last call on a file has returned when it is released
      if s.files[f]? = some .opened ∧
          s.calls.all (fun c => c.1 ≠ f ∨ ¬ c.2.active) then
        some ({ s with files := s.files.set f .autopmPut }, [])
      else none
  | .file f o =>
      match s.files[f]? with
      | none => none
      | some file =>
          (fileStep s.dev s.intfdata file o).map fun (d, file, ev) =>
            ({ s with dev := d, files := s.files.set f file }, ev)
  | .enterRead f nonblock count => s.enter f (.read nonblock count .start)
  | .enterWrite f nonblock count => s.enter f (.write nonblock count .start)
  | .enterFlush f => s.enter f (.flush .start)
  | .call i o =>
      match s.calls[i]? with
      | none => none
      | some (f, op) =>
          (op.step s.dev (.call i) o).map fun (d, op, ev) =>
            ({ s with dev := d, calls := s.calls.set i (f, op) }, ev)
  | .readCompletes status payload =>
      s.withDev (readCallback s.dev status payload)
  | .readWakesUp => s.withDev (readWakeUp s.dev)
  | .writeCompletes k status => s.withDev (writeCallback s.dev k status)
  | .writeCallback k => s.withDev (writeCallbackTail s.dev k)

/-- Before `skel_probe` there is nothing. -/
def State.initial : State where
  dev := {}
  calls := []
  files := []
  core := .unbound
  intfdata := false
  registered := false

/-- All runs of the driver on one device. -/
def skelDriver : System State Act Event where
  init := State.initial
  step := State.step

/-- A device is bound, with the file `0` open on it. -/
def bringUp : List Act :=
  List.replicate 6 (.core .ok 512) ++ [.openFile] ++
    List.replicate 4 (.file 0 .ok)

end Skel
end USB
end KernelDrivers
