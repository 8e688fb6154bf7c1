import KernelDrivers.Errno
import KernelDrivers.Lib.Pool
import KernelDrivers.Lib.System

/-!
# Sessions and the disconnect in `usbdrv4.c`

The mutex of `struct test_usb1_device` is taken in `test_usb1_open` with
`mutex_trylock` and given back in `test_usb1_close`, so it is the session.
`test_usb1_disconnect` clears the interface data, gives back the minor, takes
the mutex and frees the buffers and the device.  Any number of processes open,
read, write and close around it, one statement at a time.

Two things are the USB core's and the VFS's: `usb_deregister_dev` waits until
no open is in progress and admits none afterwards, and a handle is closed when
its reads and writes are over.  Which way a statement of a read or write goes
is left open, since only what it touches matters here.
-/

namespace KernelDrivers
namespace USB
namespace Session

open Lib

/-- What is allocated for a device. -/
inductive Resource where
  /-- `struct test_usb1_device`. -/
  | dev
  | inBuf
  | outBuf
  deriving DecidableEq

/-- What `test_usb1_probe` allocated for an interface with or without the two
endpoints. -/
def allocated (inEp outEp : Bool) : Resource → Bool
  | .dev => true
  | .inBuf => inEp
  | .outBuf => outEp

/-- The next statement of `test_usb1_open` and `test_usb1_close`. -/
inductive FilePc where
  | findInterface
  | getIntfdata
  | trylock
  /-- `in_buf_left_over = 0`. -/
  | clearLeftOver
  | setPrivateData
  | session
  /-- The `mutex_unlock` of `test_usb1_close`. -/
  | closing
  | ended
  deriving DecidableEq

/-- The next statement of `test_usb1_read` or `test_usb1_write`. -/
inductive OpPc where
  /-- `if (dev->in_buf_left_over)`. -/
  | leftOver
  | takeLeftOver
  | bulkIn
  | copyToUser
  /-- `in_buf_left_over = read_size` after a fault. -/
  | keepRest
  /-- The loop that shifts the rest to the front. -/
  | shift
  | setLeftOver
  /-- `while (wrote_cnt < cnt)` and `write_size`. -/
  | nextChunk
  | copyFromUser
  | bulkOut
  deriving DecidableEq

/-- A handle, with the reads and writes that are in progress on it. -/
structure File where
  pc : FilePc
  ops : List OpPc
  deriving DecidableEq

/-- The next statement of the end of `test_usb1_probe`, then of
`test_usb1_disconnect`. -/
inductive CorePc where
  | registerDev
  | setIntfdata
  | bound
  | deregisterDev
  | mutexLock
  | freeOutBuf
  | freeInBuf
  | mutexUnlock
  | freeDev
  /-- The three `kfree` at `probe_err`. -/
  | errOutBuf
  | errInBuf
  | errDev
  | gone
  deriving DecidableEq

structure State where
  core : CorePc
  /-- The minor is registered with the USB core. -/
  registered : Bool
  /-- The interface data points to the device. -/
  intfdata : Bool
  /-- `dev->m` is taken. -/
  locked : Bool
  files : List File
  deriving DecidableEq

inductive Event where
  | touched (r : Resource)
  | freed (r : Resource)
  | opened
  | openFailed (rv : Int)
  deriving DecidableEq

inductive Act where
  /-- Probe and disconnect; `ok` is the outcome of `usb_register_dev`. -/
  | core (ok : Bool)
  | open
  /-- `found` is the outcome of `usb_find_interface`. -/
  | file (i : Nat) (found : Bool)
  | read (i : Nat)
  | write (i : Nat)
  | op (i j : Nat) (branch : Bool)
  | close (i : Nat)
  deriving DecidableEq

/-- What a statement of a read or write touches and where it goes. -/
def opStep : OpPc → Bool → List Resource × Option OpPc
  | .leftOver, true => ([.dev], some .takeLeftOver)
  | .leftOver, false => ([.dev], some .bulkIn)
  | .takeLeftOver, _ => ([.dev], some .copyToUser)
  | .bulkIn, true => ([.dev, .inBuf], some .copyToUser)
  | .bulkIn, false => ([.dev, .inBuf], none)
  | .copyToUser, true => ([.dev, .inBuf], some .shift)
  | .copyToUser, false => ([.dev, .inBuf], some .keepRest)
  | .keepRest, _ => ([.dev], none)
  | .shift, true => ([.dev, .inBuf], some .shift)
  | .shift, false => ([], some .setLeftOver)
  | .setLeftOver, _ => ([.dev], none)
  | .nextChunk, true => ([.dev], some .copyFromUser)
  | .nextChunk, false => ([], none)
  | .copyFromUser, true => ([.dev, .outBuf], some .bulkOut)
  | .copyFromUser, false => ([.dev, .outBuf], none)
  | .bulkOut, true => ([.dev, .outBuf], some .nextChunk)
  | .bulkOut, false => ([.dev, .outBuf], none)

/-- A statement of an open or close: the mutex, the next statement and what it
shows. -/
def fileStep (s : State) (found : Bool) :
    FilePc → Option (Bool × FilePc × List Event)
  | .findInterface =>
      if found then some (s.locked, .getIntfdata, [])
      else some (s.locked, .ended, [.openFailed (-ENODEV)])
  | .getIntfdata =>
      if s.intfdata then some (s.locked, .trylock, [])
      else some (s.locked, .ended, [.openFailed (-ENODEV)])
  | .trylock =>
      if s.locked then
        some (s.locked, .ended, [.touched .dev, .openFailed (-EBUSY)])
      else some (true, .clearLeftOver, [.touched .dev])
  | .clearLeftOver => some (s.locked, .setPrivateData, [.touched .dev])
  | .setPrivateData => some (s.locked, .session, [.opened])
  | .session => none
  | .closing => some (false, .ended, [.touched .dev])
  | .ended => none

/-- In an open that is in progress. -/
def FilePc.opening : FilePc → Bool
  | .findInterface | .getIntfdata | .trylock | .clearLeftOver
  | .setPrivateData => true
  | _ => false

/-- With the mutex taken. -/
def FilePc.isOpen : FilePc → Bool
  | .clearLeftOver | .setPrivateData | .session | .closing => true
  | _ => false

def File.isOpen (f : File) : Bool := f.pc.isOpen

section Steps

variable (inEp outEp : Bool)

def kfree (r : Resource) : List Event :=
  if allocated inEp outEp r then [.freed r] else []

def coreStep (s : State) (ok : Bool) : Option (State × List Event) :=
  match s.core with
  | .registerDev =>
      if ok then
        some ({ s with core := .setIntfdata, registered := true },
          [.touched .dev])
      else some ({ s with core := .errOutBuf }, [.touched .dev])
  | .setIntfdata => some ({ s with core := .bound, intfdata := true }, [])
  | .bound =>
      some ({ s with core := .deregisterDev, intfdata := false }, [])
  | .deregisterDev =>
      if ∀ f ∈ s.files, f.pc.opening = false then
        some ({ s with core := .mutexLock, registered := false },
          [.touched .dev])
      else none
  | .mutexLock =>
      if s.locked then none
      else some ({ s with core := .freeOutBuf, locked := true },
        [.touched .dev])
  | .freeOutBuf =>
      some ({ s with core := .freeInBuf },
        .touched .dev :: kfree inEp outEp .outBuf)
  | .freeInBuf =>
      some ({ s with core := .mutexUnlock },
        .touched .dev :: kfree inEp outEp .inBuf)
  | .mutexUnlock =>
      some ({ s with core := .freeDev, locked := false }, [.touched .dev])
  | .freeDev | .errDev =>
      some ({ s with core := .gone }, kfree inEp outEp .dev)
  | .errOutBuf =>
      some ({ s with core := .errInBuf },
        .touched .dev :: kfree inEp outEp .outBuf)
  | .errInBuf =>
      some ({ s with core := .errDev },
        .touched .dev :: kfree inEp outEp .inBuf)
  | .gone => none

/-- Start a read or write on an open session. -/
def startOp (s : State) (i : Nat) (op : OpPc) : Option State :=
  match s.files[i]? with
  | none => none
  | some f =>
      if f.pc = .session then
        some { s with files := s.files.set i { f with ops := f.ops ++ [op] } }
      else none

def State.step (s : State) : Act → Option (State × List Event)
  | .core ok => coreStep inEp outEp s ok
  | .open =>
      if s.registered then
        some ({ s with files := s.files ++ [⟨.findInterface, []⟩] }, [])
      else none
  | .file i found =>
      match s.files[i]? with
      | none => none
      | some f =>
          (fileStep s found f.pc).map fun (locked, pc, ev) =>
            ({ s with
              locked := locked
              files := s.files.set i { f with pc := pc } }, ev)
  | .read i => (startOp s i .leftOver).map fun s' => (s', [])
  | .write i => (startOp s i .nextChunk).map fun s' => (s', [])
  | .op i j branch =>
      match s.files[i]? with
      | none => none
      | some f =>
          (f.ops[j]?).map fun op =>
            let (uses, next) := opStep op branch
            let ops :=
              match next with
              | none => f.ops.eraseIdx j
              | some op => f.ops.set j op
            ({ s with files := s.files.set i { f with ops := ops } },
              uses.map .touched)
  | .close i =>
      match s.files[i]? with
      | none => none
      | some f =>
          if f.pc = .session ∧ f.ops = [] then
            some ({ s with
              files := s.files.set i { f with pc := .closing } }, [])
          else none

/-- The driver from the end of its probe on. -/
def usbdrv4 : System State Act Event where
  init := ⟨.registerDev, false, false, false, []⟩
  step := State.step inEp outEp

end Steps

/-! ## What one step can do -/

/-- The steps of an open or a close. -/
inductive FileMove (s : State) : FilePc → Bool → FilePc → List Event → Prop
  | found : FileMove s .findInterface s.locked .getIntfdata []
  | noInterface :
      FileMove s .findInterface s.locked .ended [.openFailed (-ENODEV)]
  | intfdata : FileMove s .getIntfdata s.locked .trylock []
  | noIntfdata : s.intfdata = false →
      FileMove s .getIntfdata s.locked .ended [.openFailed (-ENODEV)]
  | busy : s.locked = true → FileMove s .trylock s.locked .ended
      [.touched .dev, .openFailed (-EBUSY)]
  | trylock : s.locked = false →
      FileMove s .trylock true .clearLeftOver [.touched .dev]
  | clearLeftOver :
      FileMove s .clearLeftOver s.locked .setPrivateData [.touched .dev]
  | setPrivateData : FileMove s .setPrivateData s.locked .session [.opened]
  | closing : FileMove s .closing false .ended [.touched .dev]

/-- The steps of the probe and the disconnect. -/
inductive CoreMove (inEp outEp : Bool) (s : State) :
    CorePc → State → List Event → Prop
  | registerDev : CoreMove inEp outEp s .registerDev
      { s with core := .setIntfdata, registered := true } [.touched .dev]
  | noMinor : CoreMove inEp outEp s .registerDev
      { s with core := .errOutBuf } [.touched .dev]
  | setIntfdata : CoreMove inEp outEp s .setIntfdata
      { s with core := .bound, intfdata := true } []
  | disconnect : CoreMove inEp outEp s .bound
      { s with core := .deregisterDev, intfdata := false } []
  | deregisterDev : (∀ f ∈ s.files, f.pc.opening = false) →
      CoreMove inEp outEp s .deregisterDev
        { s with core := .mutexLock, registered := false } [.touched .dev]
  | mutexLock : s.locked = false → CoreMove inEp outEp s .mutexLock
      { s with core := .freeOutBuf, locked := true } [.touched .dev]
  | freeOutBuf : CoreMove inEp outEp s .freeOutBuf
      { s with core := .freeInBuf }
      (.touched .dev :: kfree inEp outEp .outBuf)
  | freeInBuf : CoreMove inEp outEp s .freeInBuf
      { s with core := .mutexUnlock }
      (.touched .dev :: kfree inEp outEp .inBuf)
  | mutexUnlock : CoreMove inEp outEp s .mutexUnlock
      { s with core := .freeDev, locked := false } [.touched .dev]
  | freeDev : CoreMove inEp outEp s .freeDev { s with core := .gone }
      (kfree inEp outEp .dev)
  | errOutBuf : CoreMove inEp outEp s .errOutBuf { s with core := .errInBuf }
      (.touched .dev :: kfree inEp outEp .outBuf)
  | errInBuf : CoreMove inEp outEp s .errInBuf { s with core := .errDev }
      (.touched .dev :: kfree inEp outEp .inBuf)
  | errDev : CoreMove inEp outEp s .errDev { s with core := .gone }
      (kfree inEp outEp .dev)

inductive Step (inEp outEp : Bool) (s : State) :
    Act → State → List Event → Prop
  | core {ok : Bool} {s' : State} {ev : List Event} :
      coreStep inEp outEp s ok = some (s', ev) →
      Step inEp outEp s (.core ok) s' ev
  | open : s.registered = true →
      Step inEp outEp s .open
        { s with files := s.files ++ [⟨.findInterface, []⟩] } []
  | file {i : Nat} {found : Bool} {f : File} {locked : Bool} {pc : FilePc}
      {ev : List Event} :
      s.files[i]? = some f → FileMove s f.pc locked pc ev →
      Step inEp outEp s (.file i found)
        { s with
          locked := locked
          files := s.files.set i { f with pc := pc } } ev
  /-- A read or write begins, or takes a step. -/
  | ops {a : Act} {i : Nat} {f : File} {ops : List OpPc}
      {uses : List Resource} :
      s.files[i]? = some f → (f.pc = .session ∨ f.ops ≠ []) →
      Step inEp outEp s a
        { s with files := s.files.set i { f with ops := ops } }
        (uses.map .touched)
  | close {i : Nat} {f : File} :
      s.files[i]? = some f → f.pc = .session → f.ops = [] →
      Step inEp outEp s (.close i)
        { s with files := s.files.set i { f with pc := .closing } } []

variable {inEp outEp : Bool} {s s' : State} {a : Act} {tr ev : List Event}

theorem fileStep_cases {found locked : Bool} {pc pc' : FilePc}
    (h : fileStep s found pc = some (locked, pc', ev)) :
    FileMove s pc locked pc' ev := by
  cases pc with
  | findInterface =>
      simp only [fileStep] at h
      split_ifs at h
      · cases h
        exact .found
      · cases h
        exact .noInterface
  | getIntfdata =>
      simp only [fileStep] at h
      split_ifs at h with hdata
      · cases h
        exact .intfdata
      · cases h
        exact .noIntfdata (by simpa using hdata)
  | trylock =>
      simp only [fileStep] at h
      split_ifs at h with hlocked
      · cases h
        exact .busy hlocked
      · cases h
        exact .trylock (by simpa using hlocked)
  | clearLeftOver => cases h; exact .clearLeftOver
  | setPrivateData => cases h; exact .setPrivateData
  | closing => cases h; exact .closing
  | session | ended => cases h

theorem coreStep_cases {ok : Bool}
    (h : coreStep inEp outEp s ok = some (s', ev)) :
    CoreMove inEp outEp s s.core s' ev := by
  unfold coreStep at h
  cases hpc : s.core with
  | registerDev =>
      simp only [hpc] at h
      split_ifs at h
      · cases h
        exact .registerDev
      · cases h
        exact .noMinor
  | deregisterDev =>
      simp only [hpc] at h
      split_ifs at h with hwait
      cases h
      exact .deregisterDev hwait
  | mutexLock =>
      simp only [hpc] at h
      split_ifs at h with hlocked
      cases h
      exact .mutexLock (by simpa using hlocked)
  | gone =>
      simp only [hpc] at h
      cases h
  | _ =>
      simp only [hpc] at h
      cases h
      constructor

theorem startOp_cases {i : Nat} {op : OpPc} (h : startOp s i op = some s') :
    Step inEp outEp s a s' [] := by
  unfold startOp at h
  cases hf : s.files[i]? with
  | none =>
      simp only [hf] at h
      cases h
  | some f =>
      simp only [hf] at h
      split_ifs at h with hpc
      cases h
      show Step inEp outEp s a _ (List.map .touched [])
      exact .ops hf (Or.inl hpc)

theorem step_cases (h : (usbdrv4 inEp outEp).step s a = some (s', ev)) :
    Step inEp outEp s a s' ev := by
  cases a with
  | core ok => exact .core h
  | «open» =>
      simp only [usbdrv4, State.step] at h
      split_ifs at h with hregistered
      cases h
      exact .open hregistered
  | file i found =>
      simp only [usbdrv4, State.step] at h
      cases hf : s.files[i]? with
      | none =>
          simp only [hf] at h
          cases h
      | some f =>
          simp only [hf] at h
          obtain ⟨⟨locked, pc, ev'⟩, hstep, heq⟩ := Option.map_eq_some_iff.mp h
          cases heq
          exact .file hf (fileStep_cases hstep)
  | read i | write i =>
      obtain ⟨t, hstart, heq⟩ := Option.map_eq_some_iff.mp h
      cases heq
      exact startOp_cases hstart
  | op i j branch =>
      simp only [usbdrv4, State.step] at h
      cases hf : s.files[i]? with
      | none =>
          simp only [hf] at h
          cases h
      | some f =>
          simp only [hf] at h
          obtain ⟨op, hop, heq⟩ := Option.map_eq_some_iff.mp h
          cases heq
          refine .ops hf (Or.inr fun hnone => ?_)
          rw [hnone] at hop
          cases hop
  | close i =>
      simp only [usbdrv4, State.step] at h
      cases hf : s.files[i]? with
      | none =>
          simp only [hf] at h
          cases h
      | some f =>
          simp only [hf] at h
          split_ifs at h with hguard
          cases h
          exact .close hf hguard.1 hguard.2

/-! ## The mutex and the files -/

namespace CorePc

/-- The disconnect has the mutex. -/
def holds : CorePc → Bool
  | .freeOutBuf | .freeInBuf | .mutexUnlock => true
  | _ => false

/-- The minor is registered. -/
def registered : CorePc → Bool
  | .setIntfdata | .bound | .deregisterDev => true
  | _ => false

/-- The disconnect has taken the mutex, or the probe has failed. -/
def past : CorePc → Bool
  | .registerDev | .setIntfdata | .bound | .deregisterDev | .mutexLock => false
  | _ => true

/-- The `kfree` of the resource is behind. -/
def hasFreed (pc : CorePc) : Resource → Bool
  | .outBuf =>
      match pc with
      | .freeInBuf | .mutexUnlock | .freeDev | .errInBuf | .errDev | .gone =>
          true
      | _ => false
  | .inBuf =>
      match pc with
      | .mutexUnlock | .freeDev | .errDev | .gone => true
      | _ => false
  | .dev =>
      match pc with
      | .gone => true
      | _ => false

theorem past_of_hasFreed {pc : CorePc} {r : Resource}
    (h : pc.hasFreed r = true) : pc.past = true := by
  cases r <;> cases pc <;> first | rfl | cases h

end CorePc

/-- How many files have the mutex. -/
def openCount (files : List File) : Nat := files.countP File.isOpen

/-- What the mutex, the registration and the stages of the disconnect mean for
the files. -/
structure Inv (s : State) : Prop where
  lock : openCount s.files + s.core.holds.toNat = s.locked.toNat
  fresh : s.core = .registerDev → s.files = []
  registered : s.registered = s.core.registered
  quiet : s.core.registered = false → ∀ f ∈ s.files, f.pc.opening = false
  gone : s.core.past = true → ∀ f ∈ s.files, f.pc = .ended
  ops : ∀ f ∈ s.files, f.ops ≠ [] → f.pc = .session

theorem not_past_of_live {f : File} (h : Inv s) (hf : f ∈ s.files)
    (hlive : f.pc ≠ .ended) : s.core.past = false := by
  cases hpast : s.core.past with
  | false => rfl
  | true => exact absurd (h.gone hpast f hf) hlive

theorem FilePc.over_of_idle {pc : FilePc} (hopening : pc.opening = false)
    (hopen : pc.isOpen = false) : pc = .ended := by
  cases pc with
  | ended => rfl
  | session | closing => cases hopen
  | _ => cases hopening

theorem openCount_eq_zero {files : List File} (h : openCount files = 0) :
    ∀ f ∈ files, f.pc.isOpen = false := by
  intro f hf
  have hnone := List.countP_eq_zero.mp h f hf
  simpa [File.isOpen] using hnone

theorem openCount_set {files : List File} {i : Nat} {f : File}
    (hf : files[i]? = some f) (f' : File) :
    openCount (files.set i f') + f.pc.isOpen.toNat =
      openCount files + f'.pc.isOpen.toNat :=
  Pool.countP_set File.isOpen f' hf

/-- A step of a file that is not over, to a place that the stage of the core
permits. -/
theorem Inv.set_file (h : Inv s) {i : Nat} {f f' : File} {locked : Bool}
    (hf : s.files[i]? = some f) (hlive : f.pc ≠ .ended)
    (hlock : f.pc.isOpen.toNat + locked.toNat =
      f'.pc.isOpen.toNat + s.locked.toNat)
    (hopening : f'.pc.opening = true → f.pc.opening = true)
    (hops : f'.ops ≠ [] → f'.pc = .session) :
    Inv { s with locked := locked, files := s.files.set i f' } := by
  have hmem := List.mem_of_getElem? hf
  have hpast := not_past_of_live h hmem hlive
  refine ⟨?_, fun hfresh => ?_, h.registered, fun hreg => ?_,
    fun hended => ?_, Pool.forall_set h.ops hops⟩
  · have hset := openCount_set hf f'
    have hbefore := h.lock
    dsimp only
    omega
  · rw [h.fresh hfresh] at hmem
    cases hmem
  · refine Pool.forall_set (h.quiet hreg) ?_
    by_contra htrue
    have hf' := hopening (by simpa using htrue)
    rw [h.quiet hreg f hmem] at hf'
    cases hf'
  · rw [hpast] at hended
    cases hended

theorem FileMove.live {pc pc' : FilePc} {locked : Bool}
    (h : FileMove s pc locked pc' ev) : pc ≠ .ended ∧ pc ≠ .session := by
  cases h <;> exact ⟨by decide, by decide⟩

theorem FileMove.lock {pc pc' : FilePc} {locked : Bool}
    (h : FileMove s pc locked pc' ev)
    (hclosing : pc = .closing → s.locked = true) :
    pc.isOpen.toNat + locked.toNat = pc'.isOpen.toNat + s.locked.toNat := by
  cases h with
  | trylock hfree => rw [hfree]; rfl
  | closing => rw [hclosing rfl]; rfl
  | _ => rfl

theorem FileMove.opening {pc pc' : FilePc} {locked : Bool}
    (h : FileMove s pc locked pc' ev) :
    pc'.opening = true → pc.opening = true := by
  cases h <;> exact fun hopening => by first | rfl | cases hopening

/-- Whoever has the mutex finds it taken. -/
theorem Inv.locked_of_open (h : Inv s) {f : File} (hf : f ∈ s.files)
    (hopen : f.pc.isOpen = true) : s.locked = true := by
  have hpos : 0 < openCount s.files :=
    List.countP_pos_iff.mpr ⟨f, hf, hopen⟩
  have hlock := h.lock
  cases hlocked : s.locked with
  | true => rfl
  | false =>
      rw [hlocked, Bool.toNat_false] at hlock
      omega

theorem Inv.core (h : Inv s) {ok : Bool}
    (hstep : coreStep inEp outEp s ok = some (s', ev)) : Inv s' := by
  obtain ⟨hlock, hfresh, hregistered, hquiet, hended, hops⟩ := h
  have hmove := coreStep_cases hstep
  generalize s.core = pc at *
  cases hmove with
  | registerDev =>
      rw [hfresh rfl] at hlock
      refine ⟨?_, by simp, rfl, by simp [CorePc.registered],
        by simp [CorePc.past], hops⟩
      rw [hfresh rfl]
      exact hlock
  | noMinor =>
      have hfiles := hfresh rfl
      rw [hfiles] at hlock
      refine ⟨?_, by simp, hregistered, ?_, ?_, hops⟩
      · rw [hfiles]
        exact hlock
      · rw [hfiles]
        simp
      · rw [hfiles]
        simp
  | setIntfdata | disconnect =>
      exact ⟨hlock, by simp, hregistered, by simp [CorePc.registered],
        by simp [CorePc.past], hops⟩
  | deregisterDev hwait =>
      exact ⟨hlock, by simp, rfl, fun _ => hwait, by simp [CorePc.past], hops⟩
  | mutexLock hlocked =>
      -- the mutex is free, so no open is under way
      have hzero : openCount s.files = 0 := by
        rw [hlocked] at hlock
        exact hlock
      refine ⟨?_, by simp, hregistered, fun _ => hquiet rfl, fun _ => ?_, hops⟩
      · dsimp only
        rw [hzero]
        rfl
      · intro f hf
        exact FilePc.over_of_idle (hquiet rfl f hf) (openCount_eq_zero hzero f hf)
  | mutexUnlock =>
      refine ⟨?_, by simp, hregistered, fun _ => hquiet rfl,
        fun _ => hended rfl, hops⟩
      have hle : s.locked.toNat ≤ 1 := Bool.toNat_le s.locked
      have hone : CorePc.holds .mutexUnlock = true := rfl
      rw [hone, Bool.toNat_true] at hlock
      show openCount s.files + 0 = 0
      omega
  | freeOutBuf | freeInBuf | freeDev | errOutBuf | errInBuf | errDev =>
      exact ⟨hlock, by simp, hregistered, fun _ => hquiet rfl,
        fun _ => hended rfl, hops⟩

theorem inv_step (h : Inv s) (hstep : Step inEp outEp s a s' ev) :
    Inv s' := by
  cases hstep with
  | core hcore => exact h.core hcore
  | «open» hregistered =>
      rw [h.registered] at hregistered
      -- as long as the device is registered, nothing has been freed
      have hpast : s.core.past = false := by
        cases hpc : s.core <;> rw [hpc] at hregistered <;>
          first | rfl | cases hregistered
      refine ⟨?_, fun hfresh => ?_, h.registered, fun hno => ?_,
        fun hended => ?_, Pool.forall_concat h.ops (by simp)⟩
      · have hconcat : openCount (s.files ++ [⟨.findInterface, []⟩]) =
            openCount s.files := Pool.countP_concat File.isOpen _
        dsimp only
        rw [hconcat]
        exact h.lock
      · dsimp only at hfresh
        rw [hfresh] at hregistered
        cases hregistered
      · exact absurd (hregistered.symm.trans hno) (by decide)
      · exact absurd (hpast.symm.trans hended) (by decide)
  | @file i found f locked pc _ hf hmove =>
      have hmem := List.mem_of_getElem? hf
      refine h.set_file hf hmove.live.1 ?_ hmove.opening fun hops => ?_
      · refine hmove.lock fun hclosing => h.locked_of_open hmem ?_
        rw [hclosing]
        rfl
      · exact absurd (h.ops f hmem hops) hmove.live.2
  | @ops a i f ops uses hf hlive =>
      have hmem := List.mem_of_getElem? hf
      have hsession : f.pc = .session := hlive.elim id (h.ops f hmem)
      exact h.set_file hf (by simp [hsession]) rfl id fun _ => hsession
  | close hf hpc hnone =>
      refine h.set_file hf (by simp [hpc]) ?_ ?_ ?_
      · rw [hpc]
        rfl
      · simp [FilePc.opening]
      · exact fun hops => absurd hnone hops

theorem inv_of_reachable (h : (usbdrv4 inEp outEp).Reachable s) : Inv s := by
  refine (usbdrv4 inEp outEp).reachable_invariant ?_ ?_ h
  · exact ⟨rfl, fun _ => rfl, rfl, by simp [usbdrv4], by simp [usbdrv4],
      by simp [usbdrv4]⟩
  · intro s a s' ev ih hstep
    exact inv_step ih (step_cases hstep)

/-! ## What is touched and freed -/

/-- An access is to something that has not been freed. -/
def NoUseAfterFree (before : List Event) (e : Event) : Prop :=
  ∀ r, e = .touched r → .freed r ∉ before

/-- A session begins only while nothing has been freed. -/
def OpenedInTime (before : List Event) (e : Event) : Prop :=
  e = .opened → ∀ r, .freed r ∉ before

/-- What the trace says at a stage of the core. -/
structure Freed (inEp outEp : Bool) (s : State) (tr : List Event) : Prop where
  count : ∀ r, tr.count (.freed r) =
    (s.core.hasFreed r && allocated inEp outEp r).toNat
  untouched : History NoUseAfterFree tr
  inTime : History OpenedInTime tr
  failed : ∀ rv, .openFailed rv ∈ tr → rv = -ENODEV ∨ rv = -EBUSY

theorem Freed.not_mem (h : Freed inEp outEp s tr) {r : Resource}
    (hfreed : s.core.hasFreed r = false) : .freed r ∉ tr := by
  apply List.count_eq_zero.mp
  rw [h.count r, hfreed]
  rfl

/-- A step that frees nothing, while nothing that it touches has been freed. -/
theorem Freed.append (h : Freed inEp outEp s tr)
    (hcore : ∀ r, s'.core.hasFreed r = s.core.hasFreed r)
    (hnone : ∀ r, .freed r ∉ ev)
    (htouched : ∀ r, .touched r ∈ ev → s.core.hasFreed r = false)
    (hopened : .opened ∈ ev → ∀ r, s.core.hasFreed r = false)
    (hfailed : ∀ rv, .openFailed rv ∈ ev → rv = -ENODEV ∨ rv = -EBUSY) :
    Freed inEp outEp s' (tr ++ ev) := by
  have hbefore {before : List Event} {r : Resource}
      (hpre : before <+: ev) (hfreed : s.core.hasFreed r = false) :
      .freed r ∉ tr ++ before := by
    intro hmem
    rcases List.mem_append.mp hmem with hmem | hmem
    · exact h.not_mem hfreed hmem
    · exact hnone r (hpre.subset hmem)
  refine ⟨fun r => ?_, ?_, ?_, fun rv hrv => ?_⟩
  · rw [List.count_append, List.count_eq_zero.mpr (hnone r), hcore]
    exact h.count r
  · rw [history_append]
    refine ⟨h.untouched, ?_⟩
    rintro before e after rfl r rfl
    exact hbefore (List.prefix_append _ _) (htouched r (by simp))
  · rw [history_append]
    refine ⟨h.inTime, ?_⟩
    rintro before e after rfl rfl r
    exact hbefore (List.prefix_append _ _) (hopened (by simp) r)
  · rcases List.mem_append.mp hrv with hrv | hrv
    · exact h.failed rv hrv
    · exact hfailed rv hrv

/-- A `kfree`. -/
theorem Freed.kfree (h : Freed inEp outEp s tr) {r : Resource}
    (hbefore : s.core.hasFreed r = false) (hafter : s'.core.hasFreed r = true)
    (hother : ∀ q ≠ r, s'.core.hasFreed q = s.core.hasFreed q) :
    Freed inEp outEp s' (tr ++ kfree inEp outEp r) := by
  unfold Session.kfree
  refine ⟨fun q => ?_, ?_, ?_, fun rv hrv => ?_⟩
  · rw [List.count_append, h.count q]
    by_cases hq : q = r
    · subst hq
      rw [hbefore, hafter]
      cases allocated inEp outEp q <;> simp
    · rw [hother q hq]
      cases allocated inEp outEp r <;> simp [Ne.symm hq]
  · refine h.untouched.append fun before e he => ?_
    split_ifs at he
    · cases List.mem_singleton.mp he
      intro q hq
      cases hq
    · cases he
  · refine h.inTime.append fun before e he => ?_
    split_ifs at he
    · cases List.mem_singleton.mp he
      intro hq
      cases hq
    · cases he
  · rcases List.mem_append.mp hrv with hrv | hrv
    · exact h.failed rv hrv
    · split_ifs at hrv <;> simp at hrv

/-- A statement of the core that touches the device and frees nothing. -/
theorem Freed.touch (h : Freed inEp outEp s tr)
    (hcore : ∀ r, s'.core.hasFreed r = s.core.hasFreed r)
    (hdev : s.core.hasFreed .dev = false) :
    Freed inEp outEp s' (tr ++ [.touched .dev]) := by
  refine h.append hcore (by simp) (fun r hr => ?_) (by simp) (by simp)
  cases List.mem_singleton.mp hr
  exact hdev

theorem Freed.core (h : Freed inEp outEp s tr) {ok : Bool}
    (hstep : coreStep inEp outEp s ok = some (s', ev)) :
    Freed inEp outEp s' (tr ++ ev) := by
  have hmove := coreStep_cases hstep
  generalize hpc : s.core = pc at hmove
  cases hmove with
  | registerDev | noMinor | deregisterDev | mutexLock | mutexUnlock =>
      refine h.touch (fun r => ?_) (by rw [hpc]; rfl)
      rw [hpc]
      cases r <;> rfl
  | setIntfdata | disconnect =>
      refine h.append (fun r => ?_) (by simp) (by simp) (by simp) (by simp)
      rw [hpc]
      cases r <;> rfl
  | freeOutBuf | freeInBuf | errOutBuf | errInBuf =>
      rw [List.append_cons]
      have htouch : Freed inEp outEp s (tr ++ [.touched .dev]) :=
        h.touch (fun _ => rfl) (by rw [hpc]; rfl)
      refine htouch.kfree (by rw [hpc]; rfl) rfl fun q hq => ?_
      rw [hpc]
      cases q <;> first | rfl | exact absurd rfl hq
  | freeDev | errDev =>
      refine h.kfree (by rw [hpc]; rfl) rfl fun q hq => ?_
      rw [hpc]
      cases q <;> first | rfl | exact absurd rfl hq

/-- What an open or close may show. -/
theorem FileMove.shows {pc pc' : FilePc} {locked : Bool}
    (h : FileMove s pc locked pc' ev) :
    (∀ r, .freed r ∉ ev) ∧
      ∀ rv, .openFailed rv ∈ ev → rv = -ENODEV ∨ rv = -EBUSY := by
  cases h <;> simp

theorem Freed.step (h : Freed inEp outEp s tr) (hinv : Inv s)
    (hstep : Step inEp outEp s a s' ev) :
    Freed inEp outEp s' (tr ++ ev) := by
  -- while a file is at work nothing has been freed
  have live {f : File} (hf : f ∈ s.files) (hlive : f.pc ≠ .ended)
      (r : Resource) : s.core.hasFreed r = false := by
    have hpast := not_past_of_live hinv hf hlive
    by_contra hfreed
    rw [CorePc.past_of_hasFreed (by simpa using hfreed)] at hpast
    cases hpast
  cases hstep with
  | core hcore => exact h.core hcore
  | «open» | close =>
      exact h.append (fun _ => rfl) (by simp) (by simp) (by simp) (by simp)
  | file hf hmove =>
      have hfree := live (List.mem_of_getElem? hf) hmove.live.1
      exact h.append (fun _ => rfl) hmove.shows.1 (fun r _ => hfree r)
        (fun _ => hfree) hmove.shows.2
  | @ops a i f ops uses hf hlive =>
      have hmem := List.mem_of_getElem? hf
      have hsession : f.pc = .session := hlive.elim id (hinv.ops f hmem)
      have hfree := live hmem (by simp [hsession])
      exact h.append (fun _ => rfl) (by simp) (fun r _ => hfree r)
        (fun _ => hfree) (by simp)

/-! ## Sessions -/

/-- The session law: one session at a time, the device and its buffers are
freed once each and only when no session is open, nothing is touched after it
was freed, and an open that fails says so with `-ENODEV` or `-EBUSY`. -/
structure SessionLaw (inEp outEp : Bool) (s : State) (tr : List Event) :
    Prop where
  oneSession : openCount s.files ≤ 1
  freedClosed : ∀ r, .freed r ∈ tr → openCount s.files = 0
  freedOnce : ∀ r, tr.count (.freed r) ≤ 1
  freedAll : s.core = .gone →
    ∀ r, tr.count (.freed r) = (allocated inEp outEp r).toNat
  untouched : History NoUseAfterFree tr
  inTime : History OpenedInTime tr
  failed : ∀ rv, .openFailed rv ∈ tr → rv = -ENODEV ∨ rv = -EBUSY

theorem Freed.sessionLaw (h : Freed inEp outEp s tr) (hinv : Inv s) :
    SessionLaw inEp outEp s tr := by
  refine ⟨?_, fun r hr => ?_, fun r => ?_, fun hgone r => ?_, h.untouched,
    h.inTime, h.failed⟩
  · have hle : s.locked.toNat ≤ 1 := Bool.toNat_le s.locked
    have hlock := hinv.lock
    omega
  · have hfreed : s.core.hasFreed r = true := by
      by_contra hno
      exact h.not_mem (by simpa using hno) hr
    apply List.countP_eq_zero.mpr
    intro f hf
    have hended := hinv.gone (CorePc.past_of_hasFreed hfreed) f hf
    simp [File.isOpen, hended, FilePc.isOpen]
  · rw [h.count r]
    exact Bool.toNat_le _
  · rw [h.count r, hgone]
    cases r <;> rfl

/-- The session law holds at every point of every run. -/
theorem sessionLaw_always (inEp outEp : Bool) (acts : List Act) :
    (usbdrv4 inEp outEp).Always (SessionLaw inEp outEp) acts := by
  intro before s tr _ hrun
  have hfreed : Freed inEp outEp s tr := by
    refine (usbdrv4 inEp outEp).run_induction
      (P := fun _ s tr => Freed inEp outEp s tr) ?_ ?_ hrun
    · refine ⟨fun r => ?_, history_nil, history_nil, by simp⟩
      cases r <;> rfl
    · intro before s tr a s' ev hbefore ih hstep
      exact ih.step (inv_of_reachable ⟨before, tr, hbefore⟩) (step_cases hstep)
  exact hfreed.sessionLaw (inv_of_reachable ⟨before, tr, hrun⟩)

/-- The disconnect waits for a session that is open when it begins; an open that
has seen the interface data is busy, a later one is refused. -/
def unplugDuringSession : List Act :=
  List.flatten [
    [.core true, .core true, .open], List.replicate 5 (.file 0 true),
    [.open], List.replicate 3 (.file 1 true), [.core true, .core true],
    [.read 0, .op 0 0 false, .op 0 0 false, .close 0, .file 0 true],
    List.replicate 5 (.core true)]

example : ((usbdrv4 true true).run unplugDuringSession).map Prod.snd =
    some [.touched .dev, .touched .dev, .touched .dev, .opened,
      .touched .dev, .openFailed (-16), .touched .dev, .touched .dev,
      .touched .dev, .touched .inBuf, .touched .dev, .touched .dev,
      .touched .dev, .freed .outBuf, .touched .dev, .freed .inBuf,
      .touched .dev, .freed .dev] := by
  decide +kernel

end Session
end USB
end KernelDrivers
