import KernelDrivers.BlockDriver.Device
import KernelDrivers.Errno
import KernelDrivers.Lib.CInt
import KernelDrivers.Lib.LoadUnload
import KernelDrivers.Pointer

/-!
# Loading and unloading `blk1.c`

`blk1_init` registers the block major, allocates the device structure and
leaves the rest to `setup_device`, which returns nothing: a load succeeds
whatever became of the array, the queue and the disk, and `blk1_exit` finds
out from the pointers in the structure.

`register_blkdev` returns the major that it chose when it is asked for any, and
0 when it is asked for one and grants it.
-/

namespace KernelDrivers
namespace BlockDriver

open Lib Loadable

/-- The module parameters. -/
structure Parameters where
  blk1Major : Int32
  hardsectSize : Int32
  nsectors : Int32

inductive Resource where
  | blockMajor (major : Int32)
  | devices
  | data
  /-- `dev->timer`, which lives in the device structure. -/
  | timer
  | queue
  | gendisk
  deriving DecidableEq

/-- How the calls of a load come out. -/
structure SetupCalls where
  registerBlkdev : Bool
  /-- The major that is free. -/
  freeMajor : { major : Int32 // 0 < major }
  kmalloc : Bool
  vmalloc : Bool
  /-- An error pointer from `blk_mq_init_sq_queue` passes the test. -/
  blkMqInitSqQueue : Pointer
  allocDisk : Bool

/-- `register_blkdev`.  A negative number is no major. -/
def registerBlkdev (major : Int32) (calls : SetupCalls) : Int32 :=
  if major < 0 then Int32.ofInt (-EINVAL)
  else if ¬ calls.registerBlkdev then Int32.ofInt (-EBUSY)
  else if major = 0 then calls.freeMajor.val
  else 0

/-- What `register_blkdev` acquired. -/
def registered (major : Int32) (calls : SetupCalls) : List (Entry Resource) :=
  if major < 0 ∨ ¬ calls.registerBlkdev then []
  else if major = 0 then [.acquired (.blockMajor calls.freeMajor.val)]
  else [.acquired (.blockMajor major)]

/-- `vmalloc`.  It refuses 0 bytes and more bytes than there can be, such as a
negative number of them. -/
def vmalloc (size : UInt64) (granted : Bool) : Pointer :=
  Pointer.orNull (granted && 0 < size.toNat && size.toNat < 2 ^ 63)

/-- The device structure after `setup_device`, as far as it decides what
happens later. -/
structure Setup where
  size : Int32
  data : Pointer
  timerSetup : Bool
  queue : Pointer
  gd : Pointer
  /-- The capacity that was set when `add_disk` was called. -/
  capacity : Option UInt64
  /-- Whether `setup_device` returns. -/
  returned : Bool
  entries : List (Entry Resource)

/-- After the label `out_vfree`.  The pointer to the array stays. -/
def outVfree (dev : Setup) : Setup :=
  { dev with entries := dev.entries ++ dev.data.destroyed .data }

/-- `setup_device`. -/
def setupDevice (p : Parameters) (calls : SetupCalls) : Setup :=
  let size := p.nsectors * p.hardsectSize
  let dev : Setup :=
    { size := size
      data := vmalloc size.toInt64.toUInt64 calls.vmalloc
      timerSetup := false, queue := .null, gd := .null, capacity := none
      returned := true, entries := [.used .devices] }
  if dev.data = .null then dev
  else
    let dev := { dev with
      timerSetup := true
      queue := calls.blkMqInitSqQueue
      entries := dev.entries ++ [.acquired .data, .acquired .timer] ++
        calls.blkMqInitSqQueue.made .queue }
    if dev.queue = .null then outVfree dev
    else if dev.queue = .error then
      -- `blk_queue_logical_block_size` writes through the pointer.
      { dev with returned := false }
    else
      let dev := { dev with
        gd := Pointer.orNull calls.allocDisk
        entries := dev.entries ++ [.used .queue] ++
          (Pointer.orNull calls.allocDisk).made .gendisk }
      if dev.gd = .null then outVfree dev
      else
        let capacity := p.nsectors * (p.hardsectSize / 512)
        { dev with
          capacity := some capacity.toInt64.toUInt64
          entries := dev.entries ++ [.used .gendisk] }

/-- `blk1_major` and what `Devices` points to. -/
structure Vars where
  blk1Major : Int32
  dev : Option Setup

/-- `blk1_init`. -/
def blk1Init (p : Parameters) (calls : SetupCalls) :
    Vars × Option Int × List (Entry Resource) :=
  let major := registerBlkdev p.blk1Major calls
  let taken := registered p.blk1Major calls
  if major ≤ 0 then (⟨major, none⟩, some (-EBUSY), taken)
  else if ¬ calls.kmalloc then
    (⟨major, none⟩, some (-ENOMEM), taken ++ [.released (.blockMajor major)])
  else
    let dev := setupDevice p calls
    (⟨major, some dev⟩, if dev.returned then some 0 else none,
      taken ++ .acquired .devices :: dev.entries)

/-- `blk1_exit`.  `kfree` takes the timer with it, when there is one. -/
def blk1Exit (vars : Vars) : List (Entry Resource) :=
  match vars.dev with
  | none => []
  | some dev =>
      [.used .devices, .used .timer] ++
        (if dev.gd ≠ .null then [.used .gendisk, .released .gendisk] else []) ++
        (if dev.queue ≠ .null then [.released .queue] else []) ++
        (if dev.data ≠ .null then [.released .data] else []) ++
        [.released (.blockMajor vars.blk1Major), .released .devices] ++
        (if dev.timerSetup then [.released .timer] else [])

def driver : Loadable Vars (Parameters × SetupCalls) Resource where
  init := fun load => blk1Init load.1 load.2
  exit := blk1Exit

/-- The ledger of the module: loads and unloads use and release only what is
held, and nothing is held while the module is not loaded. -/
def Clean :
    Status Vars → List (Event (Parameters × SetupCalls) Resource) → Prop :=
  Ledger fun _ _ entries => Holdings.Covered [] entries

/-- The load does not get the major that its parameter asks for. -/
def LoadClean (load : Parameters × SetupCalls) : Prop :=
  ¬ (0 < load.1.blk1Major ∧ load.2.registerBlkdev)

/-- `setup_device` went through to the disk. -/
def UnloadClean (vars : Vars) : Prop :=
  ∀ dev ∈ vars.dev, dev.gd ≠ .null

variable (p : Parameters) (calls : SetupCalls)

/-! ## The major -/

/-- The three outcomes of `register_blkdev`. -/
theorem register_cases :
    (registerBlkdev p.blk1Major calls ≤ 0 ∧ registered p.blk1Major calls = [] ∧
      LoadClean (p, calls)) ∨
    (0 < registerBlkdev p.blk1Major calls ∧
      registered p.blk1Major calls =
        [.acquired (.blockMajor (registerBlkdev p.blk1Major calls))] ∧
      LoadClean (p, calls)) ∨
    (registerBlkdev p.blk1Major calls = 0 ∧
      registered p.blk1Major calls = [.acquired (.blockMajor p.blk1Major)] ∧
      ¬ LoadClean (p, calls)) := by
  unfold registerBlkdev registered LoadClean
  by_cases hneg : p.blk1Major < 0
  · have hnot : ¬ 0 < p.blk1Major := Int32.not_lt.mpr (Int32.le_of_lt hneg)
    exact .inl (by simp [hneg, hnot]; decide)
  · by_cases hgranted : calls.registerBlkdev
    · by_cases hany : p.blk1Major = 0
      · exact .inr (.inl (by simp [hgranted, hany, calls.freeMajor.property]))
      · have hpos : 0 < p.blk1Major :=
          Int32.lt_of_le_of_ne (Int32.not_lt.mp hneg) (Ne.symm hany)
        exact .inr (.inr (by simp [hneg, hgranted, hany, hpos]))
    · exact .inl (by simp [hneg, hgranted]; decide)

/-! ## The device structure -/

theorem vmalloc_cases (size : UInt64) (granted : Bool) :
    vmalloc size granted = .null ∨ vmalloc size granted = .valid :=
  Pointer.orNull_cases _

/-- A size for which there is an array. -/
theorem size_pos_of_vmalloc {size : Int32} {granted : Bool}
    (h : vmalloc size.toInt64.toUInt64 granted = .valid) : 0 < size.toInt := by
  have hnat := CInt.toNat_ulong size
  have hlow := size.le_toInt
  have hhigh := size.toInt_lt
  simp only [vmalloc, Pointer.orNull_eq_valid, Bool.and_eq_true,
    decide_eq_true_eq] at h
  obtain ⟨⟨-, hpos⟩, hlt⟩ := h
  omega

/-- What `setup_device` leaves: it stops at the array, at the queue (in two
ways) or at the disk, or it goes through. -/
theorem setupDevice_cases :
    let dev := setupDevice p calls
    (dev.gd = .null ∧ dev.returned = true ∧ dev.timerSetup = false ∧
      dev.data = .null ∧ dev.queue = .null ∧ dev.entries = [.used .devices]) ∨
    (dev.gd = .null ∧ dev.returned = true ∧ dev.timerSetup = true ∧
      dev.data = .valid ∧ dev.queue = .null ∧
      dev.entries = [.used .devices, .acquired .data, .acquired .timer,
        .released .data]) ∨
    (dev.returned = false ∧
      dev.entries = [.used .devices, .acquired .data, .acquired .timer]) ∨
    (dev.gd = .null ∧ dev.returned = true ∧ dev.timerSetup = true ∧
      dev.data = .valid ∧ dev.queue = .valid ∧
      dev.entries = [.used .devices, .acquired .data, .acquired .timer,
        .acquired .queue, .used .queue, .released .data]) ∨
    (dev.gd = .valid ∧ dev.returned = true ∧ dev.timerSetup = true ∧
      dev.data = .valid ∧ dev.queue = .valid ∧
      dev.entries = [.used .devices, .acquired .data, .acquired .timer,
        .acquired .queue, .used .queue, .acquired .gendisk, .used .gendisk]) := by
  rcases vmalloc_cases (p.nsectors * p.hardsectSize).toInt64.toUInt64
    calls.vmalloc with hdata | hdata
  · exact .inl (by simp [setupDevice, hdata])
  · cases hqueue : calls.blkMqInitSqQueue with
    | null =>
        exact .inr (.inl (by
          simp [setupDevice, outVfree, Pointer.made, Pointer.destroyed,
            hdata, hqueue]))
    | error =>
        exact .inr (.inr (.inl (by
          simp [setupDevice, Pointer.made, hdata, hqueue])))
    | valid =>
        rcases Pointer.orNull_cases calls.allocDisk with hdisk | hdisk
        · exact .inr (.inr (.inr (.inl (by
            simp [setupDevice, outVfree, Pointer.made,
              Pointer.destroyed, hdata, hqueue, hdisk]))))
        · exact .inr (.inr (.inr (.inr (by
            simp [setupDevice, Pointer.made, hdata, hqueue, hdisk]))))

/-! ## The ledger -/

/-- What `setup_device` uses and releases is held. -/
theorem setup_covered (major : Int32) :
    Holdings.Covered [.devices, .blockMajor major]
      (setupDevice p calls).entries := by
  rcases setupDevice_cases p calls with ⟨-, -, -, -, -, h⟩ | ⟨-, -, -, -, -, h⟩ |
      ⟨-, h⟩ | ⟨-, -, -, -, -, h⟩ | ⟨-, -, -, -, -, h⟩ <;>
    simp [h, Holdings.Covered]

/-- One load. -/
theorem init_clean_iff (load : Parameters × SetupCalls) :
    (Holdings.Covered [] (blk1Init load.1 load.2).2.2 ∧
      (Failed (blk1Init load.1 load.2).2.1 →
        Holdings.settle [] (blk1Init load.1 load.2).2.2 = [])) ↔
      LoadClean load := by
  obtain ⟨p, calls⟩ := load
  rcases register_cases p calls with ⟨hle, htaken, hclean⟩ |
      ⟨hpos, htaken, hclean⟩ | ⟨hzero, htaken, hclean⟩
  · simp [blk1Init, hle, htaken, hclean]
  · have hnot := Int32.not_le.mpr hpos
    refine iff_of_true ?_ hclean
    by_cases hkmalloc : calls.kmalloc
    · have hcovered := setup_covered p calls (registerBlkdev p.blk1Major calls)
      cases hreturned : (setupDevice p calls).returned <;>
        simpa [blk1Init, hnot, htaken, hkmalloc, hreturned, Failed,
          Holdings.Covered] using hcovered
    · simp [blk1Init, hnot, htaken, hkmalloc, Holdings.Covered, Holdings.settle]
  · simp [blk1Init, hzero, htaken, hclean, Failed, EBUSY, Holdings.Covered,
      Holdings.settle]

/-- One load that returned 0, with the unload after it. -/
theorem exit_clean_iff (load : Parameters × SetupCalls) (hok : LoadClean load)
    (hloaded : (blk1Init load.1 load.2).2.1 = some 0) :
    (Holdings.Covered (Holdings.settle [] (blk1Init load.1 load.2).2.2)
        (blk1Exit (blk1Init load.1 load.2).1) ∧
      Holdings.settle (Holdings.settle [] (blk1Init load.1 load.2).2.2)
        (blk1Exit (blk1Init load.1 load.2).1) = []) ↔
      UnloadClean (blk1Init load.1 load.2).1 := by
  obtain ⟨p, calls⟩ := load
  rcases register_cases p calls with ⟨hle, htaken, -⟩ | ⟨hpos, htaken, -⟩ |
      ⟨-, -, hclean⟩
  · simp [blk1Init, hle, EBUSY] at hloaded
  · have hnot := Int32.not_le.mpr hpos
    by_cases hkmalloc : calls.kmalloc
    · rcases setupDevice_cases p calls with
          ⟨hgd, hret, htimer, hdata, hqueue, h⟩ |
          ⟨hgd, hret, htimer, hdata, hqueue, h⟩ | ⟨hret, h⟩ |
          ⟨hgd, hret, htimer, hdata, hqueue, h⟩ |
          ⟨hgd, hret, htimer, hdata, hqueue, h⟩
      case inr.inr.inl => simp [blk1Init, hnot, hkmalloc, hret] at hloaded
      all_goals
        simp [blk1Init, blk1Exit, UnloadClean, hnot, htaken, hkmalloc, h, hgd,
          htimer, hdata, hqueue, Holdings.Covered, Holdings.settle]
    · simp [blk1Init, hnot, hkmalloc, ENOMEM] at hloaded
  · exact absurd hok hclean

/-- The ledger of `blk1.c` is kept exactly as long as no load is granted a
major that it asked for and nothing is unloaded that has no disk. -/
theorem blk1_clean_iff (acts : List (Act (Parameters × SetupCalls))) :
    driver.system.Always Clean acts ↔
      driver.system.Meets (Proper LoadClean UnloadClean) acts :=
  always_ledger_iff init_clean_iff exit_clean_iff acts

/-- Then every resource has been released as often as it was acquired whenever
the module is not loaded. -/
theorem released_eq_acquired_of_proper {acts : List (Act (Parameters × SetupCalls))}
    {tr : List (Event (Parameters × SetupCalls) Resource)}
    (hok : driver.system.Meets (Proper LoadClean UnloadClean) acts)
    (hrun : driver.system.run acts = some (.unloaded, tr)) (r : Resource) :
    (tr.flatMap Event.entries).count (.released r) =
      (tr.flatMap Event.entries).count (.acquired r) := by
  have hclean : driver.system.Always Clean acts :=
    (always_ledger_iff init_clean_iff exit_clean_iff acts).mpr hok
  exact Loadable.released_eq_acquired hclean hrun r

/-- `alloc_disk` fails under the default parameters: the array is freed by
`setup_device`, and by `blk1_exit` again. -/
theorem alloc_disk_fails : ¬ driver.system.Always Clean
    [.load (⟨0, 512, 1024⟩,
      { registerBlkdev := true, freeMajor := ⟨240, by decide⟩, kmalloc := true,
        vmalloc := true, blkMqInitSqQueue := .valid, allocDisk := false }),
     .unload] := by
  intro h
  have hcovered := exit_covered_of_always h (by decide +kernel)
  exact absurd hcovered (by decide +kernel)

end BlockDriver
end KernelDrivers
