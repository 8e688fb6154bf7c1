import KernelDrivers.Lib.LoadUnload
import KernelDrivers.Pointer

/-!
# Loading and unloading the two-thread modules

`mtx1.c`, `spin1.c`, `sem1.c` and `atomic1.c` have one `test_driver_init` and
one `test_driver_exit` between them: they differ in the names of their threads
and in the lock, whose initialisation cannot fail.

Of the calls that are tested, only `alloc_chrdev_region` and `cdev_add` fail
in the way that the test expects.  The others give an error pointer, and the
code compares it with `NULL`.
-/

namespace KernelDrivers
namespace TwoThreads

open Lib Loadable

/-- The names of the two threads, by which they are told apart. -/
structure Names where
  thread1 : String
  thread2 : String
  ne : thread1 ≠ thread2

inductive Source where
  | mtx1
  | spin1
  | sem1
  | atomic1

def Source.names : Source → Names
  | .mtx1 => ⟨"test Thread1", "test Thread2", by decide⟩
  | .spin1 => ⟨"eTx Thread1", "eTx Thread2", by decide⟩
  | .sem1 => ⟨"test Thread1", "test Thread2", by decide⟩
  | .atomic1 => ⟨"test Thread1", "test Thread2", by decide⟩

inductive Resource where
  | chrdevRegion
  | cdev
  | devClass
  | device
  | thread (name : String)
  /-- What an error pointer points to.  It is never acquired. -/
  | nothing
  deriving DecidableEq

/-- Which calls of `test_driver_init` the kernel grants. -/
structure Calls where
  allocChrdevRegion : Bool
  cdevAdd : Bool
  classCreate : Bool
  deviceCreate : Bool
  kthreadRun1 : Bool
  kthreadRun2 : Bool

/-- `dev_class`, `test_thread1` and `test_thread2`. -/
structure Vars where
  devClass : Pointer
  testThread1 : Pointer
  testThread2 : Pointer

/-- `class_destroy` does nothing for an error pointer. -/
def classDestroy (devClass : Pointer) : List (Entry Resource) :=
  devClass.destroyed .devClass

/-- `kthread_stop`, which takes every pointer for a task. -/
def kthreadStop (task : Pointer) (name : String) : Entry Resource :=
  if task = .valid then .released (.thread name) else .released .nothing

/-- From the label `r_class` on. -/
def rClass : List (Entry Resource) :=
  [.released .chrdevRegion, .released .cdev]

/-- From the label `r_device` on. -/
def rDevice (devClass : Pointer) : List (Entry Resource) :=
  classDestroy devClass ++ rClass

/-- `test_driver_init`. -/
def testDriverInit (names : Names) (calls : Calls) :
    Vars × Option Int × List (Entry Resource) :=
  if ¬ calls.allocChrdevRegion then (⟨.null, .null, .null⟩, some (-1), [])
  else if ¬ calls.cdevAdd then
    (⟨.null, .null, .null⟩, some (-1), .acquired .chrdevRegion :: rClass)
  else
    let registered : List (Entry Resource) :=
      [.acquired .chrdevRegion, .acquired .cdev]
    let devClass := Pointer.orError calls.classCreate
    if devClass = .null then
      (⟨devClass, .null, .null⟩, some (-1), registered ++ rClass)
    else
      -- `device_create` fails on a class that is an error pointer.
      let device := Pointer.orError (devClass = .valid && calls.deviceCreate)
      let shown := registered ++ devClass.made .devClass ++ device.made .device
      if device = .null then
        (⟨devClass, .null, .null⟩, some (-1), shown ++ rDevice devClass)
      else
        let thread1 := Pointer.orError calls.kthreadRun1
        let first := shown ++ thread1.made (.thread names.thread1)
        if thread1 = .null then
          (⟨devClass, thread1, .null⟩, some (-1), first ++ rDevice devClass)
        else
          let thread2 := Pointer.orError calls.kthreadRun2
          let second := first ++ thread2.made (.thread names.thread2)
          if thread2 = .null then
            (⟨devClass, thread1, thread2⟩, some (-1), second ++ rDevice devClass)
          else (⟨devClass, thread1, thread2⟩, some 0, second)

/-- `test_driver_exit`. -/
def testDriverExit (names : Names) (vars : Vars) : List (Entry Resource) :=
  [kthreadStop vars.testThread1 names.thread1,
    kthreadStop vars.testThread2 names.thread2, .released .device] ++
    classDestroy vars.devClass ++ [.released .cdev, .released .chrdevRegion]

def driver (names : Names) : Loadable Vars Calls Resource where
  init := testDriverInit names
  exit := testDriverExit names

/-- All calls were granted.  A call that is not made comes after one that
failed. -/
def Calls.Granted (calls : Calls) : Prop :=
  calls.allocChrdevRegion ∧ calls.cdevAdd ∧ calls.classCreate ∧
    calls.deviceCreate ∧ calls.kthreadRun1 ∧ calls.kthreadRun2

/-- The ledger of the module: a load in which a call failed returns an error,
an unload stops and releases only what is there, and nothing is left while the
module is not loaded. -/
def Clean : Status Vars → List (Event Calls Resource) → Prop :=
  Ledger fun calls rv _ => ¬ calls.Granted → Failed rv

/-- No call fails, or the first one that fails is one whose failure is not an
error pointer. -/
def LoadClean (calls : Calls) : Prop :=
  calls.allocChrdevRegion → calls.cdevAdd → calls.Granted

variable (names : Names) (calls : Calls)

/-- After the device number and the device are registered, every load returns
0. -/
theorem init_of_registered (hregion : calls.allocChrdevRegion)
    (hcdev : calls.cdevAdd) : (testDriverInit names calls).2.1 = some 0 := by
  simp [testDriverInit, hregion, hcdev]

/-- One load. -/
theorem init_clean_iff :
    ((¬ calls.Granted → Failed (testDriverInit names calls).2.1) ∧
      (Failed (testDriverInit names calls).2.1 →
        Holdings.settle [] (testDriverInit names calls).2.2 = [])) ↔
      LoadClean calls := by
  by_cases hregion : calls.allocChrdevRegion
  · by_cases hcdev : calls.cdevAdd
    · have hrv := init_of_registered names calls hregion hcdev
      simp [hrv, Failed, LoadClean, hregion, hcdev]
    · simp [testDriverInit, LoadClean, Failed, rClass, Holdings.settle, hregion,
        hcdev]
  · simp [testDriverInit, LoadClean, Failed, hregion]

/-- A load that returned 0 got over the two calls that are tested well. -/
theorem registered_of_loaded
    (hloaded : (testDriverInit names calls).2.1 = some 0) :
    calls.allocChrdevRegion ∧ calls.cdevAdd := by
  by_cases hregion : calls.allocChrdevRegion
  · by_cases hcdev : calls.cdevAdd
    · exact ⟨hregion, hcdev⟩
    · simp [testDriverInit, hregion, hcdev] at hloaded
  · simp [testDriverInit, hregion] at hloaded

/-- The unload of a module whose load was granted everything. -/
theorem exit_clean (hgranted : calls.Granted) :
    Holdings.Covered (Holdings.settle [] (testDriverInit names calls).2.2)
        (testDriverExit names (testDriverInit names calls).1) ∧
      Holdings.settle (Holdings.settle [] (testDriverInit names calls).2.2)
        (testDriverExit names (testDriverInit names calls).1) = [] := by
  obtain ⟨hregion, hcdev, hclass, hdevice, hthread1, hthread2⟩ := hgranted
  simp [testDriverInit, testDriverExit, kthreadStop, classDestroy,
    Pointer.made, Pointer.destroyed,
    Holdings.settle, Holdings.Covered, Pointer.orError, names.ne, names.ne.symm, *]

/-- The ledger of the two-thread modules is kept exactly as long as every load
is granted all its calls, or the first call that is refused is
`alloc_chrdev_region` or `cdev_add`. -/
theorem twoThreads_clean_iff (source : Source) (acts : List (Act Calls)) :
    (driver source.names).system.Always Clean acts ↔
      (driver source.names).system.Meets (Proper LoadClean fun _ => True)
        acts := by
  refine always_ledger_iff (init_clean_iff source.names)
    (fun calls hok hloaded => ?_) acts
  obtain ⟨hregion, hcdev⟩ := registered_of_loaded source.names calls hloaded
  exact iff_of_true (exit_clean source.names calls (hok hregion hcdev)) trivial

/-- The second thread of `mtx1.c` does not start, and the load returns 0. -/
theorem kthread_run_fails : ¬ (driver Source.mtx1.names).system.Always Clean
    [.load { allocChrdevRegion := true, cdevAdd := true, classCreate := true,
             deviceCreate := true, kthreadRun1 := true,
             kthreadRun2 := false }] := by
  intro h
  have hlaw := h _ _ _ List.prefix_rfl rfl
  have hfailed := hlaw.loads _ _ _ (List.mem_singleton_self _)
    (by simp [Calls.Granted])
  exact absurd hfailed (by decide)

end TwoThreads
end KernelDrivers
