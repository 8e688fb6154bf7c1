import KernelDrivers.Lib.LoadUnload
import KernelDrivers.Pointer

/-!
# Loading and unloading `irq1.c`

`irq_driver_init` acquires seven resources and undoes them from five labels
that fall through; `irq_driver_exit` undoes them again.  A release is an entry
also where nothing is held, so that the ledger shows it.

The class and the device come as error pointers when they fail, and the code
compares them with `NULL`; the directory comes as `NULL`, and is not looked at.
-/

namespace KernelDrivers
namespace IRQ

open Lib Loadable

/-- The directory of a sysfs file. -/
inductive Parent where
  | kernelKobj
  | kobjRef
  deriving DecidableEq

inductive Resource where
  | chrdevRegion
  | cdev
  | devClass
  | device
  | kobject
  | sysfsFile (parent : Parent)
  | irqLine
  deriving DecidableEq

/-- Which calls of `irq_driver_init` the kernel grants. -/
structure Calls where
  allocChrdevRegion : Bool
  cdevAdd : Bool
  classCreate : Bool
  deviceCreate : Bool
  kobjectCreateAndAdd : Bool
  sysfsCreateFile : Bool
  requestIrq : Bool

/-- `dev_class` and `kobj_ref`. -/
structure Vars where
  devClass : Pointer
  kobjRef : Pointer

/-- `class_destroy` does nothing for an error pointer. -/
def classDestroy (devClass : Pointer) : List (Entry Resource) :=
  devClass.destroyed .devClass

/-- `kobject_put` on the last reference: the directory goes, and the files that
are in it.  It does nothing for `NULL`. -/
def kobjectPut (kobjRef : Pointer) (inside : List Resource) :
    List (Entry Resource) :=
  if kobjRef = .valid then .released .kobject :: inside.map .released else []

/-- From the label `r_class` on. -/
def rClass : List (Entry Resource) :=
  [.released .chrdevRegion, .released .cdev]

/-- From the label `r_device` on. -/
def rDevice (vars : Vars) : List (Entry Resource) :=
  classDestroy vars.devClass ++ rClass

/-- From the label `r_sysfs` on. -/
def rSysfs (vars : Vars) (inside : List Resource) : List (Entry Resource) :=
  kobjectPut vars.kobjRef inside ++
    .released (.sysfsFile .kernelKobj) :: rDevice vars

/-- From the label `irq` on. -/
def irq (vars : Vars) (inside : List Resource) : List (Entry Resource) :=
  .released .irqLine :: rSysfs vars inside

/-- `irq_driver_init`. -/
def irqDriverInit (calls : Calls) : Vars × Option Int × List (Entry Resource) :=
  if ¬ calls.allocChrdevRegion then (⟨.null, .null⟩, some (-1), [])
  else if ¬ calls.cdevAdd then
    (⟨.null, .null⟩, some (-1), .acquired .chrdevRegion :: rClass)
  else
    let registered : List (Entry Resource) :=
      [.acquired .chrdevRegion, .acquired .cdev]
    let devClass := Pointer.orError calls.classCreate
    if devClass = .null then (⟨devClass, .null⟩, some (-1), registered ++ rClass)
    else
      -- `device_create` fails on a class that is an error pointer.
      let device := Pointer.orError (devClass = .valid && calls.deviceCreate)
      let shown := registered ++ devClass.made .devClass ++ device.made .device
      if device = .null then
        (⟨devClass, .null⟩, some (-1), shown ++ rDevice ⟨devClass, .null⟩)
      else
        let vars : Vars := ⟨devClass, Pointer.orNull calls.kobjectCreateAndAdd⟩
        let named := shown ++ vars.kobjRef.made .kobject
        -- `sysfs_create_file` fails on a directory that is `NULL`.
        if ¬ (vars.kobjRef = .valid ∧ calls.sysfsCreateFile) then
          (vars, some (-1), named ++ rSysfs vars [])
        else
          let filed := named ++ [.acquired (.sysfsFile .kobjRef)]
          if ¬ calls.requestIrq then
            (vars, some (-1), filed ++ irq vars [.sysfsFile .kobjRef])
          else (vars, some 0, filed ++ [.acquired .irqLine])

/-- `irq_driver_exit`: the module is loaded, so its file is in its
directory. -/
def irqDriverExit (vars : Vars) : List (Entry Resource) :=
  .released .irqLine :: kobjectPut vars.kobjRef [.sysfsFile .kobjRef] ++
    [.released (.sysfsFile .kernelKobj), .released .device] ++
    classDestroy vars.devClass ++ [.released .cdev, .released .chrdevRegion]

def driver : Loadable Vars Calls Resource where
  init := irqDriverInit
  exit := irqDriverExit

/-- The ledger of the module: loads and unloads release only what is held, and
nothing is held while the module is not loaded. -/
def Clean : Status Vars → List (Event Calls Resource) → Prop :=
  Ledger fun _ _ entries => Holdings.Covered [] entries

/-- The load stops at its first call, or goes through all calls that can send
it to a label. -/
def LoadClean (calls : Calls) : Prop :=
  ¬ calls.allocChrdevRegion ∨ (calls.cdevAdd ∧ calls.kobjectCreateAndAdd ∧
    calls.sysfsCreateFile ∧ calls.requestIrq)

instance (calls : Calls) : Decidable (LoadClean calls) :=
  inferInstanceAs (Decidable (_ ∨ _))

/-- One load. -/
theorem init_clean_iff (calls : Calls) :
    (Holdings.Covered [] (irqDriverInit calls).2.2 ∧
      (Failed (irqDriverInit calls).2.1 →
        Holdings.settle [] (irqDriverInit calls).2.2 = [])) ↔
      LoadClean calls := by
  obtain ⟨region, cdev, cls, device, kobject, file, line⟩ := calls
  cases region with
  | false => simp [irqDriverInit, LoadClean]
  | true =>
      cases cdev with
      | false => simp [irqDriverInit, LoadClean, rClass, Holdings.Covered]
      | true =>
          cases cls <;> cases device <;> cases kobject <;> cases file <;>
            cases line <;> decide

/-- The module is not unloaded cleanly: what its load created under `kobj_ref`
is removed under `kernel_kobj`. -/
theorem exit_not_covered (calls : Calls)
    (hloaded : (irqDriverInit calls).2.1 = some 0) :
    ¬ Holdings.Covered (Holdings.settle [] (irqDriverInit calls).2.2)
      (irqDriverExit (irqDriverInit calls).1) := by
  obtain ⟨region, cdev, cls, device, kobject, file, line⟩ := calls
  cases region with
  | false => cases hloaded
  | true =>
      cases cdev with
      | false => cases hloaded
      | true =>
          revert hloaded
          cases cls <;> cases device <;> cases kobject <;> cases file <;>
            cases line <;> decide

/-- The ledger of `irq1.c` is kept exactly as long as no load fails after its
first call and a loaded module is not unloaded. -/
theorem irq1_clean_iff (acts : List (Act Calls)) :
    driver.system.Always Clean acts ↔
      driver.system.Meets (Proper LoadClean fun _ => False) acts := by
  refine always_ledger_iff init_clean_iff (fun calls _ hloaded => ?_) acts
  have hexit := exit_not_covered calls hloaded
  exact ⟨fun h => hexit h.1, False.elim⟩

/-- All calls are granted but the last: `free_irq` releases a line that is not
held, and the device stays. -/
theorem request_irq_fails : ¬ driver.system.Always Clean
    [.load { allocChrdevRegion := true, cdevAdd := true, classCreate := true,
             deviceCreate := true, kobjectCreateAndAdd := true,
             sysfsCreateFile := true, requestIrq := false }] := by
  intro h
  have hlaw := h _ _ _ List.prefix_rfl rfl
  exact absurd (hlaw.unloaded rfl) (by decide)

end IRQ
end KernelDrivers
