import KernelDrivers.Lib.Bytes

/-!
# The device of `blk1.c`

`struct blk1_dev` with the fields that the request, the open/release and the
timer code read.  The C types are kept: `size` is an `int`, `users` and
`media_change` are `short`s, and a comparison of `size` with an
`unsigned long` converts it first.
-/

namespace KernelDrivers
namespace BlockDriver

open Lib

/-- `KERNEL_SECTOR_SIZE`. -/
def kernelSectorSize : UInt64 := 512

/-- `struct blk1_dev`.  `data` is the array behind the pointer, `allocated`
says that the pointer is not `NULL`. -/
structure Blk1Dev where
  size : Int32
  data : Bytes
  allocated : Bool
  users : Int16
  mediaChange : Int16

/-- `size` converted to `unsigned long`. -/
def Blk1Dev.ulongSize (dev : Blk1Dev) : UInt64 :=
  dev.size.toInt64.toUInt64

theorem Blk1Dev.toNat_ulongSize {dev : Blk1Dev} (h : 0 ≤ dev.size.toInt) :
    dev.ulongSize.toNat = dev.size.toInt.toNat := by
  unfold Blk1Dev.ulongSize
  rw [Int64.toNat_toUInt64_of_le (by simpa [Int64.le_iff_toInt_le] using h)]
  show dev.size.toInt64.toInt.toNat = dev.size.toInt.toNat
  rw [Int32.toInt_toInt64]

/-! ## The 16-bit user count -/

theorem short_succ (n : Nat) : Int16.ofNat n + 1 = Int16.ofNat (n + 1) :=
  (Int16.ofNat_add n 1).symm

theorem short_pred (n : Nat) : Int16.ofNat (n + 1) - 1 = Int16.ofNat n := by
  rw [Int16.ofNat_add]
  exact Int16.add_sub_cancel ..

/-- A `short` counter reads zero at every multiple of `2 ^ 16`. -/
theorem short_eq_zero_iff (n : Nat) : Int16.ofNat n = 0 ↔ n % 65536 = 0 := by
  rw [← Int16.toBitVec_inj, Int16.toBitVec_ofNat']
  constructor
  · intro h
    simpa using congrArg BitVec.toNat h
  · intro h
    apply BitVec.eq_of_toNat_eq
    simpa using h

end BlockDriver
end KernelDrivers
