import KernelDrivers.BlockDriver.Request
import KernelDrivers.BlockDriver.Setup
import KernelDrivers.Lib.CInt

/-!
# What the bound check is worth, and what the capacity promises

The check of `blk1_transfer` is made on products and on a sum modulo `2 ^ 64`.
`setup_device` allocates `nsectors * hardsect_size` bytes, a product in an
`int`, and announces a capacity that is another product in an `int`.
-/

namespace KernelDrivers
namespace BlockDriver

open Lib CInt

variable {dev : Blk1Dev} {sector nsect : UInt64}

/-! ## The bound check -/

/-- What the bound check compares with the size. -/
theorem toNat_end (sector nsect : UInt64) :
    (sector * kernelSectorSize + nsect * kernelSectorSize).toNat =
      (sector.toNat * 512 + nsect.toNat * 512) % 2 ^ 64 := by
  rw [UInt64.toNat_add, UInt64.toNat_mul, UInt64.toNat_mul]
  show (sector.toNat * 512 % 2 ^ 64 + nsect.toNat * 512 % 2 ^ 64) % 2 ^ 64 = _
  omega

theorem insideDevice_iff (hsize : 0 ≤ dev.size.toInt) :
    InsideDevice dev sector nsect ↔
      (sector.toNat * 512 + nsect.toNat * 512) % 2 ^ 64 ≤ dev.size.toInt.toNat := by
  unfold InsideDevice
  rw [UInt64.le_iff_toNat_le, toNat_end, Blk1Dev.toNat_ulongSize hsize]

theorem not_insideDevice_iff (hsize : 0 ≤ dev.size.toInt) :
    ¬ InsideDevice dev sector nsect ↔
      dev.size.toInt.toNat < (sector.toNat * 512 + nsect.toNat * 512) % 2 ^ 64 := by
  rw [insideDevice_iff hsize, not_le]

theorem toNat_bytes (n : UInt64) :
    (n * kernelSectorSize).toNat = n.toNat * 512 % 2 ^ 64 :=
  UInt64.toNat_mul ..

theorem bytes_lt_of_short {a b : Nat} (h : a + b < 2 ^ 55) :
    a * 512 < 2 ^ 64 ∧ b * 512 < 2 ^ 64 := by
  omega

/-- The transfer touches nothing, or exactly the bytes that were asked for,
and these are inside the device. -/
def Exact (dev : Blk1Dev) (sector nsect : UInt64) (buffer : Bytes)
    (t : Transfer) : Prop :=
  (t.dev = dev ∧ t.buffer = buffer ∧ ∀ c ∈ t.copy, c.nbytes = 0) ∨
  (t.copy = some ⟨sector.toNat * 512, nsect.toNat * 512⟩ ∧
    sector.toNat * 512 + nsect.toNat * 512 ≤ dev.size.toInt.toNat)

/-- A transfer whose length wraps to nothing touches nothing. -/
theorem blk1Transfer_nothing (hzero : nsect * kernelSectorSize = 0)
    (buffer : Bytes) (write : Bool) :
    (blk1Transfer dev sector nsect buffer write).dev = dev ∧
      (blk1Transfer dev sector nsect buffer write).buffer = buffer := by
  by_cases hin : InsideDevice dev sector nsect
  · cases write with
    | true => simp [blk1Transfer_write_of_inside hin, hzero]
    | false => simp [blk1Transfer_read_of_inside hin, hzero]
  · simp [blk1Transfer_of_not_inside hin]

/-- `blk1_transfer` does what it was asked for, or nothing, exactly when the
end of the run does not wrap, its length wraps to nothing, or the end is beyond
the device even when it has wrapped. -/
theorem blk1Transfer_exact_iff (hsize : 0 < dev.size.toInt)
    (sector nsect : UInt64) (buffer : Bytes) (write : Bool) :
    Exact dev sector nsect buffer (blk1Transfer dev sector nsect buffer write) ↔
      sector.toNat + nsect.toNat < 2 ^ 55 ∨ 2 ^ 55 ∣ nsect.toNat ∨
        dev.size.toInt.toNat <
          (sector.toNat * 512 + nsect.toNat * 512) % 2 ^ 64 := by
  have hbound := dev.size.toInt_lt
  rw [← not_insideDevice_iff hsize.le]
  by_cases hin : InsideDevice dev sector nsect
  · have hend := (insideDevice_iff hsize.le).mp hin
    have hcopy := blk1Transfer_copy dev sector nsect buffer write
    rw [if_pos hin, toNat_bytes, toNat_bytes] at hcopy
    unfold Exact
    rw [hcopy]
    -- the test lets the run through: it moves what the products say
    constructor
    · rintro (⟨-, -, hnothing⟩ | ⟨-, hinside⟩)
      · have hzero : nsect.toNat * 512 % 2 ^ 64 = 0 := hnothing _ rfl
        exact .inr (.inl (by omega))
      · exact .inl (by omega)
    · rintro (hshort | hwrapped | hstopped)
      · obtain ⟨hoffset, hnbytes⟩ := bytes_lt_of_short hshort
        rw [Nat.mod_eq_of_lt hoffset, Nat.mod_eq_of_lt hnbytes]
        exact .inr ⟨rfl, by omega⟩
      · have hzero : (nsect * kernelSectorSize).toNat = 0 := by
          rw [toNat_bytes]
          omega
        obtain ⟨hdev, hbuffer⟩ :=
          blk1Transfer_nothing (UInt64.toNat_inj.mp hzero) buffer write
        rw [toNat_bytes] at hzero
        refine .inl ⟨hdev, hbuffer, fun c hc => ?_⟩
        cases hc
        exact hzero
      · exact absurd hin hstopped
  · rw [blk1Transfer_of_not_inside hin]
    exact iff_of_true (.inl ⟨rfl, rfl, by simp⟩) (.inr (.inr hin))

theorem blk1Transfer_exact_first_sector :
    0 < defaultDev.size.toInt ∧
      Exact defaultDev 0 1 (fun _ => 0)
        (blk1Transfer defaultDev 0 1 (fun _ => 0) false) :=
  ⟨by decide, (blk1Transfer_exact_iff (by decide) 0 1 (fun _ => 0) false).mpr
    (.inl (by decide))⟩

/-- The first sector of the default device is read for sector `2 ^ 55`. -/
theorem sector_wraps :
    ¬ Exact defaultDev (2 ^ 55) 1 (fun _ => 0)
      (blk1Transfer defaultDev (2 ^ 55) 1 (fun _ => 0) false) := by
  have hcopy : (blk1Transfer defaultDev (2 ^ 55) 1 (fun _ => 0) false).copy =
      some ⟨0, 512⟩ := by decide +kernel
  rintro (⟨-, -, hnothing⟩ | ⟨hexact, -⟩)
  · exact absurd (hnothing _ hcopy) (by decide)
  · rw [hcopy] at hexact
    exact absurd hexact (by decide +kernel)

/-! ## The capacity -/

/-- Every sector below the capacity is inside the array, and every request
below it passes the bound check. -/
structure Backed (size : Int32) (capacity : UInt64) : Prop where
  sectors : ∀ sector < capacity.toNat, (sector + 1) * 512 ≤ size.toInt.toNat
  requests : ∀ (dev : Blk1Dev) (sector nsect : UInt64), dev.size = size →
    sector.toNat + nsect.toNat ≤ capacity.toNat → InsideDevice dev sector nsect

/-- A capacity that was computed in an `int` is backed when it is not negative
and its bytes are there. -/
theorem backed_iff_le {size capacity : Int32} (hsize : 0 < size.toInt) :
    Backed size capacity.toInt64.toUInt64 ↔
      0 ≤ capacity.toInt ∧ capacity.toInt * 512 ≤ size.toInt := by
  have hnat := toNat_ulong capacity
  have hmax := size.toInt_lt
  have hlow := capacity.le_toInt
  have hhigh := capacity.toInt_lt
  constructor
  · intro h
    by_cases hneg : capacity.toInt < 0
    · -- converted, it is larger than any number of sectors in memory
      have := h.sectors (2 ^ 22) (by omega)
      omega
    · refine ⟨by omega, ?_⟩
      by_cases hzero : capacity.toInt = 0
      · omega
      · have := h.sectors (capacity.toInt.toNat - 1) (by omega)
        omega
  · rintro ⟨hnonneg, hle⟩
    refine ⟨fun sector hsector => by omega, fun dev sector nsect hdev hreq => ?_⟩
    subst hdev
    rw [insideDevice_iff hsize.le]
    omega

/-- The sizes under which the capacity of the disk is backed: a disk without
sectors, a size that fits into an `int`, or two products that wrapped and
still agree. -/
def Announced (p : Parameters) : Prop :=
  p.hardsectSize.toInt.natAbs < 512 ∨
  Fits (p.nsectors.toInt * p.hardsectSize.toInt) ∨
  (¬ Fits (p.nsectors.toInt * p.hardsectSize.toInt.tdiv 512) ∧
    0 ≤ int32 (p.nsectors.toInt * p.hardsectSize.toInt.tdiv 512) ∧
    int32 (p.nsectors.toInt * p.hardsectSize.toInt.tdiv 512) * 512 ≤
      int32 (p.nsectors.toInt * p.hardsectSize.toInt))

instance (p : Parameters) : Decidable (Announced p) :=
  inferInstanceAs (Decidable (_ ∨ (_ ∧ _) ∨ (¬ (_ ∧ _) ∧ _ ∧ _)))

theorem tdiv_eq_zero_iff {h : Int} : h.tdiv 512 = 0 ↔ h.natAbs < 512 := by
  rw [← Int.natAbs_eq_zero, Int.natAbs_tdiv]
  exact Nat.div_eq_zero_iff_lt (by decide)

theorem toInt_div_512 (h : Int32) : (h / 512).toInt = h.toInt.tdiv 512 := by
  have habs : (h.toInt.tdiv 512).natAbs = h.toInt.natAbs / 512 :=
    Int.natAbs_tdiv ..
  have hlow := h.le_toInt
  have hhigh := h.toInt_lt
  rw [Int32.toInt_div, bmod_eq_int32]
  show int32 (h.toInt.tdiv 512) = h.toInt.tdiv 512
  rw [int32_eq_self_iff]
  unfold Fits
  omega

/-- The two products, as integers. -/
theorem announced_iff_le {n h : Int} (hsize : 0 < int32 (n * h)) :
    (h.natAbs < 512 ∨ Fits (n * h) ∨
        (¬ Fits (n * h.tdiv 512) ∧ 0 ≤ int32 (n * h.tdiv 512) ∧
          int32 (n * h.tdiv 512) * 512 ≤ int32 (n * h))) ↔
      0 ≤ int32 (n * h.tdiv 512) ∧
        int32 (n * h.tdiv 512) * 512 ≤ int32 (n * h) := by
  have hfits := fits_int32 (n * h)
  constructor
  · rintro (hsmall | hfit | ⟨-, hagree⟩)
    · rw [tdiv_eq_zero_iff.mpr hsmall, Int.mul_zero]
      exact ⟨le_rfl, hsize.le⟩
    · rw [int32_eq_self_iff.mpr hfit] at hsize ⊢
      obtain ⟨hnonneg, hle⟩ := mul_tdiv_le (d := 512) (by decide) hsize.le
      have hquot : Fits (n * h.tdiv 512) := ⟨by omega, by have := hfit.2; omega⟩
      rw [int32_eq_self_iff.mpr hquot]
      exact ⟨hnonneg, hle⟩
    · exact hagree
  · rintro ⟨hnonneg, hle⟩
    by_contra hnone
    push Not at hnone
    obtain ⟨hlarge, hwraps, hagree⟩ := hnone
    have hquot : Fits (n * h.tdiv 512) := by
      by_contra hquot
      exact absurd hle (not_le.mpr (hagree hquot hnonneg))
    rw [int32_eq_self_iff.mpr hquot] at hnonneg hle
    -- the product is less than twice an `int`, and wraps to a negative number
    have hne : h.tdiv 512 ≠ 0 := fun hzero =>
      absurd (tdiv_eq_zero_iff.mp hzero) (not_lt.mpr hlarge)
    obtain ⟨hprod, htwice⟩ := mul_le_two_mul_tdiv (by decide) hne hnonneg
    unfold Fits int32 at *
    omega

/-- The capacity that `setup_device` announces, and the size of the array
behind it. -/
theorem setupDevice_capacity {p : Parameters} {calls : SetupCalls}
    {capacity : UInt64} (h : (setupDevice p calls).capacity = some capacity) :
    0 < (setupDevice p calls).size.toInt ∧
      (setupDevice p calls).size = p.nsectors * p.hardsectSize ∧
      capacity = (p.nsectors * (p.hardsectSize / 512)).toInt64.toUInt64 := by
  simp only [setupDevice, outVfree] at h ⊢
  split_ifs at h ⊢ with hdata hqueue herror hdisk
  cases h
  have hvalid := (vmalloc_cases _ _).resolve_left hdata
  exact ⟨size_pos_of_vmalloc hvalid, rfl, rfl⟩

/-- The capacity of the disk is backed by memory exactly under the sizes that
`Announced` names. -/
theorem backed_iff (p : Parameters) (calls : SetupCalls) (capacity : UInt64)
    (hadded : (setupDevice p calls).capacity = some capacity) :
    Backed (setupDevice p calls).size capacity ↔ Announced p := by
  obtain ⟨hsize, hproduct, rfl⟩ := setupDevice_capacity hadded
  rw [backed_iff_le hsize, toInt_mul, toInt_div_512]
  rw [hproduct, toInt_mul] at hsize ⊢
  exact (announced_iff_le hsize).symm

/-- A load to which everything is granted. -/
def grantedCalls : SetupCalls where
  registerBlkdev := true
  freeMajor := ⟨240, by decide⟩
  kmalloc := true
  vmalloc := true
  blkMqInitSqQueue := .valid
  allocDisk := true

theorem backed_default :
    (setupDevice ⟨0, 512, 1024⟩ grantedCalls).capacity = some 1024 ∧
      Backed (setupDevice ⟨0, 512, 1024⟩ grantedCalls).size 1024 :=
  have hadded : (setupDevice ⟨0, 512, 1024⟩ grantedCalls).capacity =
      some 1024 := by decide +kernel
  ⟨hadded, (backed_iff _ _ _ hadded).mpr (by decide +kernel)⟩

/-- `8388609 * 512` is 512 in an `int`: one sector is there, and `8388609` are
announced. -/
theorem size_wraps :
    (setupDevice ⟨0, 512, 8388609⟩ grantedCalls).capacity = some 8388609 ∧
      ¬ Backed (setupDevice ⟨0, 512, 8388609⟩ grantedCalls).size 8388609 := by
  refine ⟨by decide +kernel, fun h => ?_⟩
  exact absurd (h.sectors 1 (by decide)) (by decide +kernel)

end BlockDriver
end KernelDrivers
