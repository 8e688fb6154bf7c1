import KernelDrivers.BlockDriver.Bounds
import Mathlib.Tactic.Ring

/-!
# The geometry of `blk1.c`

`blk1_ioctl` makes up a geometry of 16 sectors, four heads and as many
cylinders as the size gives.  It scales `dev->size` as `setup_device` scales
`nsectors` for the capacity, but `dev->size` counts bytes.
-/

namespace KernelDrivers
namespace BlockDriver

open Lib CInt

/-- `struct hd_geometry`. -/
structure HdGeometry where
  heads : UInt8
  sectors : UInt8
  cylinders : UInt16
  start : UInt64
  deriving DecidableEq

/-- `HDIO_GETGEO`. -/
def hdioGetgeo : UInt32 := 0x0301

/-- The geometry of the case `HDIO_GETGEO`.  The product is one of `int`s, the
mask and the shift are made on the `long` that holds it. -/
def geometry (dev : Setup) (hardsectSize : Int32) : HdGeometry :=
  let size := (dev.size * (hardsectSize / 512)).toInt64
  { cylinders := ((size &&& ~~~0x3f) >>> 6).toUInt64.toUInt16
    heads := 4
    sectors := 16
    start := 4 }

/-- `blk1_ioctl`: what it returns, and what it stores at `arg`. -/
def blk1Ioctl (dev : Setup) (hardsectSize : Int32) (cmd : UInt32)
    (copyToUserFails : Bool) : Int × Option HdGeometry :=
  if cmd = hdioGetgeo then
    if copyToUserFails then (-EFAULT, none)
    else (0, some (geometry dev hardsectSize))
  else (-ENOTTY, none)

/-- The sectors that a geometry addresses, and a cylinder more. -/
def HdGeometry.addressed (geo : HdGeometry) (cylinders : Nat) : Nat :=
  cylinders * geo.heads.toNat * geo.sectors.toNat

/-- The geometry addresses no sector beyond the capacity, and loses less than
one cylinder of it. -/
def Agrees (geo : HdGeometry) (capacity : UInt64) : Prop :=
  geo.addressed geo.cylinders.toNat ≤ capacity.toNat ∧
    capacity.toNat < geo.addressed (geo.cylinders.toNat + 1)

/-- The mask clears what the shift drops. -/
theorem toInt_shift_mask (x : Int64) :
    ((x &&& ~~~0x3f) >>> 6).toInt = x.toInt / 64 := by
  have hmask : (~~~0x3f : Int64) >>> 6 = -1 := by decide
  rw [Int64.shiftRight_and, hmask, Int64.and_neg_one]
  show ((x.toBitVec).sshiftRight 6).toInt = x.toInt / 64
  rw [BitVec.toInt_sshiftRight, Int.shiftRight_eq_div_pow]
  rfl

/-- The cylinders, for a size of `64 * z` as the product of `int`s leaves it:
the field keeps bits that the product has not lost. -/
theorem cylinders_of_product {dev : Setup} {hardsectSize : Int32} {z : Int}
    (hproduct : (dev.size * (hardsectSize / 512)).toInt = int32 (64 * z)) :
    ((geometry dev hardsectSize).cylinders.toNat : Int) = z % 65536 := by
  show (((dev.size * (hardsectSize / 512)).toInt64 &&& ~~~0x3f) >>>
    6).toUInt64.toUInt16.toNat = z % 65536
  rw [toNat_ushort, toInt_shift_mask, Int32.toInt_toInt64, hproduct]
  unfold int32
  omega

/-- Agreement, as the number of cylinders. -/
theorem agrees_iff (dev : Setup) (hardsectSize : Int32) (capacity : UInt64) :
    Agrees (geometry dev hardsectSize) capacity ↔
      (geometry dev hardsectSize).cylinders.toNat = capacity.toNat / 64 := by
  show _ * 4 * 16 ≤ _ ∧ _ < (_ + 1) * 4 * 16 ↔ _
  omega

/-- A disk of `m` sectors with `q` of them in a hardware sector: a count of
`8 * m * q` cylinders is too large, until it is cut off. -/
theorem cut_off_of_agrees {m q : Int} (hm : 0 < m) (hq : 0 < q)
    (h : 8 * m * q % 65536 = m / 64) : 65536 ≤ 8 * m * q := by
  by_contra hsmall
  have hle : m ≤ m * q := le_mul_of_one_le_right hm.le hq
  have hassoc : 8 * m * q = 8 * (m * q) := mul_assoc ..
  rw [Int.emod_eq_of_lt (by omega) (by omega)] at h
  omega

section

variable {p : Parameters} {calls : SetupCalls} {capacity : UInt64} {q : Int}

theorem toInt_sectors_of_hardsect (hq : p.hardsectSize.toInt = 512 * q)
    (hpos : 0 < q) : (p.hardsectSize / 512).toInt = q := by
  rw [toInt_div_512, Int.tdiv_eq_ediv_of_nonneg (by omega)]
  omega

/-- The size in bytes and the capacity in sectors, without overflow. -/
theorem setupDevice_units (hadded : (setupDevice p calls).capacity = some capacity)
    (hq : p.hardsectSize.toInt = 512 * q) (hpos : 0 < q)
    (hfits : Fits (p.nsectors.toInt * p.hardsectSize.toInt)) :
    (setupDevice p calls).size.toInt = 512 * (p.nsectors.toInt * q) ∧
      (capacity.toNat : Int) = p.nsectors.toInt * q := by
  obtain ⟨hgranted, hsize, hcapacity⟩ := setupDevice_capacity hadded
  have hbytes : (setupDevice p calls).size.toInt =
      512 * (p.nsectors.toInt * q) := by
    rw [hsize, toInt_mul, int32_eq_self_iff.mpr hfits, hq]
    exact Int.mul_left_comm ..
  have hquot : Fits (p.nsectors.toInt * q) := by
    have hhigh := (setupDevice p calls).size.toInt_lt
    unfold Fits
    omega
  have hnat := toNat_ulong (p.nsectors * (p.hardsectSize / 512))
  rw [toInt_mul, toInt_sectors_of_hardsect hq hpos,
    int32_eq_self_iff.mpr hquot, ← hcapacity] at hnat
  have hlt := hquot.2
  exact ⟨hbytes, by omega⟩

/-- The size in bytes is scaled once more. -/
theorem cylinders_of_units (hq : p.hardsectSize.toInt = 512 * q) (hpos : 0 < q)
    (hsize : (setupDevice p calls).size.toInt = 512 * (p.nsectors.toInt * q)) :
    ((geometry (setupDevice p calls) p.hardsectSize).cylinders.toNat : Int) =
      8 * (p.nsectors.toInt * q) * q % 65536 := by
  apply cylinders_of_product
  rw [toInt_mul, hsize, toInt_sectors_of_hardsect hq hpos]
  congr 1
  ring

end

/-- The geometry agrees with the capacity exactly when the count of cylinders
is too large for its field and what the field keeps of it happens to be the
right number. -/
theorem geometry_agrees_iff (p : Parameters) (calls : SetupCalls)
    (capacity : UInt64) (hadded : (setupDevice p calls).capacity = some capacity)
    (hnsectors : 0 < p.nsectors.toInt) (hpos : 0 < p.hardsectSize.toInt)
    (hdvd : 512 ∣ p.hardsectSize.toInt)
    (hfits : Fits (p.nsectors.toInt * p.hardsectSize.toInt)) :
    (∃ geo, blk1Ioctl (setupDevice p calls) p.hardsectSize hdioGetgeo false =
        (0, some geo) ∧ Agrees geo capacity) ↔
      65536 ≤ 8 * (p.nsectors.toInt * (p.hardsectSize.toInt / 512)) *
          (p.hardsectSize.toInt / 512) ∧
        8 * (p.nsectors.toInt * (p.hardsectSize.toInt / 512)) *
            (p.hardsectSize.toInt / 512) % 65536 =
          p.nsectors.toInt * (p.hardsectSize.toInt / 512) / 64 := by
  obtain ⟨q, hq⟩ := hdvd
  have hqpos : 0 < q := by omega
  have hquot : p.hardsectSize.toInt / 512 = q := by omega
  obtain ⟨hsize, hcapacity⟩ := setupDevice_units hadded hq hqpos hfits
  have hcylinders := cylinders_of_units hq hqpos hsize
  have hm : 0 < p.nsectors.toInt * q := Int.mul_pos hnsectors hqpos
  rw [hquot]
  generalize p.nsectors.toInt * q = m at *
  have hreturns : ∀ geo, blk1Ioctl (setupDevice p calls) p.hardsectSize hdioGetgeo
      false = (0, some geo) ↔ geometry (setupDevice p calls) p.hardsectSize = geo :=
    fun geo => by simp [blk1Ioctl]
  have hcount : (∃ geo, blk1Ioctl (setupDevice p calls) p.hardsectSize hdioGetgeo
      false = (0, some geo) ∧ Agrees geo capacity) ↔
        8 * m * q % 65536 = m / 64 := by
    simp only [hreturns, exists_eq_left', agrees_iff]
    omega
  rw [hcount]
  exact ⟨fun h => ⟨cut_off_of_agrees hm hqpos h, h⟩, fun h => h.2⟩

/-- 262657 sectors: the count of 2101256 cylinders is cut off to 4104. -/
theorem geometry_agrees_by_chance :
    ∃ geo, blk1Ioctl (setupDevice ⟨0, 512, 262657⟩ grantedCalls) 512 hdioGetgeo
      false = (0, some geo) ∧ Agrees geo 262657 :=
  (geometry_agrees_iff ⟨0, 512, 262657⟩ grantedCalls 262657 (by decide +kernel)
    (by decide) (by decide) (by decide) (by unfold Fits; decide)).mpr (by decide)

/-- The default disk of 1024 sectors is given 8192 cylinders of 64. -/
theorem default_geometry_beyond :
    (setupDevice ⟨0, 512, 1024⟩ grantedCalls).capacity = some 1024 ∧
      ¬ Agrees (geometry (setupDevice ⟨0, 512, 1024⟩ grantedCalls) 512) 1024 := by
  refine ⟨by decide +kernel, fun h => ?_⟩
  exact absurd h.1 (by decide +kernel)

end BlockDriver
end KernelDrivers
