import Mathlib.Algebra.Group.Int.Defs
import Mathlib.Data.UInt
import Mathlib.Tactic.Linarith
import Mathlib.Tactic.SplitIfs

/-!
# C integers

C's `%` on signed operands truncates towards zero, which is `Int.tmod`.  On
the index arithmetic of a circular buffer it agrees with the mathematical
residue except for a negative dividend, which keeps its sign.

`sizeT` and `int32` convert a value to the 64-bit `size_t` and to the 32-bit
`int`, as an assignment or a mixed comparison does.  A product of two `int`s is
the `int32` of the mathematical product.
-/

namespace KernelDrivers
namespace Lib
namespace CInt

/-- Conversion to `size_t`. -/
def sizeT (x : Int) : Nat := (x % 2 ^ 64).toNat

/-- Conversion to `int`. -/
def int32 (x : Int) : Int := (x + 2 ^ 31) % 2 ^ 32 - 2 ^ 31

theorem sizeT_of_lt {x : Int} (hx : 0 ≤ x) (hlt : x < 2 ^ 64) :
    sizeT x = x.toNat := by
  unfold sizeT
  rw [Int.emod_eq_of_lt hx hlt]

theorem int32_of_lt {x : Int} (hx : 0 ≤ x) (hlt : x < 2 ^ 31) :
    int32 x = x := by
  unfold int32
  omega

/-- `( 1 + x ) % N` steps an index of a ring of `N` cells. -/
theorem tmod_succ {x N : Int} (hx : 0 ≤ x) : (1 + x).tmod N = (x + 1) % N := by
  rw [Int.tmod_eq_emod_of_nonneg (by omega), Int.add_comm]

/-- `( x - 1 ) % N` of an index in range is `x - 1` throughout, which at `0`
is not an index. -/
theorem tmod_pred {x N : Int} (hx : 0 ≤ x) (hxN : x < N) (hN : 1 < N) :
    (x - 1).tmod N = x - 1 := by
  by_cases hzero : x = 0
  · subst hzero
    rw [Int.zero_sub, Int.neg_tmod, Int.tmod_eq_of_lt (by omega) hN]
  · exact Int.tmod_eq_of_lt (by omega) (by omega)

/-! ## Products and quotients of `int`s -/

/-- A value that an `int` can have. -/
def Fits (x : Int) : Prop := -2 ^ 31 ≤ x ∧ x < 2 ^ 31

theorem int32_eq_self_iff {x : Int} : int32 x = x ↔ Fits x := by
  unfold int32 Fits
  omega

theorem fits_int32 (x : Int) : Fits (int32 x) := by
  unfold int32 Fits
  omega

theorem bmod_eq_int32 (x : Int) : x.bmod (2 ^ 32) = int32 x := by
  unfold int32
  rw [Int.bmod_def]
  push_cast
  split_ifs <;> omega

theorem toInt_mul (a b : Int32) : (a * b).toInt = int32 (a.toInt * b.toInt) := by
  rw [Int32.toInt_mul, bmod_eq_int32]

/-- The conversion from `int` to `unsigned long`. -/
theorem toNat_ulong (c : Int32) :
    (c.toInt64.toUInt64.toNat : Int) = c.toInt % 2 ^ 64 := by
  have hlt := c.toInt64.toUInt64.toNat_lt
  have hbmod : c.toInt64.toInt =
      (c.toInt64.toUInt64.toNat : Int).bmod (2 ^ 64) :=
    BitVec.toInt_eq_toNat_bmod _
  rw [Int32.toInt_toInt64, Int.bmod_def] at hbmod
  push_cast at hbmod
  split_ifs at hbmod <;> omega

/-- The conversion from `long` to `unsigned short`. -/
theorem toNat_ushort (x : Int64) :
    (x.toUInt64.toUInt16.toNat : Int) = x.toInt % 2 ^ 16 := by
  have hbmod : x.toInt = (x.toUInt64.toNat : Int).bmod (2 ^ 64) :=
    BitVec.toInt_eq_toNat_bmod _
  rw [Int.bmod_def] at hbmod
  rw [UInt64.toNat_toUInt16]
  push_cast at hbmod ⊢
  split_ifs at hbmod <;> omega

/-- Dividing before multiplying gives no more than the product, when that is
not negative. -/
theorem mul_tdiv_le {n h d : Int} (hd : 0 < d) (hprod : 0 ≤ n * h) :
    0 ≤ n * h.tdiv d ∧ n * h.tdiv d * d ≤ n * h := by
  wlog hh : 0 ≤ h generalizing n h
  · have hneg := this (n := -n) (h := -h) (by simpa using hprod) (by omega)
    simpa [Int.neg_tdiv] using hneg
  rw [Int.tdiv_eq_ediv_of_nonneg hh]
  have hdown : h / d * d ≤ h := Int.ediv_mul_le h hd.ne'
  have hquot : 0 ≤ h / d := Int.ediv_nonneg hh hd.le
  rcases hh.eq_or_lt with rfl | hpos
  · simp
  · have hn : 0 ≤ n := nonneg_of_mul_nonneg_left hprod hpos
    exact ⟨mul_nonneg hn hquot, by nlinarith⟩

/-- The product is at most twice what is left after dividing first, unless the
division leaves nothing. -/
theorem mul_le_two_mul_tdiv {n h d : Int} (hd : 0 < d) (hquot : h.tdiv d ≠ 0)
    (hprod : 0 ≤ n * h.tdiv d) :
    0 ≤ n * h ∧ n * h ≤ 2 * (n * h.tdiv d * d) := by
  wlog hh : 0 ≤ h generalizing n h
  · have hneg := this (n := -n) (h := -h) (by simpa [Int.neg_tdiv] using hquot)
      (by simpa [Int.neg_tdiv] using hprod) (by omega)
    simpa [Int.neg_tdiv] using hneg
  rw [Int.tdiv_eq_ediv_of_nonneg hh] at hquot hprod ⊢
  have hpos : 0 < h / d :=
    lt_of_le_of_ne (Int.ediv_nonneg hh hd.le) (Ne.symm hquot)
  have hup : h < (h / d + 1) * d := Int.lt_ediv_add_one_mul_self h hd
  have hn : 0 ≤ n := nonneg_of_mul_nonneg_left hprod hpos
  have htwice : h ≤ 2 * (h / d * d) := by nlinarith
  exact ⟨mul_nonneg hn hh, by nlinarith⟩

end CInt
end Lib
end KernelDrivers
