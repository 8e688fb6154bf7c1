import Mathlib.Data.List.Basic
import Mathlib.Data.Nat.Bitwise

/-!
# Packed words

Fields of given widths are put side by side into one word, the first on top, by
shifts and `or`.  Shifts and masks read them back.  A field that is wider than
its place runs into its neighbour, or out of the word.
-/

namespace KernelDrivers
namespace Lib
namespace Packed

/-- A value, and how many bits of the word are for it. -/
structure Field where
  width : Nat
  value : Nat

/-- The value has no more bits than its place. -/
def Field.Fits (f : Field) : Prop := f.value < 2 ^ f.width

/-- The bits that the fields take together. -/
def bits (fields : List Field) : Nat := (fields.map Field.width).sum

/-- Shift each field to its place. -/
def pack : List Field → Nat
  | [] => 0
  | f :: fields => f.value <<< bits fields ||| pack fields

/-- Read fields of the given widths. -/
def unpack : List Nat → Nat → List Nat
  | [], _ => []
  | width :: widths, word =>
      (word >>> widths.sum) % 2 ^ width :: unpack widths word

variable {fields : List Field} {widths : List Nat} {word n : Nat}

/-- The fields are in the low bits of the word. -/
theorem unpack_mod (h : widths.sum ≤ n) :
    unpack widths (word % 2 ^ n) = unpack widths word := by
  induction widths with
  | nil => rfl
  | cons width widths ih =>
      rw [List.sum_cons] at h
      obtain ⟨above, rfl⟩ : ∃ above, n = widths.sum + (width + above) :=
        ⟨n - (width + widths.sum), by omega⟩
      have hdvd : 2 ^ width ∣ 2 ^ (width + above) :=
        Nat.pow_dvd_pow 2 (Nat.le_add_right ..)
      rw [unpack, unpack, ih (by omega), Nat.shiftRight_eq_div_pow, pow_add,
        Nat.mod_mul_right_div_self, Nat.mod_mod_of_dvd _ hdvd,
        Nat.shiftRight_eq_div_pow]

/-- Whatever is read fits. -/
theorem fits_of_unpack_eq
    (h : unpack (fields.map Field.width) word = fields.map Field.value) :
    ∀ f ∈ fields, f.Fits := by
  induction fields with
  | nil => exact nofun
  | cons f fields ih =>
      obtain ⟨hvalue, hrest⟩ := List.cons.inj h
      refine List.forall_mem_cons.mpr ⟨?_, ih hrest⟩
      unfold Field.Fits
      rw [← hvalue]
      exact Nat.mod_lt _ (Nat.two_pow_pos _)

theorem pack_lt (h : ∀ f ∈ fields, f.Fits) : pack fields < 2 ^ bits fields := by
  induction fields with
  | nil => exact Nat.one_pos
  | cons f fields ih =>
      obtain ⟨hf, hfields⟩ := List.forall_mem_cons.mp h
      have hlow := ih hfields
      have hbits : bits (f :: fields) = f.width + bits fields := List.sum_cons
      rw [pack, ← Nat.shiftLeft_add_eq_or_of_lt hlow, Nat.shiftLeft_eq, hbits,
        pow_add]
      calc
        f.value * 2 ^ bits fields + pack fields <
            f.value * 2 ^ bits fields + 2 ^ bits fields :=
          Nat.add_lt_add_left hlow _
        _ = (f.value + 1) * 2 ^ bits fields := (Nat.succ_mul ..).symm
        _ ≤ 2 ^ f.width * 2 ^ bits fields := Nat.mul_le_mul_right _ hf

/-- Fields that fit are read back. -/
theorem unpack_pack (h : ∀ f ∈ fields, f.Fits) :
    unpack (fields.map Field.width) (pack fields) = fields.map Field.value := by
  induction fields with
  | nil => rfl
  | cons f fields ih =>
      obtain ⟨hf, hfields⟩ := List.forall_mem_cons.mp h
      have hlow := pack_lt hfields
      have htop : pack (f :: fields) >>> bits fields = f.value := by
        rw [pack, Nat.shiftRight_or_distrib, Nat.shiftLeft_shiftRight,
          Nat.shiftRight_eq_zero _ _ hlow, Nat.or_zero]
      have hrest : pack (f :: fields) % 2 ^ bits fields = pack fields := by
        rw [pack, ← Nat.shiftLeft_add_eq_or_of_lt hlow, Nat.shiftLeft_eq,
          Nat.mul_add_mod_self_right, Nat.mod_eq_of_lt hlow]
      have hwidths : (fields.map Field.width).sum ≤ bits fields := le_rfl
      rw [List.map_cons, unpack, ← unpack_mod hwidths, hrest, ih hfields]
      exact congrArg (· :: _) ((congrArg (· % _) htop).trans (Nat.mod_eq_of_lt hf))

/-- A word of `n` bits gives back the fields that were packed into it exactly
when all of them fit. -/
theorem unpack_pack_iff (h : bits fields ≤ n) :
    unpack (fields.map Field.width) (pack fields % 2 ^ n) =
        fields.map Field.value ↔ ∀ f ∈ fields, f.Fits := by
  rw [unpack_mod h]
  exact ⟨fits_of_unpack_eq, unpack_pack⟩

end Packed
end Lib
end KernelDrivers
