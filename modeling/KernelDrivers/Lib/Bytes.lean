import Mathlib.Data.Finset.Card
import Mathlib.Order.Interval.Finset.Nat

/-!
# Byte regions

A region of memory is a function from offsets to bytes.  `memcpy` copies
between two regions that do not overlap, and `slice` reads a range off as a
list.
-/

namespace KernelDrivers
namespace Lib

/-- The bytes behind a pointer. -/
abbrev Bytes := Nat → UInt8

namespace Bytes

/-- The `n` bytes from offset `off` on. -/
def slice (m : Bytes) (off n : Nat) : List UInt8 :=
  (List.range n).map fun i => m (off + i)

/-- Copy `n` bytes from one region into another. -/
def memcpy (dst : Bytes) (dstOff : Nat) (src : Bytes) (srcOff n : Nat) :
    Bytes := fun i =>
  if dstOff ≤ i ∧ i < dstOff + n then src (srcOff + (i - dstOff)) else dst i

@[simp] theorem length_slice (m : Bytes) (off n : Nat) :
    (slice m off n).length = n := by
  simp [slice]

@[simp] theorem slice_zero (m : Bytes) (off : Nat) : slice m off 0 = [] := rfl

theorem slice_add (m : Bytes) (off a b : Nat) :
    slice m off (a + b) = slice m off a ++ slice m (off + a) b := by
  simp only [slice, List.range_add, List.map_append, List.map_map]
  congr 1
  apply List.map_congr_left
  intro i _
  simp only [Function.comp_apply]
  congr 1
  omega

/-- Two slices are equal exactly when the bytes in them are. -/
theorem slice_eq_slice_iff {m m' : Bytes} {off off' n : Nat} :
    slice m off n = slice m' off' n ↔ ∀ i < n, m (off + i) = m' (off' + i) := by
  simp [slice, List.map_inj_left]

theorem memcpy_inside (dst src : Bytes) {dstOff srcOff n i : Nat}
    (hi : i < n) :
    memcpy dst dstOff src srcOff n (dstOff + i) = src (srcOff + i) := by
  simp [memcpy, hi]

theorem memcpy_outside (dst src : Bytes) {dstOff srcOff n i : Nat}
    (hi : i < dstOff ∨ dstOff + n ≤ i) :
    memcpy dst dstOff src srcOff n i = dst i := by
  have : ¬ (dstOff ≤ i ∧ i < dstOff + n) := by omega
  simp [memcpy, this]

@[simp] theorem memcpy_zero (dst src : Bytes) (dstOff srcOff : Nat) :
    memcpy dst dstOff src srcOff 0 = dst := by
  funext i
  exact memcpy_outside dst src (by omega)

/-- One byte more. -/
theorem memcpy_succ (dst src : Bytes) (n : Nat) :
    memcpy dst 0 src 0 (n + 1) =
      Function.update (memcpy dst 0 src 0 n) n (src n) := by
  funext i
  rcases Nat.lt_trichotomy i n with hlt | rfl | hgt
  · rw [Function.update_of_ne hlt.ne]
    simp [memcpy, hlt, Nat.lt_succ_of_lt hlt]
  · simp [memcpy]
  · rw [Function.update_of_ne hgt.ne', memcpy_outside _ _ (by omega),
      memcpy_outside _ _ (by omega)]

/-- The bytes just copied. -/
theorem slice_memcpy (dst src : Bytes) (dstOff srcOff n : Nat) :
    slice (memcpy dst dstOff src srcOff n) dstOff n = slice src srcOff n := by
  rw [slice_eq_slice_iff]
  intro i hi
  exact memcpy_inside dst src hi

/-- A copy to the front of a region leaves what is behind it. -/
theorem slice_memcpy_add (dst src : Bytes) (a b : Nat) :
    slice (memcpy dst 0 src 0 a) 0 (a + b) = slice src 0 a ++ slice dst a b := by
  have hkept : slice (memcpy dst 0 src 0 a) (0 + a) b = slice dst a b := by
    rw [slice_eq_slice_iff]
    intro i _
    rw [Nat.zero_add]
    exact memcpy_outside dst src (by omega)
  rw [slice_add, slice_memcpy, hkept]

/-- Store a list of bytes at the start of a region. -/
def storeList (m : Bytes) (l : List UInt8) : Bytes := fun i => l.getD i (m i)

theorem slice_storeList_of_le (m : Bytes) {l : List UInt8} {n : Nat}
    (h : n ≤ l.length) : slice (storeList m l) 0 n = l.take n := by
  apply List.ext_getElem
  · simp [h]
  · intro i hi _
    have hlt : i < l.length := by
      rw [length_slice] at hi
      omega
    simp [slice, storeList, List.getElem?_eq_getElem hlt]

@[simp] theorem slice_storeList (m : Bytes) (l : List UInt8) :
    slice (storeList m l) 0 l.length = l := by
  rw [slice_storeList_of_le m (le_refl l.length), List.take_length]

theorem take_slice (m : Bytes) {off n k : Nat} (h : k ≤ n) :
    (slice m off n).take k = slice m off k := by
  obtain ⟨d, rfl⟩ := Nat.exists_eq_add_of_le h
  rw [slice_add, List.take_left' (length_slice m off k)]

/-- A list stored over a region that starts with another leaves the other there
if the two agree as far as both go. -/
theorem slice_storeList_eq_iff {m : Bytes} {l xs : List UInt8}
    (h : slice m 0 xs.length = xs) :
    slice (storeList m l) 0 xs.length = xs ↔ xs.take l.length <+: l := by
  have hbyte : ∀ i (hi : i < xs.length), m i = xs[i] := by
    intro i hi
    have hget : (slice m 0 xs.length)[i]? = xs[i]? := congrArg (·[i]?) h
    simpa [slice, hi] using hget
  rw [List.prefix_iff_getElem, List.ext_getElem_iff]
  simp only [length_slice, List.length_take, List.getElem_take, true_and,
    exists_true_left, Nat.min_le_left, lt_min_iff]
  constructor
  · rintro hall i ⟨hil, hixs⟩
    have hi := hall i hixs hixs
    simp only [slice, storeList, List.getElem_map, List.getElem_range,
      Nat.zero_add, List.getD_eq_getElem?_getD,
      List.getElem?_eq_getElem hil, Option.getD_some] at hi
    exact hi.symm
  · intro hall i hixs _
    simp only [slice, storeList, List.getElem_map, List.getElem_range,
      Nat.zero_add, List.getD_eq_getElem?_getD]
    by_cases hil : i < l.length
    · rw [List.getElem?_eq_getElem hil, Option.getD_some]
      exact (hall i ⟨hil, hixs⟩).symm
    · rw [List.getElem?_eq_none (by omega), Option.getD_none]
      exact hbyte i hixs

/-- A byte stored past a range leaves the range alone. -/
theorem slice_update_of_le (m : Bytes) (b : UInt8) {n i : Nat} (h : n ≤ i) :
    slice (Function.update m i b) 0 n = slice m 0 n := by
  rw [slice_eq_slice_iff]
  intro j hj
  exact Function.update_of_ne (by omega) _ _

/-- The offsets in a range that hold a given byte. -/
def occurrences (m : Bytes) (b : UInt8) (off n : Nat) : Finset Nat :=
  (Finset.Ico off (off + n)).filter fun i => m i = b

/-- A copy of `n` bytes puts a given byte at `n` more offsets at most. -/
theorem card_occurrences_memcpy_le (dst src : Bytes) (b : UInt8)
    (dstOff srcOff k off n : Nat) :
    (occurrences (memcpy dst dstOff src srcOff k) b off n).card ≤
      (occurrences dst b off n).card + k := by
  have hsub : occurrences (memcpy dst dstOff src srcOff k) b off n ⊆
      occurrences dst b off n ∪ Finset.Ico dstOff (dstOff + k) := by
    intro i hi
    simp only [occurrences, Finset.mem_filter, Finset.mem_union,
      Finset.mem_Ico] at hi ⊢
    by_cases hin : dstOff ≤ i ∧ i < dstOff + k
    · exact Or.inr hin
    · rw [memcpy_outside dst src (by omega)] at hi
      exact Or.inl hi
  calc
    (occurrences (memcpy dst dstOff src srcOff k) b off n).card ≤
        (occurrences dst b off n ∪ Finset.Ico dstOff (dstOff + k)).card :=
      Finset.card_le_card hsub
    _ ≤ (occurrences dst b off n).card +
        (Finset.Ico dstOff (dstOff + k)).card := Finset.card_union_le _ _
    _ = (occurrences dst b off n).card + k := by simp

/-- A range that holds one byte throughout has it at every offset. -/
theorem card_occurrences_eq {m : Bytes} {b : UInt8} {off n : Nat}
    (h : ∀ i < n, m (off + i) = b) : (occurrences m b off n).card = n := by
  have hall : occurrences m b off n = Finset.Ico off (off + n) := by
    apply Finset.filter_true_of_mem
    intro i hi
    obtain ⟨hlo, hhi⟩ := Finset.mem_Ico.mp hi
    have := h (i - off) (by omega)
    rwa [Nat.add_sub_cancel' hlo] at this
  simp [hall]

/-- A range that nowhere holds a byte has no occurrence of it. -/
theorem card_occurrences_eq_zero {m : Bytes} {b : UInt8}
    (h : ∀ i, m i ≠ b) (off n : Nat) : (occurrences m b off n).card = 0 := by
  simp [occurrences, h]

end Bytes
end Lib
end KernelDrivers
