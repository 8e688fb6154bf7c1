import Mathlib.Data.Nat.Digits.Lemmas
import Mathlib.Data.UInt

/-!
# Decimal texts

The decimal text of a number in ASCII, the value of a string of digits, and
the number that a scan with `%d` reads: after white space an optional minus
sign and the digits in front, as a 32-bit `int`; a plus sign is none to the
kernel's `sscanf`.  The digits themselves are Mathlib's `Nat.digits`, least
significant first.
-/

namespace KernelDrivers
namespace Lib
namespace Decimal

/-- `'\\n'`. -/
def newline : UInt8 := 10

def isDigit (b : UInt8) : Bool := 48 ≤ b && b ≤ 57

/-- `isspace`. -/
def isSpace (b : UInt8) : Bool := b == 32 || (9 ≤ b && b ≤ 13)

def digit (d : Nat) : UInt8 := UInt8.ofNat (48 + d)

/-- The text of a natural number. -/
def ofNat (n : Nat) : List UInt8 :=
  if n = 0 then [digit 0] else (Nat.digits 10 n).reverse.map digit

/-- The text of an integer, with a minus sign where it is negative. -/
def ofInt (z : Int) : List UInt8 :=
  if z < 0 then 45 :: ofNat z.natAbs else ofNat z.natAbs

/-- The value of a string of digits, read from the left. -/
def value (ds : List UInt8) : Nat :=
  ds.foldl (fun n d => 10 * n + (d.toNat - 48)) 0

/-- The sign in front, and what follows. -/
def sign (text : List UInt8) : Bool × List UInt8 :=
  if text.head? = some 45 then (true, text.tail) else (false, text)

/-- What `sscanf` with `%d` stores, if anything. -/
def scan (text : List UInt8) : Option Int32 :=
  let (negative, rest) := sign (text.dropWhile isSpace)
  let ds := rest.takeWhile isDigit
  if ds = [] then none
  else some (Int32.ofInt (if negative then -(value ds : Int) else value ds))

/-! ## Digits -/

theorem toNat_digit {d : Nat} (h : d < 10) : (digit d).toNat = 48 + d := by
  show (48 + d) % 2 ^ 8 = 48 + d
  omega

theorem isDigit_digit {d : Nat} (h : d < 10) : isDigit (digit d) = true := by
  unfold isDigit
  rw [Bool.and_eq_true, decide_eq_true_eq, decide_eq_true_eq,
    UInt8.le_iff_toNat_le, UInt8.le_iff_toNat_le, toNat_digit h]
  constructor
  · show 48 ≤ 48 + d
    omega
  · show 48 + d ≤ 57
    omega

theorem toNat_of_isDigit {b : UInt8} (h : isDigit b = true) :
    48 ≤ b.toNat ∧ b.toNat ≤ 57 := by
  unfold isDigit at h
  rw [Bool.and_eq_true, decide_eq_true_eq, decide_eq_true_eq,
    UInt8.le_iff_toNat_le, UInt8.le_iff_toNat_le] at h
  exact h

/-- A digit is neither white space nor a sign. -/
theorem plain_of_isDigit {b : UInt8} (h : isDigit b = true) :
    isSpace b = false ∧ b ≠ 45 := by
  obtain ⟨hlow, -⟩ := toNat_of_isDigit h
  constructor
  · by_contra hspace
    unfold isSpace at hspace
    rw [Bool.not_eq_false, Bool.or_eq_true, beq_iff_eq, Bool.and_eq_true,
      decide_eq_true_eq, decide_eq_true_eq, UInt8.le_iff_toNat_le,
      UInt8.le_iff_toNat_le] at hspace
    rcases hspace with rfl | ⟨-, hle⟩
    · exact absurd hlow (by decide)
    · have hle' : b.toNat ≤ 13 := hle
      omega
  · rintro rfl
    exact absurd hlow (by decide)

/-! ## Values -/

theorem value_eq_ofDigits (ds : List UInt8) :
    value ds = Nat.ofDigits 10 (ds.map fun d => d.toNat - 48).reverse := by
  induction ds using List.reverseRecOn with
  | nil => rfl
  | append_singleton ds d ih =>
      unfold value at *
      rw [List.foldl_append, List.foldl_cons, List.foldl_nil, ih,
        List.map_append, List.reverse_append]
      show _ = Nat.ofDigits 10
        ((d.toNat - 48) :: (ds.map fun d => d.toNat - 48).reverse)
      rw [Nat.ofDigits_cons]
      omega

theorem value_lt {ds : List UInt8} (h : ∀ d ∈ ds, isDigit d = true) :
    value ds < 10 ^ ds.length := by
  rw [value_eq_ofDigits]
  have hlt := Nat.ofDigits_lt_base_pow_length (b := 10)
    (l := (ds.map fun d => d.toNat - 48).reverse) (by decide) (by
      intro x hx
      obtain ⟨d, hd, rfl⟩ := List.mem_map.mp (List.mem_reverse.mp hx)
      have hle := (toNat_of_isDigit (h d hd)).2
      omega)
  simpa using hlt

theorem isDigit_ofNat (n : Nat) : ∀ b ∈ ofNat n, isDigit b = true := by
  unfold ofNat
  intro b hb
  split_ifs at hb with hzero
  · cases List.mem_singleton.mp hb
    exact isDigit_digit (by decide)
  · obtain ⟨d, hd, rfl⟩ := List.mem_map.mp hb
    exact isDigit_digit (Nat.digits_lt_base (by decide) (List.mem_reverse.mp hd))

theorem value_ofNat (n : Nat) : value (ofNat n) = n := by
  rw [value_eq_ofDigits]
  unfold ofNat
  split_ifs with hzero
  · rw [hzero]
    rfl
  · have hdigits : ((Nat.digits 10 n).reverse.map digit).map
        (fun d => d.toNat - 48) = (Nat.digits 10 n).reverse := by
      rw [List.map_map]
      refine (List.map_congr_left fun d hd => ?_).trans (List.map_id _)
      have hlt := Nat.digits_lt_base (by decide) (List.mem_reverse.mp hd)
      show (digit d).toNat - 48 = d
      rw [toNat_digit hlt]
      omega
    rw [hdigits, List.reverse_reverse, Nat.ofDigits_digits]

theorem length_ofNat_le_iff {k : Nat} (n : Nat) (hk : 0 < k) :
    (ofNat n).length ≤ k ↔ n < 10 ^ k := by
  unfold ofNat
  split_ifs with hzero
  · rw [hzero]
    exact iff_of_true hk (Nat.pow_pos (by decide))
  · rw [List.length_map, List.length_reverse]
    exact Nat.digits_length_le_iff (by decide) n

theorem length_ofNat_pos (n : Nat) : 0 < (ofNat n).length := by
  unfold ofNat
  split_ifs with hzero
  · exact Nat.one_pos
  · rw [List.length_map, List.length_reverse]
    exact List.length_pos_iff.mpr (Nat.digits_ne_nil_iff_ne_zero.mpr hzero)

theorem length_ofInt_le_iff {k : Nat} (z : Int) (hk : 1 < k) :
    (ofInt z).length ≤ k ↔ -(10 ^ (k - 1) : Nat) < z ∧ z < (10 ^ k : Nat) := by
  have hpos : 0 < 10 ^ k := Nat.pow_pos (by decide)
  have hpos' : 0 < 10 ^ (k - 1) := Nat.pow_pos (by decide)
  unfold ofInt
  split_ifs with hneg
  · rw [List.length_cons, ← Nat.le_sub_iff_add_le (by omega),
      length_ofNat_le_iff _ (by omega)]
    omega
  · rw [length_ofNat_le_iff _ (by omega)]
    omega

/-- There is no NUL in the text of a number. -/
theorem ofInt_ne_zero (z : Int) : ∀ b ∈ ofInt z, b ≠ 0 := by
  have hdigit : ∀ b ∈ ofNat z.natAbs, b ≠ 0 := by
    rintro b hb rfl
    exact absurd (isDigit_ofNat _ 0 hb) (by decide)
  unfold ofInt
  split_ifs
  · exact List.forall_mem_cons.mpr ⟨by decide, hdigit⟩
  · exact hdigit

/-- Behind its first byte the text of a number is all digits. -/
theorem isDigit_of_mem_drop {k : Nat} (z : Int) (hk : 0 < k) :
    ∀ b ∈ (ofInt z).drop k, isDigit b = true := by
  intro b hb
  unfold ofInt at hb
  split_ifs at hb
  · obtain ⟨k, rfl⟩ := Nat.exists_eq_add_of_lt hk
    rw [List.drop_succ_cons] at hb
    exact isDigit_ofNat _ b (List.mem_of_mem_drop hb)
  · exact isDigit_ofNat _ b (List.mem_of_mem_drop hb)

/-! ## Scanning -/

theorem takeWhile_digits {ds : List UInt8} (h : ∀ d ∈ ds, isDigit d = true) :
    (ds ++ [newline]).takeWhile isDigit = ds := by
  rw [List.takeWhile_append_of_pos h]
  simp [newline, isDigit]

/-- The first byte of a line of digits is neither skipped nor a sign. -/
theorem sign_digits {ds : List UInt8} (h : ∀ d ∈ ds, isDigit d = true)
    (hne : ds ≠ []) :
    sign ((ds ++ [newline]).dropWhile isSpace) = (false, ds ++ [newline]) := by
  obtain ⟨d, ds, rfl⟩ := List.exists_cons_of_ne_nil hne
  obtain ⟨hspace, hminus⟩ := plain_of_isDigit (h d (by simp))
  rw [List.cons_append, List.dropWhile_cons_of_neg (by simp [hspace])]
  simp [sign, hminus]

theorem scan_digits {ds : List UInt8} (h : ∀ d ∈ ds, isDigit d = true)
    (hne : ds ≠ []) :
    scan (ds ++ [newline]) = some (Int32.ofInt (value ds)) := by
  unfold scan
  rw [sign_digits h hne]
  simp only [takeWhile_digits h, if_neg hne]
  simp

theorem scan_newline : scan [newline] = none := by decide

/-- A scan reads back the text of a number. -/
theorem scan_ofInt (z : Int) :
    scan (ofInt z ++ [newline]) = some (Int32.ofInt z) := by
  have hdigits := isDigit_ofNat z.natAbs
  have hne := List.ne_nil_of_length_pos (length_ofNat_pos z.natAbs)
  unfold ofInt
  split_ifs with hneg
  · have hsign : sign ((45 :: ofNat z.natAbs ++ [newline]).dropWhile isSpace) =
        (true, ofNat z.natAbs ++ [newline]) := by
      rw [List.cons_append, List.dropWhile_cons_of_neg (by decide)]
      rfl
    unfold scan
    rw [hsign]
    simp only [takeWhile_digits hdigits, if_neg hne, value_ofNat, if_true]
    congr 2
    omega
  · rw [scan_digits hdigits hne, value_ofNat]
    congr 2
    omega

end Decimal
end Lib
end KernelDrivers
