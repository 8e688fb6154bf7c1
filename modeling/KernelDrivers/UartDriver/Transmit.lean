import KernelDrivers.Lib.Bytes
import KernelDrivers.Lib.CInt
import KernelDrivers.Lib.Ring

/-!
# The transmit ring of `test_serial.c`

`test_tx_chars` takes characters from the front of the ring until it is empty
or half of `fifosize` is used up.  The loop tests this budget only behind its
body, so a budget of 0 still takes one character.
-/

namespace KernelDrivers
namespace UartDriver
namespace Transmit

open Lib CInt

/-- `struct circ_buf`. -/
structure CircBuf where
  buf : Bytes
  head : Int
  tail : Int

/-- `struct uart_port`, as far as transmitting reads it.  `tx` is
`icount.tx`. -/
structure UartPort where
  xmit : CircBuf
  xChar : UInt8
  fifosize : UInt32
  tx : UInt32

/-- What a call leaves and shows. -/
structure Outcome where
  port : UartPort
  /-- The characters that were written. -/
  wrote : List UInt8
  /-- `uart_write_wakeup` was called. -/
  wakeup : Bool

/-- `WAKEUP_CHARS`. -/
def wakeupChars : Nat := 256

-- `PAGE_SHIFT`, for a ring whose indices are `int`s
variable (pageShift : Fin 32)

/-- `UART_XMIT_SIZE`, a page. -/
def uartXmitSize : Nat := 2 ^ pageShift.val

/-- `uart_circ_empty`. -/
def CircBuf.Empty (xmit : CircBuf) : Prop := xmit.head = xmit.tail

instance (xmit : CircBuf) : Decidable xmit.Empty :=
  inferInstanceAs (Decidable ((_ : Int) = _))

/-- `uart_circ_chars_pending`. -/
def CircBuf.charsPending (xmit : CircBuf) : Nat :=
  sizeT (xmit.head - xmit.tail) &&& (uartXmitSize pageShift - 1)

/-- `xmit->tail = (xmit->tail + 1) & (UART_XMIT_SIZE - 1)`. -/
def CircBuf.take (xmit : CircBuf) : CircBuf :=
  { xmit with
    tail := int32 (sizeT (xmit.tail + 1) &&& (uartXmitSize pageShift - 1) : Nat) }

/-- The loop.  It returns when the fuel is at least the number of its
rounds. -/
def drain : Nat → Int → CircBuf → UInt32 → Option (CircBuf × UInt32 × List UInt8)
  | 0, _, _, _ => none
  | fuel + 1, count, xmit, tx =>
      let c := xmit.buf xmit.tail.toNat
      let xmit := xmit.take pageShift
      let tx := tx + 1
      if xmit.Empty then some (xmit, tx, [c])
      else if 0 < count - 1 then
        (drain fuel (count - 1) xmit tx).map fun (xmit, tx, cs) =>
          (xmit, tx, c :: cs)
      else some (xmit, tx, [c])

/-- `test_tx_chars`.  `test_stop_tx` does nothing. -/
def testTxChars (fuel : Nat) (port : UartPort) (stopped : Bool) :
    Option Outcome :=
  if port.xChar ≠ 0 then
    some ⟨{ port with tx := port.tx + 1, xChar := 0 }, [port.xChar], false⟩
  else if port.xmit.Empty ∨ stopped then some ⟨port, [], false⟩
  else
    let count : Int := (port.fifosize >>> 1).toNat
    (drain pageShift fuel count port.xmit port.tx).map fun (xmit, tx, cs) =>
      ⟨{ port with xmit := xmit, tx := tx }, cs,
        xmit.charsPending pageShift < wakeupChars⟩

/-! ## The ring as a queue -/

/-- Both indices are inside the ring. -/
structure InRange (xmit : CircBuf) : Prop where
  head_nonneg : 0 ≤ xmit.head
  head_lt : xmit.head < uartXmitSize pageShift
  tail_nonneg : 0 ≤ xmit.tail
  tail_lt : xmit.tail < uartXmitSize pageShift

/-- The number of characters from `tail` to `head`. -/
def pending (xmit : CircBuf) : Nat :=
  ((xmit.head - xmit.tail) % uartXmitSize pageShift).toNat

/-- The characters from `tail` to `head`. -/
def contents (xmit : CircBuf) : List UInt8 :=
  Ring.window xmit.buf (uartXmitSize pageShift) xmit.tail.toNat
    (pending pageShift xmit)

section

variable {pageShift} {xmit : CircBuf}

theorem size_pos : 0 < uartXmitSize pageShift := Nat.two_pow_pos _

theorem size_le : uartXmitSize pageShift ≤ 2 ^ 31 :=
  Nat.pow_le_pow_right (by decide) (by omega)

theorem mask_eq (x : Nat) :
    x &&& (uartXmitSize pageShift - 1) = x % uartXmitSize pageShift :=
  Nat.and_two_pow_sub_one_eq_mod ..

@[simp] theorem take_head : (xmit.take pageShift).head = xmit.head := by
  cases xmit
  rfl

@[simp] theorem take_buf : (xmit.take pageShift).buf = xmit.buf := by
  cases xmit
  rfl

/-- The masked index, which crosses the end of the ring once. -/
theorem take_tail (h : InRange pageShift xmit) :
    (xmit.take pageShift).tail = (xmit.tail + 1) % uartXmitSize pageShift := by
  have hsize : uartXmitSize pageShift ≤ 2 ^ 31 := size_le
  have hpos : 0 < uartXmitSize pageShift := size_pos
  obtain ⟨-, -, hnonneg, hlt⟩ := h
  show int32 (sizeT (xmit.tail + 1) &&& (uartXmitSize pageShift - 1) : Nat) = _
  rw [mask_eq, sizeT_of_lt (by omega) (by omega), Int.natCast_mod,
    Int.toNat_of_nonneg (by omega)]
  have hlow := Int.emod_nonneg (xmit.tail + 1)
    (b := (uartXmitSize pageShift : Int)) (by omega)
  have hhigh := Int.emod_lt_of_pos (xmit.tail + 1)
    (b := (uartXmitSize pageShift : Int)) (by omega)
  exact int32_of_lt hlow (by omega)

theorem inRange_take (h : InRange pageShift xmit) :
    InRange pageShift (xmit.take pageShift) := by
  have hpos : 0 < (uartXmitSize pageShift : Int) := by exact_mod_cast size_pos
  constructor
  · rw [take_head]
    exact h.head_nonneg
  · rw [take_head]
    exact h.head_lt
  · rw [take_tail h]
    exact Int.emod_nonneg _ hpos.ne'
  · rw [take_tail h]
    exact Int.emod_lt_of_pos _ hpos

/-- `CIRC_CNT`, in `unsigned long`, counts the characters in the ring. -/
theorem charsPending_eq (xmit : CircBuf) :
    xmit.charsPending pageShift = pending pageShift xmit := by
  have hdvd : (uartXmitSize pageShift : Int) ∣ 2 ^ 64 := by
    exact_mod_cast Nat.pow_dvd_pow 2 (by omega)
  unfold CircBuf.charsPending pending sizeT
  rw [mask_eq, ← Int.emod_emod_of_dvd _ hdvd]
  have hnonneg := Int.emod_nonneg (xmit.head - xmit.tail)
    (show (2 : Int) ^ 64 ≠ 0 by decide)
  rw [Int.toNat_emod hnonneg (by omega), Int.toNat_natCast]

theorem pending_eq (h : InRange pageShift xmit) :
    (pending pageShift xmit : Int) =
      if xmit.tail ≤ xmit.head then xmit.head - xmit.tail
      else xmit.head - xmit.tail + uartXmitSize pageShift := by
  obtain ⟨h₁, h₂, h₃, h₄⟩ := h
  unfold pending
  split_ifs with hle
  · rw [Int.emod_eq_of_lt (by omega) (by omega)]
    omega
  · rw [← Int.add_emod_right, Int.emod_eq_of_lt (by omega) (by omega)]
    omega

theorem empty_iff (h : InRange pageShift xmit) :
    xmit.Empty ↔ pending pageShift xmit = 0 := by
  have hcount := pending_eq h
  obtain ⟨h₁, h₂, h₃, h₄⟩ := h
  unfold CircBuf.Empty
  split_ifs at hcount <;> omega

/-- A character that is taken is no longer pending. -/
theorem pending_take (h : InRange pageShift xmit) (hne : ¬ xmit.Empty) :
    pending pageShift xmit = pending pageShift (xmit.take pageShift) + 1 := by
  have hbefore := pending_eq h
  have hafter := pending_eq (inRange_take h)
  rw [take_tail h, take_head] at hafter
  unfold CircBuf.Empty at hne
  obtain ⟨h₁, h₂, h₃, h₄⟩ := h
  rcases (show xmit.tail + 1 ≤ uartXmitSize pageShift by omega).lt_or_eq with hlt | hend
  · rw [Int.emod_eq_of_lt (by omega) hlt] at hafter
    split_ifs at hbefore hafter <;> omega
  · rw [hend, Int.emod_self] at hafter
    split_ifs at hbefore hafter <;> omega

/-- The ring without its first `k` characters. -/
def CircBuf.drop (pageShift : Fin 32) (xmit : CircBuf) (k : Nat) : CircBuf :=
  { xmit with tail := (xmit.tail + k) % uartXmitSize pageShift }

theorem drop_zero (h : InRange pageShift xmit) :
    xmit.drop pageShift 0 = xmit := by
  have hmod := Int.emod_eq_of_lt h.tail_nonneg h.tail_lt
  unfold CircBuf.drop
  rw [Int.natCast_zero, add_zero, hmod]

/-- Taking a character and dropping `k` more. -/
theorem drop_take (h : InRange pageShift xmit) (k : Nat) :
    (xmit.take pageShift).drop pageShift k = xmit.drop pageShift (k + 1) := by
  unfold CircBuf.drop
  rw [take_tail h, Int.emod_add_emod, take_buf, take_head]
  push_cast
  rw [add_assoc, add_comm (1 : Int)]

/-- The first character, and the characters behind it. -/
theorem window_take (h : InRange pageShift xmit) (k : Nat) :
    Ring.window xmit.buf (uartXmitSize pageShift) xmit.tail.toNat (k + 1) =
      xmit.buf xmit.tail.toNat ::
        Ring.window (xmit.take pageShift).buf (uartXmitSize pageShift)
          (xmit.take pageShift).tail.toNat k := by
  obtain ⟨-, -, hnonneg, hlt⟩ := id h
  have hfirst : xmit.tail.toNat % uartXmitSize pageShift = xmit.tail.toNat :=
    Nat.mod_eq_of_lt (by omega)
  have hnext : (xmit.take pageShift).tail.toNat =
      (xmit.tail.toNat + 1) % uartXmitSize pageShift := by
    rw [take_tail h, Int.toNat_emod (by omega) (by omega), Int.toNat_natCast,
      Int.toNat_add hnonneg (by decide), Int.toNat_one]
  rw [Ring.window_eq_cons, hfirst, hnext, Ring.window_mod_start, take_buf]

/-- The loop on a ring that is not empty takes as many characters as the ring
and the budget have, and one at least. -/
theorem drain_eq {fuel : Nat} {count : Int} {tx : UInt32}
    (h : InRange pageShift xmit) (hne : ¬ xmit.Empty) {k : Nat}
    (hk : k = min (pending pageShift xmit) (max 1 count.toNat))
    (hfuel : k ≤ fuel) :
    drain pageShift fuel count xmit tx =
      some (xmit.drop pageShift k, tx + UInt32.ofNat k,
        Ring.window xmit.buf (uartXmitSize pageShift) xmit.tail.toNat k) := by
  induction fuel generalizing count xmit tx k with
  | zero =>
      have hsome := mt (empty_iff h).mpr hne
      omega
  | succ fuel ih =>
      have hpending := pending_take h hne
      have hempty := empty_iff (inRange_take h)
      -- the rest of the loop takes the rest of the `k` characters
      obtain ⟨j, rfl⟩ : ∃ j, k = j + 1 := ⟨k - 1, by omega⟩
      rw [window_take h, ← drop_take h, Nat.add_comm j, UInt32.ofNat_add,
        ← UInt32.add_assoc]
      unfold drain
      by_cases hlast : (xmit.take pageShift).Empty
      · have hnone := hempty.mp hlast
        obtain rfl : j = 0 := by omega
        rw [if_pos hlast, drop_zero (inRange_take h)]
        simp
      · by_cases hcount : 0 < count - 1
        · rw [if_neg hlast, if_pos hcount, ih (inRange_take h) hlast (k := j)
            (by omega) (by omega)]
          rfl
        · obtain rfl : j = 0 := by omega
          rw [if_neg hlast, if_neg hcount, drop_zero (inRange_take h)]
          simp

end

/-- The number of characters that a call takes from the ring. -/
def taken (port : UartPort) (stopped : Bool) : Nat :=
  if port.xChar ≠ 0 ∨ port.xmit.Empty ∨ stopped then 0
  else min (pending pageShift port.xmit) (max 1 (port.fifosize.toNat / 2))

/-- A call has taken `k` characters from the front of the ring, in order, and
counted what it sent. -/
structure Drained (port : UartPort) (k : Nat) (out : Outcome) : Prop where
  xmit : out.port.xmit = { port.xmit with
    tail := (port.xmit.tail + k) % uartXmitSize pageShift }
  inRange : InRange pageShift out.port.xmit
  front : ∃ cs : List UInt8, cs.length = k ∧
    contents pageShift port.xmit = cs ++ contents pageShift out.port.xmit ∧
    out.wrote = if port.xChar = 0 then cs else [port.xChar]
  tx : out.port.tx = port.tx + UInt32.ofNat (if port.xChar = 0 then k else 1)
  xChar : out.port.xChar = 0
  wakeup : out.wakeup → pending pageShift out.port.xmit < wakeupChars

variable {pageShift}

/-- The characters in front of the rest. -/
theorem contents_drop {xmit : CircBuf} (h : InRange pageShift xmit) {k : Nat}
    (hk : k ≤ pending pageShift xmit) :
    InRange pageShift (xmit.drop pageShift k) ∧
      contents pageShift xmit =
        Ring.window xmit.buf (uartXmitSize pageShift) xmit.tail.toNat k ++
          contents pageShift (xmit.drop pageShift k) := by
  induction k generalizing xmit with
  | zero => exact ⟨by rwa [drop_zero h], by rw [drop_zero h]; rfl⟩
  | succ k ih =>
      have hne : ¬ xmit.Empty := fun hempty => by
        have := (empty_iff h).mp hempty
        omega
      have hpending := pending_take h hne
      obtain ⟨hrange, hrest⟩ := ih (inRange_take h) (by omega)
      rw [drop_take h] at hrange hrest
      refine ⟨hrange, ?_⟩
      rw [window_take h, List.cons_append, ← hrest]
      show Ring.window _ _ _ (pending pageShift xmit) = _
      rw [hpending, window_take h]
      rfl

/-- `count` starts at half of `fifosize`. -/
theorem budget_eq (fifosize : UInt32) :
    ((fifosize >>> 1).toNat : Int).toNat = fifosize.toNat / 2 := by
  rw [Int.toNat_natCast, UInt32.toNat_shiftRight]
  exact Nat.shiftRight_eq_div_pow ..

/-- What a call leaves that has taken the first `k` characters. -/
theorem drained_of_drop {port : UartPort} {k : Nat} {out : Outcome}
    (h : InRange pageShift port.xmit) (hk : k ≤ pending pageShift port.xmit)
    (hxmit : out.port.xmit = port.xmit.drop pageShift k)
    (hwrote : out.wrote = if port.xChar = 0 then
      Ring.window port.xmit.buf (uartXmitSize pageShift) port.xmit.tail.toNat k
      else [port.xChar])
    (htx : out.port.tx =
      port.tx + UInt32.ofNat (if port.xChar = 0 then k else 1))
    (hxChar : out.port.xChar = 0)
    (hwakeup : out.wakeup → pending pageShift out.port.xmit < wakeupChars) :
    Drained pageShift port k out := by
  obtain ⟨hrange, hfront⟩ := contents_drop h hk
  refine ⟨hxmit, ?_, ⟨_, Ring.length_window .., ?_, hwrote⟩, htx, hxChar, hwakeup⟩
  · rwa [hxmit]
  · rwa [hxmit]

/-- `test_tx_chars` returns after as many rounds as it takes characters, and
drains the ring. -/
theorem testTxChars_drains (port : UartPort) (stopped : Bool)
    (h : InRange pageShift port.xmit) (fuel : Nat)
    (hfuel : taken pageShift port stopped ≤ fuel) :
    ∃ out, testTxChars pageShift fuel port stopped = some out ∧
      Drained pageShift port (taken pageShift port stopped) out := by
  have hkept := (drop_zero h).symm
  unfold taken at hfuel ⊢
  unfold testTxChars
  by_cases hxChar : port.xChar = 0
  · by_cases hidle : port.xmit.Empty ∨ stopped = true
    · refine ⟨⟨port, [], false⟩, by simp [hxChar, hidle], ?_⟩
      rw [if_pos (.inr hidle)]
      exact drained_of_drop h (Nat.zero_le _) hkept (by simp [hxChar])
        (by simp [hxChar]) hxChar (by simp)
    · have hbusy : ¬ (port.xChar ≠ 0 ∨ port.xmit.Empty ∨ stopped = true) := by
        simp [hxChar, hidle]
      have hne : ¬ port.xmit.Empty := fun hempty => hidle (.inl hempty)
      rw [if_neg hbusy] at hfuel ⊢
      have hbudget := budget_eq port.fifosize
      have hdrain := @drain_eq _ _ _ ((port.fifosize >>> 1).toNat : Int) port.tx
        h hne _ (by rw [hbudget]) hfuel
      rw [if_neg (by simp [hxChar]), if_neg hidle]
      simp only [hdrain, Option.map_some]
      refine ⟨_, rfl, drained_of_drop h (by omega) rfl ?_ ?_ hxChar ?_⟩
      · rw [if_pos hxChar]
      · rw [if_pos hxChar]
      · intro hwakeup
        rw [← charsPending_eq]
        exact of_decide_eq_true hwakeup
  · refine ⟨⟨{ port with tx := port.tx + 1, xChar := 0 }, [port.xChar], false⟩,
      by simp [hxChar], ?_⟩
    rw [if_pos (.inl hxChar)]
    exact drained_of_drop h (Nat.zero_le _) hkept (by simp [hxChar])
      (by simp [hxChar]) rfl (by simp)

/-- Three characters across the end of a page of 4096, and a budget of two. -/
def crossing : UartPort where
  xmit := ⟨fun i => UInt8.ofNat i, 1, 4094⟩
  xChar := 0
  fifosize := 5
  tx := 0

theorem crossing_drained :
    InRange 12 crossing.xmit ∧
      ∃ out, testTxChars 12 2 crossing false = some out ∧
        Drained 12 crossing 2 out :=
  have hrange : InRange 12 crossing.xmit :=
    ⟨by decide, by decide, by decide, by decide⟩
  have htaken : taken 12 crossing false = 2 := by decide
  ⟨hrange, htaken ▸ testTxChars_drains crossing false hrange 2 htaken.le⟩

end Transmit
end UartDriver
end KernelDrivers
