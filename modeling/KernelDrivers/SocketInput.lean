import KernelDrivers.Lib.Bytes
import KernelDrivers.SocketTCP

/-!
# The buffers of the socket programs

`func` of `tcpserv1.c` and of `tcpclient1.c` reads a line by
`while ((buff[n++] = getchar()) != '\n')`, which tests for a newline only: the
`int` of `getchar` becomes a `char`, so that the end of the input is the byte
255.  `main` of `udpserv1.c` and of `udpclient1.c` stores a NUL at the index that
`recvfrom` returned.

Memory goes on before and behind a buffer, and a store at any index reaches it.
-/

namespace KernelDrivers
namespace SocketInput

open Lib Decimal SocketTCP

/-! ## The line loop -/

/-- What `getchar` returns: a character, or `EOF`. -/
inductive Key where
  | char (c : UInt8)
  | eof
  deriving DecidableEq

/-- The `int` of `getchar`. -/
def Key.getchar : Key → Int
  | .char c => c.toNat
  | .eof => -1

/-- That `int` in a `char`. -/
def Key.stored (key : Key) : UInt8 := UInt8.ofInt key.getchar

/-- Before or after a round of the loop. -/
structure Loop where
  /-- The memory from `buff` on. -/
  buff : Bytes
  n : Nat
  /-- The indices that were stored at. -/
  indices : List Nat
  done : Bool

/-- `n = 0`. -/
def Loop.start (buff : Bytes) : Loop := ⟨buff, 0, [], false⟩

/-- `(buff[n++] = getchar()) != '\n'`, with the `n`-th key. -/
def Loop.round (stdin : Nat → Key) (s : Loop) : Loop where
  buff := Function.update s.buff s.n (stdin s.n).stored
  n := s.n + 1
  indices := s.indices ++ [s.n]
  done := (stdin s.n).stored = newline

/-- The loop for `k` rounds, or less when it ends before. -/
def rounds (stdin : Nat → Key) (buff : Bytes) : Nat → Loop
  | 0 => .start buff
  | k + 1 =>
      let s := rounds stdin buff k
      if s.done then s else s.round stdin

/-- A newline, or the end of the input. -/
def Key.Ends (key : Key) : Prop := key = .char newline ∨ key = .eof

/-- The first key that ends the line. -/
structure FirstEnd (stdin : Nat → Key) (k : Nat) : Prop where
  ends : (stdin k).Ends
  before : ∀ j < k, ¬ (stdin j).Ends

/-- The loop ends with the first newline or end of the input, and stores in the
buffer only. -/
structure LineInside (stdin : Nat → Key) (buff : Bytes) : Prop where
  terminates : ∀ k, FirstEnd stdin k →
    (rounds stdin buff (k + 1)).done = true ∧ (rounds stdin buff (k + 1)).n = k + 1
  inside : ∀ k, ∀ i ∈ (rounds stdin buff k).indices, i < maxLen

/-- A newline comes before the end of the input, among the first `MAX` keys. -/
def LineFits (stdin : Nat → Key) : Prop :=
  ∃ k < maxLen, FirstEnd stdin k ∧ stdin k = .char newline

variable {stdin : Nat → Key} {buff : Bytes} {k : Nat}

theorem stored_char (c : UInt8) : (Key.char c).stored = c := by
  have hc : (c.toNat : Int) < 2 ^ 8 := by exact_mod_cast c.toNat_lt
  rw [Key.stored, Key.getchar, UInt8.ofInt,
    Int.emod_eq_of_lt (Int.natCast_nonneg _) hc, Int.toNat_natCast, UInt8.ofNat_toNat]

/-- Only a newline is stored as one: the end of the input is stored as 255. -/
theorem stored_eq_newline_iff (key : Key) :
    key.stored = newline ↔ key = .char newline := by
  cases key with
  | char c => rw [stored_char, Key.char.injEq]
  | eof => exact ⟨fun h => absurd h (by decide), nofun⟩

/-- As long as no newline has come, the keys are stored one behind the other. -/
theorem rounds_eq (h : ∀ j < k, stdin j ≠ .char newline) :
    rounds stdin buff k =
      { buff := buff.memcpy 0 (fun i => (stdin i).stored) 0 k
        n := k
        indices := List.range k
        done := false } := by
  induction k with
  | zero => simp [rounds, Loop.start]
  | succ k ih =>
      have hkey : (stdin k).stored ≠ newline := fun hnew =>
        h k (Nat.lt_succ_self k) ((stored_eq_newline_iff _).mp hnew)
      rw [rounds, ih fun j hj => h j (Nat.lt_succ_of_lt hj), Bytes.memcpy_succ,
        List.range_succ]
      simp [Loop.round, hkey]

/-- The first newline ends the loop. -/
theorem rounds_newline (h : ∀ j < k, stdin j ≠ .char newline)
    (hk : stdin k = .char newline) :
    rounds stdin buff (k + 1) =
      { buff := buff.memcpy 0 (fun i => (stdin i).stored) 0 (k + 1)
        n := k + 1
        indices := List.range (k + 1)
        done := true } := by
  have hkey : (stdin k).stored = newline := (stored_eq_newline_iff _).mpr hk
  rw [rounds, rounds_eq h, Bytes.memcpy_succ, List.range_succ]
  simp [Loop.round, hkey]

/-- A loop that has ended stays as it is. -/
theorem rounds_of_done (h : (rounds stdin buff k).done = true) (m : Nat) :
    rounds stdin buff (k + m) = rounds stdin buff k := by
  induction m with
  | zero => rfl
  | succ m ih =>
      rw [← Nat.add_assoc, rounds, ih]
      exact if_pos h

/-- No round changes a byte at an index that is not stored at. -/
theorem rounds_frame {i : Nat} (h : i ∉ (rounds stdin buff k).indices) :
    (rounds stdin buff k).buff i = buff i := by
  induction k with
  | zero => rfl
  | succ k ih =>
      rw [rounds] at h ⊢
      split at h
      case isTrue hdone =>
        rw [if_pos hdone]
        exact ih h
      case isFalse hdone =>
        have hne : i ∉ (rounds stdin buff k).indices ∧ i ≠ (rounds stdin buff k).n := by
          simpa [Loop.round] using h
        rw [if_neg hdone, ← ih hne.1]
        exact Function.update_of_ne hne.2 _ _

theorem FirstEnd.eq {j : Nat} (hk : FirstEnd stdin k) (hj : FirstEnd stdin j) :
    k = j := by
  rcases Nat.lt_trichotomy k j with hlt | heq | hgt
  · exact absurd hk.ends (hj.before k hlt)
  · exact heq
  · exact absurd hj.ends (hk.before j hgt)

theorem FirstEnd.no_newline (h : FirstEnd stdin k) :
    ∀ j < k, stdin j ≠ .char newline :=
  fun j hj hnew => h.before j hj (Or.inl hnew)

theorem exists_firstEnd {j : Nat} (h : (stdin j).Ends) :
    ∃ k ≤ j, FirstEnd stdin k := by
  classical
  have hex : ∃ k, (stdin k).Ends := ⟨j, h⟩
  exact ⟨Nat.find hex, Nat.find_min' hex h, Nat.find_spec hex,
    fun i hi => Nat.find_min hex hi⟩

theorem LineFits.inside (h : LineFits stdin) (buff : Bytes) :
    LineInside stdin buff := by
  obtain ⟨k, hk, hfirst, hnew⟩ := h
  have hend := @rounds_newline stdin buff k hfirst.no_newline hnew
  refine ⟨fun j hj => ?_, fun j i hi => ?_⟩
  · rw [← hfirst.eq hj, hend]
    exact ⟨rfl, rfl⟩
  · rcases Nat.lt_or_ge k j with hlt | hle
    · -- behind the newline nothing more is stored
      obtain ⟨m, rfl⟩ := Nat.exists_eq_add_of_le (Nat.succ_le_of_lt hlt)
      rw [rounds_of_done (by rw [hend]), hend, List.mem_range] at hi
      exact hi.trans_le hk
    · have hbefore : ∀ i < j, stdin i ≠ .char newline := fun i hi =>
        hfirst.no_newline i (hi.trans_le hle)
      rw [rounds_eq hbefore, List.mem_range] at hi
      exact hi.trans (hle.trans_lt hk)

/-- The buffer has room for `MAX` keys, and the loop stores one more when none of
them is a newline. -/
theorem LineInside.has_newline (h : LineInside stdin buff) :
    ∃ k < maxLen, stdin k = .char newline := by
  by_contra hnone
  have hbefore : ∀ j < maxLen, stdin j ≠ .char newline := fun j hj hnew =>
    hnone ⟨j, hj, hnew⟩
  have hlast : maxLen ∈ (rounds stdin buff (maxLen + 1)).indices := by
    rw [rounds, rounds_eq hbefore]
    simp [Loop.round]
  exact Nat.lt_irrefl _ (h.inside _ _ hlast)

theorem lineInside_iff (stdin : Nat → Key) (buff : Bytes) :
    LineInside stdin buff ↔ LineFits stdin := by
  refine ⟨fun h => ?_, fun h => h.inside buff⟩
  obtain ⟨j, hj, hnew⟩ := h.has_newline
  obtain ⟨k, hkj, hfirst⟩ := exists_firstEnd (Or.inl hnew)
  refine ⟨k, hkj.trans_lt hj, hfirst, hfirst.ends.resolve_right fun heof => ?_⟩
  -- The loop goes on behind the end of the input.
  have hgoes : ∀ i < k + 1, stdin i ≠ .char newline := by
    intro i hi hi'
    rcases Nat.lt_succ_iff_lt_or_eq.mp hi with hlt | rfl
    · exact hfirst.no_newline i hlt hi'
    · exact absurd (hi'.symm.trans heof) nofun
  have hdone := (h.terminates k hfirst).1
  rw [rounds_eq hgoes] at hdone
  exact absurd hdone Bool.false_ne_true

/-- What is behind the buffer is left alone. -/
theorem LineInside.behind (h : LineInside stdin buff) (k : Nat) {i : Nat}
    (hi : maxLen ≤ i) : (rounds stdin buff k).buff i = buff i :=
  rounds_frame fun hmem => absurd (h.inside k i hmem) (Nat.not_lt.mpr hi)

/-- A typed line leaves its message in the cleared buffer. -/
theorem rounds_line (l : Line)
    (htyped : ∀ i (hi : i < l.bytes.length), stdin i = .char l.bytes[i])
    (hclear : buff.slice 0 maxLen = bzero) :
    (rounds stdin buff l.bytes.length).done = true ∧
      (rounds stdin buff l.bytes.length).buff.slice 0 maxLen = l.message := by
  have hlength : l.bytes.length = l.body.length + 1 := List.length_append
  have hbody : ∀ j < l.body.length, stdin j ≠ .char newline := by
    intro j hj hnew
    have hget : l.bytes[j] = l.body[j] := List.getElem_append_left hj
    rw [htyped j (by omega), hget, Key.char.injEq] at hnew
    exact l.noNewline (hnew ▸ List.getElem_mem hj)
  have hlast : stdin l.body.length = .char newline := by
    rw [htyped _ (by omega)]
    simp [Line.bytes]
  have hend := @rounds_newline stdin buff _ hbody hlast
  obtain ⟨rest, hrest⟩ : ∃ rest, maxLen = l.bytes.length + rest :=
    Nat.exists_eq_add_of_le (length_bytes l).2.le
  have hfront : Bytes.slice (fun i => (stdin i).stored) 0 l.bytes.length = l.bytes := by
    apply List.ext_getElem (Bytes.length_slice ..)
    intro i _ hi
    simp [Bytes.slice, htyped i hi, stored_char]
  -- what the line does not reach is still clear
  have hback : buff.slice l.bytes.length rest = List.replicate rest 0 := by
    have hdrop := congrArg (List.drop l.bytes.length) hclear
    rw [hrest, Bytes.slice_add, List.drop_left' (Bytes.length_slice ..), bzero, hrest,
      List.drop_replicate, Nat.add_sub_cancel_left, Nat.zero_add] at hdrop
    exact hdrop
  rw [← hlength] at hend
  rw [hend, message_eq, hrest, Nat.add_sub_cancel_left, Bytes.slice_memcpy_add,
    hfront, hback]
  exact ⟨rfl, rfl⟩

/-! ## The datagram -/

/-- `MAXLINE`. -/
def maxLine : Nat := 1024

/-- The memory around `buffer`, by the distance from its first byte. -/
abbrev Memory := Int → UInt8

/-- `recvfrom(sockfd, buffer, MAXLINE, ...)`, for a datagram or a failure: as much
of the datagram as there is room for, and the number of its bytes. -/
def recvfrom (buffer : Memory) : Option (List UInt8) → Int × Memory
  | none => (-1, buffer)
  | some datagram =>
      let got := datagram.take maxLine
      (got.length, fun i => if 0 ≤ i then got.getD i.toNat (buffer i) else buffer i)

/-- `n = recvfrom(...)` and `buffer[n] = '\0'`. -/
def receive (buffer : Memory) (datagram : Option (List UInt8)) : Int × Memory :=
  let (n, buffer) := recvfrom buffer datagram
  (n, Function.update buffer n 0)

/-- The NUL is stored in the buffer. -/
def TerminatorInside (buffer : Memory) (datagram : Option (List UInt8)) : Prop :=
  0 ≤ (receive buffer datagram).1 ∧ (receive buffer datagram).1 < maxLine

/-- A datagram has come, and is shorter than the buffer. -/
def DatagramFits : Option (List UInt8) → Prop
  | none => False
  | some datagram => datagram.length < maxLine

variable {buffer : Memory} {bytes : List UInt8}

theorem terminatorInside_iff (buffer : Memory) (datagram : Option (List UInt8)) :
    TerminatorInside buffer datagram ↔ DatagramFits datagram := by
  cases datagram with
  | none => exact ⟨fun h => absurd h.1 (by decide : ¬ (0 : Int) ≤ -1), nofun⟩
  | some bytes =>
      have hindex : (receive buffer (some bytes)).1 = (min maxLine bytes.length : Nat) :=
        congrArg Int.ofNat List.length_take
      rw [TerminatorInside, DatagramFits, hindex]
      omega

/-- `recvfrom` stores in the buffer only. -/
theorem recvfrom_outside (datagram : Option (List UInt8)) {i : Int}
    (h : i < 0 ∨ maxLine ≤ i) : (recvfrom buffer datagram).2 i = buffer i := by
  cases datagram with
  | none => rfl
  | some bytes =>
      rcases h with hneg | hge
      · exact if_neg (by omega)
      · have hlength : (bytes.take maxLine).length ≤ i.toNat := by
          rw [List.length_take]
          omega
        have hbeyond : (bytes.take maxLine)[i.toNat]? = none :=
          List.getElem?_eq_none hlength
        simp [recvfrom, List.getD_eq_getElem?_getD, hbeyond]

/-- Around the buffer a byte changes only where the NUL goes. -/
theorem receive_outside (datagram : Option (List UInt8)) {i : Int}
    (h : i < 0 ∨ maxLine ≤ i) :
    (receive buffer datagram).2 i =
      if i = (receive buffer datagram).1 then 0 else buffer i := by
  rw [← @recvfrom_outside buffer datagram i h]
  exact Function.update_apply ..

/-- A datagram that fits is in the buffer, with a NUL behind it. -/
theorem receive_inside (h : bytes.length < maxLine) :
    Bytes.slice (fun i => (receive buffer (some bytes)).2 i) 0 (bytes.length + 1) =
      bytes ++ [0] := by
  have hgot : bytes.take maxLine = bytes := List.take_of_length_le h.le
  have hbytes : Bytes.slice (fun i => (receive buffer (some bytes)).2 i) 0
      bytes.length = bytes := by
    apply List.ext_getElem (Bytes.length_slice ..)
    intro i _ hi
    simp [Bytes.slice, receive, recvfrom, hgot, hi, hi.ne]
  have hnul : (receive buffer (some bytes)).2 bytes.length = 0 := by
    simp [receive, recvfrom, hgot]
  rw [Bytes.slice_add, hbytes]
  simp [Bytes.slice, hnul]

/-- A line stays inside its buffer exactly when a newline comes among the first
`MAX` keys and before the end of the input, and the NUL behind a datagram exactly
when a datagram comes that leaves room for it. -/
theorem input_inside_iff (stdin : Nat → Key) (buff : Bytes)
    (datagram : Option (List UInt8)) (buffer : Memory) :
    (LineInside stdin buff ↔ LineFits stdin) ∧
      (TerminatorInside buffer datagram ↔ DatagramFits datagram) :=
  ⟨lineInside_iff stdin buff, terminatorInside_iff buffer datagram⟩

/-- The input has ended. -/
def noInput : Nat → Key := fun _ => .eof

/-- At the end of the input the loop goes on, and both a full datagram and a
failure put the NUL beside the buffer. -/
theorem end_of_input_overrun :
    ¬ LineInside noInput (fun _ => 0) ∧
      ¬ TerminatorInside (fun _ => 0) (some (List.replicate maxLine 120)) ∧
      ¬ TerminatorInside (fun _ => 0) none := by
  rw [lineInside_iff, terminatorInside_iff, terminatorInside_iff]
  refine ⟨?_, ?_, nofun⟩
  · rintro ⟨k, -, -, hnew⟩
    exact absurd hnew nofun
  · intro h
    rw [DatagramFits, List.length_replicate] at h
    exact Nat.lt_irrefl _ h

end SocketInput
end KernelDrivers
