import KernelDrivers.Errno
import KernelDrivers.Lib.Bytes
import KernelDrivers.Lib.CInt
import KernelDrivers.Lib.Conserve

/-!
# Reading from the bulk-in endpoint in `usbdrv4.c`

`testUsb1Read` hands out what an earlier read left in `in_buf`, or fetches one
packet into it, copies as much as was asked for and shifts the rest to the
front.  The mixed `int`/`size_t` arithmetic of the source is kept, and an
access outside the `in_buf_size` bytes of `in_buf` makes the call undefined,
which is `none`.  A read of the file never has a count above `MAX_RW_COUNT`.
-/

namespace KernelDrivers
namespace USB
namespace BulkRead

open Lib

/-- The fields of `struct test_usb1_device` that the read path uses.  The
buffer has the size of the endpoint's 16-bit `wMaxPacketSize`. -/
structure TestUsb1Device where
  inBufSize : Nat
  inBuf : Bytes
  inBufLeftOver : Int
  size_le : inBufSize ≤ 65535

/-- What `usb_bulk_msg` on the bulk-in endpoint may do: deliver a packet, or
fail with a negative number after it stored something in the buffer. -/
inductive BulkIn where
  | packet (bytes : List UInt8)
  | failed (retval : Int) (stored : List UInt8)
  deriving DecidableEq

/-- The transfer stays inside the buffer it was given. -/
def BulkIn.Fits (size : Nat) : BulkIn → Prop
  | .packet bytes => bytes.length ≤ size
  | .failed retval stored => retval < 0 ∧ stored.length ≤ size

/-- The first half of `test_usb1_read`: how many bytes of `in_buf` are at
hand, or the error to return. -/
def fetch (dev : TestUsb1Device) (bulk : BulkIn) :
    Except Int Int × TestUsb1Device :=
  if dev.inBufLeftOver ≠ 0 then
    (.ok dev.inBufLeftOver, { dev with inBufLeftOver := 0 })
  else
    match bulk with
    | .packet bytes =>
        (.ok bytes.length, { dev with inBuf := dev.inBuf.storeList bytes })
    | .failed retval stored =>
        let dev := { dev with inBuf := dev.inBuf.storeList stored }
        -- a failed transfer may have stored bytes, but nothing is at hand
        if retval ≠ -ETIMEDOUT then
          (.error retval, dev)
        else
          -- "Not really an error but no data available"
          (.ok 0, dev)

/-- `for (i = cnt; i < read_size; i++) in_buf[i - cnt] = in_buf[i]`, with the
number of iterations still to go. -/
def shiftLoop (size cnt : Nat) : Nat → Int → Bytes → Option Bytes
  | 0, _, buf => some buf
  | k + 1, i, buf =>
      let dst := CInt.sizeT (i - cnt)
      if 0 ≤ i ∧ i < size ∧ dst < size then
        shiftLoop size cnt k (i + 1) (Function.update buf dst (buf i.toNat))
      else
        none

/-- The second half of `test_usb1_read`, with `read_size` bytes at hand: the
return value, the bytes copied to user space and the device. -/
def deliver (dev : TestUsb1Device) (readSize : Int) (cnt : Nat)
    (fault : Bool) : Option (Int × List UInt8 × TestUsb1Device) :=
  let readCnt : Int :=
    if CInt.sizeT readSize ≤ cnt then readSize else CInt.int32 cnt
  if readCnt < 0 ∨ dev.inBufSize < readCnt then
    none
  else if fault then
    some (-EFAULT, [], { dev with inBufLeftOver := readSize })
  else
    let i := CInt.int32 cnt
    (shiftLoop dev.inBufSize cnt (readSize - i).toNat i dev.inBuf).map
      fun inBuf =>
        (readCnt, Bytes.slice dev.inBuf 0 readCnt.toNat,
          { dev with
            inBuf := inBuf
            inBufLeftOver :=
              if cnt < CInt.sizeT readSize then
                CInt.int32 (CInt.sizeT (readSize - cnt))
              else 0 })

/-- `test_usb1_read`. -/
def testUsb1Read (dev : TestUsb1Device) (cnt : Nat) (bulk : BulkIn)
    (fault : Bool) : Option (Int × List UInt8 × TestUsb1Device) :=
  match fetch dev bulk with
  | (.error retval, dev) => some (retval, [], dev)
  | (.ok readSize, dev) => deliver dev readSize cnt fault

/-- The end of `test_usb1_open`, once the session is its own. -/
def testUsb1Open (dev : TestUsb1Device) : TestUsb1Device :=
  { dev with inBufLeftOver := 0 }

/-- `MAX_RW_COUNT`: `INT_MAX & PAGE_MASK`. -/
def maxRwCount : Nat := 0x7ffff000

/-- One read and what its surroundings do.  `vfs_read` refuses a negative count
and cuts every other one to `MAX_RW_COUNT`. -/
structure ReadCall where
  count : Nat
  bulk : BulkIn
  fault : Bool
  count_le : count ≤ maxRwCount

/-- What a read shows: a packet taken from the device, and the return value
with the bytes the caller got. -/
inductive ReadEvent where
  | received (bytes : List UInt8)
  | returned (rv : Int) (bytes : List UInt8)
  deriving DecidableEq

/-- The packet that a call takes from the device: it asks for one only when
nothing is left over. -/
def packetOf (dev : TestUsb1Device) (call : ReadCall) : Option (List UInt8) :=
  if dev.inBufLeftOver ≠ 0 then
    none
  else
    match call.bulk with
    | .packet bytes => some bytes
    | .failed _ _ => none

/-- One open session: it starts with an open, and each call returns before the
next. -/
def session (dev : TestUsb1Device) : System TestUsb1Device ReadCall ReadEvent where
  init := testUsb1Open dev
  step := fun dev call =>
    (testUsb1Read dev call.count call.bulk call.fault).map
      fun (rv, bytes, dev') =>
        (dev', (packetOf dev call).toList.map .received ++ [.returned rv bytes])

/-- The packets received on one side, the bytes of the reads that returned a
non-negative value on the other, and the left-over bytes between them. -/
def stream : Channel TestUsb1Device ReadEvent UInt8 where
  put
    | .received bytes => bytes
    | .returned _ _ => []
  take
    | .received _ => []
    | .returned rv bytes => if 0 ≤ rv then bytes else []
  held := fun dev => Bytes.slice dev.inBuf 0 dev.inBufLeftOver.toNat

/-- A read that did not fail returns the number of bytes the caller got. -/
def ReadEvent.Counted : ReadEvent → Prop
  | .received _ => True
  | .returned rv bytes => 0 ≤ rv → rv = bytes.length

/-! ## One read -/

/-- The shift loop moves the `k` bytes from `cnt + j` on down by `cnt`: a byte
is read before the loop overwrites it. -/
theorem shiftLoop_eq (size cnt : Nat) (hsize : size ≤ 65535) (k j : Nat)
    (hfit : cnt + j + k ≤ size) (buf : Bytes) :
    shiftLoop size cnt k ((cnt + j : Nat) : Int) buf =
      some fun m => if j ≤ m ∧ m < j + k then buf (cnt + m) else buf m := by
  induction k generalizing j buf with
  | zero =>
      rw [shiftLoop]
      congr 1
      funext m
      rw [if_neg (by omega)]
  | succ k ih =>
      have hdst : CInt.sizeT (((cnt + j : Nat) : Int) - cnt) = j := by
        rw [CInt.sizeT_of_lt (by omega) (by omega)]
        omega
      have hok : 0 ≤ ((cnt + j : Nat) : Int) ∧
          ((cnt + j : Nat) : Int) < size ∧ j < size := by
        omega
      have hnext : ((cnt + j : Nat) : Int) + 1 = ((cnt + (j + 1) : Nat) : Int) := by
        omega
      rw [shiftLoop, hdst, if_pos hok, hnext, ih (j + 1) (by omega)]
      congr 1
      funext m
      rw [Int.toNat_natCast]
      by_cases hm : m = j
      · subst hm
        rw [if_neg (by omega), if_pos (by omega), Function.update_self]
      · by_cases hlater : j + 1 ≤ m ∧ m < j + 1 + k
        · rw [if_pos hlater, if_pos (by omega),
            Function.update_of_ne (by omega)]
        · rw [if_neg hlater, if_neg (by omega), Function.update_of_ne hm]

/-- `read_cnt` is the smaller of the two counts. -/
theorem readCnt_eq {r cnt : Nat} (hr : r ≤ 65535) (hcnt : cnt < 2 ^ 31) :
    (if CInt.sizeT (r : Int) ≤ cnt then (r : Int) else CInt.int32 cnt) =
      ((min r cnt : Nat) : Int) := by
  rw [CInt.sizeT_of_lt (by omega) (by omega),
    CInt.int32_of_lt (by omega) (by omega), Int.toNat_natCast]
  split_ifs <;> omega

/-- What is left over is what was not asked for. -/
theorem leftOver_eq {r cnt : Nat} (hr : r ≤ 65535) :
    (if cnt < CInt.sizeT (r : Int) then
        CInt.int32 (CInt.sizeT ((r : Int) - cnt)) else 0) =
      ((r - cnt : Nat) : Int) := by
  rw [CInt.sizeT_of_lt (by omega) (by omega), Int.toNat_natCast]
  split_ifs with hlt
  · rw [CInt.sizeT_of_lt (by omega) (by omega),
      CInt.int32_of_lt (by omega) (by omega)]
    omega
  · omega

/-- The whole shift loop: what was not asked for moves to the front. -/
theorem shiftLoop_from_cnt {size r cnt : Nat} (hsize : size ≤ 65535)
    (hr : r ≤ size) (buf : Bytes) :
    shiftLoop size cnt (r - cnt) (cnt : Int) buf =
      some fun m => if m < r - cnt then buf (cnt + m) else buf m := by
  by_cases hle : cnt ≤ r
  · simpa using shiftLoop_eq size cnt hsize (r - cnt) 0 (by omega) buf
  · have hzero : r - cnt = 0 := by omega
    simp [hzero, shiftLoop]

/-- What was asked for, followed by the front of the shifted buffer, is what was
at hand. -/
theorem slice_shifted (r cnt : Nat) (buf : Bytes) :
    Bytes.slice buf 0 r = Bytes.slice buf 0 (min r cnt) ++
      Bytes.slice (fun m => if m < r - cnt then buf (cnt + m) else buf m) 0
        (r - cnt) := by
  have hsplit : r = min r cnt + (r - cnt) := by omega
  have hrest : Bytes.slice buf (0 + min r cnt) (r - cnt) =
      Bytes.slice (fun m => if m < r - cnt then buf (cnt + m) else buf m) 0
        (r - cnt) := by
    rw [Bytes.slice_eq_slice_iff]
    intro i hi
    have hmin : min r cnt = cnt := by omega
    rw [Nat.zero_add, Nat.zero_add, if_pos hi, hmin]
  calc
    Bytes.slice buf 0 r = Bytes.slice buf 0 (min r cnt + (r - cnt)) := by
      rw [← hsplit]
    _ = Bytes.slice buf 0 (min r cnt) ++
        Bytes.slice buf (0 + min r cnt) (r - cnt) := Bytes.slice_add ..
    _ = _ := by rw [hrest]

/-- What `deliver` does with `r` bytes at hand: what the caller gets, followed
by what is left over, is what was at hand, and what it returns is the number of
bytes that the caller gets. -/
theorem deliver_spec (dev : TestUsb1Device) {r cnt : Nat}
    (hr : r ≤ dev.inBufSize) (hcnt : cnt < 2 ^ 31) (fault : Bool) :
    ∃ rv bytes dev', deliver dev r cnt fault = some (rv, bytes, dev') ∧
      dev'.inBufSize = dev.inBufSize ∧
      0 ≤ dev'.inBufLeftOver ∧ dev'.inBufLeftOver ≤ dev.inBufSize ∧
      (0 ≤ rv → rv = bytes.length) ∧
      Bytes.slice dev.inBuf 0 r = (if 0 ≤ rv then bytes else []) ++
        Bytes.slice dev'.inBuf 0 dev'.inBufLeftOver.toNat := by
  have hsize := dev.size_le
  have hr' : r ≤ 65535 := hr.trans hsize
  have hint : CInt.int32 (cnt : Int) = cnt :=
    CInt.int32_of_lt (by omega) (by exact_mod_cast hcnt)
  have hiter : ((r : Int) - cnt).toNat = r - cnt := by omega
  have hbounds : ¬ (((min r cnt : Nat) : Int) < 0 ∨
      (dev.inBufSize : Int) < ((min r cnt : Nat) : Int)) := by
    generalize dev.inBufSize = size at hr
    omega
  -- with the C arithmetic out of the way, one case for each exit
  unfold deliver
  simp only [readCnt_eq hr' hcnt]
  rw [if_neg hbounds]
  simp only [leftOver_eq hr', hint, hiter, shiftLoop_from_cnt hsize hr,
    Option.map_some]
  cases fault with
  | true =>
      -- the fault re-arms the left-over count, and nothing was moved
      refine ⟨-EFAULT, [], { dev with inBufLeftOver := r }, rfl, rfl,
        Int.natCast_nonneg r, Int.ofNat_le.mpr hr, by decide, ?_⟩
      simp
  | false =>
      refine ⟨_, _, _, rfl, rfl, Int.natCast_nonneg _, ?_, fun _ => ?_, ?_⟩
      · exact Int.ofNat_le.mpr ((Nat.sub_le r cnt).trans hr)
      · rw [Bytes.length_slice, Int.toNat_natCast]
      · rw [if_pos (Int.natCast_nonneg _), Int.toNat_natCast,
          Int.toNat_natCast]
        exact slice_shifted r cnt dev.inBuf

/-- The left-over count is a count of bytes of the buffer. -/
def LeftOverOk (dev : TestUsb1Device) : Prop :=
  0 ≤ dev.inBufLeftOver ∧ dev.inBufLeftOver ≤ dev.inBufSize

/-- A call whose transfer stays inside a buffer of the given size. -/
def ReadCall.Fits (size : Nat) (call : ReadCall) : Prop :=
  call.bulk.Fits size

/-- What `fetch` puts at hand: the left-over bytes, or else the packet it
takes from the device. -/
theorem fetch_spec {dev : TestUsb1Device} {call : ReadCall}
    (hleft : LeftOverOk dev) (hfits : call.Fits dev.inBufSize) :
    (∃ r dev', fetch dev call.bulk = (.ok ((r : Nat) : Int), dev') ∧
        dev'.inBufSize = dev.inBufSize ∧ r ≤ dev.inBufSize ∧
        Bytes.slice dev.inBuf 0 dev.inBufLeftOver.toNat ++
            (packetOf dev call).getD [] = Bytes.slice dev'.inBuf 0 r) ∨
      (∃ retval dev', fetch dev call.bulk = (.error retval, dev') ∧
        retval < 0 ∧ dev'.inBufSize = dev.inBufSize ∧ dev.inBufLeftOver = 0 ∧
        dev'.inBufLeftOver = 0 ∧ packetOf dev call = none) := by
  obtain ⟨hnonneg, hle⟩ := hleft
  obtain ⟨r, hr⟩ := Int.eq_ofNat_of_zero_le hnonneg
  unfold fetch
  by_cases hzero : dev.inBufLeftOver = 0
  · -- nothing is left over, so the device is asked
    have hno : ¬ dev.inBufLeftOver ≠ 0 := not_not.mpr hzero
    rw [if_neg hno]
    unfold packetOf
    rw [if_neg hno]
    unfold ReadCall.Fits at hfits
    cases hbulk : call.bulk with
    | packet bytes =>
        rw [hbulk] at hfits
        refine Or.inl ⟨bytes.length, _, rfl, rfl, hfits, ?_⟩
        simp [hzero]
    | failed retval stored =>
        by_cases htimeout : retval = -ETIMEDOUT
        · -- a timeout counts as no bytes
          refine Or.inl ⟨0, _, if_neg (not_not.mpr htimeout), rfl,
            Nat.zero_le _, ?_⟩
          simp [hzero]
        · rw [hbulk] at hfits
          exact Or.inr
            ⟨retval, _, if_pos htimeout, hfits.1, rfl, hzero, hzero, rfl⟩
  · refine Or.inl ⟨r, { dev with inBufLeftOver := 0 }, ?_, rfl, ?_, ?_⟩
    · rw [if_pos hzero, hr]
    · rw [hr] at hle
      exact Int.ofNat_le.mp hle
    · rw [packetOf, if_pos hzero, hr]
      simp

theorem puts_received (p : Option (List UInt8)) :
    stream.puts (p.toList.map .received) = p.getD [] := by
  cases p <;> simp [stream]

theorem takes_received (p : Option (List UInt8)) :
    stream.takes (p.toList.map .received) = [] := by
  cases p <;> simp [stream]

theorem counted_shown (p : Option (List UInt8)) {rv : Int}
    {bytes : List UInt8} (h : 0 ≤ rv → rv = bytes.length) :
    ∀ e ∈ p.toList.map ReadEvent.received ++ [.returned rv bytes],
      e.Counted := by
  intro e he
  rcases List.mem_append.mp he with hreceived | hreturned
  · obtain ⟨packet, -, rfl⟩ := List.mem_map.mp hreceived
    trivial
  · rw [List.mem_singleton.mp hreturned]
    exact h

/-- Every read from a proper state is defined, keeps the state proper, neither
loses, repeats nor reorders a byte, and returns how many it delivered. -/
theorem step_spec (dev₀ : TestUsb1Device) {dev : TestUsb1Device}
    {call : ReadCall} (hleft : LeftOverOk dev)
    (hfits : call.Fits dev.inBufSize) :
    ∃ dev' ev, (session dev₀).step dev call = some (dev', ev) ∧
      dev'.inBufSize = dev.inBufSize ∧ LeftOverOk dev' ∧
      stream.StepConserves dev ev dev' ∧ ∀ e ∈ ev, e.Counted := by
  -- a call shows its packet and its return value
  have hshow : ∀ rv bytes dev',
      testUsb1Read dev call.count call.bulk call.fault = some (rv, bytes, dev') →
      (session dev₀).step dev call = some (dev',
        (packetOf dev call).toList.map .received ++ [.returned rv bytes]) := by
    intro rv bytes dev' h
    simp [session, h]
  have hconserves : ∀ rv bytes (dev' : TestUsb1Device),
      stream.held dev ++ (packetOf dev call).getD [] =
        stream.take (.returned rv bytes) ++ stream.held dev' →
      stream.StepConserves dev
        ((packetOf dev call).toList.map .received ++ [.returned rv bytes])
        dev' := by
    intro rv bytes dev' h
    unfold Channel.StepConserves
    rw [stream.puts_append, stream.takes_append, puts_received,
      takes_received, stream.puts_singleton, stream.takes_singleton,
      List.nil_append, ← h]
    exact congrArg _ (List.append_nil _)
  rcases fetch_spec hleft hfits with
    ⟨r, mid, hfetch, hsize, hr, hheld⟩ |
    ⟨retval, mid, hfetch, hneg, hsize, hzero, hzero', hnone⟩
  · have hcnt : call.count < 2 ^ 31 := call.count_le.trans_lt (by decide)
    obtain ⟨rv, bytes, dev', hdeliver, hsize', hlo, hhi, hrv, hsplit⟩ :=
      deliver_spec mid (hsize ▸ hr) hcnt call.fault
    refine ⟨dev', _, hshow rv bytes dev' ?_, hsize'.trans hsize,
      ⟨hlo, hsize' ▸ hhi⟩, hconserves rv bytes dev' ?_,
      counted_shown _ hrv⟩
    · rw [testUsb1Read, hfetch]
      exact hdeliver
    · exact hheld.trans hsplit
  · refine ⟨mid, _, hshow retval [] mid ?_, hsize, ⟨by omega, by omega⟩,
      hconserves retval [] mid ?_, counted_shown _ fun hnonneg => ?_⟩
    · rw [testUsb1Read, hfetch]
    · simp [stream, hzero, hzero', hnone]
    · exact absurd hnonneg (Int.not_le.mpr hneg)

/-- In one open session, after any sequence of reads: the call was defined,
the bytes handed out by the successful reads followed by the left-over bytes
are the packets received, a read that did not fail returned how many bytes it
handed out, and the left-over count stays within the buffer. -/
theorem read_stream (dev₀ : TestUsb1Device) (calls : List ReadCall)
    (hfits : ∀ call ∈ calls, call.Fits dev₀.inBufSize) :
    ∃ dev tr, (session dev₀).run calls = some (dev, tr) ∧
      stream.Conserved dev tr ∧ (∀ e ∈ tr, e.Counted) ∧
      0 ≤ dev.inBufLeftOver ∧ dev.inBufLeftOver ≤ dev.inBufSize := by
  suffices h : ∃ dev tr, (session dev₀).run calls = some (dev, tr) ∧
      stream.Conserved dev tr ∧ (∀ e ∈ tr, e.Counted) ∧ LeftOverOk dev ∧
      dev.inBufSize = dev₀.inBufSize by
    obtain ⟨dev, tr, hrun, hcons, hcounted, hleft, -⟩ := h
    exact ⟨dev, tr, hrun, hcons, hcounted, hleft⟩
  induction calls using List.reverseRecOn with
  | nil =>
      refine ⟨testUsb1Open dev₀, [], rfl, rfl, nofun, ⟨le_refl _, ?_⟩, rfl⟩
      exact Int.natCast_nonneg _
  | append_singleton calls call ih =>
      obtain ⟨dev, tr, hrun, hcons, hcounted, hleft, hsize⟩ :=
        ih fun c hc => hfits c (List.mem_append_left _ hc)
      have hcall : call.Fits dev.inBufSize :=
        hsize ▸ hfits call (by simp)
      obtain ⟨dev', ev, hstep, hsize', hleft', hstepcons, hstepcounted⟩ :=
        step_spec dev₀ hleft hcall
      refine ⟨dev', tr ++ ev, (session dev₀).run_concat_of_step hrun hstep,
        (stream.conserved_append_iff hcons).mpr hstepcons, fun e he => ?_,
        hleft', hsize'.trans hsize⟩
      exact (List.mem_append.mp he).elim (hcounted e) (hstepcounted e)

/-- A device with an 8-byte packet size. -/
def smallDev : TestUsb1Device where
  inBufSize := 8
  inBuf := fun _ => 0
  inBufLeftOver := 3
  size_le := by decide

/-- A short read, a faulting one, a read of nothing, a timeout and an error in
one session. -/
theorem read_stream_smallDev :
    ∃ dev tr, (session smallDev).run
        [⟨2, .packet [1, 2, 3, 4, 5], false, by decide⟩,
          ⟨9, .packet [], true, by decide⟩,
          ⟨0, .packet [], false, by decide⟩,
          ⟨9, .packet [], false, by decide⟩,
          ⟨9, .failed (-ETIMEDOUT) [], false, by decide⟩,
          ⟨9, .failed (-EPIPE) [], false, by decide⟩] =
        some (dev, tr) ∧
      stream.Conserved dev tr ∧ (∀ e ∈ tr, e.Counted) ∧
      0 ≤ dev.inBufLeftOver ∧ dev.inBufLeftOver ≤ dev.inBufSize :=
  read_stream smallDev _ (by
    simp [ReadCall.Fits, BulkIn.Fits, smallDev, ETIMEDOUT, EPIPE])

end BulkRead
end USB
end KernelDrivers
