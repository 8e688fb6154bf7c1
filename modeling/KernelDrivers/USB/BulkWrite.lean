import KernelDrivers.Lib.Pool
import KernelDrivers.Lib.System
import KernelDrivers.USB.BulkRead
import KernelDrivers.USB.Probe

/-!
# Writing to the bulk-out endpoint in `usbdrv4.c`

`test_usb1_write` sends the user's bytes in pieces of at most `out_buf_size`,
one bulk message after the other.  It leaves on the first copy or message that
fails, with the error and without a word about the messages before it.

The mixed `int`/`size_t` arithmetic of the source is kept.  The kernel passes
at most `MAX_RW_COUNT` bytes.
-/

namespace KernelDrivers
namespace USB
namespace BulkWrite

open Lib CInt BulkRead

/-- What `usb_bulk_msg` on the bulk-out endpoint may do: send the message, or
fail with a negative number when it has sent a part of it. -/
inductive BulkOut where
  | acked
  | failed (retval : { retval : Int // retval < 0 }) (sent : Nat)
  deriving DecidableEq

/-- What one round of the loop meets: whether the user's memory faults, and the
message. -/
structure Round where
  copyFaults : Bool
  bulk : BulkOut
  deriving DecidableEq

/-- What a call returns, and what the device got with each message. -/
structure Written where
  returned : Int
  messages : List (List UInt8)
  deriving DecidableEq

/-- `write_size = MIN(dev->out_buf_size, cnt - wrote_cnt)`. -/
def writeSize (outBufSize : UInt16) (cnt : Nat) (wroteCnt : Int) : Int :=
  let size := sizeT outBufSize.toNat
  let remaining := sizeT (cnt - wroteCnt)
  int32 (if size < remaining then size else remaining : Nat)

/-- The loop of `test_usb1_write`.  It does not get to its end when there are
fewer rounds than it takes.  A copy of no bytes does not touch the user's
memory. -/
def writeLoop (outBufSize : UInt16) (buf : List UInt8) :
    List Round → Int → Option Written
  | [], wroteCnt =>
      if sizeT wroteCnt < buf.length then none else some ⟨wroteCnt, []⟩
  | round :: rounds, wroteCnt =>
      if sizeT wroteCnt < buf.length then
        let size := writeSize outBufSize buf.length wroteCnt
        let outBuf := (buf.drop wroteCnt.toNat).take size.toNat
        if round.copyFaults ∧ size ≠ 0 then some ⟨-EFAULT, []⟩
        else
          match round.bulk with
          | .failed retval sent => some ⟨retval, [outBuf.take sent]⟩
          | .acked =>
              (writeLoop outBufSize buf rounds (wroteCnt + size)).map fun w =>
                { w with messages := outBuf :: w.messages }
      else some ⟨wroteCnt, []⟩

/-- `test_usb1_write`. -/
def testUsb1Write (outBufSize : UInt16) (buf : List UInt8)
    (rounds : List Round) : Option Written :=
  writeLoop outBufSize buf rounds 0

/-! ## One call -/

variable {outBufSize : UInt16} {buf : List UInt8} {round : Round}
  {rounds : List Round} {wrote : Nat}

/-- Nothing fails in the round. -/
def Round.Clean (outBufSize : UInt16) (round : Round) : Prop :=
  (round.copyFaults = true → outBufSize = 0) ∧ round.bulk = .acked

instance (outBufSize : UInt16) (round : Round) :
    Decidable (round.Clean outBufSize) :=
  inferInstanceAs (Decidable (_ ∧ _))

/-- How many bytes go out in a round that fails, as far as the piece has
them. -/
def Round.part (outBufSize : UInt16) (round : Round) : Nat :=
  if round.copyFaults ∧ outBufSize ≠ 0 then 0
  else
    match round.bulk with
    | .acked => 0
    | .failed _ sent => min sent outBufSize.toNat

/-- The number of rounds before the first that fails. -/
def cleanRounds (outBufSize : UInt16) (rounds : List Round) : Nat :=
  (rounds.takeWhile fun round => round.Clean outBufSize).length

/-- The piece of a round, without overflow. -/
theorem writeSize_eq (hlen : buf.length ≤ maxRwCount) (hlt : wrote < buf.length) :
    writeSize outBufSize buf.length wrote =
      (min outBufSize.toNat (buf.length - wrote) : Nat) := by
  have hsize := outBufSize.toNat_lt
  unfold maxRwCount at hlen
  unfold writeSize
  dsimp only
  rw [sizeT_of_lt (by omega) (by omega), sizeT_of_lt (by omega) (by omega),
    int32_of_lt (by omega) (by split_ifs <;> omega)]
  split_ifs <;> omega

theorem sizeT_natCast (h : wrote < 2 ^ 64) : sizeT wrote = wrote := by
  rw [sizeT_of_lt (by omega) (by exact_mod_cast h)]
  exact Int.toNat_natCast wrote

/-- A round of the loop, with the bytes left counted without overflow. -/
theorem writeLoop_cons (hlen : buf.length ≤ maxRwCount) (hlt : wrote < buf.length) :
    writeLoop outBufSize buf (round :: rounds) wrote =
      (let outBuf := (buf.drop wrote).take outBufSize.toNat
      if round.copyFaults = true ∧ outBufSize ≠ 0 then some ⟨-EFAULT, []⟩
      else
        match round.bulk with
        | .failed retval sent => some ⟨retval, [outBuf.take sent]⟩
        | .acked =>
            (writeLoop outBufSize buf rounds (wrote + outBuf.length : Nat)).map
              fun w => { w with messages := outBuf :: w.messages }) := by
  have hnat : wrote < 2 ^ 64 := by unfold maxRwCount at hlen; omega
  have hsize := @writeSize_eq outBufSize buf wrote hlen hlt
  have hlength : ((buf.drop wrote).take outBufSize.toNat).length =
      min outBufSize.toNat (buf.length - wrote) := by
    rw [List.length_take, List.length_drop]
  have hpiece : (buf.drop wrote).take (min outBufSize.toNat (buf.length - wrote)) =
      (buf.drop wrote).take outBufSize.toNat := by
    rw [← List.length_drop, ← List.take_eq_take_min]
  have hzero : (min outBufSize.toNat (buf.length - wrote) : Nat) = (0 : Int) ↔
      outBufSize = 0 := by
    rw [← UInt16.toNat_inj, UInt16.toNat_zero]
    omega
  simp only [writeLoop, sizeT_natCast hnat, if_pos hlt, hsize, Int.toNat_natCast,
    hpiece, ne_eq, hzero, hlength]
  rw [Int.natCast_add]

theorem writeLoop_done (hlen : buf.length ≤ maxRwCount) :
    writeLoop outBufSize buf rounds buf.length = some ⟨buf.length, []⟩ := by
  have hlt : buf.length < 2 ^ 64 := by unfold maxRwCount at hlen; omega
  cases rounds <;> simp [writeLoop, sizeT_natCast hlt]

/-- How the loop ends: it sends everything, a round fails, or it has not come to
its end. -/
inductive Ends (outBufSize : UInt16) (buf : List UInt8) (rounds : List Round)
    (wrote : Nat) : Prop
  | sent (messages : List (List UInt8)) :
      buf.length ≤ wrote + cleanRounds outBufSize rounds * outBufSize.toNat →
      writeLoop outBufSize buf rounds wrote = some ⟨buf.length, messages⟩ →
      messages.flatten = buf.drop wrote →
      (∀ m ∈ messages, m.length ≤ outBufSize.toNat) →
      Ends outBufSize buf rounds wrote
  | failed (round : Round) (w : Written) :
      wrote + cleanRounds outBufSize rounds * outBufSize.toNat < buf.length →
      rounds[cleanRounds outBufSize rounds]? = some round →
      writeLoop outBufSize buf rounds wrote = some w → w.returned < 0 →
      w.messages.flatten = (buf.drop wrote).take
        (cleanRounds outBufSize rounds * outBufSize.toNat + round.part outBufSize) →
      Ends outBufSize buf rounds wrote
  | open :
      wrote + cleanRounds outBufSize rounds * outBufSize.toNat < buf.length →
      rounds[cleanRounds outBufSize rounds]? = none →
      writeLoop outBufSize buf rounds wrote = none →
      Ends outBufSize buf rounds wrote

theorem cleanRounds_cons_clean (h : round.Clean outBufSize) :
    cleanRounds outBufSize (round :: rounds) = cleanRounds outBufSize rounds + 1 := by
  simp [cleanRounds, h]

theorem cleanRounds_cons_fails (h : ¬ round.Clean outBufSize) :
    cleanRounds outBufSize (round :: rounds) = 0 := by
  simp [cleanRounds, h]

/-- The round behind the clean ones is not clean. -/
theorem not_clean_of_getElem?
    (h : rounds[cleanRounds outBufSize rounds]? = some round) :
    ¬ round.Clean outBufSize := by
  induction rounds with
  | nil => cases h
  | cons first rounds ih =>
      by_cases hclean : first.Clean outBufSize
      · rw [cleanRounds_cons_clean hclean, List.getElem?_cons_succ] at h
        exact ih h
      · rw [cleanRounds_cons_fails hclean] at h
        cases h
        exact hclean

/-- Without such a round all are clean. -/
theorem clean_of_getElem?_eq_none
    (h : rounds[cleanRounds outBufSize rounds]? = none) :
    ∀ round ∈ rounds, round.Clean outBufSize := by
  induction rounds with
  | nil => exact nofun
  | cons first rounds ih =>
      by_cases hclean : first.Clean outBufSize
      · rw [cleanRounds_cons_clean hclean, List.getElem?_cons_succ] at h
        exact List.forall_mem_cons.mpr ⟨hclean, ih h⟩
      · rw [cleanRounds_cons_fails hclean] at h
        cases h

/-- The piece of a round, and the bytes behind it. -/
theorem piece_append (buf : List UInt8) (wrote n : Nat) :
    (buf.drop wrote).take n ++
      buf.drop (wrote + ((buf.drop wrote).take n).length) = buf.drop wrote := by
  rw [← List.drop_drop]
  exact (List.prefix_iff_eq_append.mp (List.take_prefix ..))

/-- A loop that has sent everything. -/
theorem Ends.done (hlen : buf.length ≤ maxRwCount) :
    Ends outBufSize buf rounds buf.length := by
  refine .sent [] (Nat.le_add_right ..) (writeLoop_done hlen) ?_ nofun
  rw [List.drop_length]
  rfl

/-- A loop that goes on behind a round in which nothing fails. -/
theorem Ends.cons (hlen : buf.length ≤ maxRwCount) (hlt : wrote < buf.length)
    (hclean : round.Clean outBufSize)
    (h : Ends outBufSize buf rounds
      (wrote + ((buf.drop wrote).take outBufSize.toNat).length)) :
    Ends outBufSize buf (round :: rounds) wrote := by
  have hstep := @writeLoop_cons outBufSize buf round rounds wrote hlen hlt
  have hgo : ¬ (round.copyFaults = true ∧ outBufSize ≠ 0) := by
    rintro ⟨hfaults, hne⟩
    exact hne (hclean.1 hfaults)
  have hlength : ((buf.drop wrote).take outBufSize.toNat).length =
      min outBufSize.toNat (buf.length - wrote) := by
    rw [List.length_take, List.length_drop]
  have hsucc := Nat.add_one_mul (cleanRounds outBufSize rounds) outBufSize.toNat
  simp only [if_neg hgo, hclean.2] at hstep
  cases h with
  | sent messages hall hloop hflatten hpieces =>
      rw [hloop] at hstep
      refine .sent ((buf.drop wrote).take outBufSize.toNat :: messages) ?_ hstep ?_ ?_
      · rw [cleanRounds_cons_clean hclean]
        omega
      · rw [List.flatten_cons, hflatten, piece_append]
      · exact List.forall_mem_cons.mpr ⟨List.length_take_le .., hpieces⟩
  | failed last w hfew hlast hloop hneg hflatten =>
      rw [hloop] at hstep
      -- a round follows, so this piece filled the buffer
      have hfull : ((buf.drop wrote).take outBufSize.toNat).length =
          outBufSize.toNat := by omega
      refine .failed last _ ?_ ?_ hstep hneg ?_
      · rw [cleanRounds_cons_clean hclean]
        omega
      · rw [cleanRounds_cons_clean hclean, List.getElem?_cons_succ]
        exact hlast
      · show (_ :: w.messages).flatten = _
        rw [cleanRounds_cons_clean hclean, hsucc, Nat.add_comm (_ * _),
          Nat.add_assoc, List.take_add, List.flatten_cons, hflatten, hfull,
          List.drop_drop]
  | «open» hfew hnone hloop =>
      rw [hloop] at hstep
      refine .open ?_ ?_ hstep
      · rw [cleanRounds_cons_clean hclean]
        omega
      · rw [cleanRounds_cons_clean hclean, List.getElem?_cons_succ]
        exact hnone

/-- A loop that ends in a round that fails. -/
theorem Ends.of_fails (hlen : buf.length ≤ maxRwCount) (hlt : wrote < buf.length)
    (hfails : ¬ round.Clean outBufSize) :
    Ends outBufSize buf (round :: rounds) wrote := by
  have hstep := @writeLoop_cons outBufSize buf round rounds wrote hlen hlt
  have hnone := @cleanRounds_cons_fails outBufSize round rounds hfails
  have hlast : (round :: rounds)[cleanRounds outBufSize (round :: rounds)]? =
      some round := by
    rw [hnone]
    rfl
  have hfew : wrote + cleanRounds outBufSize (round :: rounds) * outBufSize.toNat <
      buf.length := by
    rw [hnone]
    omega
  by_cases hfaults : round.copyFaults = true ∧ outBufSize ≠ 0
  · rw [if_pos hfaults] at hstep
    refine .failed round _ hfew hlast hstep (by decide) ?_
    simp [hnone, Round.part, hfaults]
  · cases hbulk : round.bulk with
    | acked =>
        refine absurd ⟨fun hcopy => ?_, hbulk⟩ hfails
        by_contra hne
        exact hfaults ⟨hcopy, hne⟩
    | failed retval sent =>
        simp only [if_neg hfaults, hbulk] at hstep
        refine .failed round _ hfew hlast hstep retval.property ?_
        simp only [hnone, Round.part, if_neg hfaults, hbulk, List.flatten_singleton,
          List.take_take, Nat.zero_mul, Nat.zero_add]

/-- Every loop ends in one of these ways. -/
theorem writeLoop_ends (hlen : buf.length ≤ maxRwCount) (hwrote : wrote ≤ buf.length) :
    Ends outBufSize buf rounds wrote := by
  induction rounds generalizing wrote with
  | nil =>
      rcases hwrote.eq_or_lt with rfl | hlt
      · exact Ends.done hlen
      · have hnat : wrote < 2 ^ 64 := by unfold maxRwCount at hlen; omega
        refine .open (by simpa [cleanRounds] using hlt) rfl ?_
        simp [writeLoop, sizeT_natCast hnat, hlt]
  | cons round rounds ih =>
      rcases hwrote.eq_or_lt with rfl | hlt
      · exact Ends.done hlen
      · by_cases hclean : round.Clean outBufSize
        · refine Ends.cons hlen hlt hclean (ih ?_)
          rw [List.length_take, List.length_drop]
          omega
        · exact Ends.of_fails hlen hlt hclean

/-! ## Termination -/

/-- The write ends after some rounds with the device; if it returns no error, it
has sent the user's bytes in pieces of at most `out_buf_size`, and says so. -/
def WritesAll (outBufSize : UInt16) (buf : List UInt8) (device : Nat → Round) :
    Prop :=
  ∃ n w, testUsb1Write outBufSize buf ((List.range n).map device) = some w ∧
    (0 ≤ w.returned → w.returned = buf.length ∧ w.messages.flatten = buf ∧
      ∀ m ∈ w.messages, m.length ≤ outBufSize.toNat)

variable {device : Nat → Round}

/-- A write with enough rounds that ends: all is sent, or a round fails. -/
theorem writesAll_of_ends {n : Nat} (hlen : buf.length ≤ maxRwCount)
    (hends : buf.length ≤
        cleanRounds outBufSize ((List.range n).map device) * outBufSize.toNat ∨
      ((List.range n).map device)[cleanRounds outBufSize
        ((List.range n).map device)]? ≠ none) :
    WritesAll outBufSize buf device := by
  have hloop := @writeLoop_ends outBufSize buf ((List.range n).map device) 0 hlen
    (Nat.zero_le _)
  cases hloop with
  | sent messages _ hresult hflatten hpieces =>
      exact ⟨n, _, hresult, fun _ => ⟨rfl, hflatten, hpieces⟩⟩
  | failed round w _ _ hresult hneg _ =>
      exact ⟨n, w, hresult, fun hnonneg => absurd hnonneg (not_le.mpr hneg)⟩
  | «open» hfew hnone _ =>
      rcases hends with hall | hsome
      · omega
      · exact absurd hnone hsome

/-- With room in the buffer every round sends a byte at least. -/
theorem writesAll_of_pos (hlen : buf.length ≤ maxRwCount) (hpos : outBufSize ≠ 0) :
    WritesAll outBufSize buf device := by
  have hsize : 0 < outBufSize.toNat := by
    rw [Nat.pos_iff_ne_zero]
    exact fun hzero => hpos (UInt16.toNat_inj.mp hzero)
  refine @writesAll_of_ends outBufSize buf device buf.length hlen ?_
  by_cases hfails : ((List.range buf.length).map device)[cleanRounds outBufSize
      ((List.range buf.length).map device)]? = none
  · rw [List.getElem?_eq_none_iff, List.length_map, List.length_range] at hfails
    exact .inl (hfails.trans (Nat.le_mul_of_pos_right _ hsize))
  · exact .inr hfails

/-- Without room the messages are empty, and only a message that fails ends the
loop. -/
theorem writesAll_zero_iff (hlen : buf.length ≤ maxRwCount) (hbuf : buf ≠ []) :
    WritesAll 0 buf device ↔ ∃ k, (device k).bulk ≠ .acked := by
  constructor
  · rintro ⟨n, w, hresult, -⟩
    by_contra hacked
    push Not at hacked
    cases @writeLoop_ends 0 buf ((List.range n).map device) 0 hlen (Nat.zero_le _) with
    | sent messages hall _ _ _ => exact hbuf (by simpa using hall)
    | failed round w' _ hround _ _ _ =>
        obtain ⟨k, -, rfl⟩ := List.mem_map.mp (List.mem_of_getElem? hround)
        exact not_clean_of_getElem? hround ⟨fun _ => rfl, hacked k⟩
    | «open» _ _ hnone =>
        rw [testUsb1Write, ← Int.natCast_zero, hnone] at hresult
        cases hresult
  · rintro ⟨k, hfails⟩
    refine @writesAll_of_ends 0 buf device (k + 1) hlen (.inr fun hnone => hfails ?_)
    have hmem : device k ∈ (List.range (k + 1)).map device :=
      List.mem_map.mpr ⟨k, List.mem_range.mpr (Nat.lt_succ_self k), rfl⟩
    exact (clean_of_getElem?_eq_none hnone _ hmem).2

/-- A write to an interface that the probe has accepted ends, and is complete
when it returns no error, exactly when there is nothing to write, the bulk-out
endpoint has a packet size, or a message fails. -/
theorem writesAll_iff (endpoints : List (Probe.EndpointDescriptor × Bool))
    (calls : Probe.ProbeCalls) (dev : Probe.TestUsb1Device)
    (haccepted : (Probe.testUsb1Probe endpoints calls).intfdata = some dev)
    (buf : List UInt8) (hcnt : buf.length ≤ maxRwCount) (device : Nat → Round) :
    WritesAll (dev .epOut).bufSize buf device ↔
      buf = [] ∨ (∃ e ∈ Probe.lastOf endpoints .epOut, e.wMaxPacketSize ≠ 0) ∨
        ∃ k, (device k).bulk ≠ .acked := by
  rw [← Probe.bufSize_ne_zero_iff haccepted]
  by_cases hbuf : buf = []
  · subst hbuf
    exact iff_of_true (@writesAll_of_ends _ _ device 0 hcnt (.inl (Nat.zero_le _)))
      (.inl rfl)
  · by_cases hpos : (dev .epOut).bufSize = 0
    · simp [hpos, hbuf, writesAll_zero_iff hcnt hbuf]
    · exact iff_of_true (writesAll_of_pos hcnt hpos) (.inr (.inl hpos))

/-- An interface with an endpoint of each direction. -/
def bothEndpoints : List (Probe.EndpointDescriptor × Bool) :=
  [(⟨0x81, 2, 64⟩, true), (⟨0x01, 2, 64⟩, true)]

theorem three_bytes_written :
    ((Probe.testUsb1Probe bothEndpoints ⟨true, 0⟩).intfdata.map fun dev =>
        (dev .epOut).bufSize) = some 64 ∧
      WritesAll 64 [1, 2, 3] fun _ => ⟨false, .acked⟩ :=
  ⟨by decide, (writesAll_iff bothEndpoints ⟨true, 0⟩ _ rfl [1, 2, 3] (by decide)
    fun _ => ⟨false, .acked⟩).mpr (.inr (.inl ⟨_, rfl, by decide⟩))⟩

/-- The bulk-out endpoint has a packet size of 0, the probe accepts it, and a
write of one byte to a device that takes every message sends empty messages for
ever. -/
theorem empty_messages_forever :
    ((Probe.testUsb1Probe [(⟨0x81, 2, 64⟩, true), (⟨0x01, 2, 0⟩, true)]
        ⟨true, 0⟩).intfdata.map fun dev => (dev .epOut).bufSize) = some 0 ∧
      ¬ WritesAll 0 [65] fun _ => ⟨false, .acked⟩ := by
  refine ⟨by decide, fun h => ?_⟩
  obtain ⟨k, hfails⟩ := (writesAll_zero_iff (by decide) (by decide)).mp h
  exact hfails rfl

/-! ## Resuming -/

/-- A write of the next `cnt` bytes, and what its rounds meet. -/
structure WriteCall where
  cnt : Nat
  rounds : List Round

/-- The bytes of a call, when `done` bytes have been reported as written. -/
def WriteCall.bytes (user : List UInt8) (done : Nat) (call : WriteCall) :
    List UInt8 :=
  (user.drop done).take (min call.cnt maxRwCount)

/-- A caller that goes on after what it was told, which is nothing after an
error. -/
def resuming (outBufSize : UInt16) (user : List UInt8) :
    System Nat WriteCall Written where
  init := 0
  step := fun done call =>
    (testUsb1Write outBufSize (call.bytes user done) call.rounds).map fun w =>
      (done + w.returned.toNat, [w])

/-- The bytes that the device got in a call. -/
def Written.received (w : Written) : List UInt8 := w.messages.flatten

/-- The call reports what the device got, and fails only when it got nothing. -/
def Written.Honest (w : Written) : Prop :=
  (w.returned < 0 ∧ w.received = []) ∨ w.returned = w.received.length

/-- Every call is honest, and the device has got the bytes that were reported,
each once. -/
structure SendsOnce (user : List UInt8) (done : Nat) (tr : List Written) :
    Prop where
  honest : ∀ w ∈ tr, w.Honest
  received : tr.flatMap Written.received = user.take done

/-- No round fails that is reached, or the first that does has nothing before it
and sends nothing. -/
def FailsUnsent (outBufSize : UInt16) (user : List UInt8) (done : Nat)
    (call : WriteCall) : Prop :=
  let clean := cleanRounds outBufSize call.rounds
  (call.bytes user done).length ≤ clean * outBufSize.toNat ∨
    ∀ round ∈ call.rounds[clean]?,
      clean * outBufSize.toNat + round.part outBufSize = 0

variable {user : List UInt8} {done done' : Nat} {call : WriteCall}
  {ev tr : List Written} {w : Written}

theorem bytes_initial (user : List UInt8) (done : Nat) (call : WriteCall) :
    call.bytes user done <+: user.drop done :=
  List.take_prefix ..

/-- A call is honest exactly when no round fails behind bytes that went out;
then it reports the start of what it was given. -/
theorem honest_iff
    (hcall : testUsb1Write outBufSize (call.bytes user done) call.rounds = some w) :
    (w.Honest ↔ FailsUnsent outBufSize user done call) ∧
      (w.Honest → w.received = (user.drop done).take w.returned.toNat) := by
  have hlen : (call.bytes user done).length ≤ maxRwCount :=
    (List.length_take_le ..).trans (Nat.min_le_right ..)
  have hends := @writeLoop_ends outBufSize _ call.rounds 0 hlen (Nat.zero_le _)
  rw [testUsb1Write, ← Int.natCast_zero] at hcall
  cases hends with
  | sent messages hall hresult hflatten _ =>
      cases hcall.symm.trans hresult
      rw [List.drop_zero] at hflatten
      refine ⟨iff_of_true (.inr ?_) (.inl (by simpa using hall)), fun _ => ?_⟩
      · rw [Written.received, hflatten]
      · rw [Written.received, hflatten, Int.toNat_natCast]
        exact List.prefix_iff_eq_take.mp (bytes_initial user done call)
  | failed round w' hfew hround hresult hneg hflatten =>
      cases hcall.symm.trans hresult
      rw [List.drop_zero] at hflatten
      have hne : call.bytes user done ≠ [] := List.ne_nil_of_length_pos (by omega)
      have hnothing : w.received = [] ↔
          cleanRounds outBufSize call.rounds * outBufSize.toNat +
            round.part outBufSize = 0 := by
        rw [Written.received, hflatten, List.take_eq_nil_iff, or_iff_left hne]
      -- an error is honest only about a call that sent nothing
      have hhonest : w.Honest ↔ w.received = [] := by
        refine ⟨fun h => ?_, fun h => .inl ⟨hneg, h⟩⟩
        exact (h.resolve_right fun hcount => by omega).2
      have hunsent : FailsUnsent outBufSize user done call ↔
          cleanRounds outBufSize call.rounds * outBufSize.toNat +
            round.part outBufSize = 0 := by
        refine ⟨fun h => ?_, fun h => .inr fun other hother => ?_⟩
        · exact (h.resolve_left (by omega)) round hround
        · cases hround.symm.trans hother
          exact h
      refine ⟨by rw [hhonest, hnothing, hunsent], fun h => ?_⟩
      rw [hhonest.mp h, Int.toNat_eq_zero.mpr hneg.le]
      rfl
  | «open» _ _ hnone =>
      rw [hnone] at hcall
      cases hcall

/-- The reports of a resuming caller are true, and every byte is sent once,
exactly as long as no round fails behind bytes that went out in its call. -/
theorem sendsOnce_iff (outBufSize : UInt16) (user : List UInt8)
    (calls : List WriteCall) :
    (resuming outBufSize user).Always (SendsOnce user) calls ↔
      (resuming outBufSize user).Meets (FailsUnsent outBufSize user) calls := by
  refine System.always_iff_meets ⟨nofun, rfl⟩ ?_ calls
  intro done tr call done' ev _ hlaw hstep
  obtain ⟨w, hcall, heq⟩ := Option.map_eq_some_iff.mp hstep
  cases heq
  obtain ⟨hiff, hreceived⟩ := honest_iff hcall
  rw [← hiff]
  constructor
  · exact fun h => h.honest w List.mem_concat_self
  · intro hhonest
    refine ⟨Pool.forall_concat hlaw.honest hhonest, ?_⟩
    rw [List.flatMap_append, hlaw.received, List.flatMap_singleton,
      hreceived hhonest, List.take_add]

/-- The second of two bytes fails behind the first: the call returns an error,
and the caller sends the first byte again. -/
theorem second_piece_fails :
    ¬ (resuming 1 [65, 66]).Always (SendsOnce [65, 66])
      [⟨2, [⟨false, .acked⟩, ⟨false, .failed ⟨- EIO, by decide⟩ 0⟩]⟩] := by
  intro h
  have hlaw := h _ _ _ List.prefix_rfl rfl
  exact absurd hlaw.received (by decide +kernel)

end BulkWrite
end USB
end KernelDrivers
