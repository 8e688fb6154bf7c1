import KernelDrivers.BlockDriver.Device

/-!
# The request path of `blk1.c`

`blk1Transfer` copies one run of sectors between the device array and a
buffer, or takes the beyond-end exit.  `blk1Request` is the `queue_rq`
callback: it walks the segments of the request with a running sector position.
The block layer is taken as follows.  `rq_for_each_segment` yields every
segment in order through its own iterator and does not advance the request,
so `blk_rq_cur_sectors` keeps its value throughout the loop: the sectors of
the first segment.

Besides the memory the model records which copies were made, since a copy that
runs past the end of a segment shows in other memory only.
-/

namespace KernelDrivers
namespace BlockDriver

open Lib

/-- One `memcpy` between the device array and a buffer: the offset into the
array and the number of bytes on either side. -/
structure Copy where
  offset : Nat
  nbytes : Nat
  deriving DecidableEq, Repr

/-- The bound check of `blk1_transfer`, which it passes or exits on. -/
def InsideDevice (dev : Blk1Dev) (sector nsect : UInt64) : Prop :=
  sector * kernelSectorSize + nsect * kernelSectorSize ≤ dev.ulongSize

instance (dev : Blk1Dev) (sector nsect : UInt64) :
    Decidable (InsideDevice dev sector nsect) :=
  inferInstanceAs (Decidable (_ ≤ _))

/-- The memory after a `blk1_transfer`, and the copy it made. -/
structure Transfer where
  dev : Blk1Dev
  buffer : Bytes
  copy : Option Copy

/-- `blk1_transfer`. -/
def blk1Transfer (dev : Blk1Dev) (sector nsect : UInt64) (buffer : Bytes)
    (write : Bool) : Transfer :=
  let offset := sector * kernelSectorSize
  let nbytes := nsect * kernelSectorSize
  if dev.ulongSize < offset + nbytes then
    -- "Beyond-end write": nothing is copied and nothing is reported
    { dev := dev, buffer := buffer, copy := none }
  else if write then
    { dev := { dev with
        data := Bytes.memcpy dev.data offset.toNat buffer 0 nbytes.toNat }
      buffer := buffer
      copy := some ⟨offset.toNat, nbytes.toNat⟩ }
  else
    { dev := dev
      buffer := Bytes.memcpy buffer 0 dev.data offset.toNat nbytes.toNat
      copy := some ⟨offset.toNat, nbytes.toNat⟩ }

/-- One segment of a request: `bv_len`, and the memory from
`page_address(bv_page) + bv_offset` on.  The segment's own bytes are the first
`bv_len` of it. -/
structure BioVec where
  bvLen : UInt32
  buffer : Bytes

/-- The segment's own bytes. -/
def BioVec.contents (bv : BioVec) : List UInt8 :=
  Bytes.slice bv.buffer 0 bv.bvLen.toNat

/-- What the driver reads of a `struct request`. -/
structure Request where
  pos : UInt64
  passthrough : Bool
  write : Bool
  segs : List BioVec

/-- `blk_rq_cur_sectors`: the sectors of the first remaining segment of the
current bio. -/
def blkRqCurSectors (req : Request) : UInt64 :=
  match req.segs with
  | [] => 0
  | bv :: _ => (bv.bvLen >>> 9).toUInt64

/-- The memory after the segment loop, and the copy made for each segment. -/
structure Walk where
  dev : Blk1Dev
  segs : List BioVec
  copies : List (Option Copy)

/-- The loop of `blk1_request` over the remaining segments. -/
def transferSegments (req : Request) :
    Blk1Dev → UInt64 → List BioVec → Walk
  | dev, _, [] => { dev := dev, segs := [], copies := [] }
  | dev, posSector, bv :: rest =>
      let numSector := blkRqCurSectors req
      let t := blk1Transfer dev posSector numSector bv.buffer req.write
      let w := transferSegments req t.dev (posSector + numSector) rest
      { dev := w.dev
        segs := { bv with buffer := t.buffer } :: w.segs
        copies := t.copy :: w.copies }

/-- The `blk_status_t` values that the driver or its caller tells apart. -/
inductive BlkStatus where
  | ok
  | ioerr
  | resource
  | devResource
  deriving DecidableEq, Repr

/-- The outcome of `blk1_request`: the memory, the copies, the status given to
`blk_mq_end_request` and the return value. -/
structure Outcome extends Walk where
  ended : BlkStatus
  ret : BlkStatus

/-- `blk1_request`. -/
def blk1Request (dev : Blk1Dev) (req : Request) : Outcome :=
  if req.passthrough then
    -- "Skip non-fs request"
    { dev := dev, segs := req.segs, copies := [],
      ended := .ioerr, ret := .ioerr }
  else
    { toWalk := transferSegments req dev req.pos req.segs,
      ended := .ok, ret := .ok }

/-- What the blk-mq core does with the return value of `queue_rq`: a retry
code puts the request back, any other value than `BLK_STS_OK` ends it. -/
def coreEnds : BlkStatus → List BlkStatus
  | .ok => []
  | .resource => []
  | .devResource => []
  | .ioerr => [.ioerr]

/-- Every end of the request, by the driver and then by its caller. -/
def endsOfRequest (dev : Blk1Dev) (req : Request) : List BlkStatus :=
  (blk1Request dev req).ended :: coreEnds (blk1Request dev req).ret

/-! ## One transfer -/

/-- The beyond-end exit changes nothing. -/
theorem blk1Transfer_of_not_inside {dev : Blk1Dev} {sector nsect : UInt64}
    (h : ¬ InsideDevice dev sector nsect) (buffer : Bytes) (write : Bool) :
    blk1Transfer dev sector nsect buffer write =
      { dev := dev, buffer := buffer, copy := none } := by
  have hlt := UInt64.not_le.mp h
  simp [blk1Transfer, hlt]

theorem blk1Transfer_write_of_inside {dev : Blk1Dev} {sector nsect : UInt64}
    (h : InsideDevice dev sector nsect) (buffer : Bytes) :
    blk1Transfer dev sector nsect buffer true =
      { dev := { dev with
          data := Bytes.memcpy dev.data (sector * kernelSectorSize).toNat
            buffer 0 (nsect * kernelSectorSize).toNat }
        buffer := buffer
        copy := some ⟨(sector * kernelSectorSize).toNat,
          (nsect * kernelSectorSize).toNat⟩ } := by
  have hnot := UInt64.not_lt.mpr h
  simp [blk1Transfer, hnot]

theorem blk1Transfer_read_of_inside {dev : Blk1Dev} {sector nsect : UInt64}
    (h : InsideDevice dev sector nsect) (buffer : Bytes) :
    blk1Transfer dev sector nsect buffer false =
      { dev := dev
        buffer := Bytes.memcpy buffer 0 dev.data
          (sector * kernelSectorSize).toNat (nsect * kernelSectorSize).toNat
        copy := some ⟨(sector * kernelSectorSize).toNat,
          (nsect * kernelSectorSize).toNat⟩ } := by
  have hnot := UInt64.not_lt.mpr h
  simp [blk1Transfer, hnot]

/-- A transfer never changes the size of the device. -/
@[simp] theorem blk1Transfer_size (dev : Blk1Dev) (sector nsect : UInt64)
    (buffer : Bytes) (write : Bool) :
    (blk1Transfer dev sector nsect buffer write).dev.size = dev.size := by
  by_cases h : InsideDevice dev sector nsect
  · cases write with
    | true => rw [blk1Transfer_write_of_inside h]
    | false => rw [blk1Transfer_read_of_inside h]
  · rw [blk1Transfer_of_not_inside h]

/-- A copy is made exactly when the bound check passes. -/
theorem blk1Transfer_copy (dev : Blk1Dev) (sector nsect : UInt64)
    (buffer : Bytes) (write : Bool) :
    (blk1Transfer dev sector nsect buffer write).copy =
      if InsideDevice dev sector nsect then
        some ⟨(sector * kernelSectorSize).toNat,
          (nsect * kernelSectorSize).toNat⟩
      else none := by
  by_cases h : InsideDevice dev sector nsect
  · cases write with
    | true => rw [blk1Transfer_write_of_inside h, if_pos h]
    | false => rw [blk1Transfer_read_of_inside h, if_pos h]
  · rw [blk1Transfer_of_not_inside h, if_neg h]

/-- A write leaves the buffer as it was. -/
@[simp] theorem blk1Transfer_write_buffer (dev : Blk1Dev)
    (sector nsect : UInt64) (buffer : Bytes) :
    (blk1Transfer dev sector nsect buffer true).buffer = buffer := by
  by_cases h : InsideDevice dev sector nsect
  · rw [blk1Transfer_write_of_inside h]
  · rw [blk1Transfer_of_not_inside h]

/-- A read leaves the device as it was. -/
@[simp] theorem blk1Transfer_read_dev (dev : Blk1Dev) (sector nsect : UInt64)
    (buffer : Bytes) :
    (blk1Transfer dev sector nsect buffer false).dev = dev := by
  by_cases h : InsideDevice dev sector nsect
  · rw [blk1Transfer_read_of_inside h]
  · rw [blk1Transfer_of_not_inside h]

/-! ## The segment loop -/

@[simp] theorem transferSegments_size (req : Request) (dev : Blk1Dev)
    (pos : UInt64) (segs : List BioVec) :
    (transferSegments req dev pos segs).dev.size = dev.size := by
  induction segs generalizing dev pos with
  | nil => rfl
  | cons bv rest ih =>
      rw [transferSegments]
      exact (ih _ _).trans (blk1Transfer_size ..)

/-- The check of each segment in turn is the check of the `i`-th position on
the device as it was. -/
theorem transferSegments_copies (req : Request) (dev : Blk1Dev) (pos : UInt64)
    (segs : List BioVec) :
    (∀ c ∈ (transferSegments req dev pos segs).copies, c ≠ none) ↔
      ∀ i < segs.length,
        InsideDevice dev (pos + UInt64.ofNat i * blkRqCurSectors req)
          (blkRqCurSectors req) := by
  induction segs generalizing dev pos with
  | nil => simp [transferSegments]
  | cons bv rest ih =>
      -- the request does not advance, so every turn takes the same count
      let n := blkRqCurSectors req
      let t := blk1Transfer dev pos n bv.buffer req.write
      have hcheck : ∀ sector, InsideDevice t.dev sector n ↔
          InsideDevice dev sector n := by
        intro sector
        unfold InsideDevice Blk1Dev.ulongSize
        rw [show t.dev.size = dev.size from blk1Transfer_size ..]
      have hfirst : t.copy ≠ none ↔ InsideDevice dev pos n := by
        rw [blk1Transfer_copy]
        split <;> simp_all
      have hshift : ∀ i : Nat, pos + UInt64.ofNat (i + 1) * n =
          pos + n + UInt64.ofNat i * n := by
        intro i
        rw [UInt64.ofNat_add, UInt64.add_mul, UInt64.add_assoc,
          UInt64.add_comm n]
        simp
      rw [transferSegments, List.forall_mem_cons, ih, hfirst]
      constructor
      · rintro ⟨hzero, hrest⟩ i hi
        cases i with
        | zero => simpa using hzero
        | succ i =>
            rw [hshift]
            exact (hcheck _).mp (hrest i (by simpa using hi))
      · intro hall
        refine ⟨by simpa using hall 0 (by simp), fun i hi => ?_⟩
        have := hall (i + 1) (by simpa using hi)
        rw [hshift] at this
        exact (hcheck _).mpr this

/-! ## Completion -/

/-- A request is ended once, and with success only if no segment took the
beyond-end exit. -/
structure Truthful (dev : Blk1Dev) (req : Request) : Prop where
  once : (endsOfRequest dev req).length = 1
  honest : .ok ∈ endsOfRequest dev req →
    ∀ c ∈ (blk1Request dev req).copies, c ≠ none

/-- A request is completed once and truthfully exactly when it is no
passthrough request and each segment's turn, at the start sector plus the
number of segments before it times the sectors of the first segment, passes
the bound check. -/
theorem truthful_iff (dev : Blk1Dev) (req : Request) :
    Truthful dev req ↔
      req.passthrough = false ∧ ∀ i < req.segs.length,
        InsideDevice dev (req.pos + UInt64.ofNat i * blkRqCurSectors req)
          (blkRqCurSectors req) := by
  cases hpass : req.passthrough with
  | true =>
      -- the driver ends the request and returns an error besides
      have htwice : endsOfRequest dev req = [.ioerr, .ioerr] := by
        simp [endsOfRequest, blk1Request, hpass, coreEnds]
      constructor
      · intro h
        have honce := h.once
        simp [htwice] at honce
      · rintro ⟨hfalse, -⟩
        contradiction
  | false =>
      have hends : endsOfRequest dev req = [.ok] := by
        simp [endsOfRequest, blk1Request, hpass, coreEnds]
      have hcopies : (blk1Request dev req).copies =
          (transferSegments req dev req.pos req.segs).copies := by
        simp [blk1Request, hpass]
      rw [← transferSegments_copies, ← hcopies]
      constructor
      · intro h
        exact ⟨rfl, h.honest (by simp [hends])⟩
      · rintro ⟨-, hall⟩
        exact ⟨by simp [hends], fun _ => hall⟩

/-- The default device of 1024 sectors of 512 bytes. -/
def defaultDev : Blk1Dev where
  size := 1024 * 512
  data := fun _ => 0
  allocated := true
  users := 1
  mediaChange := 0

/-- A read of one sector behind the end of the default device is ended with
success although nothing was transferred, and a passthrough request is ended
twice. -/
theorem beyond_end_read_reported_ok :
    ¬ Truthful defaultDev
        { pos := 1024, passthrough := false, write := false,
          segs := [{ bvLen := 512, buffer := fun _ => 0 }] } ∧
      ¬ Truthful defaultDev
        { pos := 0, passthrough := true, write := false, segs := [] } := by
  constructor
  · intro h
    exact h.honest (by decide) none (by decide) rfl
  · intro h
    exact absurd h.once (by decide)

end BlockDriver
end KernelDrivers
