import KernelDrivers.BlockDriver.Request
import Mathlib.Algebra.BigOperators.Group.List.Basic
import Mathlib.Algebra.Order.Ring.Nat

/-!
# Which requests `blk1.c` moves exactly

A request moves its data exactly when the device range it names and the
segments' own bytes exchange their contents and nothing else is touched.
`blk1_request` advances by the sectors of the first segment at every segment,
so this holds for every content of the memory if and only if all segments of
the request have the same length.  A shorter segment is overrun or dropped and
a longer one is cut.
-/

namespace KernelDrivers
namespace BlockDriver

open Lib

/-- The first byte on the device that a request names. -/
def Request.base (req : Request) : Nat :=
  req.pos.toNat * 512

/-- The copy made for a segment stays inside the segment's own bytes. -/
def StaysInside (bv : BioVec) (copy : Option Copy) : Prop :=
  ∀ c ∈ copy, c.nbytes ≤ bv.bvLen.toNat

/-- A segment after the request, with the bytes behind it untouched. -/
def SameBeyond (bv bv' : BioVec) : Prop :=
  bv'.bvLen = bv.bvLen ∧ ∀ i, bv.bvLen.toNat ≤ i → bv'.buffer i = bv.buffer i

/-- The bytes of a list of segments. -/
def totalBytes (segs : List BioVec) : Nat :=
  (segs.map fun bv => bv.bvLen.toNat).sum

@[simp] theorem totalBytes_nil : totalBytes [] = 0 := rfl

@[simp] theorem totalBytes_cons (bv : BioVec) (rest : List BioVec) :
    totalBytes (bv :: rest) = bv.bvLen.toNat + totalBytes rest := rfl

/-- The segments and the device range from `base` on exchanged exactly their
data. -/
structure Moved (write : Bool) (dev : Blk1Dev) (base : Nat)
    (segs : List BioVec) (w : Walk) : Prop where
  inside : List.Forall₂ StaysInside segs w.copies
  beyond : List.Forall₂ SameBeyond segs w.segs
  write_device : write = true →
    Bytes.slice w.dev.data base (totalBytes segs) =
      (segs.map BioVec.contents).flatten
  write_rest : write = true →
    ∀ i, i < base ∨ base + totalBytes segs ≤ i → w.dev.data i = dev.data i
  write_segs : write = true → w.segs = segs
  read_segs : write = false →
    (w.segs.map BioVec.contents).flatten =
      Bytes.slice dev.data base (totalBytes segs)
  read_device : write = false → w.dev = dev

/-- The request exchanged exactly its data. -/
def MovesExactly (dev : Blk1Dev) (req : Request) : Prop :=
  Moved req.write dev req.base req.segs (blk1Request dev req).toWalk

/-- The shape of a request on a device: where it starts, its direction and the
lengths of its segments, which are positive multiples of the sector size and
lie inside the device together. -/
structure Shape where
  size : Int32
  pos : UInt64
  write : Bool
  lens : List UInt32
  positive : ∀ n ∈ lens, 0 < n.toNat
  sectors : ∀ n ∈ lens, 512 ∣ n.toNat
  inside : ((pos.toNat * 512 + (lens.map UInt32.toNat).sum : Nat) : Int) ≤
    size.toInt

/-- A device and a non-passthrough request of a shape, with any contents. -/
structure Shape.Fits (shape : Shape) (dev : Blk1Dev) (req : Request) :
    Prop where
  size : dev.size = shape.size
  pos : req.pos = shape.pos
  write : req.write = shape.write
  fs : req.passthrough = false
  lens : req.segs.map BioVec.bvLen = shape.lens

/-- All segments have the same length. -/
def Shape.EqualLengths (shape : Shape) : Prop :=
  ∀ n ∈ shape.lens, ∀ m ∈ shape.lens, n = m

theorem Shape.Fits.totalBytes {shape : Shape} {dev : Blk1Dev} {req : Request}
    (h : shape.Fits dev req) :
    totalBytes req.segs = (shape.lens.map UInt32.toNat).sum := by
  rw [← h.lens, List.map_map]
  rfl

theorem Shape.Fits.bvLen_mem {shape : Shape} {dev : Blk1Dev} {req : Request}
    (h : shape.Fits dev req) {bv : BioVec} (hbv : bv ∈ req.segs) :
    bv.bvLen ∈ shape.lens := by
  rw [← h.lens]
  exact List.mem_map_of_mem hbv

theorem totalBytes_of_sameBeyond {segs segs' : List BioVec}
    (h : List.Forall₂ SameBeyond segs segs') :
    totalBytes segs = totalBytes segs' := by
  induction h with
  | nil => rfl
  | cons hfirst _ ih => simp [ih, hfirst.1]

/-! ## Sector arithmetic inside the device -/

theorem toNat_blkRqCurSectors {req : Request} {bv : BioVec}
    {rest : List BioVec} (h : req.segs = bv :: rest) :
    (blkRqCurSectors req).toNat = bv.bvLen.toNat / 512 := by
  simp [blkRqCurSectors, h, Nat.shiftRight_eq_div_pow]

theorem toNat_sector_mul {sector : UInt64} (h : sector.toNat * 512 < 2 ^ 64) :
    (sector * kernelSectorSize).toNat = sector.toNat * 512 := by
  rw [UInt64.toNat_mul]
  exact Nat.mod_eq_of_lt h

theorem int32_lt (x : Int32) : x.toInt < 2 ^ 31 :=
  Int32.toInt_lt x

/-- A range of sectors inside the device passes the bound check. -/
theorem insideDevice_of_le {dev : Blk1Dev} {sector nsect : UInt64}
    (h : ((sector.toNat * 512 + nsect.toNat * 512 : Nat) : Int) ≤
      dev.size.toInt) : InsideDevice dev sector nsect := by
  have hsize := int32_lt dev.size
  have hsector : (sector * kernelSectorSize).toNat = sector.toNat * 512 :=
    toNat_sector_mul (by omega)
  have hnsect : (nsect * kernelSectorSize).toNat = nsect.toNat * 512 :=
    toNat_sector_mul (by omega)
  unfold InsideDevice
  rw [UInt64.le_iff_toNat_le, UInt64.toNat_add, hsector, hnsect,
    Blk1Dev.toNat_ulongSize (by omega)]
  rw [Nat.mod_eq_of_lt (by omega)]
  omega

/-! ## Equal segments -/

/-- One step of a write loop: the first segment is stored at `base`, the rest
behind it. -/
theorem Moved.cons_write {dev : Blk1Dev} {base : Nat} {bv : BioVec}
    {rest : List BioVec} {w : Walk}
    (h : Moved true
      { dev with data := Bytes.memcpy dev.data base bv.buffer 0 bv.bvLen.toNat }
      (base + bv.bvLen.toNat) rest w) :
    Moved true dev base (bv :: rest)
      { dev := w.dev
        segs := bv :: w.segs
        copies := some ⟨base, bv.bvLen.toNat⟩ :: w.copies } := by
  obtain ⟨hinside, hbeyond, hdevice, hrest, hsegs, -, -⟩ := h
  -- the rest of the loop writes behind the first segment only
  have hfirst : ∀ i < bv.bvLen.toNat,
      w.dev.data (base + i) = bv.buffer (0 + i) := by
    intro i hi
    rw [hrest rfl (base + i) (Or.inl (by omega))]
    exact Bytes.memcpy_inside dev.data bv.buffer hi
  constructor
  · exact List.Forall₂.cons (by simp [StaysInside]) hinside
  · exact List.Forall₂.cons ⟨rfl, fun _ _ => rfl⟩ hbeyond
  · intro _
    rw [totalBytes_cons, Bytes.slice_add, hdevice rfl, List.map_cons,
      List.flatten_cons, Bytes.slice_eq_slice_iff.mpr hfirst]
    rfl
  · intro _ i hi
    rw [totalBytes_cons] at hi
    rw [hrest rfl i (by omega)]
    exact Bytes.memcpy_outside dev.data bv.buffer (by omega)
  · intro _
    rw [hsegs rfl]
  · intro hread
    contradiction
  · intro hread
    contradiction

/-- One step of a read loop: the first segment is filled from `base`, the rest
from behind it. -/
theorem Moved.cons_read {dev : Blk1Dev} {base : Nat} {bv : BioVec}
    {rest : List BioVec} {w : Walk}
    (h : Moved false dev (base + bv.bvLen.toNat) rest w) :
    Moved false dev base (bv :: rest)
      { dev := w.dev
        segs := { bv with
          buffer := Bytes.memcpy bv.buffer 0 dev.data base bv.bvLen.toNat } ::
          w.segs
        copies := some ⟨base, bv.bvLen.toNat⟩ :: w.copies } := by
  obtain ⟨hinside, hbeyond, -, -, -, hfill, hsame⟩ := h
  constructor
  · exact List.Forall₂.cons (by simp [StaysInside]) hinside
  · refine List.Forall₂.cons ⟨rfl, fun i hi => ?_⟩ hbeyond
    exact Bytes.memcpy_outside bv.buffer dev.data (by omega)
  · intro hwrite
    contradiction
  · intro hwrite
    contradiction
  · intro hwrite
    contradiction
  · intro _
    rw [totalBytes_cons, Bytes.slice_add, List.map_cons, List.flatten_cons,
      hfill rfl, ← Bytes.slice_memcpy bv.buffer dev.data 0 base]
    rfl
  · exact hsame

/-- Inside the device no product or sum of a round wraps around. -/
theorem round_inside {req : Request} {dev : Blk1Dev} {pos : UInt64} {bv : BioVec}
    {rest : Nat} (hbv : bv.bvLen.toNat = (blkRqCurSectors req).toNat * 512)
    (hinside : ((pos.toNat * 512 + (bv.bvLen.toNat + rest) : Nat) : Int) ≤
      dev.size.toInt) :
    InsideDevice dev pos (blkRqCurSectors req) ∧
      (pos * kernelSectorSize).toNat = pos.toNat * 512 ∧
      (blkRqCurSectors req * kernelSectorSize).toNat = bv.bvLen.toNat ∧
      (pos + blkRqCurSectors req).toNat * 512 =
        pos.toNat * 512 + bv.bvLen.toNat := by
  have hsize := int32_lt dev.size
  have hnum : ∀ {p k l t : Nat}, l = k * 512 →
      ((p * 512 + (l + t) : Nat) : Int) ≤ dev.size.toInt →
      ((p * 512 + k * 512 : Nat) : Int) ≤ dev.size.toInt ∧
      p * 512 < 2 ^ 64 ∧ k * 512 < 2 ^ 64 ∧ p + k < 2 ^ 64 ∧
      (p + k) * 512 = p * 512 + l := by
    intro p k l t hl hle
    omega
  obtain ⟨hfits, hp, hk, hpk, hstep⟩ := hnum hbv hinside
  refine ⟨insideDevice_of_le hfits, toNat_sector_mul hp, ?_, ?_⟩
  · rw [toNat_sector_mul hk, hbv]
  · rw [UInt64.toNat_add, Nat.mod_eq_of_lt hpk, hstep]

/-- A loop over segments that all hold the running count of sectors moves
exactly their data. -/
theorem moved_transferSegments (req : Request) (dev : Blk1Dev) (pos : UInt64)
    (segs : List BioVec)
    (hlen : ∀ bv ∈ segs, bv.bvLen.toNat = (blkRqCurSectors req).toNat * 512)
    (hinside : ((pos.toNat * 512 + totalBytes segs : Nat) : Int) ≤
      dev.size.toInt) :
    Moved req.write dev (pos.toNat * 512) segs
      (transferSegments req dev pos segs) := by
  induction segs generalizing dev pos with
  | nil => constructor <;> simp [transferSegments]
  | cons bv rest ih =>
      rw [totalBytes_cons] at hinside
      obtain ⟨hok, hsector, hnbytes, hnext⟩ :=
        round_inside (hlen bv (List.mem_cons_self ..)) hinside
      -- the rest of the loop begins where this segment ends on the device
      have hrest := ih
        (blk1Transfer dev pos (blkRqCurSectors req) bv.buffer req.write).dev
        (pos + blkRqCurSectors req)
        (fun bv' hbv' => hlen bv' (List.mem_cons_of_mem _ hbv'))
        (by rw [blk1Transfer_size, hnext, Nat.add_assoc]; exact hinside)
      rw [hnext] at hrest
      rw [transferSegments]
      cases hwrite : req.write with
      | true =>
          rw [hwrite, blk1Transfer_write_of_inside hok, hsector, hnbytes]
            at hrest
          rw [blk1Transfer_write_of_inside hok, hsector, hnbytes]
          exact hrest.cons_write
      | false =>
          rw [hwrite, blk1Transfer_read_of_inside hok] at hrest
          rw [blk1Transfer_read_of_inside hok, hsector, hnbytes]
          exact hrest.cons_read

/-! ## Unequal segments -/

/-- The bytes of one copy, if it was made. -/
def copiedBytes (copy : Option Copy) : Nat :=
  (copy.map Copy.nbytes).getD 0

/-- The bytes of all copies together. -/
def totalCopied (copies : List (Option Copy)) : Nat :=
  (copies.map copiedBytes).sum

/-- Every copy of the loop has the length of the first segment's sectors. -/
theorem nbytes_of_mem_copies (req : Request) (dev : Blk1Dev) (pos : UInt64)
    (segs : List BioVec) :
    ∀ copy ∈ (transferSegments req dev pos segs).copies, ∀ c ∈ copy,
      c.nbytes = (blkRqCurSectors req * kernelSectorSize).toNat := by
  induction segs generalizing dev pos with
  | nil => simp [transferSegments]
  | cons bv rest ih =>
      rw [transferSegments, List.forall_mem_cons]
      refine ⟨?_, ih _ _⟩
      rw [blk1Transfer_copy]
      split
      · intro c hc
        cases hc
        rfl
      · intro c hc
        cases hc

theorem totalCopied_le {segs : List BioVec} {copies : List (Option Copy)}
    (h : List.Forall₂ StaysInside segs copies) :
    totalCopied copies ≤ totalBytes segs := by
  induction h with
  | nil => exact le_refl _
  | @cons bv copy rest copies hfirst _ ih =>
      have hle : copiedBytes copy ≤ bv.bvLen.toNat := by
        cases copy with
        | none => exact Nat.zero_le _
        | some c => exact hfirst c rfl
      simp only [totalCopied, List.map_cons, List.sum_cons, totalBytes_cons]
        at ih ⊢
      omega

/-- Copies that stay inside their segments and cover them all together cover
each of them. -/
theorem bvLen_eq_copied {segs : List BioVec} {copies : List (Option Copy)}
    (h : List.Forall₂ StaysInside segs copies)
    (hcover : totalBytes segs ≤ totalCopied copies) :
    List.Forall₂ (fun bv copy => bv.bvLen.toNat = copiedBytes copy)
      segs copies := by
  induction h with
  | nil => exact List.Forall₂.nil
  | @cons bv copy rest copies hfirst hlater ih =>
      have hle : copiedBytes copy ≤ bv.bvLen.toNat := by
        cases copy with
        | none => exact Nat.zero_le _
        | some c => exact hfirst c rfl
      have hrest := totalCopied_le hlater
      simp only [totalCopied, List.map_cons, List.sum_cons, totalBytes_cons]
        at hcover hrest ih
      exact List.Forall₂.cons (by omega) (ih (by omega))

/-- Segments that are covered by copies of one length have that length. -/
theorem bvLen_eq_of_covered {segs : List BioVec} {copies : List (Option Copy)}
    {N : Nat} (h : List.Forall₂ StaysInside segs copies)
    (hcover : totalBytes segs ≤ totalCopied copies)
    (hpos : ∀ bv ∈ segs, 0 < bv.bvLen.toNat)
    (hN : ∀ copy ∈ copies, ∀ c ∈ copy, c.nbytes = N) :
    ∀ bv ∈ segs, bv.bvLen.toNat = N := by
  have heq := bvLen_eq_copied h hcover
  clear h hcover
  induction heq with
  | nil => simp
  | @cons bv copy rest copies hfirst _ ih =>
      rw [List.forall_mem_cons] at hpos hN ⊢
      refine ⟨?_, ih hpos.2 hN.2⟩
      cases copy with
      | none =>
          have hzero : bv.bvLen.toNat = 0 := hfirst
          omega
      | some c => exact hfirst.trans (hN.1 c rfl)

/-- A write loop puts a byte at no more offsets than it copied bytes. -/
theorem card_occurrences_transferSegments_le (req : Request)
    (hwrite : req.write = true) (dev : Blk1Dev) (pos : UInt64)
    (segs : List BioVec) (b : UInt8) (off n : Nat) :
    (Bytes.occurrences (transferSegments req dev pos segs).dev.data b off
        n).card ≤
      (Bytes.occurrences dev.data b off n).card +
        totalCopied (transferSegments req dev pos segs).copies := by
  induction segs generalizing dev pos with
  | nil => simp [transferSegments]
  | cons bv rest ih =>
      have hfirst : (Bytes.occurrences (blk1Transfer dev pos
            (blkRqCurSectors req) bv.buffer true).dev.data b off n).card ≤
          (Bytes.occurrences dev.data b off n).card + copiedBytes
            (blk1Transfer dev pos (blkRqCurSectors req) bv.buffer true).copy := by
        by_cases hok : InsideDevice dev pos (blkRqCurSectors req)
        · rw [blk1Transfer_write_of_inside hok]
          exact Bytes.card_occurrences_memcpy_le ..
        · rw [blk1Transfer_of_not_inside hok]
          exact Nat.le_add_right _ _
      have hrest := ih
        (blk1Transfer dev pos (blkRqCurSectors req) bv.buffer true).dev
        (pos + blkRqCurSectors req)
      rw [transferSegments, hwrite]
      simp only [totalCopied, List.map_cons, List.sum_cons] at hrest ⊢
      omega

/-- A read loop leaves a buffer filled with one byte as it was behind its
copy. -/
theorem buffer_transferSegments_read (req : Request)
    (hread : req.write = false) (dev : Blk1Dev) (pos : UInt64)
    (segs : List BioVec) (b : UInt8)
    (hfill : ∀ bv ∈ segs, ∀ i, bv.buffer i = b) :
    List.Forall₂ (fun bv copy => ∀ i, copiedBytes copy ≤ i → bv.buffer i = b)
      (transferSegments req dev pos segs).segs
      (transferSegments req dev pos segs).copies := by
  induction segs generalizing dev pos with
  | nil => exact List.Forall₂.nil
  | cons bv rest ih =>
      rw [List.forall_mem_cons] at hfill
      rw [transferSegments, hread]
      refine List.Forall₂.cons ?_ (ih _ _ hfill.2)
      intro i hi
      by_cases hok : InsideDevice dev pos (blkRqCurSectors req)
      · rw [blk1Transfer_read_of_inside hok] at hi ⊢
        exact (Bytes.memcpy_outside bv.buffer dev.data
          (Or.inr (by simpa [copiedBytes] using hi))).trans (hfill.1 i)
      · rw [blk1Transfer_of_not_inside hok]
        exact hfill.1 i

/-- Segments whose own bytes all differ from what their buffers hold behind
the copies are covered by the copies. -/
theorem totalBytes_le_totalCopied {segs : List BioVec}
    {copies : List (Option Copy)} {b : UInt8}
    (h : List.Forall₂
      (fun bv copy => ∀ i, copiedBytes copy ≤ i → bv.buffer i = b) segs copies)
    (hne : ∀ bv ∈ segs, b ∉ bv.contents) :
    totalBytes segs ≤ totalCopied copies := by
  induction h with
  | nil => exact le_refl _
  | @cons bv copy rest copies hfirst _ ih =>
      rw [List.forall_mem_cons] at hne
      have hle : bv.bvLen.toNat ≤ copiedBytes copy := by
        by_contra hlt
        apply hne.1
        simp only [BioVec.contents, Bytes.slice, List.mem_map, List.mem_range]
        exact ⟨copiedBytes copy, by omega, by simp [hfirst _ (le_refl _)]⟩
      have hrest := ih hne.2
      simp only [totalCopied, List.map_cons, List.sum_cons, totalBytes_cons]
        at hrest ⊢
      omega

/-- A device and a request of a shape that hold one byte each. -/
def Shape.uniform (shape : Shape) (onDev inBufs : UInt8) : Blk1Dev × Request :=
  ({ size := shape.size
     data := fun _ => onDev
     allocated := true
     users := 1
     mediaChange := 0 },
   { pos := shape.pos
     passthrough := false
     write := shape.write
     segs := shape.lens.map fun n => { bvLen := n, buffer := fun _ => inBufs } })

theorem Shape.uniform_fits (shape : Shape) (onDev inBufs : UInt8) :
    shape.Fits (shape.uniform onDev inBufs).1
      (shape.uniform onDev inBufs).2 := by
  constructor <;> simp [Shape.uniform, Function.comp_def]

theorem blk1Request_of_fs {dev : Blk1Dev} {req : Request}
    (h : req.passthrough = false) :
    (blk1Request dev req).toWalk =
      transferSegments req dev req.pos req.segs := by
  simp [blk1Request, h]

/-- A write that moves exactly ones to a device of zeroes is covered by its
copies: only they can have put the ones into the range. -/
theorem covered_of_moved_write {req : Request} {dev : Blk1Dev} {pos : UInt64}
    {base : Nat} {segs : List BioVec} (hwrite : req.write = true)
    (h : Moved req.write dev base segs (transferSegments req dev pos segs))
    (hdev : ∀ i, dev.data i = 0) (hbufs : ∀ bv ∈ segs, ∀ i, bv.buffer i = 1) :
    totalBytes segs ≤
      totalCopied (transferSegments req dev pos segs).copies := by
  have hones : ∀ b ∈ Bytes.slice
      (transferSegments req dev pos segs).dev.data base (totalBytes segs),
      b = 1 := by
    rw [h.write_device hwrite]
    intro b hb
    obtain ⟨l, hl, hbl⟩ := List.mem_flatten.mp hb
    obtain ⟨bv, hbv, rfl⟩ := List.mem_map.mp hl
    obtain ⟨i, -, rfl⟩ := List.mem_map.mp hbl
    exact hbufs bv hbv _
  -- count the ones in the range, before and after
  have hcard : (Bytes.occurrences (transferSegments req dev pos
      segs).dev.data 1 base (totalBytes segs)).card = totalBytes segs := by
    apply Bytes.card_occurrences_eq
    intro i hi
    exact hones _ (List.mem_map.mpr ⟨i, List.mem_range.mpr hi, rfl⟩)
  have hzero : (Bytes.occurrences dev.data 1 base
      (totalBytes segs)).card = 0 :=
    Bytes.card_occurrences_eq_zero (fun i => by simp [hdev i]) _ _
  have hle := card_occurrences_transferSegments_le req hwrite dev pos segs
    1 base (totalBytes segs)
  omega

/-- A read that moves exactly ones to buffers of zeroes is covered by its
copies: a zero left over in a segment would have been read from the device. -/
theorem covered_of_moved_read {req : Request} {dev : Blk1Dev} {pos : UInt64}
    {base : Nat} {segs : List BioVec} (hread : req.write = false)
    (h : Moved req.write dev base segs (transferSegments req dev pos segs))
    (hdev : ∀ i, dev.data i = 1) (hbufs : ∀ bv ∈ segs, ∀ i, bv.buffer i = 0) :
    totalBytes segs ≤
      totalCopied (transferSegments req dev pos segs).copies := by
  have hones : ∀ bv ∈ (transferSegments req dev pos segs).segs,
      0 ∉ bv.contents := by
    intro bv hbv hzero
    have hmem : (0 : UInt8) ∈ ((transferSegments req dev pos segs).segs.map
        BioVec.contents).flatten :=
      List.mem_flatten.mpr ⟨_, List.mem_map.mpr ⟨bv, hbv, rfl⟩, hzero⟩
    rw [h.read_segs hread] at hmem
    obtain ⟨i, -, hi⟩ := List.mem_map.mp hmem
    rw [hdev] at hi
    exact absurd hi (by decide)
  rw [totalBytes_of_sameBeyond h.beyond]
  exact totalBytes_le_totalCopied
    (buffer_transferSegments_read req hread dev pos segs 0 hbufs) hones

/-- A request that moves exactly ones over zeroes is covered by its copies. -/
theorem covered_of_moved {req : Request} {dev : Blk1Dev} {pos : UInt64}
    {base : Nat} {segs : List BioVec}
    (h : Moved req.write dev base segs (transferSegments req dev pos segs))
    (hdev : ∀ i, dev.data i = if req.write then 0 else 1)
    (hbufs : ∀ bv ∈ segs, ∀ i, bv.buffer i = if req.write then 1 else 0) :
    totalBytes segs ≤
      totalCopied (transferSegments req dev pos segs).copies := by
  cases hwrite : req.write with
  | true =>
      simp only [hwrite, if_true] at hdev hbufs
      exact covered_of_moved_write hwrite h hdev hbufs
  | false =>
      simp only [hwrite, Bool.false_eq_true, if_false] at hdev hbufs
      exact covered_of_moved_read hwrite h hdev hbufs

/-- The converse direction: to move ones over zeroes takes copies of the
segments' own lengths, and all copies have one length. -/
theorem equalLengths_of_movesExactly (shape : Shape)
    (hmoves : ∀ dev req, shape.Fits dev req → MovesExactly dev req) :
    shape.EqualLengths := by
  intro n hn m hm
  -- move ones over zeroes, where a byte that no copy has moved shows
  let dev := (shape.uniform (if shape.write then 0 else 1)
    (if shape.write then 1 else 0)).1
  let req := (shape.uniform (if shape.write then 0 else 1)
    (if shape.write then 1 else 0)).2
  have hfits : shape.Fits dev req := shape.uniform_fits _ _
  have hmoved : Moved req.write dev req.base req.segs
      (transferSegments req dev req.pos req.segs) := by
    rw [← blk1Request_of_fs hfits.fs]
    exact hmoves dev req hfits
  have hbufs : ∀ bv ∈ req.segs, ∀ i,
      bv.buffer i = if req.write then 1 else 0 := by
    intro bv hbv i
    obtain ⟨k, -, rfl⟩ := List.mem_map.mp hbv
    rfl
  have hlen := bvLen_eq_of_covered hmoved.inside
    (covered_of_moved hmoved (fun _ => rfl) hbufs)
    (fun bv hbv => shape.positive _ (hfits.bvLen_mem hbv))
    (nbytes_of_mem_copies req dev req.pos req.segs)
  have hall : ∀ k ∈ shape.lens, k.toNat =
      (blkRqCurSectors req * kernelSectorSize).toNat := by
    rw [← hfits.lens]
    intro k hk
    obtain ⟨bv, hbv, rfl⟩ := List.mem_map.mp hk
    exact hlen bv hbv
  exact UInt32.toNat_inj.mp ((hall n hn).trans (hall m hm).symm)

/-- In a request of equal segments each has the length of the first, which is
what a copy moves. -/
theorem Shape.Fits.bvLen_eq {shape : Shape} {dev : Blk1Dev} {req : Request}
    (h : shape.Fits dev req) (hequal : shape.EqualLengths) {bv : BioVec}
    (hbv : bv ∈ req.segs) :
    bv.bvLen.toNat = (blkRqCurSectors req).toNat * 512 := by
  cases hsegs : req.segs with
  | nil => simp [hsegs] at hbv
  | cons first rest =>
      have hfirst : first.bvLen ∈ shape.lens :=
        h.bvLen_mem (hsegs ▸ List.mem_cons_self ..)
      rw [toNat_blkRqCurSectors hsegs, hequal _ (h.bvLen_mem hbv) _ hfirst]
      exact (Nat.div_mul_cancel (shape.sectors _ hfirst)).symm

/-- `blk1_request` moves exactly the data of every request of a shape if and
only if the segments of the shape all have the same length. -/
theorem movesExactly_iff_equalLengths (shape : Shape) :
    (∀ dev req, shape.Fits dev req → MovesExactly dev req) ↔
      shape.EqualLengths := by
  constructor
  · exact equalLengths_of_movesExactly shape
  · intro hequal dev req hfits
    have hcur : ∀ bv ∈ req.segs,
        bv.bvLen.toNat = (blkRqCurSectors req).toNat * 512 :=
      fun bv hbv => hfits.bvLen_eq hequal hbv
    unfold MovesExactly
    rw [blk1Request_of_fs hfits.fs]
    apply moved_transferSegments req dev req.pos req.segs hcur
    rw [hfits.pos, hfits.size, hfits.totalBytes]
    exact shape.inside

/-- A read of 1024 and 512 bytes overruns its second segment. -/
theorem short_segment_overrun :
    ¬ MovesExactly defaultDev
        { pos := 0, passthrough := false, write := false,
          segs := [{ bvLen := 1024, buffer := fun _ => 0 },
            { bvLen := 512, buffer := fun _ => 0 }] } := by
  intro h
  have hcopies := h.inside
  rw [blk1Request_of_fs rfl] at hcopies
  obtain ⟨-, hsecond, -⟩ :=
    List.forall₂_cons.mp hcopies |>.imp id List.forall₂_cons.mp
  exact absurd (hsecond ⟨1024, 1024⟩ (by decide)) (by decide)

end BlockDriver
end KernelDrivers
