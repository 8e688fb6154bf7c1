import KernelDrivers.BlockDriver.MediaChange
import KernelDrivers.BlockDriver.Segments
import KernelDrivers.Lib.Store

/-!
# The device of `blk1.c` as a store

Requests, opens, releases and the timer take turns on the device.  A request
comes from somebody who has the device open.  A request of equal segments
inside the device, which is what `blk1_request` moves exactly, is one access of
a store; the media change that an open finds is another, which fills the store
with zeroes.
-/

namespace KernelDrivers
namespace BlockDriver

open Lib

inductive DiskAct where
  | request (req : Request)
  | media (act : MediaAct)

inductive DiskEvent where
  /-- The bytes that a request left in its segments. -/
  | read (base : Nat) (bytes : List UInt8)
  | wrote (base : Nat) (bytes : List UInt8)
  | media (e : MediaEvent)
  deriving DecidableEq

/-- The bytes of the segments, one after the other. -/
def bytesOf (segs : List BioVec) : List UInt8 := (segs.map BioVec.contents).flatten

/-- A request and what its issuer sees of it. -/
def requestEvents (req : Request) (w : Walk) : List DiskEvent :=
  if req.passthrough then []
  else if req.write then [.wrote req.base (bytesOf req.segs)]
  else [.read req.base (bytesOf w.segs)]

/-- The device from the end of `setup_device` on, with its requests. -/
def disk (size : Int32) (data : Bytes) : System Media DiskAct DiskEvent where
  init := (media size data).init
  step := fun m act =>
    match act with
    | .request req =>
        if m.opens = 0 then none
        else
          let out := blk1Request m.dev req
          some ({ m with dev := out.dev }, requestEvents req out.toWalk)
    | .media act =>
        ((media size data).step m act).map fun (m, ev) => (m, ev.map .media)

/-- A request whose segments have one length, a positive multiple of the sector
size, and lie inside the device. -/
structure Request.Regular (size : Int32) (req : Request) : Prop where
  fs : req.passthrough = false
  positive : ∀ bv ∈ req.segs, 0 < bv.bvLen.toNat
  sectors : ∀ bv ∈ req.segs, 512 ∣ bv.bvLen.toNat
  equal : ∀ bv ∈ req.segs, ∀ bv' ∈ req.segs, bv.bvLen = bv'.bvLen
  inside : ((req.base + totalBytes req.segs : Nat) : Int) ≤ size.toInt

/-- The requests of a run are regular. -/
def RegularAct (size : Int32) (_ : Media) : DiskAct → Prop
  | .request req => req.Regular size
  | .media _ => True

instance (size : Int32) (req : Request) : Decidable (req.Regular size) :=
  decidable_of_iff
    (req.passthrough = false ∧ (∀ bv ∈ req.segs, 0 < bv.bvLen.toNat) ∧
      (∀ bv ∈ req.segs, 512 ∣ bv.bvLen.toNat) ∧
      (∀ bv ∈ req.segs, ∀ bv' ∈ req.segs, bv.bvLen = bv'.bvLen) ∧
      ((req.base + totalBytes req.segs : Nat) : Int) ≤ size.toInt)
    ⟨fun ⟨h₁, h₂, h₃, h₄, h₅⟩ => ⟨h₁, h₂, h₃, h₄, h₅⟩,
      fun ⟨h₁, h₂, h₃, h₄, h₅⟩ => ⟨h₁, h₂, h₃, h₄, h₅⟩⟩

instance (size : Int32) (m : Media) (act : DiskAct) :
    Decidable (RegularAct size m act) :=
  match act with
  | .request req => inferInstanceAs (Decidable (req.Regular size))
  | .media _ => inferInstanceAs (Decidable True)

/-- What an event does to the store. -/
def DiskEvent.access : DiskEvent → Option (Access UInt8)
  | .wrote base bytes => some (.write base bytes)
  | .media (.opened _ true) => some (.fill 0)
  | _ => none

/-- The log of the store. -/
def accesses (tr : List DiskEvent) : List (Access UInt8) :=
  tr.filterMap DiskEvent.access

/-- The device holds its log, and every read has given what the log said at
the time: for each byte the last one written to it, or zero if the medium was
changed since, or the first one if neither happened. -/
structure Stores (size : Int32) (data : Bytes) (m : Media)
    (tr : List DiskEvent) : Prop where
  holds : Holds size.toInt.toNat data m.dev.data (accesses tr)
  reads : History (fun before e => ∀ base bytes, e = .read base bytes →
    bytes = readAfter data (accesses before) base bytes.length) tr

variable {size : Int32} {data : Bytes} {m m' : Media} {tr ev : List DiskEvent}

/-- A regular request moves its data. -/
theorem moved_of_regular {dev : Blk1Dev} {req : Request}
    (hreq : req.Regular size) (hsize : dev.size = size) :
    Moved req.write dev req.base req.segs (blk1Request dev req).toWalk := by
  rw [blk1Request_of_fs hreq.fs]
  refine moved_transferSegments req dev req.pos req.segs ?_ ?_
  · intro bv hbv
    cases hsegs : req.segs with
    | nil => simp [hsegs] at hbv
    | cons first rest =>
        have hfirst : first ∈ req.segs := hsegs ▸ List.mem_cons_self ..
        rw [toNat_blkRqCurSectors hsegs, hreq.equal bv hbv first hfirst]
        exact (Nat.div_mul_cancel (hreq.sectors first hfirst)).symm
  · rw [hsize]
    exact hreq.inside

/-! ## The callbacks -/

/-- A callback leaves the data, or it is an open that fills them with
zeroes. -/
theorem media_cases {act : MediaAct} {ev : List MediaEvent}
    (h : (media size data).step m act = some (m', ev)) :
    m'.dev.size = m.dev.size ∧
      ((∃ n, ev = [.opened n true]) ∧ m'.dev.data =
          (fun i => if i < m.dev.ulongSize.toNat then 0 else m.dev.data i) ∨
        (∀ n, .opened n true ∉ ev) ∧ m'.dev.data = m.dev.data) := by
  cases act with
  | openDisk =>
      change blk1Open m = _ at h
      unfold blk1Open at h
      split_ifs at h with hrunning husers
      · by_cases hchange : m.dev.mediaChange = 0
        · simp only [checkDiskChange, blk1MediaChanged, hchange, ne_eq,
            not_true_eq_false, if_false] at h
          cases h
          exact ⟨rfl, Or.inr ⟨by simp, rfl⟩⟩
        · simp only [checkDiskChange, blk1MediaChanged, blk1Revalidate, hchange,
            ne_eq, not_false_eq_true, if_true] at h
          cases h
          exact ⟨rfl, Or.inl ⟨⟨m.opens, rfl⟩, rfl⟩⟩
      · cases h
        exact ⟨rfl, Or.inr ⟨by simp, rfl⟩⟩
  | releaseDisk =>
      obtain ⟨-, -, hdev, -, hcase⟩ := release_cases h
      refine ⟨by rw [hdev], Or.inr ⟨fun n hn => ?_, by rw [hdev]⟩⟩
      rcases hcase with ⟨-, -, rfl⟩ | ⟨-, -, rfl⟩ <;> simp at hn
  | expire =>
      obtain ⟨-, rfl, rfl⟩ := expire_cases h
      exact ⟨rfl, Or.inr ⟨by simp, rfl⟩⟩
  | invalidate =>
      obtain ⟨-, -, -, -, -, hdata, hcase⟩ := invalidate_cases h
      refine ⟨?_, Or.inr ⟨fun n hn => ?_, hdata⟩⟩
      · change blk1Invalidate m = _ at h
        unfold blk1Invalidate at h
        split_ifs at h <;> cases h <;> rfl
      · rcases hcase with ⟨rfl, -⟩ | rfl <;> simp at hn

theorem size_of_reachable (h : (disk size data).Reachable m) :
    m.dev.size = size := by
  refine (disk size data).reachable_invariant (I := fun m => m.dev.size = size)
    rfl ?_ h
  intro m act m' ev hsize hstep
  cases act with
  | request req =>
      simp only [disk] at hstep
      split_ifs at hstep
      cases hstep
      cases hpass : req.passthrough with
      | true => simpa [blk1Request, hpass] using hsize
      | false =>
          rw [blk1Request_of_fs hpass]
          exact (transferSegments_size ..).trans hsize
  | media act =>
      obtain ⟨⟨t, ev'⟩, hmedia, heq⟩ := Option.map_eq_some_iff.mp hstep
      cases heq
      exact (media_cases hmedia).1.trans hsize

/-! ## One step -/

/-- What was written is where it was written, and the rest is as it was. -/
theorem data_of_write {dev dev' : Blk1Dev} {base : Nat} {bytes : List UInt8}
    (hin : Bytes.slice dev'.data base bytes.length = bytes)
    (hout : ∀ i, i < base ∨ base + bytes.length ≤ i → dev'.data i = dev.data i)
    (i : Nat) :
    dev'.data i = ((Access.write base bytes).put i).getD (dev.data i) := by
  by_cases hi : base ≤ i ∧ i < base + bytes.length
  · have hlt : i - base < bytes.length := by omega
    have hbyte : bytes[i - base]? = some (dev'.data i) := by
      conv_lhs => rw [← hin]
      have hsum : base + (i - base) = i := by omega
      simp [Bytes.slice, hlt, hsum]
    simp [Access.put, hi.1, hbyte]
  · have hnone : (Access.write base bytes).put i = none := by
      simp only [Access.put]
      split_ifs with hle
      · exact List.getElem?_eq_none (by omega)
      · rfl
    rw [hnone]
    exact hout i (by omega)

theorem length_bytesOf (segs : List BioVec) :
    (bytesOf segs).length = totalBytes segs := by
  induction segs with
  | nil => rfl
  | cons bv rest ih =>
      rw [totalBytes_cons, ← ih]
      simp [bytesOf, BioVec.contents]

theorem Stores.request (h : Stores size data m tr) (hsize : m.dev.size = size)
    {req : Request} (hreq : req.Regular size) :
    Stores size data { m with dev := (blk1Request m.dev req).dev }
      (tr ++ requestEvents req (blk1Request m.dev req).toWalk) := by
  have hmoved := moved_of_regular hreq hsize
  generalize (blk1Request m.dev req).toWalk = w at hmoved ⊢
  have hinside := hreq.inside
  cases hwrite : req.write with
  | true =>
      rw [hwrite] at hmoved
      have hev : requestEvents req w = [.wrote req.base (bytesOf req.segs)] := by
        simp [requestEvents, hreq.fs, hwrite]
      rw [hev]
      constructor
      · have hlog : accesses (tr ++ [.wrote req.base (bytesOf req.segs)]) =
            accesses tr ++ [.write req.base (bytesOf req.segs)] := by
          simp [accesses, DiskEvent.access]
        rw [hlog]
        refine h.holds.access fun i _ => data_of_write ?_ ?_ i
        · rw [length_bytesOf]
          exact hmoved.write_device rfl
        · rw [length_bytesOf]
          exact hmoved.write_rest rfl
      · refine history_concat.mpr ⟨h.reads, fun base bytes he => ?_⟩
        cases he
  | false =>
      rw [hwrite] at hmoved
      have hev : requestEvents req w = [.read req.base (bytesOf w.segs)] := by
        simp [requestEvents, hreq.fs, hwrite]
      have hdev := hmoved.read_device rfl
      have hbytes : bytesOf w.segs =
          Bytes.slice m.dev.data req.base (totalBytes req.segs) :=
        hmoved.read_segs rfl
      rw [hev]
      constructor
      · have hlog : accesses (tr ++ [.read req.base (bytesOf w.segs)]) =
            accesses tr := by
          simp [accesses, DiskEvent.access]
        rw [hlog]
        dsimp only
        rw [hdev]
        exact h.holds
      · refine history_concat.mpr ⟨h.reads, fun base bytes he => ?_⟩
        cases he
        rw [hbytes, Bytes.length_slice]
        exact h.holds.read (by omega)

theorem Stores.media (h : Stores size data m tr) (hsize : m.dev.size = size)
    {act : MediaAct} {ev : List MediaEvent}
    (hstep : (media size data).step m act = some (m', ev)) :
    Stores size data m' (tr ++ ev.map .media) := by
  obtain ⟨-, hcase⟩ := media_cases hstep
  constructor
  · rcases hcase with ⟨⟨n, rfl⟩, hdata⟩ | ⟨hnone, hdata⟩
    · have hlog : accesses (tr ++ [MediaEvent.opened n true].map .media) =
          accesses tr ++ [.fill 0] := by
        simp [accesses, DiskEvent.access]
      rw [hlog]
      refine h.holds.access fun i hi => ?_
      have hlt : i < m.dev.ulongSize.toNat := by
        rw [Blk1Dev.toNat_ulongSize (by rw [hsize]; omega), hsize]
        exact hi
      rw [hdata]
      simp [Access.put, hlt]
    · have hlog : accesses (tr ++ ev.map .media) = accesses tr := by
        have hsilent : (ev.map DiskEvent.media).filterMap DiskEvent.access = [] := by
          refine List.filterMap_eq_nil_iff.mpr fun e he => ?_
          obtain ⟨e', he', rfl⟩ := List.mem_map.mp he
          cases e' with
          | opened n zeroed =>
              cases zeroed with
              | false => rfl
              | true => exact absurd he' (hnone n)
          | _ => rfl
        rw [accesses, List.filterMap_append, hsilent, List.append_nil]
        rfl
      rw [hlog, hdata]
      exact h.holds
  · refine h.reads.append fun before e he base bytes heq => ?_
    subst heq
    simp at he

/-- As long as its requests are regular, every run of the device is a run of a
store. -/
theorem stores_of_regular (size : Int32) (data : Bytes) (acts : List DiskAct)
    (hregular : (disk size data).Meets (RegularAct size) acts) :
    (disk size data).Always (Stores size data) acts := by
  refine hregular.always ⟨holds_nil _ _, history_nil⟩ ?_
  intro m tr act m' ev hreach hstores hstep hok
  have hsize := size_of_reachable hreach
  cases act with
  | request req =>
      simp only [disk] at hstep
      split_ifs at hstep
      cases hstep
      exact hstores.request hsize hok
  | media act =>
      obtain ⟨⟨t, ev'⟩, hmedia, heq⟩ := Option.map_eq_some_iff.mp hstep
      cases heq
      exact hstores.media hsize hmedia

/-- A request for sector 3, with a buffer of one byte value. -/
def sectorRequest (write : Bool) (b : UInt8) : Request where
  pos := 3
  passthrough := false
  write := write
  segs := [{ bvLen := 512, buffer := fun _ => b }]

/-- A sector is written and read, and read again after a media change. -/
def session : List DiskAct :=
  [.media .openDisk, .request (sectorRequest true 7),
    .request (sectorRequest false 0), .media .releaseDisk, .media .expire,
    .media .invalidate, .media .openDisk, .request (sectorRequest false 1)]

theorem session_stores :
    (disk 524288 fun _ => 9).Always (Stores 524288 fun _ => 9) session :=
  stores_of_regular _ _ _ (System.meets_of_check (by decide +kernel))

end BlockDriver
end KernelDrivers
