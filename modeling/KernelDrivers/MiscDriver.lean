import KernelDrivers.Lib.Pool
import KernelDrivers.Lib.Register
import KernelDrivers.Lib.System

/-!
# The message buffer of `misctest.c`

`readFunc` copies from the start of `kernel_buffer` whatever the offset of the
handle is, which it only counts up; `writeFunc` stores a NUL behind what it
copies.  Neither looks at the size of the buffer.  `startUp` registers the
device before it allocates the buffer, so that handles may come in between.

A transfer to or from user space may stop early: `copied`, or the length of
what the user has there, says after how many bytes.
-/

namespace KernelDrivers
namespace MiscDriver

open Lib Register

/-- What `startUp` allocates. -/
def bufferSize : Nat := 100

/-- What `startUp` does next. -/
inductive StartUp where
  | register
  | allocate
  | store
  | returned
  | failed
  deriving DecidableEq

/-- An open file: `f_pos`, and what its reads have given. -/
structure Handle where
  readOffset : Nat
  reader : Reader
  deriving DecidableEq

structure MiscTest where
  startUp : StartUp
  /-- `none` is the NULL pointer. -/
  kernelBuffer : Option Bytes
  /-- What the last write was given. -/
  message : Option (List UInt8)
  handles : List Handle

def MiscTest.initial : MiscTest := ⟨.register, none, none, []⟩

def MiscTest.size (s : MiscTest) : Nat :=
  match s.kernelBuffer with
  | none => 0
  | some _ => bufferSize

/-- `strlcpy` of a string into `size` bytes. -/
def strlcpy (dst : Bytes) (src : List UInt8) (size : Nat) : Bytes :=
  if size = 0 then dst else Bytes.storeList dst (src.take (size - 1) ++ [0])

/-- The string of `startUp`. -/
def initmsg : List UInt8 := "initmsg".toList.map Char.toUInt8

/-- `readFunc`: what reaches the user and the transfer.  Nothing can be copied
from a NULL pointer. -/
def readFunc (s : MiscTest) (readCount copied : Nat) :
    List UInt8 × Transfer :=
  let moved := match s.kernelBuffer with
    | none => []
    | some buffer => Bytes.slice buffer 0 (min copied readCount)
  (moved,
    { size := s.size, memory := readCount, user := readCount
      count := readCount, moved := moved.length, returned := readCount })

/-- `writeFunc`: the buffer and the transfer, which reaches as far as the
NUL. -/
def writeFunc (s : MiscTest) (user : List UInt8) (writeCount : Nat) :
    Option Bytes × Transfer :=
  (s.kernelBuffer.map fun buffer =>
      Function.update (Bytes.storeList buffer (fetched user writeCount))
        writeCount 0,
    { size := s.size, memory := writeCount + 1, user := writeCount
      count := writeCount, moved := min writeCount user.length
      returned := writeCount })

/-- What can be seen: `strlcpy` in `startUp` with the size of the buffer and how
far it goes; a read with its reader and the message before it and the bytes it
gave; a write. -/
inductive Event where
  | store (size memory : Nat)
  | read (t : Transfer) (reader : Reader) (message : Option (List UInt8))
      (moved : List UInt8)
  | write (t : Transfer)
  deriving DecidableEq

inductive Act where
  /-- The next call of `startUp`, and whether it succeeds. -/
  | startUp (ok : Bool)
  | open
  | read (h readCount copied : Nat)
  | write (h : Nat) (user : List UInt8) (writeCount : Nat)
  deriving DecidableEq

/-- The device is there for `open`. -/
def MiscTest.Registered (s : MiscTest) : Prop :=
  s.startUp ≠ .register ∧ s.startUp ≠ .failed

instance (s : MiscTest) : Decidable s.Registered :=
  inferInstanceAs (Decidable (_ ∧ _))

/-- One call of `startUp`; `garbage` is what `kvmalloc` leaves in the memory.
Whether `kvmalloc` failed is not looked at: `strlcpy` through the NULL pointer
is shown as one into a buffer of size 0. -/
def MiscTest.stepStartUp (garbage : Bytes) (s : MiscTest) (ok : Bool) :
    Option (MiscTest × List Event) :=
  match s.startUp with
  | .register =>
      some ({ s with startUp := if ok then .allocate else .failed }, [])
  | .allocate =>
      some ({ s with
        startUp := .store
        kernelBuffer := if ok then some garbage else none }, [])
  | .store =>
      some ({ s with
        startUp := .returned
        kernelBuffer := s.kernelBuffer.map fun buffer =>
          strlcpy buffer initmsg 8 }, [.store s.size 8])
  | .returned => none
  | .failed => none

def MiscTest.step (garbage : Bytes) (s : MiscTest) :
    Act → Option (MiscTest × List Event)
  | .startUp ok => s.stepStartUp garbage ok
  | .open =>
      if s.Registered then
        some ({ s with handles := s.handles ++ [⟨0, .opened⟩] }, [])
      else none
  | .read h readCount copied =>
      s.handles[h]?.map fun handle =>
        let result := readFunc s readCount copied
        ({ s with
          handles := s.handles.set h
            ⟨handle.readOffset + readCount,
              handle.reader.afterRead readCount result.1⟩ },
          [.read result.2 handle.reader s.message result.1])
  | .write h user writeCount =>
      s.handles[h]?.map fun _ =>
        let result := writeFunc s user writeCount
        ({ s with
          kernelBuffer := result.1
          message := some (user.take writeCount)
          handles := s.handles.map fun handle =>
            { handle with reader := handle.reader.afterWrite } },
          [.write result.2])

def miscTest (garbage : Bytes) : System MiscTest Act Event where
  init := MiscTest.initial
  step := MiscTest.step garbage

/-! ## The message buffer -/

/-- What is asked of one call: that it stays in the buffer; of a read and a
write also that they return what they move; of a read after a write also that
it gives its reader the next part of the message. -/
def Event.Ok : Event → Prop
  | .store size memory => memory ≤ size
  | .read t reader message moved =>
      t.Truthful ∧ ∀ m ∈ message, reader.Served m t.count moved
  | .write t => t.Truthful

/-- The buffer holds the message, for the handles that will read it. -/
def Holds (s : MiscTest) (m : List UInt8) : Prop :=
  ∃ buffer ∈ s.kernelBuffer, m.length < bufferSize ∧
    Bytes.slice buffer 0 m.length = m

/-- The device is a message buffer: every call is right, the buffer holds the
message of the last write, and what a followed reader has is the first part of
it. -/
structure IsMessageBuffer (s : MiscTest) (tr : List Event) : Prop where
  events : ∀ e ∈ tr, e.Ok
  stored : ∀ m ∈ s.message, Holds s m
  readers : ∀ m ∈ s.message, ∀ h ∈ s.handles, h.reader.Follows m

/-- A write leaves room for the NUL and a read asks for no more than the
buffer has, and neither stops early.  A handle that has received `p` bytes of
the message reads only as far as the message goes, and only bytes that are the
same from `p` on as from the start.  When `startUp` stores its string the
buffer is there, and a message that is in it already agrees with the string. -/
def Proper (s : MiscTest) : Act → Prop
  | .startUp _ => s.startUp = .store →
      s.kernelBuffer ≠ none ∧
        ∀ m ∈ s.message, m.take 8 <+: initmsg ++ [0]
  | .open => True
  | .read h readCount copied => ∀ handle ∈ s.handles[h]?,
      readCount ≤ s.size ∧ readCount ≤ copied ∧
        ∀ m ∈ s.message, handle.reader.following = true →
          let p := handle.reader.received.length
          p + readCount ≤ m.length ∧
            m.take readCount = (m.drop p).take readCount
  | .write h user writeCount => s.handles[h]? ≠ none →
      writeCount + 1 ≤ s.size ∧ writeCount ≤ user.length

variable {garbage : Bytes} {s s' : MiscTest} {a : Act} {tr ev : List Event}

/-! ## One call -/

theorem readFunc_truthful_iff (s : MiscTest) (readCount copied : Nat) :
    (readFunc s readCount copied).2.Truthful ↔
      readCount ≤ s.size ∧ readCount ≤ copied := by
  have hmoved : readCount ≤ s.size →
      ((readFunc s readCount copied).1.length = readCount ↔
        readCount ≤ copied) := by
    intro hsize
    cases hbuffer : s.kernelBuffer with
    | none =>
        simp only [MiscTest.size, hbuffer] at hsize
        simp only [readFunc, hbuffer, List.length_nil]
        omega
    | some buffer =>
        simp only [readFunc, hbuffer, Bytes.length_slice]
        omega
  constructor
  · rintro ⟨hmemory, -, hreturned, -⟩
    exact ⟨hmemory, (hmoved hmemory).mp hreturned.symm⟩
  · rintro ⟨hsize, hcopied⟩
    exact ⟨hsize, le_refl _, ((hmoved hsize).mpr hcopied).symm, le_refl _⟩

theorem writeFunc_truthful_iff (s : MiscTest) (user : List UInt8)
    (writeCount : Nat) :
    (writeFunc s user writeCount).2.Truthful ↔
      writeCount + 1 ≤ s.size ∧ writeCount ≤ user.length := by
  constructor
  · rintro ⟨hmemory, -, hreturned, -⟩
    simp only [writeFunc] at hmemory hreturned
    exact ⟨hmemory, by omega⟩
  · rintro ⟨hsize, hlength⟩
    refine ⟨hsize, le_refl _, ?_, le_refl _⟩
    show writeCount = min writeCount user.length
    omega

/-- The first bytes of a buffer that holds the message, given to a reader that
has a first part of it. -/
theorem served_slice_iff {buffer : Bytes} {m : List UInt8} {r : Reader}
    (hholds : Bytes.slice buffer 0 m.length = m) (hfollows : r.Follows m)
    (n : Nat) :
    r.Served m n (Bytes.slice buffer 0 n) ↔
      (r.following = true → r.received.length + n ≤ m.length ∧
        m.take n = (m.drop r.received.length).take n) := by
  rcases Nat.eq_zero_or_pos n with rfl | hpos
  · rw [Bytes.slice_zero, Reader.served_nil_iff]
    refine iff_of_true (fun _ hlt => absurd hlt (lt_irrefl 0)) ?_
    exact fun hfollowing => ⟨(hfollows hfollowing).length_le, by simp⟩
  · have hmoved : Bytes.slice buffer 0 n ≠ [] := by
      apply List.ne_nil_of_length_pos
      rwa [Bytes.length_slice]
    rw [Reader.served_iff hmoved]
    refine imp_congr_right fun hfollowing => ?_
    rw [append_prefix_iff (hfollows hfollowing), List.prefix_iff_eq_take,
      Bytes.length_slice]
    have hstart : n ≤ m.length → Bytes.slice buffer 0 n = m.take n := by
      intro hn
      rw [← Bytes.take_slice buffer hn, hholds]
    constructor
    · intro heq
      have hlength := congrArg List.length heq
      rw [Bytes.length_slice, List.length_take, List.length_drop] at hlength
      refine ⟨by omega, ?_⟩
      rw [← hstart (by omega)]
      exact heq
    · rintro ⟨hfits, hsame⟩
      rw [hstart (by omega)]
      exact hsame

/-- A read of a followed handle. -/
theorem read_iff (h : IsMessageBuffer s tr) {handle : Handle}
    (hmem : handle ∈ s.handles) (readCount copied : Nat) :
    (Event.read (readFunc s readCount copied).2 handle.reader s.message
        (readFunc s readCount copied).1).Ok ↔
      readCount ≤ s.size ∧ readCount ≤ copied ∧
        ∀ m ∈ s.message, handle.reader.following = true →
          handle.reader.received.length + readCount ≤ m.length ∧
            m.take readCount =
              (m.drop handle.reader.received.length).take readCount := by
  show Transfer.Truthful _ ∧ _ ↔ _
  rw [readFunc_truthful_iff, and_assoc]
  refine and_congr_right fun _ => and_congr_right fun hcopied => ?_
  refine forall₂_congr fun m hm => ?_
  obtain ⟨buffer, hbuffer, -, hholds⟩ := h.stored m hm
  have hmoved : (readFunc s readCount copied).1 =
      Bytes.slice buffer 0 readCount := by
    simp only [readFunc, Option.mem_def.mp hbuffer, Nat.min_eq_right hcopied]
  rw [hmoved]
  exact served_slice_iff hholds (h.readers m hm handle hmem) readCount

/-- A write that leaves room for the NUL leaves its message in the buffer. -/
theorem holds_write {user : List UInt8} {writeCount : Nat}
    (hsize : writeCount + 1 ≤ s.size) (hlength : writeCount ≤ user.length)
    (handles : List Handle) :
    Holds { s with
      kernelBuffer := (writeFunc s user writeCount).1
      message := some (user.take writeCount)
      handles := handles } (user.take writeCount) := by
  cases hbuffer : s.kernelBuffer with
  | none =>
      simp only [MiscTest.size, hbuffer] at hsize
      omega
  | some buffer =>
      simp only [MiscTest.size, hbuffer] at hsize
      have htake : (user.take writeCount).length = writeCount :=
        List.length_take_of_le hlength
      refine ⟨_, by simp only [writeFunc, hbuffer, Option.map_some]; rfl, ?_, ?_⟩
      · rw [htake]
        exact hsize
      · rw [htake, Bytes.slice_update_of_le _ _ (le_refl writeCount),
          Bytes.slice_storeList_of_le _ (length_fetched user writeCount).ge,
          fetched_of_le hlength]
        exact List.take_of_length_le htake.le

/-- The string of `startUp` is stored over a message. -/
theorem holds_store_iff {m : List UInt8} (h : Holds s m) (step : StartUp) :
    Holds { s with
      startUp := step
      kernelBuffer := s.kernelBuffer.map fun buffer =>
        strlcpy buffer initmsg 8 } m ↔
      m.take 8 <+: initmsg ++ [0] := by
  obtain ⟨buffer, hbuffer, hlength, hholds⟩ := h
  have hsame : Bytes.slice (strlcpy buffer initmsg 8) 0 m.length = m ↔
      m.take 8 <+: initmsg ++ [0] :=
    Bytes.slice_storeList_eq_iff hholds
  rw [← hsame]
  constructor
  · rintro ⟨buffer', hbuffer', -, hafter⟩
    rw [Option.mem_def, Option.mem_def.mp hbuffer] at hbuffer'
    cases hbuffer'
    exact hafter
  · intro hafter
    refine ⟨strlcpy buffer initmsg 8, ?_, hlength, hafter⟩
    rw [Option.mem_def, Option.mem_def.mp hbuffer, Option.map_some]

theorem eight_le_size_iff (s : MiscTest) :
    8 ≤ s.size ↔ s.kernelBuffer ≠ none := by
  cases hbuffer : s.kernelBuffer <;> simp [MiscTest.size, hbuffer, bufferSize]

/-! ## Runs -/

/-- Until `startUp` allocates there is no buffer. -/
theorem no_buffer_before (hreach : (miscTest garbage).Reachable s)
    (hstart : s.startUp = .register ∨ s.startUp = .allocate) :
    s.kernelBuffer = none := by
  refine (miscTest garbage).reachable_invariant
    (I := fun s => s.startUp = .register ∨ s.startUp = .allocate →
      s.kernelBuffer = none) (fun _ => rfl) ?_ hreach hstart
  intro s a s' ev ih hstep hstart
  cases a with
  | startUp ok =>
      change s.stepStartUp garbage ok = _ at hstep
      unfold MiscTest.stepStartUp at hstep
      split at hstep
      case h_1 hregister =>
        cases hstep
        exact ih (Or.inl hregister)
      case h_2 => cases hstep; simp at hstart
      case h_3 => cases hstep; simp at hstart
      case h_4 => cases hstep
      case h_5 => cases hstep
  | «open» =>
      obtain ⟨-, heq⟩ := Option.ite_none_right_eq_some.mp hstep
      cases heq
      exact ih hstart
  | read i readCount copied =>
      obtain ⟨handle, -, heq⟩ := Option.map_eq_some_iff.mp hstep
      cases heq
      exact ih hstart
  | write i user writeCount =>
      obtain ⟨handle, -, heq⟩ := Option.map_eq_some_iff.mp hstep
      cases heq
      show Option.map _ s.kernelBuffer = none
      rw [ih hstart, Option.map_none]

theorem startUp_step_iff (hreach : (miscTest garbage).Reachable s)
    (h : IsMessageBuffer s tr) {ok : Bool}
    (hstep : s.stepStartUp garbage ok = some (s', ev)) :
    IsMessageBuffer s' (tr ++ ev) ↔ Proper s (.startUp ok) := by
  unfold MiscTest.stepStartUp at hstep
  split at hstep
  case h_1 hregister =>
    cases hstep
    refine iff_of_true ⟨by simpa using h.events, h.stored, h.readers⟩ ?_
    intro hstore
    rw [hregister] at hstore
    cases hstore
  case h_2 hallocate =>
    cases hstep
    -- no message was stored before there was a buffer
    refine iff_of_true ⟨by simpa using h.events, ?_, h.readers⟩ ?_
    · intro m hm
      obtain ⟨buffer, hbuffer, -⟩ := h.stored m hm
      rw [no_buffer_before hreach (Or.inr hallocate)] at hbuffer
      cases hbuffer
    · intro hstore
      rw [hallocate] at hstore
      cases hstore
  case h_3 hstore =>
    cases hstep
    -- the last statement stores 8 bytes over whatever is in the buffer
    constructor
    · intro hafter _
      have hsize : 8 ≤ s.size := hafter.events (.store s.size 8) (by simp)
      refine ⟨(eight_le_size_iff s).mp hsize, fun m hm => ?_⟩
      exact (holds_store_iff (h.stored m hm) .returned).mp (hafter.stored m hm)
    · intro hproper
      obtain ⟨hbuffer, hagrees⟩ := hproper hstore
      have hsize : 8 ≤ s.size := (eight_le_size_iff s).mpr hbuffer
      refine ⟨Pool.forall_concat h.events hsize, fun m hm => ?_, h.readers⟩
      exact (holds_store_iff (h.stored m hm) .returned).mpr (hagrees m hm)
  case h_4 => cases hstep
  case h_5 => cases hstep

theorem read_step_iff (h : IsMessageBuffer s tr) {i readCount copied : Nat}
    (hstep : (miscTest garbage).step s (.read i readCount copied) = some (s', ev)) :
    IsMessageBuffer s' (tr ++ ev) ↔ Proper s (.read i readCount copied) := by
  obtain ⟨handle, hhandle, heq⟩ := Option.map_eq_some_iff.mp hstep
  cases heq
  have hmem : handle ∈ s.handles := List.mem_of_getElem? hhandle
  have hcond : Proper s (.read i readCount copied) ↔
      (Event.read (readFunc s readCount copied).2 handle.reader s.message
        (readFunc s readCount copied).1).Ok := by
    rw [read_iff h hmem]
    simp only [Proper, hhandle, Option.mem_some_iff, forall_eq']
  rw [hcond]
  constructor
  · exact fun hafter => hafter.events _ (by simp)
  · intro hok
    refine ⟨Pool.forall_concat h.events hok, h.stored, fun m hm => ?_⟩
    have hfollows := h.readers m hm handle hmem
    exact Pool.forall_set (h.readers m hm)
      (hfollows.afterRead (hok.2 m hm))

theorem write_step_iff (h : IsMessageBuffer s tr) {i : Nat}
    {user : List UInt8} {writeCount : Nat}
    (hstep : (miscTest garbage).step s (.write i user writeCount) = some (s', ev)) :
    IsMessageBuffer s' (tr ++ ev) ↔ Proper s (.write i user writeCount) := by
  obtain ⟨handle, hhandle, heq⟩ := Option.map_eq_some_iff.mp hstep
  cases heq
  have hcond : Proper s (.write i user writeCount) ↔
      (Event.write (writeFunc s user writeCount).2).Ok := by
    show _ ↔ Transfer.Truthful _
    rw [writeFunc_truthful_iff]
    simp only [Proper, hhandle]
    simp
  rw [hcond]
  constructor
  · exact fun hafter => hafter.events _ (by simp)
  · intro hok
    obtain ⟨hsize, hlength⟩ := (writeFunc_truthful_iff s user writeCount).mp hok
    refine ⟨Pool.forall_concat h.events hok, fun m hm => ?_,
      fun m _ x hx => ?_⟩
    · cases Option.mem_some_iff.mp hm
      exact holds_write hsize hlength _
    · obtain ⟨x₀, -, rfl⟩ := List.mem_map.mp hx
      exact Reader.follows_afterWrite _ x₀.reader

theorem isMessageBuffer_step_iff (hreach : (miscTest garbage).Reachable s)
    (h : IsMessageBuffer s tr)
    (hstep : (miscTest garbage).step s a = some (s', ev)) :
    IsMessageBuffer s' (tr ++ ev) ↔ Proper s a := by
  cases a with
  | startUp ok => exact startUp_step_iff hreach h hstep
  | «open» =>
      obtain ⟨-, heq⟩ := Option.ite_none_right_eq_some.mp hstep
      cases heq
      refine iff_of_true ⟨by simpa using h.events, h.stored, ?_⟩ trivial
      intro m hm
      exact Pool.forall_concat (h.readers m hm) Reader.follows_opened
  | read => exact read_step_iff h hstep
  | write => exact write_step_iff h hstep

/-- The device is a message buffer at every point of a run, if and only if
every call of the run is a proper one. -/
theorem isMessageBuffer_iff_proper (garbage : Bytes) (acts : List Act) :
    (miscTest garbage).Always IsMessageBuffer acts ↔
      (miscTest garbage).Meets Proper acts := by
  have hinit : IsMessageBuffer (miscTest garbage).init [] := by
    refine ⟨by simp, fun m hm => ?_, fun m hm => ?_⟩
    · cases hm
    · cases hm
  refine (miscTest garbage).always_iff_meets hinit ?_ acts
  intro s tr a s' ev hreach hlaw hstep
  exact isMessageBuffer_step_iff hreach hlaw hstep

/-- Three bytes are written and read, and the handle reads on. -/
def readOn : List Act :=
  [.startUp true, .startUp true, .startUp true, .open, .write 0 [97, 98, 99] 3,
    .read 0 3 3, .read 0 3 3]

/-- The second read gives the message again. -/
theorem message_given_again :
    ∃ s tr, (miscTest fun _ => 0).run readOn = some (s, tr) ∧
      ¬ IsMessageBuffer s tr := by
  let again : Event := .read ⟨100, 3, 3, 3, 3, 3⟩ ⟨[97, 98, 99], true⟩
    (some [97, 98, 99]) [97, 98, 99]
  refine ⟨_, [.store 100 8, .write ⟨100, 4, 3, 3, 3, 3⟩,
    .read ⟨100, 3, 3, 3, 3, 3⟩ .opened (some [97, 98, 99]) [97, 98, 99],
    again], rfl, fun hlaw => ?_⟩
  have hserved := (hlaw.events again (by simp)).2 _ rfl rfl
  have hlength := (hserved.1 (by simp)).length_le
  exact absurd hlength (by decide)

end MiscDriver
end KernelDrivers
