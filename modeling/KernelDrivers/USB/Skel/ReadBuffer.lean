import KernelDrivers.USB.Skel.ReadSide

/-!
# The bounds of the read buffer

Every read URB asks for at most `bulk_in_size` bytes.  As long as none
completes with more than it asked for, the bytes of the buffer are counted by
`bulk_in_copied <= bulk_in_filled <= bulk_in_size` in all states, and with
`ReadSide` a reader has URB and buffer for itself.
-/

namespace KernelDrivers
namespace USB
namespace Skel

open Lib

/-- The step is no completion of the read URB with more than the requested
length. -/
def ShortRead (s : State) : Act → Prop
  | .readCompletes _ payload =>
      ∀ length ∈ s.dev.bulkInUrb, payload.length ≤ length
  | _ => True

instance (s : State) (a : Act) : Decidable (ShortRead s a) :=
  match a with
  | .readCompletes _ _ => inferInstanceAs (Decidable (∀ _ ∈ _, _))
  | .core _ _ | .suspend | .reset | .disconnect | .openFile | .release _
  | .file _ _ | .enterRead _ _ _ | .enterWrite _ _ _ | .enterFlush _
  | .call _ _ | .readWakesUp | .writeCompletes _ _
  | .writeCallback _ => isTrue trivial

/-- Readers use the read URB and its buffer exclusively: whoever stands at the
submission finds the URB idle, whoever copies from the buffer, too, and whoever
computes `available` subtracts the smaller count. -/
structure ReadExclusive (s : State) (_ : List Event) : Prop where
  submit : ∀ f nonblock count length next,
    (f, Op.read nonblock count (.submit length next)) ∈ s.calls →
      s.dev.bulkInUrb = none
  copy : ∀ f nonblock count available,
    (f, Op.read nonblock count (.copy available)) ∈ s.calls →
      s.dev.bulkInUrb = none
  inspect : ∀ f nonblock count,
    (f, Op.read nonblock count .inspect) ∈ s.calls →
      s.dev.bulkInCopied ≤ s.dev.bulkInFilled ∧
        s.dev.bulkInFilled ≤ s.dev.bulkInSize

/-- What a reader is going to ask for. -/
def ReadPc.Requests (size : Nat) : ReadPc → Prop
  | .emptyBuffer length _ | .submit length _ => length ≤ size
  | _ => True

def Op.Requests (size : Nat) : Op → Prop
  | .read _ _ pc => pc.Requests size
  | _ => True

/-- The counts of the buffer are in order. -/
structure UsbSkel.Bounded (d : UsbSkel) : Prop where
  copied : d.bulkInCopied ≤ d.bulkInFilled
  filled : d.bulkInFilled ≤ d.bulkInSize
  inFlight : ∀ length ∈ d.bulkInUrb, length ≤ d.bulkInSize

/-- Nothing of the buffer is larger than it is, and before `skel_probe` knows
its size this is 0. -/
structure Bounded (s : State) : Prop where
  dev : s.dev.Bounded
  requests : ∀ c ∈ s.calls, c.2.Requests s.dev.bulkInSize
  probing : s.core = .findEndpoints → s.dev.bulkInSize = 0

section Moves

variable {d d' : UsbSkel} {me : Owner} {nonblock : Bool} {count : Nat}
  {o : Outcome} {ev : List Event}

theorem OpMove.bulkInSize_eq {op op' : Op} (h : OpMove d me op o d' op' ev) :
    d'.bulkInSize = d.bulkInSize := by
  cases h with
  | read h => cases h <;> rfl
  | write h => cases h <;> rfl
  | flush h => cases h <;> rfl

theorem FileMove.bulkInSize_eq {intfdata : Bool} {file file' : File}
    (h : FileMove d intfdata file o d' file' ev) :
    d'.bulkInSize = d.bulkInSize := by
  obtain ⟨k, n, rfl⟩ := h.frame
  rfl

/-- The thread of the USB core sets the size once, in `skel_probe`. -/
theorem CoreMove.bulkInSize {s s' : State} {pc : Core}
    (h : CoreMove s pc o s' ev) (hpc : pc ≠ .unbound) :
    s'.core ≠ .findEndpoints ∧
      (pc = .findEndpoints ∨ s'.dev.bulkInSize = s.dev.bulkInSize) := by
  cases h with
  | kzalloc | noMemory => exact absurd rfl hpc
  | endpoints => exact ⟨nofun, .inl rfl⟩
  | probeFails | dropRef =>
      obtain ⟨k, n, hput⟩ := krefPut_frame s.dev
      exact ⟨nofun, .inr (by rw [hput])⟩
  | _ => exact ⟨nofun, .inr rfl⟩

theorem ReadPc.Requests.mono {size size' : Nat} (hle : size ≤ size')
    {pc : ReadPc} (h : pc.Requests size) : pc.Requests size' := by
  cases pc with
  | emptyBuffer | submit => exact Nat.le_trans h hle
  | _ => trivial

theorem Op.Requests.mono {size size' : Nat} (hle : size ≤ size') {op : Op}
    (h : op.Requests size) : op.Requests size' := by
  cases op with
  | read nonblock count pc => exact ReadPc.Requests.mono hle h
  | write | flush => trivial

/-- A statement of `skel_read` keeps the counts in order. -/
theorem ReadMove.bounded {pc pc' : ReadPc}
    (h : ReadMove d me nonblock count pc o d' pc' ev) (hpc : pc.Ready d)
    (hrequests : pc.Requests d.bulkInSize) (hd : d.Bounded) :
    d'.Bounded ∧ pc'.Requests d.bulkInSize := by
  obtain ⟨hcopied, hfilled, hflight⟩ := hd
  cases h with
  | @copyShort _ available | @copyAll _ available =>
      obtain ⟨-, rfl⟩ := hpc
      refine ⟨⟨?_, hfilled, hflight⟩, trivial⟩
      show d.bulkInCopied + min _ count ≤ d.bulkInFilled
      omega
  | markOngoing =>
      exact ⟨⟨hcopied, hfilled, hflight⟩, Nat.min_le_left ..⟩
  | emptyBuffer => exact ⟨⟨le_rfl, Nat.zero_le _, hflight⟩, hrequests⟩
  | @submit _ next =>
      refine ⟨⟨hcopied, hfilled, fun _ hlength => ?_⟩, by cases next <;> trivial⟩
      cases hlength
      exact hrequests
  | @unmarkOngoing _ _ next =>
      exact ⟨⟨hcopied, hfilled, hflight⟩, by cases next <;> trivial⟩
  | _ => exact ⟨⟨hcopied, hfilled, hflight⟩, trivial⟩

theorem UsbSkel.Bounded.mono (h : d.Bounded) (hsame : SameRead d d')
    (hsize : d.bulkInSize ≤ d'.bulkInSize) : d'.Bounded where
  copied := by
    rw [hsame.bulkInCopied, hsame.bulkInFilled]
    exact h.copied
  filled := by
    rw [hsame.bulkInFilled]
    exact h.filled.trans hsize
  inFlight := by
    rw [hsame.bulkInUrb]
    exact fun length hlength => (h.inFlight length hlength).trans hsize

/-- The callback of a read URB that is not too long. -/
theorem UsbSkel.Bounded.readDone (hd : d.Bounded) {length : Nat}
    (hurb : d.bulkInUrb = some length) (hcopied : d.bulkInCopied = 0)
    {status : Int} {payload : List UInt8} (hshort : payload.length ≤ length) :
    (d.readDone status payload).Bounded where
  copied := by
    show d.bulkInCopied ≤ _
    rw [hcopied]
    exact Nat.zero_le _
  filled := by
    show (if status ≠ 0 then d.bulkInFilled else payload.length) ≤ d.bulkInSize
    split_ifs
    · exact hd.filled
    · exact hshort.trans (hd.inFlight length hurb)
  inFlight := nofun

end Moves

/-- A step that leaves the read path and the calls alone, and makes the buffer
no smaller. -/
theorem Bounded.mono {s s' : State} (h : Bounded s)
    (hsame : SameRead s.dev s'.dev) (hcalls : s'.calls = s.calls)
    (hsize : s.dev.bulkInSize ≤ s'.dev.bulkInSize)
    (hprobing : s'.core = .findEndpoints → s'.dev.bulkInSize = 0) :
    Bounded s' where
  dev := h.dev.mono hsame hsize
  requests := by
    rw [hcalls]
    exact fun c hc => (h.requests c hc).mono hsize
  probing := hprobing

/-- A step that leaves the read path, the calls and the size alone. -/
theorem Bounded.congr {s s' : State} (h : Bounded s)
    (hsame : SameRead s.dev s'.dev) (hcalls : s'.calls = s.calls)
    (hsize : s'.dev.bulkInSize = s.dev.bulkInSize)
    (hcore : s'.core = .findEndpoints → s.core = .findEndpoints) :
    Bounded s' :=
  h.mono hsame hcalls hsize.ge
    fun hprobing => hsize.trans (h.probing (hcore hprobing))

theorem Bounded.core {s s' : State} {o : Outcome} {ev : List Event}
    (h : Bounded s) (hcore : s.core ≠ .unbound)
    (hmove : CoreMove s s.core o s' ev) : Bounded s' := by
  obtain ⟨hbehind, hfound | hsize⟩ := hmove.bulkInSize hcore
  · refine h.mono (hmove.sameRead hcore) hmove.calls_eq ?_ fun hprobing => ?_
    · rw [h.probing hfound]
      exact Nat.zero_le _
    · exact absurd hprobing hbehind
  · exact h.congr (hmove.sameRead hcore) hmove.calls_eq hsize
      fun hprobing => absurd hprobing hbehind

theorem Bounded.call {s : State} {i f : Nat} {op op' : Op} {o : Outcome}
    {d' : UsbSkel} {ev : List Event} (h : Bounded s) (hside : ReadSide s)
    (hcall : s.calls[i]? = some (f, op))
    (hmove : OpMove s.dev (.call i) op o d' op' ev) :
    Bounded { s with dev := d', calls := s.calls.set i (f, op') } := by
  have hsize := hmove.bulkInSize_eq
  have hmem := List.mem_of_getElem? hcall
  have hnew : d'.Bounded ∧ op'.Requests s.dev.bulkInSize := by
    cases hmove with
    | read hmove =>
        exact hmove.bounded (hside.ready _ hmem) (h.requests _ hmem) h.dev
    | write hmove => exact ⟨h.dev.mono hmove.sameRead hsize.ge, trivial⟩
    | flush hmove => exact ⟨h.dev.mono hmove.sameRead hsize.ge, trivial⟩
  refine ⟨hnew.1, ?_, ?_⟩
  · rw [hsize]
    exact Pool.forall_set h.requests hnew.2
  · rw [hsize]
    exact h.probing

/-- One step that does not complete a read URB with too much. -/
theorem bounded_step {s s' : State} {a : Act} {ev : List Event}
    (hreach : skelDriver.Reachable s) (hcore : s.core ≠ .unbound)
    (h : Bounded s) (hmove : Move s a s' ev) (hshort : ShortRead s a) :
    Bounded s' := by
  have hside := readSide_of_reachable hreach
  have hsame : SameRead s.dev s.dev := ⟨rfl, rfl, rfl, rfl, rfl⟩
  cases hmove with
  | core hmove => exact h.core hcore hmove
  | suspend | reset | disconnect => exact h.congr hsame rfl rfl nofun
  | file _ hmove => exact h.congr hmove.sameRead rfl hmove.bulkInSize_eq id
  | enterRead | enterWrite | enterFlush =>
      exact ⟨h.dev, Pool.forall_concat h.requests trivial, h.probing⟩
  | call hcall hmove => exact h.call hside hcall hmove
  | @readCompletes status payload length hurb =>
      have hcopied := (hside.inFlight (by simp [hurb])).2.2
      exact ⟨h.dev.readDone hurb hcopied (hshort length hurb), h.requests,
        h.probing⟩
  | _ => exact h.congr ⟨rfl, rfl, rfl, rfl, rfl⟩ rfl rfl id

/-- In a run whose read URBs complete with no more than they asked for, the
counts are in order at every point. -/
theorem bounded_of_shortReads {acts : List Act}
    (hshort : skelDriver.Meets ShortRead acts) :
    skelDriver.Always (fun s _ => Bounded s) acts := by
  have hnew : UsbSkel.fresh.Bounded := ⟨le_rfl, le_rfl, nofun⟩
  have hnone : State.initial.dev.Bounded := ⟨le_rfl, le_rfl, nofun⟩
  refine hshort.always ⟨hnone, nofun, nofun⟩ ?_
  intro s tr a s' ev hreach hbounded hstep ha
  refine probed_cases (P := fun _ _ s' => Bounded s') ⟨hnone, nofun, nofun⟩
    ⟨hnew, nofun, fun _ => rfl⟩ hreach (step_cases hstep) fun hcore => ?_
  exact bounded_step hreach hcore hbounded (step_cases hstep) ha

/-- For any interleaving of reads, flushes, suspends, resets and the disconnect
with the completions of a read URB that brings no more than it was asked for,
the read URB and its buffer are used exclusively. -/
theorem readExclusive_of_shortReads (acts : List Act)
    (hshort : skelDriver.Meets ShortRead acts) :
    skelDriver.Always ReadExclusive acts := by
  intro before s tr hpre hrun
  have hside := readSide_of_reachable ⟨before, tr, hrun⟩
  have hbounded := bounded_of_shortReads hshort before s tr hpre hrun
  constructor
  · exact fun f nonblock count length next hmem => (hside.ready _ hmem).1
  · exact fun f nonblock count available hmem => (hside.ready _ hmem).1
  · exact fun _ _ _ _ => ⟨hbounded.dev.copied, hbounded.dev.filled⟩

/-- A read that is interrupted by a suspend, and one that gets the bytes. -/
def suspendedRead : List Act :=
  bringUp ++ [.enterRead 0 false 4] ++ List.replicate 9 (.call 0 .ok) ++
    [.suspend, .core .ok 0, .readCompletes (-ENOENT) [1], .readWakesUp,
      .core .ok 0] ++ List.replicate 4 (.call 0 .ok) ++
    [.enterRead 0 false 2] ++ List.replicate 8 (.call 1 .ok) ++
    [.readCompletes 0 [1, 2]] ++ List.replicate 5 (.call 1 .ok)

theorem readExclusive_suspendedRead :
    (skelDriver.run suspendedRead).isSome ∧
      skelDriver.Always ReadExclusive suspendedRead :=
  ⟨by decide, readExclusive_of_shortReads suspendedRead
    (System.meets_of_check (by decide))⟩

end Skel
end USB
end KernelDrivers
