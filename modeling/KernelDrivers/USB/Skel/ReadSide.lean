import KernelDrivers.USB.Skel.Mutex

/-!
# The reader and its URB

`skel_read` owns the read URB and the fields of the buffer while it is inside
`io_mutex` and no read is going on.  `ReadPc.Ready` says what each of its
statements relies on, and `ReadSide` that this always holds: while the URB is
in flight the buffer counts as empty, and no statement that touches the buffer
runs then.
-/

namespace KernelDrivers
namespace USB
namespace Skel

open Lib

/-- What a statement of `skel_read` relies on. -/
def ReadPc.Ready (d : UsbSkel) : ReadPc → Prop
  | .checkErrors | .clearErrors _ | .inspect => d.bulkInUrb = none
  | .copy available =>
      d.bulkInUrb = none ∧ available = d.bulkInFilled - d.bulkInCopied
  | .markOngoing _ _ =>
      d.bulkInUrb = none ∧ d.bulkInFilled - d.bulkInCopied = 0
  | .emptyBuffer _ _ =>
      d.bulkInUrb = none ∧ d.bulkInFilled - d.bulkInCopied = 0 ∧
        d.ongoingRead = true
  | .submit _ _ =>
      d.bulkInUrb = none ∧ d.bulkInFilled = 0 ∧ d.bulkInCopied = 0 ∧
        d.ongoingRead = true
  | .submitFailed _ _ => d.bulkInUrb = none
  | _ => True

def Op.Ready (d : UsbSkel) : Op → Prop
  | .read _ _ pc => pc.Ready d
  | _ => True

/-- The reader and the URB never meet. -/
structure ReadSide (s : State) : Prop where
  ready : ∀ c ∈ s.calls, c.2.Ready s.dev
  /-- While the URB is in flight everybody can see it, and the buffer is
  empty. -/
  inFlight : s.dev.bulkInUrb ≠ none →
    s.dev.ongoingRead = true ∧ s.dev.bulkInFilled = 0 ∧ s.dev.bulkInCopied = 0

/-- The fields of the device that belong to the read path. -/
structure SameRead (d d' : UsbSkel) : Prop where
  bulkInBuffer : d'.bulkInBuffer = d.bulkInBuffer
  bulkInFilled : d'.bulkInFilled = d.bulkInFilled
  bulkInCopied : d'.bulkInCopied = d.bulkInCopied
  ongoingRead : d'.ongoingRead = d.ongoingRead
  bulkInUrb : d'.bulkInUrb = d.bulkInUrb

theorem ReadPc.Ready.congr {d d' : UsbSkel} (hsame : SameRead d d')
    {pc : ReadPc} (h : pc.Ready d) : pc.Ready d' := by
  obtain ⟨-, hfilled, hcopied, hongoing, hurb⟩ := hsame
  cases pc <;> simp_all [ReadPc.Ready]

theorem Op.Ready.congr {d d' : UsbSkel} (hsame : SameRead d d') {op : Op}
    (h : op.Ready d) : op.Ready d' := by
  cases op with
  | read nonblock count pc => exact ReadPc.Ready.congr hsame h
  | write | flush => trivial

/-- While the URB is in flight no call relies on anything, so that its
callback is free to change the buffer. -/
theorem Op.Ready.readDone {d : UsbSkel} {op : Op} {length : Nat}
    (h : op.Ready d) (hurb : d.bulkInUrb = some length) {status : Int}
    {payload : List UInt8} : op.Ready (d.readDone status payload) := by
  cases op with
  | read nonblock count pc =>
      cases pc <;> simp_all [Op.Ready, ReadPc.Ready]
  | write | flush => trivial

/-- Outside `io_mutex` a call relies on nothing. -/
theorem Op.ready_of_outside {op : Op} (h : op.holdsIo = false)
    (d : UsbSkel) : op.Ready d := by
  cases op with
  | read nonblock count pc => cases pc <;> trivial
  | write | flush => trivial

section Moves

variable {d d' : UsbSkel} {me : Owner} {nonblock : Bool} {count : Nat}
  {o : Outcome} {ev : List Event}

theorem WriteMove.sameRead {pc pc' : WritePc}
    (h : WriteMove d me nonblock count pc o d' pc' ev) : SameRead d d' := by
  cases h <;> exact ⟨rfl, rfl, rfl, rfl, rfl⟩

theorem FlushMove.sameRead {pc pc' : FlushPc}
    (h : FlushMove d me pc o d' pc' ev) : SameRead d d' := by
  cases h <;> exact ⟨rfl, rfl, rfl, rfl, rfl⟩

/-- Outside `io_mutex` a reader leaves the buffer alone. -/
theorem ReadMove.sameRead {pc pc' : ReadPc}
    (h : ReadMove d me nonblock count pc o d' pc' ev)
    (hpc : pc.holdsIo = false) : SameRead d d' := by
  cases h <;> first | exact ⟨rfl, rfl, rfl, rfl, rfl⟩ | cases hpc

theorem FileMove.sameRead {intfdata : Bool} {file file' : File}
    (h : FileMove d intfdata file o d' file' ev) : SameRead d d' := by
  obtain ⟨k, n, rfl⟩ := h.frame
  exact ⟨rfl, rfl, rfl, rfl, rfl⟩

theorem CoreMove.sameRead {s s' : State} {pc : Core}
    (h : CoreMove s pc o s' ev) (hpc : pc ≠ .unbound) :
    SameRead s.dev s'.dev := by
  cases h with
  | kzalloc => exact absurd rfl hpc
  | probeFails | dropRef =>
      obtain ⟨k, n, hput⟩ := krefPut_frame s.dev
      rw [hput]
      exact ⟨rfl, rfl, rfl, rfl, rfl⟩
  | _ => exact ⟨rfl, rfl, rfl, rfl, rfl⟩

/-- Each statement of `skel_read` leaves behind what the next one relies
on. -/
theorem ReadMove.ready {pc pc' : ReadPc}
    (h : ReadMove d me nonblock count pc o d' pc' ev) (hpc : pc.Ready d)
    (hflight : d.bulkInUrb ≠ none → d.ongoingRead = true) :
    pc'.Ready d' := by
  -- whoever finds the flag down has the URB for itself
  have hidle : d.ongoingRead = false → d.bulkInUrb = none := by
    intro hongoing
    by_contra hurb
    rw [hflight hurb] at hongoing
    cases hongoing
  cases h with
  | idle hongoing | woken hongoing => exact hidle hongoing
  | tanked | noError => exact hpc
  | drained hdrained => exact ⟨hpc, hdrained⟩
  | filled => exact ⟨hpc, rfl⟩
  | copyShort hshort =>
      obtain ⟨hurb, rfl⟩ := hpc
      refine ⟨hurb, ?_⟩
      rw [Nat.min_eq_left (Nat.le_of_lt hshort)]
      simp only
      omega
  | markOngoing => exact ⟨hpc.1, hpc.2, rfl⟩
  | emptyBuffer => exact ⟨hpc.1, rfl, rfl, hpc.2.2⟩
  | @submit _ next => cases next <;> trivial
  | submitFails => exact hpc.1
  | @unmarkOngoing _ _ next => cases next <;> trivial
  | _ => trivial

/-- The URB goes into flight with an empty buffer, and its flag is not taken
back. -/
theorem ReadMove.inFlight {pc pc' : ReadPc}
    (h : ReadMove d me nonblock count pc o d' pc' ev) (hpc : pc.Ready d)
    (hflight : d.bulkInUrb ≠ none →
      d.ongoingRead = true ∧ d.bulkInFilled = 0 ∧ d.bulkInCopied = 0) :
    d'.bulkInUrb ≠ none →
      d'.ongoingRead = true ∧ d'.bulkInFilled = 0 ∧ d'.bulkInCopied = 0 := by
  cases h with
  | copyShort | copyAll | emptyBuffer => exact fun hurb => absurd hpc.1 hurb
  | unmarkOngoing => exact fun hurb => absurd hpc hurb
  | markOngoing => exact fun hurb => absurd hpc.1 hurb
  | submit => exact fun _ => ⟨hpc.2.2.2, hpc.2.1, hpc.2.2.1⟩
  | _ => exact hflight

end Moves

/-- A step that leaves the read path and the calls alone. -/
theorem ReadSide.congr {s s' : State} (h : ReadSide s)
    (hsame : SameRead s.dev s'.dev) (hcalls : s'.calls = s.calls) :
    ReadSide s' where
  ready := by
    rw [hcalls]
    exact fun c hc => (h.ready c hc).congr hsame
  inFlight := by
    rw [hsame.bulkInUrb, hsame.ongoingRead, hsame.bulkInFilled,
      hsame.bulkInCopied]
    exact h.inFlight

/-- A step of a call that leaves the read path alone. -/
theorem ReadSide.call_same {s : State} (h : ReadSide s) {i f : Nat} {op : Op}
    {d' : UsbSkel} (hsame : SameRead s.dev d') (hop : op.Ready d') :
    ReadSide { s with dev := d', calls := s.calls.set i (f, op) } where
  ready := Pool.forall_set
    (fun c hc => (h.ready c hc).congr hsame) hop
  inFlight := by
    have hdev : ReadSide { s with dev := d' } := h.congr hsame rfl
    exact hdev.inFlight

theorem ReadSide.call {s : State} (h : ReadSide s) (hmutex : IoMutex s)
    {i f : Nat} {op op' : Op} {o : Outcome} {d' : UsbSkel} {ev : List Event}
    (hcall : s.calls[i]? = some (f, op))
    (hmove : OpMove s.dev (.call i) op o d' op' ev) :
    ReadSide { s with dev := d', calls := s.calls.set i (f, op') } := by
  have hop := h.ready (f, op) (List.mem_of_getElem? hcall)
  cases hmove with
  | write hmove => exact h.call_same hmove.sameRead trivial
  | flush hmove => exact h.call_same hmove.sameRead trivial
  | @read nonblock count pc _ _ pc' _ hmove =>
      have hready : pc'.Ready d' :=
        hmove.ready hop fun hurb => (h.inFlight hurb).1
      cases hpc : pc.holdsIo with
      | false => exact h.call_same (hmove.sameRead hpc) hready
      | true =>
          -- every other call is outside the mutex and relies on nothing
          refine ⟨fun c hc => ?_, hmove.inFlight hop h.inFlight⟩
          obtain ⟨j, hj⟩ := List.mem_iff_getElem?.mp hc
          rcases Pool.set_cases hj with ⟨-, rfl⟩ | ⟨hji, hj⟩
          · exact hready
          · refine Op.ready_of_outside ?_ d'
            refine hmutex.outside ((State.holdsIo_call hcall).mpr hpc) hj ?_
            exact fun heq => hji (Owner.call.inj heq).symm

theorem readSide_of_reachable {s : State} (h : skelDriver.Reachable s) :
    ReadSide s := by
  refine probed_induction ?_ ?_ ?_ ?_ h
  · exact ⟨nofun, fun hurb => absurd rfl hurb⟩
  · exact ⟨nofun, fun hurb => absurd rfl hurb⟩
  · exact ⟨nofun, fun hurb => absurd rfl hurb⟩
  · intro s a s' ev hreach hcore ih hmove
    cases hmove with
    | core hmove => exact ih.congr (hmove.sameRead hcore) hmove.calls_eq
    | file _ hmove => exact ih.congr hmove.sameRead rfl
    | enterRead | enterWrite | enterFlush =>
        exact ⟨Pool.forall_concat ih.ready trivial, ih.inFlight⟩
    | call hcall hmove =>
        exact ih.call (ioMutex_of_reachable hreach) hcall hmove
    | readCompletes hurb =>
        exact ⟨fun c hc => (ih.ready c hc).readDone hurb,
          fun hnone => absurd rfl hnone⟩
    | _ => exact ih.congr ⟨rfl, rfl, rfl, rfl, rfl⟩ rfl

end Skel
end USB
end KernelDrivers
