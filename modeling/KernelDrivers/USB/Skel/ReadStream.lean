import KernelDrivers.Lib.Conserve
import KernelDrivers.USB.Skel.ReadSide

/-!
# The byte stream of `skel_read`

The payloads of the read URBs go into the buffer and from there to the
callers.  `readChannel` reads both sides off the events.  Between them are the
bytes that a call has copied and not yet returned, and the bytes of the buffer
from `bulk_in_copied` to `bulk_in_filled`.
-/

namespace KernelDrivers
namespace USB
namespace Skel

open Lib

/-- The bytes that a return value announces. -/
def announced (rv : Int) (user : List UInt8) : List UInt8 :=
  user.take rv.toNat

def Resume.copied : Resume → List UInt8
  | .retry => []
  | .exit rv user => announced rv user

/-- The bytes that a read has copied to user space and is going to return. -/
def ReadPc.copied : ReadPc → List UInt8
  | .markOngoing _ next | .emptyBuffer _ next | .submit _ next => next.copied
  | .submitFailed _ next => next.copied
  | .exit rv user => announced rv user
  | _ => []

def Op.copied : Op → List UInt8
  | .read _ _ pc => pc.copied
  | _ => []

/-- The buffer bytes from `bulk_in_copied` to `bulk_in_filled`. -/
def buffered (d : UsbSkel) : List UInt8 :=
  Bytes.slice d.bulkInBuffer d.bulkInCopied (d.bulkInFilled - d.bulkInCopied)

/-- The bytes that the calls in progress have copied. -/
def State.inHand (s : State) : List UInt8 :=
  s.calls.flatMap fun c => c.2.copied

/-- The payloads of the completed read URBs, the bytes returned by the reads,
and what is between them. -/
def readChannel : Channel State Event UInt8 where
  put
    | .readCompleted status payload => if status = 0 then payload else []
    | _ => []
  take
    | .returned rv user => announced rv user
    | _ => []
  held s := s.inHand ++ buffered s.dev

def Resume.Counted : Resume → Prop
  | .retry => True
  | .exit rv user => 0 ≤ rv → rv = user.length

def ReadPc.Counted : ReadPc → Prop
  | .markOngoing _ next | .emptyBuffer _ next | .submit _ next => next.Counted
  | .submitFailed rv next => rv < 0 ∧ next.Counted
  | .exit rv user => 0 ≤ rv → rv = user.length
  | _ => True

/-- A read that is not going to fail is going to return the number of bytes it
has copied. -/
def Op.Counted : Op → Prop
  | .read _ _ pc => pc.Counted
  | _ => True

/-- The step of the call is a `copy_to_user` that fails. -/
def Op.copyFaults : Op → Outcome → Bool
  | .read _ _ (.copy _), .fails _ => true
  | _, _ => false

/-- The step is no completion of the read URB with an error or with more than
the requested length, and no faulting `copy_to_user`. -/
def NoReadFault (s : State) : Act → Prop
  | .readCompletes status payload =>
      status = 0 ∧ ∀ length ∈ s.dev.bulkInUrb, payload.length ≤ length
  | .call i o => ∀ c ∈ s.calls[i]?, c.2.copyFaults o = false
  | _ => True

instance (s : State) (a : Act) : Decidable (NoReadFault s a) :=
  match a with
  | .readCompletes _ _ => inferInstanceAs (Decidable (_ ∧ ∀ _ ∈ _, _))
  | .call _ _ => inferInstanceAs (Decidable (∀ _ ∈ _, _))
  | .core _ _ | .suspend | .reset | .disconnect | .openFile | .release _
  | .file _ _ | .enterRead _ _ _ | .enterWrite _ _ _ | .enterFlush _
  | .readWakesUp | .writeCompletes _ _ | .writeCallback _ => isTrue trivial

/-! ## The return value of a read -/

theorem copyToUser_counted (d : UsbSkel) (n : Nat) (o : Outcome) :
    0 ≤ (copyToUser d n o).1 →
      (copyToUser d n o).1 = (copyToUser d n o).2.length := by
  cases o with
  | ok => simp [copyToUser]
  | fails err =>
      intro hnonneg
      have hneg : -(EFAULT : Int) < 0 := by decide
      exact absurd hnonneg (Int.not_le.mpr hneg)

theorem reported_neg (errors : Int) : reported errors < 0 := by
  unfold reported
  split_ifs with hpipe
  · rw [hpipe]
    decide
  · decide

theorem submitError_neg (rv : Int) : submitError rv < 0 := by
  unfold submitError
  split_ifs with hnomem
  · rw [hnomem]
    decide
  · decide

theorem ReadPc.counted_of_neg {rv : Int} (hneg : rv < 0) (user : List UInt8) :
    (ReadPc.exit rv user).Counted :=
  fun hnonneg => absurd hnonneg (Int.not_le.mpr hneg)

theorem Resume.counted_succeeded {next : Resume} (h : next.Counted) :
    next.succeeded.Counted := by
  cases next with
  | retry => trivial
  | exit => exact h

theorem Resume.counted_failed {rv : Int} {next : Resume} (hneg : rv < 0)
    (h : next.Counted) : (next.failed rv).Counted := by
  cases next with
  | retry => exact ReadPc.counted_of_neg hneg []
  | exit => exact h

theorem ReadMove.counted {d d' : UsbSkel} {me : Owner} {nonblock : Bool}
    {count : Nat} {o : Outcome} {ev : List Event} {pc pc' : ReadPc}
    (h : ReadMove d me nonblock count pc o d' pc' ev) (hpc : pc.Counted) :
    pc'.Counted := by
  cases h with
  | gone | wouldBlock | interrupted => exact ReadPc.counted_of_neg (by decide) []
  | clear => exact ReadPc.counted_of_neg (reported_neg _) []
  | copyShort | copyAll => exact copyToUser_counted d _ o
  | markOngoing | emptyBuffer => exact hpc
  | submit => exact Resume.counted_succeeded hpc
  | submitFails => exact ⟨submitError_neg _, hpc⟩
  | unmarkOngoing => exact Resume.counted_failed hpc.1 hpc.2
  | _ => trivial

/-- In every run a read that succeeds returns the number of bytes that it has
copied, faults or not. -/
theorem counted_of_reachable {s : State} (h : skelDriver.Reachable s) :
    ∀ c ∈ s.calls, c.2.Counted := by
  refine skelDriver.reachable_invariant
    (I := fun s => ∀ c ∈ s.calls, c.2.Counted) nofun ?_ h
  intro s a s' ev ih hstep
  cases step_cases hstep with
  | core hmove =>
      rw [hmove.calls_eq]
      exact ih
  | enterRead | enterWrite | enterFlush => exact Pool.forall_concat ih trivial
  | call hcall hmove =>
      have hop := ih _ (List.mem_of_getElem? hcall)
      refine Pool.forall_set ih ?_
      cases hmove with
      | read hmove => exact hmove.counted hop
      | write | flush => trivial
  | _ => exact ih

/-! ## One step -/

theorem buffered_congr {d d' : UsbSkel} (h : SameRead d d') :
    buffered d' = buffered d := by
  unfold buffered
  rw [h.bulkInBuffer, h.bulkInFilled, h.bulkInCopied]

/-- An empty buffer holds no bytes. -/
theorem buffered_eq_nil {d : UsbSkel}
    (h : d.bulkInFilled - d.bulkInCopied = 0) : buffered d = [] := by
  unfold buffered
  rw [h, Bytes.slice_zero]

@[simp] theorem Resume.copied_succeeded (next : Resume) :
    next.succeeded.copied = next.copied := by
  cases next <;> rfl

@[simp] theorem Resume.copied_failed (rv : Int) (next : Resume) :
    (next.failed rv).copied = next.copied := by
  cases next with
  | retry => exact List.take_nil
  | exit => rfl

/-- A call outside `io_mutex` has nothing in hand. -/
theorem Op.copied_of_outside {op : Op} (h : op.holdsIo = false) :
    op.copied = [] := by
  cases op with
  | read nonblock count pc => cases pc <;> first | rfl | cases h
  | write | flush => rfl

/-- A copy without a fault announces all the bytes that it copies. -/
theorem announced_copyToUser (d : UsbSkel) (n : Nat) :
    announced (copyToUser d n .ok).1 (copyToUser d n .ok).2 =
      Bytes.slice d.bulkInBuffer d.bulkInCopied n := by
  simp [announced, copyToUser]

@[simp] theorem announced_nil (rv : Int) : announced rv [] = [] :=
  List.take_nil

section Moves

variable {d d' : UsbSkel} {me : Owner} {nonblock : Bool} {count : Nat}
  {o : Outcome} {ev : List Event}

/-- The `copy_to_user` of `skel_read` moves the first bytes of the buffer into
the hand of the caller. -/
theorem buffered_copy {available : Nat}
    (h : available = d.bulkInFilled - d.bulkInCopied) (n : Nat) :
    buffered d =
      Bytes.slice d.bulkInBuffer d.bulkInCopied (min available n) ++
        buffered { d with
          bulkInCopied := d.bulkInCopied + min available n } := by
  unfold buffered
  rw [← Bytes.slice_add]
  congr 1
  simp only
  omega

/-- One step of a read conserves the bytes. -/
theorem ReadMove.conserves {pc pc' : ReadPc}
    (h : ReadMove d me nonblock count pc o d' pc' ev) (hpc : pc.Ready d)
    (hcopy : ∀ available, pc = .copy available → o = .ok) :
    pc.copied ++ buffered d ++ readChannel.puts ev =
      readChannel.takes ev ++ (pc'.copied ++ buffered d') := by
  cases h with
  | @copyShort _ available | @copyAll _ available =>
      rw [hcopy available rfl]
      show [] ++ buffered d ++ [] = announced _ _ ++ _
      rw [announced_copyToUser, List.append_nil, List.nil_append]
      exact buffered_copy hpc.2 count
  | emptyBuffer =>
      -- all bytes have been used, so the reset of the counts drops none
      rw [buffered_eq_nil hpc.2.1, buffered_eq_nil (d := _) rfl]
      simp [ReadPc.copied]
  | @submit _ next =>
      show next.copied ++ buffered d ++ [] = next.succeeded.copied ++ _
      rw [Resume.copied_succeeded, List.append_nil]
      rfl
  | @unmarkOngoing _ rv next =>
      show next.copied ++ buffered d ++ [] = (next.failed rv).copied ++ _
      rw [Resume.copied_failed, List.append_nil]
      rfl
  | _ => simp [ReadPc.copied, readChannel, buffered, Resume.copied]

/-- A call other than a read has nothing in hand and returns no bytes. -/
theorem OpMove.conserves {op op' : Op} (h : OpMove d me op o d' op' ev)
    (hop : op.Ready d)
    (hcopy : ∀ nonblock count available,
      op = .read nonblock count (.copy available) → o = .ok) :
    op.copied ++ buffered d ++ readChannel.puts ev =
      readChannel.takes ev ++ (op'.copied ++ buffered d') := by
  cases h with
  | read h =>
      exact h.conserves hop fun available heq =>
        hcopy _ _ available (by rw [heq])
  | write h =>
      rw [buffered_congr h.sameRead]
      cases h with
      | @freeCoherent _ _ buf => cases buf <;> simp [Op.copied, readChannel]
      | _ => simp [Op.copied, readChannel]
  | flush h =>
      rw [buffered_congr h.sameRead]
      cases h <;> simp [Op.copied, readChannel]

/-- From outside `io_mutex` a step neither copies nor returns bytes. -/
theorem OpMove.copied_of_outside {op op' : Op}
    (h : OpMove d me op o d' op' ev) (hop : op.holdsIo = false) :
    op'.copied = [] := by
  cases h with
  | read h => cases h <;> first | rfl | cases hop
  | write h => rfl
  | flush h => rfl

theorem OpMove.takes_of_outside {op op' : Op}
    (h : OpMove d me op o d' op' ev) (hop : op.holdsIo = false) :
    readChannel.takes ev = [] := by
  cases h with
  | read h => cases h <;> first | cases hop; done | simp [readChannel]
  | write h =>
      cases h with
      | @freeCoherent _ _ buf => cases buf <;> rfl
      | _ => simp [readChannel]
  | flush h => cases h <;> simp [readChannel]

theorem FileMove.quiet {intfdata : Bool} {file file' : File}
    (h : FileMove d intfdata file o d' file' ev) :
    readChannel.puts ev = [] ∧ readChannel.takes ev = [] := by
  rcases h.events with rfl | rfl <;> exact ⟨rfl, rfl⟩

theorem CoreMove.quiet {s s' : State} {pc : Core}
    (h : CoreMove s pc o s' ev) :
    readChannel.puts ev = [] ∧ readChannel.takes ev = [] := by
  rcases h.events with rfl | rfl | rfl <;> exact ⟨rfl, rfl⟩

end Moves

/-- While a call is inside `io_mutex` every other one has empty hands. -/
theorem copied_others {s : State} (hmutex : IoMutex s) {i f : Nat} {op : Op}
    (hcall : s.calls[i]? = some (f, op)) (hop : op.holdsIo = true) {j : Nat}
    {c : Nat × Op} (hji : j ≠ i) (hj : s.calls[j]? = some c) :
    c.2.copied = [] := by
  refine Op.copied_of_outside ?_
  refine hmutex.outside ((State.holdsIo_call hcall).mpr hop) hj ?_
  exact fun heq => hji (Owner.call.inj heq).symm

/-- Nobody inside `io_mutex` has bytes in hand. -/
theorem inHand_eq_nil {s : State} (hmutex : IoMutex s)
    (hfree : ∀ i, s.dev.ioMutex ≠ some (.call i)) : s.inHand = [] := by
  unfold State.inHand
  rw [List.flatMap_eq_nil_iff]
  exact fun c hc => Op.copied_of_outside (hmutex.outside_of_free hfree hc)

/-- A step of a call conserves the bytes. -/
theorem stepConserves_call {s : State} {i f : Nat} {op op' : Op}
    {o : Outcome} {d' : UsbSkel} {ev : List Event} (hmutex : IoMutex s)
    (hcall : s.calls[i]? = some (f, op))
    (hmove : OpMove s.dev (.call i) op o d' op' ev) (hop : op.Ready s.dev)
    (hcopy : ∀ nonblock count available,
      op = .read nonblock count (.copy available) → o = .ok) :
    readChannel.StepConserves s ev
      { s with dev := d', calls := s.calls.set i (f, op') } := by
  have hstep := hmove.conserves hop hcopy
  unfold Channel.StepConserves
  show s.inHand ++ buffered s.dev ++ _ =
    _ ++ ((s.calls.set i (f, op')).flatMap (fun c => c.2.copied) ++
      buffered d')
  cases hheld : op.holdsIo with
  | true =>
      -- the hands of all others are empty before and after
      have hbefore : s.inHand = op.copied :=
        Pool.flatMap_of_others (f := fun c : Nat × Op => c.2.copied) hcall
          fun j c hji hj => copied_others hmutex hcall hheld hji hj
      have hafter : (s.calls.set i (f, op')).flatMap (fun c => c.2.copied) =
          op'.copied := by
        refine Pool.flatMap_of_others (f := fun c : Nat × Op => c.2.copied)
          (Pool.set_self hcall) fun j c hji hj => ?_
        rw [Pool.set_other hji] at hj
        exact copied_others hmutex hcall hheld hji hj
      rw [hbefore, hafter]
      exact hstep
  | false =>
      -- a step from outside the mutex moves no bytes at all
      have hbefore := Op.copied_of_outside hheld
      have hafter := hmove.copied_of_outside hheld
      have hsame : (s.calls.set i (f, op')).flatMap (fun c => c.2.copied) =
          s.inHand :=
        Pool.flatMap_set_of_eq (f := fun c : Nat × Op => c.2.copied) hcall
          (hafter.trans hbefore.symm)
      have htakes := hmove.takes_of_outside hheld
      rw [hbefore, hafter, htakes] at hstep
      rw [hsame, htakes, List.append_assoc]
      exact congrArg (s.inHand ++ ·) hstep

/-- A step outside the read path. -/
theorem stepConserves_same {s s' : State} {ev : List Event}
    (hsame : SameRead s.dev s'.dev) (hhand : s'.inHand = s.inHand)
    (hputs : readChannel.puts ev = []) (htakes : readChannel.takes ev = []) :
    readChannel.StepConserves s ev s' := by
  unfold Channel.StepConserves
  show (s.inHand ++ buffered s.dev) ++ _ =
    _ ++ (s'.inHand ++ buffered s'.dev)
  rw [hputs, htakes, hhand, buffered_congr hsame, List.append_nil,
    List.nil_append]

/-- The callback of the read URB puts the payload into the empty buffer. -/
theorem stepConserves_readDone {s : State} {payload : List UInt8}
    (hempty : s.dev.bulkInFilled = 0 ∧ s.dev.bulkInCopied = 0) :
    readChannel.StepConserves s [.readCompleted 0 payload]
      { s with dev := s.dev.readDone 0 payload } := by
  have hbefore : buffered s.dev = [] :=
    buffered_eq_nil (by rw [hempty.1, Nat.zero_sub])
  have hafter : buffered (s.dev.readDone 0 payload) = payload := by
    simp [buffered, UsbSkel.readDone, hempty.2]
  unfold Channel.StepConserves
  show (s.inHand ++ buffered s.dev) ++ (payload ++ []) =
    [] ++ (s.inHand ++ buffered (s.dev.readDone 0 payload))
  rw [hbefore, hafter]
  simp

theorem stepConserves_of_move {s s' : State} {a : Act} {ev : List Event}
    (hreach : skelDriver.Reachable s) (h : Move s a s' ev)
    (hok : NoReadFault s a) : readChannel.StepConserves s ev s' := by
  refine probed_cases (P := fun s ev s' => readChannel.StepConserves s ev s')
    rfl rfl hreach h fun hcore => ?_
  have hside := readSide_of_reachable hreach
  cases h with
  | core hmove =>
      refine stepConserves_same (hmove.sameRead hcore) ?_ ?_ ?_
      · rw [State.inHand, hmove.calls_eq]; rfl
      · exact hmove.quiet.1
      · exact hmove.quiet.2
  | file _ hmove =>
      exact stepConserves_same hmove.sameRead rfl hmove.quiet.1 hmove.quiet.2
  | enterRead | enterWrite | enterFlush =>
      refine stepConserves_same ⟨rfl, rfl, rfl, rfl, rfl⟩ ?_ rfl rfl
      simp [State.inHand, Op.copied, ReadPc.copied]
  | @call i o f op _ _ _ hcall hmove =>
      refine stepConserves_call (ioMutex_of_reachable hreach) hcall hmove
        (hside.ready _ (List.mem_of_getElem? hcall)) ?_
      rintro nonblock count available rfl
      have hno := hok (f, .read nonblock count (.copy available)) hcall
      cases o with
      | ok => rfl
      | fails err => cases hno
  | readCompletes hurb =>
      obtain ⟨rfl, -⟩ := hok
      exact stepConserves_readDone
        (hside.inFlight (by rw [hurb]; exact Option.some_ne_none _)).2
  | _ => exact stepConserves_same ⟨rfl, rfl, rfl, rfl, rfl⟩ rfl rfl rfl

/-! ## Whole runs -/

/-- The stream law: in a run without faults the bytes that were returned,
followed by those that a read inside `io_mutex` has copied and by those left
in the buffer, are the payloads of the completed read URBs, and a read that
succeeds returns the number of its bytes. -/
theorem readStream {actions : List Act} {s : State} {tr : List Event}
    (hrun : skelDriver.run actions = some (s, tr))
    (hok : skelDriver.Meets NoReadFault actions) :
    readChannel.puts tr =
        readChannel.takes tr ++ (s.inHand ++ buffered s.dev) ∧
      ((∀ i, s.dev.ioMutex ≠ some (.call i)) →
        readChannel.puts tr = readChannel.takes tr ++ buffered s.dev) ∧
      ∀ c ∈ s.calls, c.2.Counted := by
  have hlaw : readChannel.Conserved s tr := by
    refine readChannel.always_conserved hok rfl ?_ actions s tr
      (List.prefix_refl actions) hrun
    intro s a s' ev hreach hstep ha
    exact stepConserves_of_move hreach (step_cases hstep) ha
  refine ⟨hlaw, fun hfree => ?_, counted_of_reachable ⟨actions, tr, hrun⟩⟩
  have hhand := inHand_eq_nil (ioMutex_of_reachable ⟨actions, tr, hrun⟩) hfree
  rw [show readChannel.puts tr = _ from hlaw]
  show _ ++ (s.inHand ++ _) = _
  rw [hhand, List.nil_append]

/-- A read of four bytes gets two and leaves a read-ahead behind; the next one
takes one byte of what that brings. -/
def readAhead : List Act :=
  bringUp ++ [.enterRead 0 false 4] ++ List.replicate 8 (.call 0 .ok) ++
    [.readCompletes 0 [1, 2]] ++ List.replicate 8 (.call 0 .ok) ++
    [.readCompletes 0 [3, 4], .enterRead 0 false 1] ++
    List.replicate 7 (.call 1 .ok)

theorem readStream_readAhead :
    ∃ s tr, skelDriver.run readAhead = some (s, tr) ∧
      readChannel.puts tr = readChannel.takes tr ++ (s.inHand ++ buffered s.dev) ∧
      readChannel.takes tr = [1, 2, 3] ∧ buffered s.dev = [4] :=
  ⟨_, _, rfl,
    (@readStream readAhead _ _ rfl (System.meets_of_check (by decide))).1,
    rfl, rfl⟩

end Skel
end USB
end KernelDrivers
