import KernelDrivers.Lib.Progress
import KernelDrivers.USB.Skel.ReadSide
import KernelDrivers.USB.Skel.References
import KernelDrivers.USB.Skel.Throttle
import Mathlib.Algebra.Order.BigOperators.Group.List
import Mathlib.Algebra.Order.Group.Nat

/-!
# Nothing waits for ever

`skel_read` sleeps with `io_mutex` held, `skel_disconnect` takes the mutex
before it kills the URBs, `skel_flush` and `skel_pre_reset` wait for the URBs
with the mutex held, and a write may wait for a slot that an URB has.  None of
these waits is for another of them: whatever state a run has come to, the calls,
files, callbacks and the thread of the USB core can all be brought to their
ends, without a signal and without a failing service.  The host controller only
has to give back the URBs that are in flight.
-/

namespace KernelDrivers
namespace USB
namespace Skel

open Lib

/-! ## What is under way -/

/-- The action is a step of something that is under way, with every service it
asks for, or a callback of an URB. -/
def Act.GoesOn : Act → Prop
  | .core o _ | .file _ o | .call _ o => o = .ok
  | .readCompletes _ _ | .readWakesUp | .writeCompletes _ _
  | .writeCallback _ => True
  | _ => False

/-- Nothing is under way: every call has returned, every file is open or
closed, no URB and no callback is left, and nobody holds a lock. -/
structure State.AtRest (s : State) : Prop where
  calls : ∀ c ∈ s.calls, c.2.active = false
  files : ∀ file ∈ s.files, file = .opened ∨ file = .closed
  core : s.core = .unbound ∨ s.core = .bound ∨ s.core = .gone
  bulkInUrb : s.dev.bulkInUrb = none
  readCallbacks : s.dev.readCallbacks = 0
  submitted : s.dev.submitted = []
  ioMutex : s.dev.ioMutex = none
  errLock : s.dev.errLock = false

/-! ## What is still to be done -/

/-- The steps that a read needs at most when the URB that it waits for comes
back with an error.  The retry before its submission is longer than the one
behind it. -/
def ReadPc.work (d : UsbSkel) : ReadPc → Nat
  | .start => 18
  | .locked => 17
  | .retry => if d.ongoingRead then 6 else 16
  | .waiting =>
      if d.ongoingRead then 5 else if d.errors < 0 then 4 else 15
  | .checkErrors => if d.errors < 0 then 3 else 14
  | .inspect => 13
  | .copy _ => 12
  | .markOngoing _ _ => 11
  | .emptyBuffer _ _ => 10
  | .submit _ _ => 9
  | .clearErrors _ | .submitFailed _ _ => 2
  | .exit _ _ => 1
  | .done => 0

def WritePc.work : WritePc → Nat
  | .start => 12
  | .checkErrors => 11
  | .allocUrb => 10
  | .allocCoherent => 9
  | .copyFromUser _ => 8
  | .lockIo _ => 7
  | .locked _ => 6
  | .submit _ => 5
  | .clearErrors _ | .submitFailed _ _ => 3
  | .error _ _ => 2
  | .submitted | .up _ => 1
  | .done => 0

def DrawDown.work : DrawDown → Nat
  | .waitAnchor => 3
  | .killAnchored => 2
  | .killRead => 1

def FlushPc.work : FlushPc → Nat
  | .start => 6
  | .drawDown pc => pc.work + 2
  | .collect => 2
  | .exit _ => 1
  | .done => 0

def Op.work (d : UsbSkel) : Op → Nat
  | .read _ _ pc => pc.work d
  | .write _ _ pc => pc.work
  | .flush pc => pc.work

def File.work : File → Nat
  | .findInterface => 4
  | .getIntfdata => 3
  | .autopmGet | .autopmPut => 2
  | .krefGet | .krefPut => 1
  | .opened | .closed => 0

def Core.work : Core → Nat
  | .unbound | .bound | .gone => 0
  | .findEndpoints => 5
  | .allocBuffer => 4
  | .allocUrb => 3
  | .setIntfdata | .clearIntfdata => 2
  | .registerDev | .probeError => 1
  | .suspend pc => pc.work
  | .preReset => 6
  | .preResetLocked pc => pc.work + 2
  | .inReset => 2
  | .postResetUnlock => 1
  | .disconnect => 7
  | .deregisterDev => 6
  | .lockIo => 5
  | .setDisconnected => 4
  | .killRead => 3
  | .killAnchored => 2
  | .krefPut => 1

def UrbPhase.work : UrbPhase → Nat
  | .inFlight => 3
  | .freeCoherent => 2
  | .up => 1

/-- What the callbacks still have to do. -/
def UsbSkel.work (d : UsbSkel) : Nat :=
  (if d.bulkInUrb = none then 0 else 2) + d.readCallbacks +
    (d.submitted.map fun urb => urb.phase.work).sum

def State.work (s : State) : Nat :=
  s.dev.work + (s.calls.map fun c => c.2.work s.dev).sum +
    (s.files.map File.work).sum + s.core.work

/-! ## Work that is done -/

section Work

variable {d d' : UsbSkel} {me : Owner} {nonblock : Bool} {count : Nat}
  {ev : List Event}

/-- A read gets on with every step: it goes back to `retry` only with its URB
in flight. -/
theorem ReadMove.work {pc pc' : ReadPc}
    (h : ReadMove d me nonblock count pc .ok d' pc' ev) (hpc : pc.Ready d) :
    d'.work + pc'.work d' < d.work + pc.work d := by
  cases h with
  | wouldBlock hongoing | wait hongoing | woken hongoing | idle hongoing =>
      simp only [ReadPc.work, hongoing]
      split_ifs <;> simp_all
  | tanked herrors => simp [ReadPc.work, herrors]
  | noError herrors =>
      simp [ReadPc.work, Int.not_lt.mpr herrors]
  | present =>
      simp only [ReadPc.work]
      split_ifs <;> omega
  | @submit _ next =>
      obtain ⟨hurb, -, -, hongoing⟩ := hpc
      cases next with
      | retry =>
          simp [UsbSkel.work, ReadPc.work, Resume.succeeded, hurb, hongoing]
          omega
      | exit =>
          simp [UsbSkel.work, ReadPc.work, Resume.succeeded, hurb]
          omega
  | @unmarkOngoing _ _ next =>
      cases next <;> simp [UsbSkel.work, ReadPc.work, Resume.failed]
  | _ => simp [UsbSkel.work, ReadPc.work]

theorem WriteMove.work {pc pc' : WritePc}
    (h : WriteMove d me nonblock count pc .ok d' pc' ev) :
    d'.work + pc'.work < d.work + pc.work := by
  cases h with
  | submit =>
      simp [UsbSkel.work, WritePc.work, UrbPhase.work]
      omega
  | _ => simp [UsbSkel.work, WritePc.work]

theorem drawDown_work {pc pc' : DrawDown}
    (h : drawDown d pc .ok = some (some pc')) : pc'.work < pc.work := by
  cases pc with
  | waitAnchor | killAnchored =>
      simp only [drawDown, Option.ite_none_right_eq_some] at h
      obtain ⟨-, heq⟩ := h
      cases heq
      decide
  | killRead => simp [drawDown] at h

theorem DrawDown.work_pos (pc : DrawDown) : 0 < pc.work := by
  cases pc <;> decide

theorem FlushMove.work {pc pc' : FlushPc}
    (h : FlushMove d me pc .ok d' pc' ev) :
    d'.work + pc'.work < d.work + pc.work := by
  cases h with
  | drawDown hdrawn =>
      have := drawDown_work hdrawn
      simp only [FlushPc.work]
      omega
  | @drawnDown _ pc =>
      have := pc.work_pos
      simp only [FlushPc.work]
      omega
  | _ => simp [UsbSkel.work, FlushPc.work, DrawDown.work]

theorem OpMove.work {op op' : Op} (h : OpMove d me op .ok d' op' ev)
    (hop : op.Ready d) : d'.work + op'.work d' < d.work + op.work d := by
  cases h with
  | read h => exact h.work hop
  | write h => exact h.work
  | flush h => exact h.work

theorem FileMove.work {intfdata : Bool} {file file' : File}
    (h : FileMove d intfdata file .ok d' file' ev) :
    d'.work = d.work ∧ file'.work < file.work := by
  constructor
  · obtain ⟨k, n, hd⟩ := h.frame
    rw [hd]
    rfl
  · cases h <;> simp [File.work]

theorem CoreMove.work {s s' : State} {pc : Core}
    (h : CoreMove s pc .ok s' ev) (hpc : pc ≠ .unbound) :
    s'.dev.work = s.dev.work ∧ s'.core.work < pc.work := by
  cases h with
  | kzalloc => exact absurd rfl hpc
  | probeFails | dropRef =>
      obtain ⟨k, n, hput⟩ := krefPut_frame s.dev
      exact ⟨by rw [hput]; rfl, by simp [Core.work]⟩
  | @suspend _ pc _ hdrawn | @preResetLocked _ pc _ hdrawn =>
      have := drawDown_work hdrawn
      exact ⟨rfl, by simp only [Core.work]; omega⟩
  | @suspended _ pc | @drawnDown _ pc =>
      have := pc.work_pos
      exact ⟨rfl, by simp only [Core.work]; omega⟩
  | _ => exact ⟨rfl, by simp [Core.work, DrawDown.work]⟩

end Work

/-! ## The work of the others -/

/-- Outside `io_mutex` a call does not look at the read path. -/
theorem Op.work_of_outside {op : Op} (h : op.holdsIo = false)
    (d d' : UsbSkel) : op.work d' = op.work d := by
  cases op with
  | read nonblock count pc => cases pc <;> first | rfl | cases h
  | write | flush => rfl

theorem calls_work_of_outside {calls : List (Nat × Op)}
    (h : ∀ c ∈ calls, c.2.holdsIo = false) (d d' : UsbSkel) :
    (calls.map fun c => c.2.work d').sum = (calls.map fun c => c.2.work d).sum := by
  congr 1
  exact List.map_congr_left fun c hc => Op.work_of_outside (h c hc) d d'

theorem Op.work_congr {d d' : UsbSkel} {op : Op}
    (hongoing : d'.ongoingRead = d.ongoingRead) (herrors : d'.errors = d.errors) :
    op.work d' = op.work d := by
  cases op with
  | read nonblock count pc =>
      cases pc <;> simp only [Op.work, ReadPc.work, hongoing, herrors]
  | write | flush => rfl

/-- Where a read stands, its way to the end does not depend on whether
`errors` is set. -/
def Op.Settled (d : UsbSkel) : Op → Prop
  | .read _ _ .checkErrors => False
  | .read _ _ .waiting => d.ongoingRead = true
  | _ => True

theorem Op.settled_of_outside {op : Op} (h : op.holdsIo = false)
    (d : UsbSkel) : op.Settled d := by
  cases op with
  | read nonblock count pc =>
      cases pc with
      | checkErrors | waiting => cases h
      | _ => trivial
  | write | flush => trivial

theorem Op.Settled.work_eq {d d' : UsbSkel} {op : Op} (h : op.Settled d)
    (hongoing : d'.ongoingRead = d.ongoingRead) : op.work d' = op.work d := by
  cases op with
  | read nonblock count pc =>
      cases pc with
      | checkErrors => exact h.elim
      | waiting =>
          have hwaiting : d.ongoingRead = true := h
          simp [Op.work, ReadPc.work, hongoing, hwaiting]
      | retry => simp [Op.work, ReadPc.work, hongoing]
      | _ => rfl
  | write | flush => rfl

/-! ## Steps that can be taken -/

section Steps

variable {s s' : State} {a : Act} {ev : List Event} {i f : Nat} {op op' : Op}
  {d' : UsbSkel}

/-- Some step of what is under way can be taken, and brings it nearer to its
end. -/
abbrev State.Advances (s : State) : Prop :=
  skelDriver.Advances Act.GoesOn State.work s

/-- A step of the core or of a file, while no call is inside `io_mutex`. -/
theorem advances_outside (a : Act)
    (hout : ∀ c ∈ s.calls, c.2.holdsIo = false) (ha : a.GoesOn)
    (hstep : s.step a = some (s', ev))
    (hcalls : s'.calls = s.calls)
    (hless : s'.dev.work + (s'.files.map File.work).sum + s'.core.work <
      s.dev.work + (s.files.map File.work).sum + s.core.work) : s.Advances := by
  refine ⟨a, s', ev, ha, hstep, ?_⟩
  have hsame := calls_work_of_outside hout s.dev s'.dev
  rw [State.work, State.work, hcalls, hsame]
  omega

theorem advances_of_core (hout : ∀ c ∈ s.calls, c.2.holdsIo = false)
    (hcore : s.core ≠ .unbound)
    (hstep : (coreStep s 0 s.core .ok).isSome = true) : s.Advances := by
  obtain ⟨⟨s', ev⟩, hstep⟩ := Option.isSome_iff_exists.mp hstep
  have hmove := coreStep_cases hstep
  obtain ⟨hdev, hwork⟩ := hmove.work hcore
  refine advances_outside (.core .ok 0) hout rfl hstep hmove.calls_eq ?_
  rw [hdev, hmove.files_eq]
  omega

theorem advances_of_file {file : File}
    (hout : ∀ c ∈ s.calls, c.2.holdsIo = false) (hfile : s.files[f]? = some file)
    (hopened : file ≠ .opened) (hclosed : file ≠ .closed) : s.Advances := by
  have hsome : (fileStep s.dev s.intfdata file .ok).isSome = true := by
    cases file with
    | getIntfdata => cases s.intfdata <;> rfl
    | opened => exact absurd rfl hopened
    | closed => exact absurd rfl hclosed
    | _ => rfl
  obtain ⟨⟨d', file', ev⟩, hstep⟩ := Option.isSome_iff_exists.mp hsome
  obtain ⟨hdev, hwork⟩ := (fileStep_cases hstep).work
  have hafter : s.step (.file f .ok) =
      some ({ s with dev := d', files := s.files.set f file' }, ev) := by
    simp only [State.step, hfile, hstep, Option.map_some]
  refine advances_outside (.file f .ok) hout rfl hafter rfl ?_
  have hsum := Pool.sum_set File.work file' hfile
  simp only [hdev]
  omega

/-- A step of a call. -/
theorem advances_of_call (hcall : s.calls[i]? = some (f, op))
    (hready : op.Ready s.dev)
    (hstep : op.step s.dev (.call i) .ok = some (d', op', ev))
    (hothers : ∀ j c, j ≠ i → s.calls[j]? = some c →
      c.2.work d' = c.2.work s.dev) : s.Advances := by
  refine ⟨.call i .ok, { s with dev := d', calls := s.calls.set i (f, op') },
    ev, rfl, ?_, ?_⟩
  · simp only [skelDriver, State.step, hcall, hstep, Option.map_some]
  · have hless := (Op.step_cases hstep).work hready
    have hsum := Pool.sum_set_of_others (f := fun c => c.2.work s.dev)
      (g := fun c => c.2.work d') (f, op') hcall hothers
    simp only at hsum
    simp only [State.work]
    omega

/-- A step of a callback. -/
theorem advances_of_callback (a : Act) (d' : UsbSkel) (ev : List Event)
    (ha : a.GoesOn) (hstep : s.step a = some ({ s with dev := d' }, ev))
    (hless : d'.work < s.dev.work)
    (hcalls : ∀ c ∈ s.calls, c.2.work d' ≤ c.2.work s.dev) : s.Advances := by
  refine ⟨a, { s with dev := d' }, ev, ha, hstep, ?_⟩
  have hsum : (s.calls.map fun c => c.2.work d').sum ≤
      (s.calls.map fun c => c.2.work s.dev).sum := List.sum_le_sum hcalls
  simp only [State.work]
  omega

/-- A write URB on the anchor has a callback that can go on. -/
theorem advances_of_submitted (h : s.dev.submitted ≠ []) : s.Advances := by
  obtain ⟨⟨buf, length, phase⟩, rest, hsubmitted⟩ :=
    List.exists_cons_of_ne_nil h
  cases phase with
  | inFlight =>
      refine advances_of_callback (.writeCompletes 0 0)
        { s.dev with submitted := ⟨buf, length, .freeCoherent⟩ :: rest }
        [.writeCompleted 0] trivial ?_ ?_ fun c hc => ?_
      · simp [State.step, State.withDev, writeCallback, hsubmitted, errorsAfter]
      · simp [UsbSkel.work, UrbPhase.work, hsubmitted]
      · exact le_of_eq (Op.work_congr rfl rfl)
  | freeCoherent =>
      refine advances_of_callback (.writeCallback 0)
        { s.dev with submitted := ⟨buf, length, .up⟩ :: rest }
        [.coherentFreed buf .callback] trivial ?_ ?_ fun c hc => ?_
      · simp [State.step, State.withDev, writeCallbackTail, hsubmitted]
      · simp [UsbSkel.work, UrbPhase.work, hsubmitted]
      · exact le_of_eq (Op.work_congr rfl rfl)
  | up =>
      refine advances_of_callback (.writeCallback 0)
        { s.dev with
          submitted := rest
          limitSem := s.dev.limitSem + 1 } [] trivial ?_ ?_ fun c hc => ?_
      · simp [State.step, State.withDev, writeCallbackTail, hsubmitted]
      · simp [UsbSkel.work, UrbPhase.work, hsubmitted]
      · exact le_of_eq (Op.work_congr rfl rfl)

theorem advances_of_readCallbacks (h : s.dev.readCallbacks ≠ 0) :
    s.Advances := by
  refine advances_of_callback .readWakesUp
    { s.dev with readCallbacks := s.dev.readCallbacks - 1 } [] trivial ?_ ?_
    fun c hc => ?_
  · simp [State.step, State.withDev, readWakeUp, h]
  · simp only [UsbSkel.work]
    omega
  · exact le_of_eq (Op.work_congr rfl rfl)

/-- The host controller gives the read URB back, with an error. -/
theorem advances_of_bulkInUrb (h : s.dev.bulkInUrb ≠ none)
    (hlock : s.dev.errLock = false)
    (hcalls : ∀ c ∈ s.calls,
      c.2.work (s.dev.readDone (- EIO) []) ≤ c.2.work s.dev) : s.Advances := by
  refine advances_of_callback (.readCompletes (- EIO) [])
    (s.dev.readDone (- EIO) []) [.readCompleted (- EIO) []] trivial ?_ ?_ hcalls
  · simp [State.step, State.withDev, readCallback, h, hlock]
    decide
  · simp only [UsbSkel.work, UsbSkel.readDone, if_neg h, if_true]
    omega

end Steps

/-! ## Who is waited for -/

/-- Inside `err_lock`: the other critical sections are one step each. -/
def Op.holdsErrLock : Op → Bool
  | .write _ _ (.clearErrors _) => true
  | _ => false

/-- Inside `skel_do_read_io`, with `ongoing_read` set and no URB yet. -/
def Op.submitting : Op → Bool
  | .read _ _ (.emptyBuffer _ _) | .read _ _ (.submit _ _)
  | .read _ _ (.submitFailed _ _) => true
  | _ => false

/-- Whoever finds `err_lock` taken waits for a writer, and whoever finds a read
going on waits for its URB or for the reader that submits it. -/
structure Served (s : State) : Prop where
  errLock : s.dev.errLock = true → ∃ c ∈ s.calls, c.2.holdsErrLock = true
  ongoing : s.dev.ongoingRead = true →
    s.dev.bulkInUrb ≠ none ∨ ∃ c ∈ s.calls, c.2.submitting = true

theorem OpMove.errLock {d d' : UsbSkel} {me : Owner} {o : Outcome} {op op' : Op}
    {ev : List Event} (h : OpMove d me op o d' op' ev)
    (hlock : d'.errLock = true) :
    op'.holdsErrLock = true ∨ op.holdsErrLock = false ∧ d.errLock = true := by
  cases h with
  | read h => cases h <;> exact Or.inr ⟨rfl, hlock⟩
  | flush h => cases h <;> exact Or.inr ⟨rfl, hlock⟩
  | write h =>
      cases h with
      | tanked => exact Or.inl rfl
      | clear => cases hlock
      | _ => exact Or.inr ⟨rfl, hlock⟩

theorem OpMove.ongoing {d d' : UsbSkel} {me : Owner} {o : Outcome} {op op' : Op}
    {ev : List Event} (h : OpMove d me op o d' op' ev)
    (hongoing : d'.ongoingRead = true) :
    d'.bulkInUrb ≠ none ∨ op'.submitting = true ∨
      op.submitting = false ∧ d.ongoingRead = true ∧
        d'.bulkInUrb = d.bulkInUrb := by
  cases h with
  | write h => cases h <;> exact Or.inr (Or.inr ⟨rfl, hongoing, rfl⟩)
  | flush h => cases h <;> exact Or.inr (Or.inr ⟨rfl, hongoing, rfl⟩)
  | read h =>
      cases h with
      | markOngoing | emptyBuffer | submitFails => exact Or.inr (Or.inl rfl)
      | submit => exact Or.inl (by simp)
      | unmarkOngoing => cases hongoing
      | _ => exact Or.inr (Or.inr ⟨rfl, hongoing, rfl⟩)

/-- A call that is not the one that is waited for leaves it in its place. -/
theorem exists_kept {p : Op → Bool} {calls : List (Nat × Op)} {i f : Nat}
    {op : Op} (hcall : calls[i]? = some (f, op)) (hop : p op = false)
    (h : ∃ c ∈ calls, p c.2 = true) (op' : Op) :
    ∃ c ∈ calls.set i (f, op'), p c.2 = true := by
  obtain ⟨c, hc, hp⟩ := h
  refine ⟨c, Pool.mem_set_of_ne hcall hc ?_ _, hp⟩
  rintro rfl
  rw [hop] at hp
  cases hp

theorem Served.call {s : State} (h : Served s) {i f : Nat} {op op' : Op}
    {o : Outcome} {d' : UsbSkel} {ev : List Event}
    (hcall : s.calls[i]? = some (f, op))
    (hmove : OpMove s.dev (.call i) op o d' op' ev) :
    Served { s with dev := d', calls := s.calls.set i (f, op') } where
  errLock hlock := by
    rcases hmove.errLock hlock with hop' | ⟨hop, hbefore⟩
    · exact ⟨(f, op'), Pool.mem_set_self hcall _, hop'⟩
    · exact exists_kept hcall hop (h.errLock hbefore) op'
  ongoing hongoing := by
    rcases hmove.ongoing hongoing with hurb | hop' | ⟨hop, hbefore, hurb⟩
    · exact Or.inl hurb
    · exact Or.inr ⟨(f, op'), Pool.mem_set_self hcall _, hop'⟩
    · show d'.bulkInUrb ≠ none ∨ _
      rw [hurb]
      exact (h.ongoing hbefore).imp_right fun hsub =>
        exists_kept hcall hop hsub op'

/-- A step that leaves the two flags, the URB and the calls alone. -/
theorem Served.congr {s s' : State} (h : Served s)
    (hlock : s'.dev.errLock = s.dev.errLock) (hsame : SameRead s.dev s'.dev)
    (hcalls : s'.calls = s.calls) : Served s' where
  errLock := by rw [hlock, hcalls]; exact h.errLock
  ongoing := by
    rw [hsame.ongoingRead, hsame.bulkInUrb, hcalls]
    exact h.ongoing

theorem Served.enter {s : State} (h : Served s) (c : Nat × Op) :
    Served { s with calls := s.calls ++ [c] } where
  errLock hlock := by
    obtain ⟨c', hc', hp⟩ := h.errLock hlock
    exact ⟨c', List.mem_append_left _ hc', hp⟩
  ongoing hongoing := by
    refine (h.ongoing hongoing).imp_right ?_
    rintro ⟨c', hc', hp⟩
    exact ⟨c', List.mem_append_left _ hc', hp⟩

theorem CoreMove.errLock_eq {s s' : State} {pc : Core} {o : Outcome}
    {ev : List Event} (h : CoreMove s pc o s' ev) (hpc : pc ≠ .unbound) :
    s'.dev.errLock = s.dev.errLock := by
  cases h with
  | kzalloc => exact absurd rfl hpc
  | probeFails | dropRef =>
      obtain ⟨k, n, hput⟩ := krefPut_frame s.dev
      rw [hput]
  | _ => rfl

theorem served_of_reachable {s : State} (h : skelDriver.Reachable s) :
    Served s := by
  refine probed_induction ⟨nofun, nofun⟩ ⟨nofun, nofun⟩ ⟨nofun, nofun⟩ ?_ h
  intro s a s' ev hreach hcore ih hmove
  cases hmove with
  | core hmove =>
      exact ih.congr (hmove.errLock_eq hcore) (hmove.sameRead hcore)
        hmove.calls_eq
  | file _ hmove =>
      obtain ⟨k, n, hd⟩ := hmove.frame
      exact ih.congr (by rw [hd]) hmove.sameRead rfl
  | enterRead | enterWrite | enterFlush => exact ih.enter _
  | call hcall hmove => exact ih.call hcall hmove
  | readCompletes => exact ⟨ih.errLock, nofun⟩
  | _ => exact ih.congr rfl ⟨rfl, rfl, rfl, rfl, rfl⟩ rfl

/-! ## Whoever waits can be served -/

/-- A callback has something to do. -/
def UsbSkel.Pending (d : UsbSkel) : Prop :=
  d.bulkInUrb ≠ none ∨ d.readCallbacks ≠ 0 ∨ d.submitted ≠ []

section Waits

variable {s : State} {i f : Nat} {op : Op} {d : UsbSkel}

/-- The writer that has `err_lock` drops it with its next step. -/
theorem advances_of_errLock (hserved : Served s) (hlock : s.dev.errLock = true)
    (hsettled : ∀ c ∈ s.calls, c.2.Settled s.dev) : s.Advances := by
  obtain ⟨⟨f, op⟩, hc, hholds⟩ := hserved.errLock hlock
  obtain ⟨i, hcall⟩ := List.mem_iff_getElem?.mp hc
  cases op with
  | read | flush => cases hholds
  | write nonblock count pc =>
      cases pc with
      | clearErrors retval =>
          refine advances_of_call hcall trivial rfl fun j c _ hj => ?_
          exact (hsettled c (List.mem_of_getElem? hj)).work_eq rfl
      | _ => cases hholds

theorem advances_of_waits (hserved : Served s)
    (hsettled : ∀ c ∈ s.calls, c.2.Settled s.dev)
    (hwaits : s.dev.errLock = true ∨ s.dev.Pending ∧ ∀ c ∈ s.calls,
      c.2.work (s.dev.readDone (- EIO) []) ≤ c.2.work s.dev) : s.Advances := by
  cases hlock : s.dev.errLock with
  | true => exact advances_of_errLock hserved hlock hsettled
  | false =>
      rw [hlock] at hwaits
      obtain ⟨hpending, hcalls⟩ := hwaits.resolve_left Bool.false_ne_true
      rcases hpending with hurb | hcallbacks | hsubmitted
      · exact advances_of_bulkInUrb hurb hlock hcalls
      · exact advances_of_readCallbacks hcallbacks
      · exact advances_of_submitted hsubmitted

/-- While no call is inside `io_mutex`, the callbacks are in nobody's way. -/
theorem advances_of_pending (hserved : Served s)
    (hout : ∀ c ∈ s.calls, c.2.holdsIo = false)
    (hwaits : s.dev.errLock = true ∨ s.dev.Pending) : s.Advances :=
  advances_of_waits hserved (fun c hc => Op.settled_of_outside (hout c hc) _)
    (hwaits.imp_right fun hpending =>
      ⟨hpending, fun c hc => (Op.work_of_outside (hout c hc) _ _).le⟩)

theorem drawDown_or_pending (d : UsbSkel) (pc : DrawDown) :
    (drawDown d pc .ok).isSome = true ∨ d.Pending := by
  unfold UsbSkel.Pending
  cases pc with
  | waitAnchor | killAnchored =>
      by_cases h : d.submitted = [] <;> simp [drawDown, h]
  | killRead =>
      by_cases h : d.bulkInUrb = none ∧ d.readCallbacks = 0
      · simp [drawDown, h]
      · rw [not_and_or] at h
        tauto

/-- A reader inside `io_mutex` can go on, or `err_lock` is taken, or it sleeps
while its URB is in flight. -/
theorem readStep_or_waits (me : Owner) (nonblock : Bool) (count : Nat) {pc : ReadPc}
    (hheld : pc.holdsIo = true) (hready : pc.Ready d) :
    (readStep d me nonblock count pc .ok).isSome = true ∨
      (Op.read nonblock count pc).Settled d ∧
        (d.errLock = true ∨ pc = .waiting ∧ d.ongoingRead = true) := by
  cases pc with
  | start | done => cases hheld
  | locked => cases hgone : d.disconnected <;> simp [readStep, hgone]
  | retry =>
      cases hlock : d.errLock <;> cases hongoing : d.ongoingRead <;>
        cases nonblock <;> simp [readStep, Op.Settled, hlock, hongoing]
  | waiting =>
      cases hongoing : d.ongoingRead <;> simp [readStep, Op.Settled, hongoing]
  | checkErrors =>
      by_cases herrors : d.errors < 0 <;> simp [readStep, herrors]
  | inspect =>
      simp only [readStep]
      split_ifs <;> simp
  | copy available =>
      by_cases hshort : available < count <;> simp [readStep, hshort]
  | markOngoing | submitFailed =>
      cases hlock : d.errLock <;> simp [readStep, Op.Settled, hlock]
  | submit => simp [readStep, hready.1]
  | clearErrors | emptyBuffer | exit => simp [readStep]

/-- The same for every call inside `io_mutex`. -/
theorem Op.step_or_waits (me : Owner) (hheld : op.holdsIo = true) (hready : op.Ready d)
    (hongoing : d.ongoingRead = true → op.submitting = false →
      d.bulkInUrb ≠ none) :
    (op.step d me .ok).isSome = true ∨
      op.Settled d ∧ (d.errLock = true ∨
        d.Pending ∧ op.work (d.readDone (- EIO) []) ≤ op.work d) := by
  cases op with
  | read nonblock count pc =>
      rcases readStep_or_waits me nonblock count hheld hready with
        hstep | ⟨hsettled, hlock | ⟨rfl, hwaiting⟩⟩
      · left
        simpa [Op.step] using hstep
      · exact Or.inr ⟨hsettled, Or.inl hlock⟩
      · refine Or.inr ⟨hsettled, Or.inr ⟨Or.inl (hongoing hwaiting rfl), ?_⟩⟩
        have herrors : errorsAfter d.errors (- EIO) < 0 := by
          rw [errorsAfter, if_pos (by decide)]
          decide
        simp [Op.work, ReadPc.work, UsbSkel.readDone, hwaiting, herrors]
  | write nonblock count pc =>
      left
      cases pc with
      | locked =>
          cases hgone : d.disconnected <;> simp [Op.step, writeStep, hgone]
      | submit | submitted | submitFailed => rfl
      | _ => cases hheld
  | flush pc =>
      cases pc with
      | start | done => cases hheld
      | drawDown pc =>
          rcases drawDown_or_pending d pc with hstep | hpending
          · left
            obtain ⟨r, hr⟩ := Option.isSome_iff_exists.mp hstep
            cases r <;> simp [Op.step, flushStep, hr]
          · exact Or.inr ⟨trivial, Or.inr ⟨hpending, le_refl _⟩⟩
      | collect =>
          cases hlock : d.errLock <;>
            simp [Op.step, flushStep, Op.Settled, hlock]
      | exit => exact Or.inl rfl

/-- Where the thread of the USB core waits, it waits for a callback or for an
open in progress. -/
theorem coreStep_or_waits (hrest : ¬ (s.core = .unbound ∨ s.core = .bound ∨
      s.core = .gone))
    (hfree : s.dev.ioMutex = none ∨ s.core.holdsIo = true) :
    (coreStep s 0 s.core .ok).isSome = true ∨ s.dev.Pending ∨
      ∃ file ∈ s.files, file.opening = true := by
  cases hcore : s.core with
  | unbound | bound | gone => simp [hcore] at hrest
  | suspend pc | preResetLocked pc =>
      rcases drawDown_or_pending s.dev pc with hstep | hpending
      · left
        obtain ⟨r, hr⟩ := Option.isSome_iff_exists.mp hstep
        cases r <;> simp [coreStep, hr]
      · exact Or.inr (Or.inl hpending)
  | preReset | lockIo =>
      have hmutex : s.dev.ioMutex = none :=
        hfree.resolve_right (by simp [hcore, Core.holdsIo])
      exact Or.inl (by simp [coreStep, hmutex])
  | deregisterDev =>
      cases hopening : s.files.any File.opening with
      | false => exact Or.inl (by simp [coreStep, hopening])
      | true => exact Or.inr (Or.inr (List.any_eq_true.mp hopening))
  | killRead =>
      by_cases hidle : s.dev.bulkInUrb = none ∧ s.dev.readCallbacks = 0
      · exact Or.inl (by simp [coreStep, hidle])
      · rw [not_and_or] at hidle
        unfold UsbSkel.Pending
        tauto
  | killAnchored =>
      by_cases hnil : s.dev.submitted = []
      · exact Or.inl (by simp [coreStep, hnil])
      · exact Or.inr (Or.inl (Or.inr (Or.inr hnil)))
  | _ => exact Or.inl rfl

/-- The call that has the mutex, or what it waits for, can go on. -/
theorem advances_of_holder (hreach : skelDriver.Reachable s)
    (hcall : s.calls[i]? = some (f, op)) (hheld : op.holdsIo = true) :
    s.Advances := by
  have hmutex := ioMutex_of_reachable hreach
  have hserved := served_of_reachable hreach
  have hready := (readSide_of_reachable hreach).ready _ (List.mem_of_getElem? hcall)
  have hothers : ∀ j c, j ≠ i → s.calls[j]? = some c → c.2.holdsIo = false := by
    intro j c hji hj
    refine hmutex.outside ((State.holdsIo_call hcall).mpr hheld) hj fun heq => ?_
    exact hji (Owner.call.inj heq).symm
  have hongoing : s.dev.ongoingRead = true → op.submitting = false →
      s.dev.bulkInUrb ≠ none := by
    intro hongoing hop
    rcases hserved.ongoing hongoing with hurb | ⟨c, hc, hsubmitting⟩
    · exact hurb
    · -- a reader inside `skel_do_read_io` has the mutex, too
      obtain ⟨j, hj⟩ := List.mem_iff_getElem?.mp hc
      have hji : j ≠ i := by
        rintro rfl
        cases hcall.symm.trans hj
        rw [hop] at hsubmitting
        cases hsubmitting
      have hout := hothers j c hji hj
      unfold Op.submitting at hsubmitting
      split at hsubmitting <;> simp_all [Op.holdsIo, ReadPc.holdsIo]
  rcases Op.step_or_waits (.call i) hheld hready hongoing with
    hstep | ⟨hsettled, hwaits⟩
  · obtain ⟨⟨d', op', ev⟩, hstep⟩ := Option.isSome_iff_exists.mp hstep
    exact advances_of_call hcall hready hstep fun j c hji hj =>
      Op.work_of_outside (hothers j c hji hj) _ _
  · refine advances_of_waits hserved ?_ (hwaits.imp_right fun ⟨hpending, hwork⟩ =>
      ⟨hpending, ?_⟩)
    · exact Pool.forall_of_others hcall hsettled fun j c hji hj =>
        Op.settled_of_outside (hothers j c hji hj) _
    · exact Pool.forall_of_others hcall hwork fun j c hji hj =>
        (Op.work_of_outside (hothers j c hji hj) _ _).le

/-- A writer that has its slot needs the two locks only. -/
theorem Op.step_of_slot (hfree : d.ioMutex = none) (hlock : d.errLock = false)
    (hslot : op.holdsSlot = true) (hout : op.holdsIo = false) :
    (op.step d me .ok).isSome = true := by
  cases op with
  | read | flush => cases hslot
  | write nonblock count pc =>
      cases pc with
      | start | submitted | done => cases hslot
      | locked | submit | submitFailed => cases hout
      | checkErrors =>
          by_cases herrors : d.errors < 0 <;>
            simp [Op.step, writeStep, hlock, herrors]
      | lockIo => simp [Op.step, writeStep, hfree]
      | _ => rfl

/-- A call at its start needs the mutex or a slot. -/
theorem Op.step_of_start (hfree : d.ioMutex = none) (hsem : d.limitSem ≠ 0)
    (hactive : op.active = true) (hslot : op.holdsSlot = false)
    (hout : op.holdsIo = false) : (op.step d me .ok).isSome = true := by
  cases op with
  | read nonblock count pc =>
      cases pc with
      | start =>
          by_cases hcount : count = 0 <;>
            simp [Op.step, readStep, hcount, hfree]
      | done => cases hactive
      | _ => cases hout
  | write nonblock count pc =>
      cases pc with
      | start =>
          by_cases hcount : count = 0 <;>
            simp [Op.step, writeStep, hcount, hsem]
      | done => cases hactive
      | submitted => cases hout
      | _ => cases hslot
  | flush pc =>
      cases pc with
      | start => simp [Op.step, flushStep, hfree]
      | done => cases hactive
      | _ => cases hout

/-- When no writer and no URB has a slot, all of them are in the semaphore. -/
theorem limitSem_ne_zero (hreach : skelDriver.Reachable s) {c : Nat × Op}
    (hc : c ∈ s.calls) (hactive : c.2.active = true)
    (hsubmitted : s.dev.submitted = [])
    (hslots : ∀ c ∈ s.calls, c.2.holdsSlot = false) : s.dev.limitSem ≠ 0 := by
  have hfile := (handles_of_reachable hreach).calls c hc hactive
  have halloc : s.dev.allocated = true := by
    by_contra hno
    rcases (refs_of_reachable hreach).allocated (by simpa using hno) with
      hcore | ⟨-, hnil⟩
    · rw [initial_of_unbound hreach hcore] at hc
      cases hc
    · rw [hnil] at hfile
      cases hfile
  have hnone : s.writersWithSlot = 0 := by
    rw [State.writersWithSlot, List.countP_eq_zero]
    intro c hc
    rw [hslots c hc]
    exact Bool.false_ne_true
  have htotal := slots_of_reachable hreach
  rw [State.slots, hnone, hsubmitted, halloc, if_pos rfl] at htotal
  rw [show s.dev.limitSem = writesInFlight from htotal]
  decide

/-- While no lock is taken and no callback is left, every call that has not
returned can go on. -/
theorem advances_of_active (hreach : skelDriver.Reachable s)
    (hfree : s.dev.ioMutex = none) (hlock : s.dev.errLock = false)
    (hidle : ¬ s.dev.Pending) {c : Nat × Op} (hc : c ∈ s.calls)
    (hactive : c.2.active = true) : s.Advances := by
  have hout : ∀ c ∈ s.calls, c.2.holdsIo = false := fun c hc =>
    (ioMutex_of_reachable hreach).outside_of_free (by simp [hfree]) hc
  have hmoves : ∀ (i f : Nat) (op : Op), s.calls[i]? = some (f, op) →
      (op.step s.dev (.call i) .ok).isSome = true → s.Advances := by
    intro i f op hcall hstep
    obtain ⟨⟨d', op', ev⟩, hstep⟩ := Option.isSome_iff_exists.mp hstep
    refine advances_of_call hcall
      (Op.ready_of_outside (hout _ (List.mem_of_getElem? hcall)) _) hstep ?_
    exact fun j c _ hj =>
      Op.work_of_outside (hout c (List.mem_of_getElem? hj)) _ _
  by_cases hslot : ∃ c ∈ s.calls, c.2.holdsSlot = true
  · obtain ⟨⟨f, op⟩, hc, hslot⟩ := hslot
    obtain ⟨i, hcall⟩ := List.mem_iff_getElem?.mp hc
    exact hmoves i f op hcall (Op.step_of_slot hfree hlock hslot (hout _ hc))
  · have hslots : ∀ c ∈ s.calls, c.2.holdsSlot = false := fun c hc => by
      by_contra hholds
      exact hslot ⟨c, hc, by simpa using hholds⟩
    have hsubmitted : s.dev.submitted = [] := by
      by_contra hne
      exact hidle (Or.inr (Or.inr hne))
    have hsem := limitSem_ne_zero hreach hc hactive hsubmitted hslots
    obtain ⟨f, op⟩ := c
    obtain ⟨i, hcall⟩ := List.mem_iff_getElem?.mp hc
    exact hmoves i f op hcall
      (Op.step_of_start hfree hsem hactive (hslots _ hc) (hout _ hc))

/-- Whoever has `io_mutex`, somebody can go on. -/
theorem advances_of_owner (hreach : skelDriver.Reachable s) {x : Owner}
    (hown : s.dev.ioMutex = some x) : s.Advances := by
  have hmutex := ioMutex_of_reachable hreach
  have hholds := (hmutex x).mp hown
  cases x with
  | call i =>
      obtain ⟨f, op, hcall, hheld⟩ := hholds
      exact advances_of_holder hreach hcall hheld
  | core =>
      have hout : ∀ c ∈ s.calls, c.2.holdsIo = false := fun c hc =>
        hmutex.outside_of_core hholds hc
      have hbusy : ¬ (s.core = .unbound ∨ s.core = .bound ∨
          s.core = .gone) := by
        rintro (hcore | hcore | hcore) <;>
          simp [State.HoldsIo, hcore, Core.holdsIo] at hholds
      rcases coreStep_or_waits hbusy (Or.inr hholds) with
        hstep | hpending | ⟨file, hfile, hopening⟩
      · exact advances_of_core hout (fun hcore => hbusy (Or.inl hcore)) hstep
      · exact advances_of_pending (served_of_reachable hreach) hout
          (Or.inr hpending)
      · obtain ⟨f, hf⟩ := List.mem_iff_getElem?.mp hfile
        refine advances_of_file hout hf ?_ ?_ <;> rintro rfl <;> cases hopening

/-- As long as something is under way, something of it can go on. -/
theorem rest_or_advances (hreach : skelDriver.Reachable s) :
    s.AtRest ∨ s.Advances := by
  by_contra hstuck
  rw [not_or] at hstuck
  obtain ⟨hrest, hstuck⟩ := hstuck
  have hmutex := ioMutex_of_reachable hreach
  have hserved := served_of_reachable hreach
  have hfree : s.dev.ioMutex = none := by
    by_contra hown
    obtain ⟨x, hown⟩ := Option.ne_none_iff_exists'.mp hown
    exact hstuck (advances_of_owner hreach hown)
  have hout : ∀ c ∈ s.calls, c.2.holdsIo = false := fun c hc =>
    hmutex.outside_of_free (by simp [hfree]) hc
  have hlock : s.dev.errLock = false := by
    by_contra hlock
    exact hstuck
      (advances_of_pending hserved hout (Or.inl (by simpa using hlock)))
  have hidle : ¬ s.dev.Pending := fun hpending =>
    hstuck (advances_of_pending hserved hout (Or.inr hpending))
  have hfiles : ∀ file ∈ s.files, file = .opened ∨ file = .closed := by
    intro file hfile
    by_contra hmoving
    rw [not_or] at hmoving
    obtain ⟨f, hf⟩ := List.mem_iff_getElem?.mp hfile
    exact hstuck (advances_of_file hout hf hmoving.1 hmoving.2)
  have hcore : s.core = .unbound ∨ s.core = .bound ∨ s.core = .gone := by
    by_contra hbusy
    rcases coreStep_or_waits hbusy (Or.inl hfree) with
      hstep | hpending | ⟨file, hfile, hopening⟩
    · exact hstuck
        (advances_of_core hout (fun hcore => hbusy (Or.inl hcore)) hstep)
    · exact hidle hpending
    · rcases hfiles file hfile with rfl | rfl <;> cases hopening
  have hcalls : ∀ c ∈ s.calls, c.2.active = false := by
    intro c hc
    by_contra hactive
    exact hstuck (advances_of_active hreach hfree hlock hidle hc
      (by simpa using hactive))
  unfold UsbSkel.Pending at hidle
  rw [not_or, not_or, not_not, not_not, not_not] at hidle
  obtain ⟨hurb, hcallbacks, hsubmitted⟩ := hidle
  exact hrest
    ⟨hcalls, hfiles, hcore, hurb, hcallbacks, hsubmitted, hfree, hlock⟩

end Waits

/-- Every run can be brought to rest by its own steps, in no more of them than
its work. -/
theorem can_always_finish {actions : List Act} {s : State} {tr : List Event}
    (hrun : skelDriver.run actions = some (s, tr)) :
    skelDriver.CanEnd Act.GoesOn State.AtRest s.work actions :=
  System.canEnd_of_advances (fun _ hreach => rest_or_advances hreach) hrun

/-- A reader sleeps with `io_mutex` held while its URB is in flight, and
`skel_disconnect` waits for the mutex. -/
def readerHoldsUpDisconnect : List Act :=
  bringUp ++ [.enterRead 0 false 100] ++ List.replicate 9 (.call 0 .ok) ++
    [.disconnect, .core .ok 0, .core .ok 0]

theorem readerHoldsUpDisconnect_finishes :
    ∃ s tr, skelDriver.run readerHoldsUpDisconnect = some (s, tr) ∧
      s.dev.ioMutex = some (.call 0) ∧ s.core = .lockIo ∧
      s.step (.call 0 .ok) = none ∧ s.step (.core .ok 0) = none ∧
      skelDriver.CanEnd Act.GoesOn State.AtRest s.work readerHoldsUpDisconnect :=
  ⟨_, _, rfl, rfl, rfl, rfl, rfl, can_always_finish rfl⟩

end Skel
end USB
end KernelDrivers
