import KernelDrivers.USB.Skel.References

/-!
# The lifetime of `struct usb_skel`

The interface drops its reference only after `disconnected` was set under
`io_mutex` and both kinds of URBs were killed, so that behind that point
nothing is in flight and nothing can be submitted any more; a call in progress
keeps its file open.  So when the last reference goes, no part of the driver
has a step left to take.
-/

namespace KernelDrivers
namespace USB
namespace Skel

open Lib

/-! ## Nothing in flight behind the kills -/

/-- No call can pass its check of `disconnected`: the device is not open yet,
or the flag has been set. -/
def Core.shut (core : Core) : Bool :=
  core.probing || core == .killRead || core == .killAnchored ||
    core == .krefPut || core == .gone

/-- The read URB is not in use yet, or has been killed. -/
def Core.readIdle (core : Core) : Bool :=
  core.probing || core == .killAnchored || core == .krefPut || core == .gone

/-- The write URBs are not in use yet, or have been killed. -/
def Core.writesIdle (core : Core) : Bool :=
  core.probing || core == .krefPut || core == .gone

/-- The read has found the device connected and may go on to submit. -/
def ReadPc.passed : ReadPc → Bool
  | .start | .locked | .exit _ _ | .done => false
  | _ => true

/-- The write has found the device connected and is about to submit. -/
def WritePc.passed : WritePc → Bool
  | .submit _ => true
  | _ => false

def Op.passed : Op → Bool
  | .read _ _ pc => pc.passed
  | .write _ _ pc => pc.passed
  | .flush _ => false

theorem Op.holdsIo_of_passed {op : Op} (h : op.passed = true) :
    op.holdsIo = true := by
  cases op with
  | read nonblock count pc => cases pc <;> simp_all [Op.passed, Op.holdsIo,
      ReadPc.passed, ReadPc.holdsIo]
  | write nonblock count pc => cases pc <;> simp_all [Op.passed, Op.holdsIo,
      WritePc.passed, WritePc.holdsIo]
  | flush pc => cases h

/-- A call that has not passed its check puts no URB in flight. -/
theorem Op.not_submits_of_passed {op : Op} (h : op.passed = false)
    (o : Outcome) : op.submits o = false :=
  Op.not_submits (fun _ _ _ _ => rfl) (fun _ _ _ => rfl) h o

section Moves

variable {d d' : UsbSkel} {me : Owner} {o : Outcome} {ev : List Event}

theorem OpMove.disconnected_eq {op op' : Op}
    (h : OpMove d me op o d' op' ev) : d'.disconnected = d.disconnected := by
  cases h with
  | read h => cases h <;> rfl
  | write h => cases h <;> rfl
  | flush h => cases h <;> rfl

/-- Once the device is disconnected, no call passes its check any more. -/
theorem OpMove.passed {op op' : Op} (h : OpMove d me op o d' op' ev)
    (hdisc : d.disconnected = true) (hop : op.passed = false) :
    op'.passed = false := by
  cases h with
  | read h => cases h <;> simp_all [Op.passed, ReadPc.passed]
  | write h => cases h <;> simp_all [Op.passed, WritePc.passed]
  | flush h => rfl

end Moves

/-- What holds while the device is not open yet, or is being taken away. -/
structure Stopped (s : State) : Prop where
  disconnected : s.core.shut = true → s.dev.disconnected = true ∨ s.files = []
  passed : s.core.shut = true → ∀ c ∈ s.calls, c.2.passed = false
  read : s.core.readIdle = true →
    s.dev.bulkInUrb = none ∧ s.dev.readCallbacks = 0
  writes : s.core.writesIdle = true → s.dev.submitted = []

theorem Core.shut_of_readIdle {core : Core} (h : core.readIdle = true) :
    core.shut = true := by
  cases core <;> first | rfl | cases h

theorem Core.shut_of_writesIdle {core : Core} (h : core.writesIdle = true) :
    core.shut = true := by
  cases core <;> first | rfl | cases h

theorem Core.not_shut_of_registered {core : Core}
    (h : core.registered = true) : core.shut = false := by
  cases core <;> first | rfl | cases h

/-- Where the device is not shut, nothing is asked. -/
theorem Stopped.of_not_shut {s : State} (h : s.core.shut = false) :
    Stopped s where
  disconnected := by simp [h]
  passed := by simp [h]
  read hidle := by
    rw [Core.shut_of_readIdle hidle] at h
    cases h
  writes hidle := by
    rw [Core.shut_of_writesIdle hidle] at h
    cases h

/-- Nor where nothing has been opened yet. -/
theorem Stopped.of_empty {s : State} (hfiles : s.files = [])
    (hcalls : s.calls = [])
    (hread : s.dev.bulkInUrb = none ∧ s.dev.readCallbacks = 0)
    (hwrites : s.dev.submitted = []) : Stopped s where
  disconnected _ := Or.inr hfiles
  passed _ c hc := by
    rw [hcalls] at hc
    cases hc
  read _ := hread
  writes _ := hwrites

theorem Stopped.congr {s s' : State} (h : Stopped s)
    (hcore : s'.core = s.core)
    (hdisc : s.dev.disconnected = true ∨ s.files = [] →
      s'.dev.disconnected = true ∨ s'.files = [])
    (hpassed : s.core.shut = true → ∀ c ∈ s'.calls, c.2.passed = false)
    (hread : s.core.readIdle = true →
      s'.dev.bulkInUrb = s.dev.bulkInUrb ∧
        s'.dev.readCallbacks = s.dev.readCallbacks)
    (hwrites : s.core.writesIdle = true →
      s'.dev.submitted = s.dev.submitted) : Stopped s' where
  disconnected := by rw [hcore]; exact fun hs => hdisc (h.disconnected hs)
  passed := by rw [hcore]; exact hpassed
  read := by
    rw [hcore]
    intro hidle
    rw [(hread hidle).1, (hread hidle).2]
    exact h.read hidle
  writes := by
    rw [hcore]
    intro hidle
    rw [hwrites hidle]
    exact h.writes hidle

/-- A step of a call on a device that is shut: its file is open, so that the
device is disconnected, and it has not passed its check. -/
theorem Stopped.call {s : State} {i f : Nat} {op op' : Op} {o : Outcome}
    {d' : UsbSkel} {ev : List Event} (h : Stopped s) (hhandles : Handles s)
    (hcall : s.calls[i]? = some (f, op))
    (hmove : OpMove s.dev (.call i) op o d' op' ev) :
    Stopped { s with dev := d', calls := s.calls.set i (f, op') } := by
  cases hshut : s.core.shut with
  | false => exact .of_not_shut hshut
  | true =>
      -- an active call has an opened file, so the device was disconnected
      have hmem := List.mem_of_getElem? hcall
      have hopened := hhandles.calls (f, op) hmem hmove.active
      have hdisc : s.dev.disconnected = true := by
        rcases h.disconnected hshut with hdisc | hnil
        · exact hdisc
        · rw [hnil] at hopened
          cases hopened
      have hpassed : op.passed = false := h.passed hshut (f, op) hmem
      obtain ⟨hurb, hcallbacks, hsubmitted, -⟩ :=
        hmove.urbs_eq (Op.not_submits_of_passed hpassed o)
      refine h.congr rfl ?_ ?_ (fun _ => ⟨hurb, hcallbacks⟩)
        (fun _ => hsubmitted)
      · rw [hmove.disconnected_eq]
        exact id
      · exact fun _ => Pool.forall_set (h.passed hshut)
          (hmove.passed hdisc hpassed)

/-- The URBs and the flag, over a step of the USB core. -/
structure SameIo (d d' : UsbSkel) : Prop where
  disconnected : d'.disconnected = d.disconnected
  bulkInUrb : d'.bulkInUrb = d.bulkInUrb
  readCallbacks : d'.readCallbacks = d.readCallbacks
  submitted : d'.submitted = d.submitted

theorem FileMove.sameIo {d d' : UsbSkel} {intfdata : Bool}
    {file file' : File} {o : Outcome} {ev : List Event}
    (h : FileMove d intfdata file o d' file' ev) : SameIo d d' := by
  obtain ⟨k, n, rfl⟩ := h.frame
  exact ⟨rfl, rfl, rfl, rfl⟩

section CoreStops

variable {s s' : State} {pc : Core} {o : Outcome} {ev : List Event}

theorem CoreMove.sameIo (h : CoreMove s pc o s' ev) (hpc : pc ≠ .unbound)
    (hset : pc ≠ .setDisconnected) : SameIo s.dev s'.dev := by
  cases h with
  | kzalloc => exact absurd rfl hpc
  | setDisconnected => exact absurd rfl hset
  | probeFails | dropRef =>
      obtain ⟨k, n, hput⟩ := krefPut_frame s.dev
      rw [hput]
      exact ⟨rfl, rfl, rfl, rfl⟩
  | _ => exact ⟨rfl, rfl, rfl, rfl⟩

/-- The device is shut by `disconnected`, and stays so. -/
theorem CoreMove.shut (h : CoreMove s pc o s' ev)
    (hset : pc ≠ .setDisconnected) (hshut : s'.core.shut = true) :
    pc.shut = true := by
  cases h <;> first | exact absurd rfl hset | rfl | cases hshut

/-- The read URB becomes idle when it was killed. -/
theorem CoreMove.readIdle (h : CoreMove s pc o s' ev)
    (hidle : s'.core.readIdle = true) :
    pc.readIdle = true ∨
      s.dev.bulkInUrb = none ∧ s.dev.readCallbacks = 0 := by
  cases h with
  | killRead hurb hcallbacks => exact Or.inr ⟨hurb, hcallbacks⟩
  | _ => first | exact Or.inl rfl | cases hidle

/-- The write URBs become idle when they were killed. -/
theorem CoreMove.writesIdle (h : CoreMove s pc o s' ev)
    (hidle : s'.core.writesIdle = true) :
    pc.writesIdle = true ∨ s.dev.submitted = [] := by
  cases h with
  | killAnchored hurbs => exact Or.inr hurbs
  | _ => first | exact Or.inl rfl | cases hidle

/-- When the USB core stores `disconnected` it holds `io_mutex`, so that no
call is between its check and its submission. -/
theorem Stopped.setDisconnected (hmutex : IoMutex s)
    (hpc : s.core = .setDisconnected) :
    Stopped { s with
      dev := { s.dev with disconnected := true, ioMutex := none }
      core := .killRead } where
  disconnected _ := Or.inl rfl
  passed _ c hc := by
    have hout : c.2.holdsIo = false :=
      hmutex.outside_of_core (by rw [hpc]; rfl) hc
    by_contra hpassed
    rw [Op.holdsIo_of_passed (by simpa using hpassed)] at hout
    cases hout
  read hidle := by cases hidle
  writes hidle := by cases hidle

/-- A step of the thread of the USB core. -/
theorem Stopped.core (h : Stopped s) (hmutex : IoMutex s)
    (hmove : CoreMove s s.core o s' ev) (hpc : s.core ≠ .unbound) :
    Stopped s' := by
  -- all other steps leave the flag alone and only move towards the end
  by_cases hset : s.core = .setDisconnected
  · have hstop := Stopped.setDisconnected hmutex hset
    rw [hset] at hmove
    cases hmove
    exact hstop
  · have hsame := hmove.sameIo hpc hset
    constructor
    · rw [hsame.disconnected, hmove.files_eq]
      exact fun hs => h.disconnected (hmove.shut hset hs)
    · rw [hmove.calls_eq]
      exact fun hs => h.passed (hmove.shut hset hs)
    · rw [hsame.bulkInUrb, hsame.readCallbacks]
      exact fun hidle => (hmove.readIdle hidle).elim h.read id
    · rw [hsame.submitted]
      exact fun hidle => (hmove.writesIdle hidle).elim h.writes id

end CoreStops

theorem stopped_of_reachable {s : State} (h : skelDriver.Reachable s) :
    Stopped s := by
  refine probed_induction ?_ ?_ ?_ ?_ h
  · exact .of_empty rfl rfl ⟨rfl, rfl⟩ rfl
  · exact .of_empty rfl rfl ⟨rfl, rfl⟩ rfl
  · exact .of_empty rfl rfl ⟨rfl, rfl⟩ rfl
  · intro s a s' ev hreach hcore ih hmove
    have hhandles := handles_of_reachable hreach
    cases hmove with
    | core hmove => exact ih.core (ioMutex_of_reachable hreach) hmove hcore
    | suspend | reset | disconnect => exact .of_not_shut rfl
    | openFile hreg =>
        exact .of_not_shut
          (Core.not_shut_of_registered (hhandles.registered ▸ hreg))
    | release hfile =>
        refine ih.congr rfl (Or.imp_right fun hnil => ?_) ih.passed
          (fun _ => ⟨rfl, rfl⟩) (fun _ => rfl)
        rw [hnil] at hfile
        cases hfile
    | file hfile hmove =>
        have hsame := hmove.sameIo
        refine ih.congr rfl (Or.imp (hsame.disconnected ▸ ·) fun hnil => ?_)
          ih.passed (fun _ => ⟨hsame.bulkInUrb, hsame.readCallbacks⟩)
          (fun _ => hsame.submitted)
        rw [hnil] at hfile
        cases hfile
    | enterRead | enterWrite | enterFlush =>
        exact ih.congr rfl id
          (fun hshut => Pool.forall_concat (ih.passed hshut) rfl)
          (fun _ => ⟨rfl, rfl⟩) (fun _ => rfl)
    | call hcall hmove => exact ih.call hhandles hcall hmove
    | readCompletes hurb =>
        -- a callback runs only for an URB in flight, and none is left
        refine ih.congr rfl id ih.passed (fun hidle => ?_) (fun _ => rfl)
        rw [(ih.read hidle).1] at hurb
        cases hurb
    | readWakesUp hpos =>
        refine ih.congr rfl id ih.passed (fun hidle => ?_) (fun _ => rfl)
        rw [(ih.read hidle).2] at hpos
        cases hpos
    | writeCompletes hurb | writeFrees hurb | writeUps hurb =>
        refine ih.congr rfl id ih.passed (fun _ => ⟨rfl, rfl⟩) fun hidle => ?_
        rw [ih.writes hidle] at hurb
        cases hurb

/-! ## The lifetime -/

/-- `kref_put` counts its deletion. -/
theorem krefPut_deleted (d : UsbSkel) :
    d.deleted + deleteLedger.credits (krefPut d).2 =
      (krefPut d).1.deleted := by
  unfold krefPut
  split_ifs <;> rfl

theorem deleted_step {s s' : State} {a : Act} {ev : List Event}
    (hreach : skelDriver.Reachable s)
    (hstep : skelDriver.step s a = some (s', ev)) :
    deleteLedger.StepBalances s ev s' := by
  refine probed_cases (P := fun s ev s' => deleteLedger.StepBalances s ev s')
    rfl rfl hreach (step_cases hstep) fun hcore => ?_
  show s.dev.deleted + deleteLedger.credits ev =
    deleteLedger.debits ev + s'.dev.deleted
  have hdebits : deleteLedger.debits ev = 0 := by
    simp [Ledger.debits, deleteLedger]
  rw [hdebits, Nat.zero_add]
  cases step_cases hstep with
  | core hmove =>
      obtain ⟨-, ⟨hsame, -, hev⟩ | ⟨hdev, -, rfl⟩⟩ := hmove.refs hcore
      · rw [hsame.deleted, hev, Nat.add_zero]
      · rw [hdev]
        exact krefPut_deleted s.dev
  | file _ hmove =>
      cases hmove with
      | dropRef => exact krefPut_deleted s.dev
      | _ => rfl
  | call _ hmove => rw [hmove.sameRefs.deleted, hmove.noDelete, Nat.add_zero]
  | _ => rfl

/-- The deletions of a run are those that the state counts. -/
theorem deleted_of_run {actions : List Act} {s : State} {tr : List Event}
    (hrun : skelDriver.run actions = some (s, tr)) :
    tr.countP (· = .deleted) = s.dev.deleted := by
  have hbalanced : deleteLedger.Balanced s tr :=
    deleteLedger.balanced_of_run skelDriver rfl
      (fun _ _ _ _ => deleted_step) hrun
  have hdebits : deleteLedger.debits tr = 0 := by
    simp [Ledger.debits, deleteLedger]
  unfold Ledger.Balanced at hbalanced
  rw [hdebits, Nat.zero_add] at hbalanced
  rw [← Ledger.sum_toNat]
  exact hbalanced

/-- The last reference is gone: the USB core has dropped its own, and no file
holds one. -/
def State.Unreferenced (s : State) : Prop :=
  s.dev.allocated = true ∧ s.core = .gone ∧
    ∀ file ∈ s.files, file.holdsRef = false

theorem deleted_eq {s : State} (h : skelDriver.Reachable s) :
    (s.Unreferenced → s.dev.deleted = 1) ∧
      (¬ s.Unreferenced → s.dev.deleted = 0) := by
  have hrefs := refs_of_reachable h
  constructor
  · rintro ⟨halloc, hgone, hfiles⟩
    have hcount : s.files.countP File.holdsRef = 0 := by
      rw [List.countP_eq_zero]
      exact fun file hfile => by simp [hfiles file hfile]
    rw [hrefs.deleted, hrefs.kref, hgone, hcount]
    simp [halloc, Core.ref]
  · intro hno
    rw [hrefs.deleted, if_neg]
    rintro ⟨halloc, hkref⟩
    rw [hrefs.kref] at hkref
    refine hno ⟨halloc, ?_, fun file hfile => ?_⟩
    · have href : s.core.ref = 0 := by omega
      have hbound : s.core ≠ .unbound := by
        intro hun
        rw [initial_of_unbound h hun] at halloc
        cases halloc
      generalize s.core = core at href hbound
      cases core <;> first | exact absurd rfl hbound | rfl | cases href
    · have hcount : s.files.countP File.holdsRef = 0 := by omega
      simpa using List.countP_eq_zero.mp hcount file hfile

/-- Nothing is left of the driver: no call, open or release is in progress, no
URB is in flight and no callback is running. -/
structure State.Idle (s : State) : Prop where
  calls : ∀ c ∈ s.calls, c.2.active = false
  files : ∀ file ∈ s.files, file = .closed
  core : s.core = .gone
  registered : s.registered = false
  bulkInUrb : s.dev.bulkInUrb = none
  readCallbacks : s.dev.readCallbacks = 0
  submitted : s.dev.submitted = []

theorem idle_of_unreferenced {s : State} (h : skelDriver.Reachable s)
    (hunref : s.Unreferenced) : s.Idle := by
  obtain ⟨-, hgone, hfiles⟩ := hunref
  have hhandles := handles_of_reachable h
  have hstopped := stopped_of_reachable h
  have hreg : s.registered = false := by
    rw [hhandles.registered, hgone]
    rfl
  have hidle : s.core.readIdle = true := by rw [hgone]; rfl
  constructor
  · -- an active call would have an opened file, which holds a reference
    intro c hc
    by_contra hactive
    have hopened := hhandles.calls c hc (by simpa using hactive)
    cases hfiles _ (List.mem_of_getElem? hopened)
  · -- an open in progress would need the minor to be registered
    intro file hfile
    have hnoref := hfiles file hfile
    have hnotOpening : file.opening = false := by
      by_contra hopening
      have := hhandles.opening file hfile (by simpa using hopening)
      rw [hreg] at this
      cases this
    cases file <;> simp_all [File.holdsRef, File.opening]
  · exact hgone
  · exact hreg
  · exact (hstopped.read hidle).1
  · exact (hstopped.read hidle).2
  · exact hstopped.writes (by rw [hgone]; rfl)

/-- In an idle state nothing can take a step. -/
theorem State.Idle.stuck {s : State} (h : s.Idle) (a : Act) :
    skelDriver.step s a = none := by
  rw [Option.eq_none_iff_forall_ne_some]
  rintro ⟨s', ev⟩ hstep
  cases step_cases hstep with
  | core hmove =>
      rw [h.core] at hmove
      cases hmove
  | suspend hbound | reset hbound | disconnect hbound =>
      rw [h.core] at hbound
      cases hbound
  | openFile hreg =>
      rw [h.registered] at hreg
      cases hreg
  | release hf | enterRead hf | enterWrite hf | enterFlush hf =>
      cases h.files _ (List.mem_of_getElem? hf)
  | file hf hmove =>
      rw [h.files _ (List.mem_of_getElem? hf)] at hmove
      cases hmove
  | call hcall hmove =>
      have := h.calls _ (List.mem_of_getElem? hcall)
      rw [hmove.active] at this
      cases this
  | readCompletes hurb =>
      rw [h.bulkInUrb] at hurb
      cases hurb
  | readWakesUp hpos =>
      rw [h.readCallbacks] at hpos
      cases hpos
  | writeCompletes hurb | writeFrees hurb | writeUps hurb =>
      rw [h.submitted] at hurb
      cases hurb

/-- What holds of the object in a state that was reached with the events
`tr`. -/
structure Lifetime (s : State) (tr : List Event) : Prop where
  once : tr.countP (· = .deleted) ≤ 1
  /-- It is deleted when the last reference has gone, not before. -/
  deleted_iff : Event.deleted ∈ tr ↔ s.Unreferenced
  /-- Then no URB is in flight and nobody is inside the driver. -/
  idle : Event.deleted ∈ tr → s.Idle
  /-- No step of an operation or a callback touches it any more. -/
  untouched : Event.deleted ∈ tr → ∀ a, skelDriver.step s a = none

/-- The object is deleted once, with the last reference, and nothing uses it
afterwards, in every run. -/
theorem lifetime_of_run {actions : List Act} {s : State} {tr : List Event}
    (hrun : skelDriver.run actions = some (s, tr)) : Lifetime s tr := by
  have hreach : skelDriver.Reachable s := ⟨actions, tr, hrun⟩
  obtain ⟨hone, hzero⟩ := deleted_eq hreach
  have hcount := deleted_of_run hrun
  have hiff : Event.deleted ∈ tr ↔ s.Unreferenced := by
    have hmem : Event.deleted ∈ tr ↔ 0 < tr.countP (· = .deleted) := by
      simp [List.countP_pos_iff]
    rw [hmem, hcount]
    constructor
    · intro hpos
      by_contra hno
      rw [hzero hno] at hpos
      cases hpos
    · intro hunref
      rw [hone hunref]
      exact Nat.one_pos
  have hidle : Event.deleted ∈ tr → s.Idle :=
    fun hmem => idle_of_unreferenced hreach (hiff.mp hmem)
  refine ⟨?_, hiff, hidle, fun hmem => (hidle hmem).stuck⟩
  rw [hcount]
  by_cases hunref : s.Unreferenced
  · rw [hone hunref]
  · rw [hzero hunref]
    exact Nat.zero_le 1

/-- The device is unplugged with a file open on it and both kinds of URBs in
flight.  The file is read and written once more, and then released. -/
def unplugWhileOpen : List Act :=
  bringUp ++ [.enterRead 0 true 4] ++ List.replicate 10 (.call 0 .ok) ++
    [.enterWrite 0 false 100] ++ List.replicate 9 (.call 1 .ok) ++
    [.disconnect] ++ List.replicate 4 (.core .ok 0) ++
    [.readCompletes (-ENOENT) [], .readWakesUp, .core .ok 0,
      .writeCompletes 0 (-ENOENT), .writeCallback 0, .writeCallback 0,
      .core .ok 0, .core .ok 0] ++
    [.enterRead 0 false 4] ++ List.replicate 3 (.call 2 .ok) ++
    [.enterWrite 0 false 1] ++ List.replicate 5 (.call 3 .ok) ++
    [.release 0, .file 0 .ok, .file 0 .ok]

theorem lifetime_unplugWhileOpen :
    ∃ s tr, skelDriver.run unplugWhileOpen = some (s, tr) ∧ Lifetime s tr ∧
      tr = [.readSubmitted 4, .returned (-EAGAIN) [], .coherentAllocated 0,
        .writeSubmitted 0, .returned 100 [], .readCompleted (-ENOENT) [],
        .writeCompleted (-ENOENT), .coherentFreed 0 .callback,
        .returned (-ENODEV) [], .returned (- EIO) [], .deleted] :=
  ⟨_, _, rfl, @lifetime_of_run unplugWhileOpen _ _ rfl, rfl⟩

end Skel
end USB
end KernelDrivers
