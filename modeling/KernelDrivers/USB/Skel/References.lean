import KernelDrivers.Lib.Ledger
import KernelDrivers.USB.Skel.Mutex

/-!
# The references to `struct usb_skel`

The thread of the USB core holds one reference for the interface from the
allocation to the last step of `skel_disconnect` or of a failed `skel_probe`,
and every file holds one from its `kref_get` to its `kref_put`.  A file can
take its reference only while the minor is registered, so that the object is
never taken up again after its count has dropped to zero.
-/

namespace KernelDrivers
namespace USB
namespace Skel

open Lib

/-! ## Places in the life of the object -/

/-- References that the thread of the USB core holds for the interface. -/
def Core.ref : Core → Nat
  | .unbound | .gone => 0
  | _ => 1

/-- The minor is registered. -/
def Core.registered : Core → Bool
  | .bound | .suspend _ | .preReset | .preResetLocked _ | .inReset
  | .postResetUnlock | .disconnect | .deregisterDev => true
  | _ => false

/-- `skel_probe` has not registered the minor, and may still fail. -/
def Core.probing : Core → Bool
  | .unbound | .findEndpoints | .allocBuffer | .allocUrb | .setIntfdata
  | .registerDev | .clearIntfdata | .probeError => true
  | _ => false

theorem Core.registered_of_probing {core : Core}
    (h : core.probing = true) : core.registered = false := by
  cases core <;> first | rfl | cases h

theorem Core.ref_of_registered {core : Core} (h : core.registered = true) :
    core.ref = 1 := by
  cases core <;> first | rfl | cases h

/-! ## What a step does to the life of the object -/

/-- The number of deletions in the events is the one the state counts. -/
def deleteLedger : Ledger State Event where
  credit e := (decide (e = .deleted)).toNat
  debit _ := 0
  balance s := s.dev.deleted

/-- The fields of the device that count its references. -/
structure SameRefs (d d' : UsbSkel) : Prop where
  kref : d'.kref = d.kref
  deleted : d'.deleted = d.deleted
  allocated : d'.allocated = d.allocated

section Moves

variable {d d' : UsbSkel} {me : Owner} {nonblock : Bool} {count : Nat}
  {o : Outcome} {ev : List Event}

theorem OpMove.sameRefs {op op' : Op} (h : OpMove d me op o d' op' ev) :
    SameRefs d d' := by
  cases h with
  | read h => cases h <;> exact ⟨rfl, rfl, rfl⟩
  | write h => cases h <;> exact ⟨rfl, rfl, rfl⟩
  | flush h => cases h <;> exact ⟨rfl, rfl, rfl⟩

/-- A call does not delete the object. -/
theorem OpMove.noDelete {op op' : Op} (h : OpMove d me op o d' op' ev) :
    deleteLedger.credits ev = 0 := by
  cases h with
  | read h => cases h <;> rfl
  | write h =>
      cases h with
      | @freeCoherent _ _ buf => cases buf <;> rfl
      | _ => rfl
  | flush h => cases h <;> rfl

/-- A call that has returned takes no more step. -/
theorem OpMove.active {op op' : Op} (h : OpMove d me op o d' op' ev) :
    op.active = true := by
  cases h with
  | read h => cases h <;> rfl
  | write h => cases h <;> rfl
  | flush h => cases h <;> rfl

end Moves

/-! ## Files and calls -/

/-- Which files and calls there can be, given where the USB core is. -/
structure Handles (s : State) : Prop where
  registered : s.registered = s.core.registered
  opening : ∀ file ∈ s.files, file.opening = true → s.registered = true
  probing : s.core.probing = true → s.files = []
  calls : ∀ c ∈ s.calls, c.2.active = true → s.files[c.1]? = some .opened

theorem FileMove.opening {d d' : UsbSkel} {intfdata : Bool}
    {file file' : File} {o : Outcome} {ev : List Event}
    (h : FileMove d intfdata file o d' file' ev)
    (hnew : file'.opening = true) : file.opening = true := by
  cases h <;> simp_all [File.opening]

theorem FileMove.ne_opened {d d' : UsbSkel} {intfdata : Bool}
    {file file' : File} {o : Outcome} {ev : List Event}
    (h : FileMove d intfdata file o d' file' ev) : file ≠ .opened := by
  cases h <;> simp

/-- The USB core registers the minor and gives it back where its place
changes accordingly, and never goes back to probing. -/
theorem CoreMove.handles {s s' : State} {pc : Core} {o : Outcome}
    {ev : List Event} (h : CoreMove s pc o s' ev) :
    (s.registered = pc.registered → s'.registered = s'.core.registered) ∧
      (s'.core.probing = true → pc.probing = true) := by
  cases h <;> simp_all [Core.registered, Core.probing]

/-- The minor stays registered while an open is in progress. -/
theorem CoreMove.registered {s s' : State} {pc : Core} {o : Outcome}
    {ev : List Event} (h : CoreMove s pc o s' ev)
    (hopen : ∃ file ∈ s.files, file.opening = true)
    (hreg : s.registered = true) : s'.registered = true := by
  cases h with
  | deregisterDev hnone =>
      obtain ⟨file, hfile, hopening⟩ := hopen
      have := List.any_eq_false.mp hnone file hfile
      exact absurd hopening this
  | registerDev => rfl
  | _ => exact hreg

/-- A step that changes neither the files nor the calls nor the core. -/
theorem Handles.congr {s s' : State} (h : Handles s)
    (hfiles : s'.files = s.files) (hcalls : s'.calls = s.calls)
    (hreg : s'.registered = s.registered)
    (hcore : s'.core.registered = s.core.registered)
    (hprobing : s'.core.probing = true → s.core.probing = true) :
    Handles s' where
  registered := by rw [hreg, hcore, h.registered]
  opening := by rw [hfiles, hreg]; exact h.opening
  probing := by rw [hfiles]; exact fun hp => h.probing (hprobing hp)
  calls := by rw [hfiles, hcalls]; exact h.calls

theorem Handles.core {s s' : State} {o : Outcome} {ev : List Event}
    (h : Handles s) (hmove : CoreMove s s.core o s' ev) : Handles s' where
  registered := hmove.handles.1 h.registered
  opening := by
    intro file hfile hopening
    rw [hmove.files_eq] at hfile
    exact hmove.registered ⟨file, hfile, hopening⟩
      (h.opening file hfile hopening)
  probing := by
    rw [hmove.files_eq]
    exact fun hp => h.probing (hmove.handles.2 hp)
  calls := by
    rw [hmove.files_eq, hmove.calls_eq]
    exact h.calls

theorem Handles.enter {s : State} (h : Handles s) {f : Nat} (op : Op)
    (hf : s.files[f]? = some .opened) :
    Handles { s with calls := s.calls ++ [(f, op)] } where
  registered := h.registered
  opening := h.opening
  probing := h.probing
  calls := Pool.forall_concat h.calls fun _ => hf

theorem Handles.call {s : State} (h : Handles s) {i f : Nat} {op op' : Op}
    (d' : UsbSkel) (hcall : s.calls[i]? = some (f, op))
    (hactive : op.active = true) :
    Handles { s with dev := d', calls := s.calls.set i (f, op') } where
  registered := h.registered
  opening := h.opening
  probing := h.probing
  calls := Pool.forall_set h.calls fun _ =>
    h.calls (f, op) (List.mem_of_getElem? hcall) hactive

/-- A step of a file that is not in use by a call. -/
theorem Handles.file {s : State} (h : Handles s) {f : Nat}
    {file file' : File} (d' : UsbSkel) (hfile : s.files[f]? = some file)
    (hopening : file'.opening = true → file.opening = true)
    (hcalls : file = .opened → ∀ c ∈ s.calls, c.1 = f → c.2.active = false) :
    Handles { s with dev := d', files := s.files.set f file' } where
  registered := h.registered
  opening := Pool.forall_set h.opening fun hnew =>
    h.opening file (List.mem_of_getElem? hfile) (hopening hnew)
  probing := by
    intro hp
    rw [h.probing hp] at hfile
    cases hfile
  calls := by
    intro c hc hactive
    have hopened := h.calls c hc hactive
    by_cases hcf : c.1 = f
    · rw [hcf, hfile] at hopened
      have := hcalls (Option.some.inj hopened) c hc hcf
      rw [hactive] at this
      cases this
    · rw [← hopened]
      exact Pool.set_other hcf

theorem handles_of_reachable {s : State} (h : skelDriver.Reachable s) :
    Handles s := by
  refine skelDriver.reachable_invariant ?_ ?_ h
  · refine ⟨rfl, ?_, fun _ => rfl, ?_⟩ <;>
      simp [skelDriver, State.initial]
  · intro s a s' ev ih hstep
    cases step_cases hstep with
    | core hmove => exact ih.core hmove
    | suspend hbound | reset hbound | disconnect hbound =>
        refine ih.congr rfl rfl rfl ?_ ?_ <;> rw [hbound] <;>
          simp [Core.registered, Core.probing]
    | openFile hreg =>
        -- `skel_open` is entered only while the minor is registered
        refine ⟨ih.registered, ?_, ?_, ?_⟩
        · exact fun _ _ _ => hreg
        · intro hp
          have := ih.registered
          rw [hreg, Core.registered_of_probing hp] at this
          cases this
        · intro c hc hactive
          have hopened := ih.calls c hc hactive
          exact Pool.concat_kept hopened .findInterface
    | release hfile hdone =>
        exact ih.file s.dev hfile (by simp [File.opening]) fun _ => hdone
    | file hfile hmove =>
        exact ih.file _ hfile hmove.opening
          fun hopened => absurd hopened hmove.ne_opened
    | enterRead hf | enterWrite hf | enterFlush hf => exact ih.enter _ hf
    | call hcall hmove => exact ih.call _ hcall hmove.active
    | _ => exact ih.congr rfl rfl rfl rfl id

/-! ## References -/

/-- The references are counted, and the object is deleted when the count has
dropped to zero. -/
structure Refs (s : State) : Prop where
  kref : s.dev.kref = s.core.ref + s.files.countP File.holdsRef
  deleted : s.dev.deleted =
    if s.dev.allocated = true ∧ s.dev.kref = 0 then 1 else 0
  allocated : s.dev.allocated = false →
    s.core = .unbound ∨ s.core = .gone ∧ s.files = []

/-- Taking a reference away from a live object. -/
theorem krefPut_refs {d : UsbSkel} {n : Nat} (hkref : d.kref = n + 1)
    (halloc : d.allocated = true)
    (hdel : d.deleted = if d.allocated = true ∧ d.kref = 0 then 1 else 0) :
    (krefPut d).1.kref = n ∧ (krefPut d).1.allocated = true ∧
      (krefPut d).1.deleted =
        if (krefPut d).1.allocated = true ∧ (krefPut d).1.kref = 0 then 1
        else 0 := by
  have hlive : d.deleted = 0 := by rw [hdel, if_neg (by omega)]
  unfold krefPut
  by_cases hone : d.kref = 1
  · rw [if_pos hone]
    have hn : n = 0 := by omega
    exact ⟨hn.symm, halloc, by simp [halloc, hlive]⟩
  · rw [if_neg hone]
    have hn : d.kref - 1 = n := by omega
    have hpos : n ≠ 0 := by omega
    exact ⟨hn, halloc, by simp [hn, hpos, hlive]⟩

theorem Refs.congr {s s' : State} (h : Refs s) (hsame : SameRefs s.dev s'.dev)
    (hcore : s'.core.ref = s.core.ref)
    (hfiles : s'.files.countP File.holdsRef = s.files.countP File.holdsRef)
    (hnew : s'.dev.allocated = false →
      s'.core = .unbound ∨ s'.core = .gone ∧ s'.files = []) : Refs s' where
  kref := by rw [hsame.kref, hcore, hfiles, h.kref]
  deleted := by rw [hsame.deleted, hsame.allocated, hsame.kref, h.deleted]
  allocated := hnew

theorem Refs.allocated_of_ref {s : State} (h : Refs s)
    (href : s.core.ref = 1) : s.dev.allocated = true := by
  by_contra hno
  rcases h.allocated (by simpa using hno) with hcore | ⟨hcore, -⟩ <;>
    rw [hcore] at href <;> cases href

/-- A step of the USB core either keeps its reference or is its last one,
which drops the reference. -/
theorem CoreMove.refs {s s' : State} {pc : Core} {o : Outcome}
    {ev : List Event} (h : CoreMove s pc o s' ev) (hpc : pc ≠ .unbound) :
    pc.ref = 1 ∧
      (SameRefs s.dev s'.dev ∧ s'.core.ref = 1 ∧
          deleteLedger.credits ev = 0 ∨
        s'.dev = (krefPut s.dev).1 ∧ s'.core = .gone ∧
          ev = (krefPut s.dev).2) := by
  cases h with
  | kzalloc | noMemory => exact absurd rfl hpc
  | probeFails | dropRef => exact ⟨rfl, Or.inr ⟨rfl, rfl, rfl⟩⟩
  | _ => exact ⟨rfl, Or.inl ⟨⟨rfl, rfl, rfl⟩, rfl, rfl⟩⟩

theorem Refs.core {s s' : State} {o : Outcome} {ev : List Event}
    (h : Refs s) (hmove : CoreMove s s.core o s' ev)
    (hpc : s.core ≠ .unbound) : Refs s' := by
  obtain ⟨href, ⟨hsame, href', -⟩ | ⟨hdev, hgone, -⟩⟩ := hmove.refs hpc
  · have halloc := h.allocated_of_ref href
    refine h.congr hsame (href'.trans href.symm) (by rw [hmove.files_eq]) ?_
    rw [hsame.allocated, halloc]
    exact fun hno => by cases hno
  · have hkref : s.dev.kref = s.files.countP File.holdsRef + 1 := by
      rw [h.kref, href, Nat.add_comm]
    obtain ⟨hput, halloc, hdel⟩ :=
      krefPut_refs hkref (h.allocated_of_ref href) h.deleted
    constructor
    · rw [hdev, hput, hgone, hmove.files_eq]
      simp [Core.ref]
    · rw [hdev]
      exact hdel
    · rw [hdev, halloc]
      exact fun hno => by cases hno

/-- A step of a file counts its reference. -/
theorem Refs.file {s : State} {f : Nat} {file file' : File} {o : Outcome}
    {d' : UsbSkel} {ev : List Event} (h : Refs s) (hhandles : Handles s)
    (hfile : s.files[f]? = some file)
    (hmove : FileMove s.dev s.intfdata file o d' file' ev) :
    Refs { s with dev := d', files := s.files.set f file' } := by
  have hcount := Pool.countP_set File.holdsRef file' hfile
  have hnonempty : s.files ≠ [] := by
    intro hnil
    rw [hnil] at hfile
    cases hfile
  have halloc : s.dev.allocated = true := by
    by_contra hno
    rcases h.allocated (by simpa using hno) with hcore | ⟨-, hnil⟩
    · exact hnonempty (hhandles.probing (by rw [hcore]; rfl))
    · exact hnonempty hnil
  cases hmove with
  | krefGet =>
      -- an open is in progress, so the minor is registered and the
      -- interface still has its reference
      have hreg := hhandles.opening _ (List.mem_of_getElem? hfile) rfl
      have href : s.core.ref = 1 :=
        Core.ref_of_registered (hhandles.registered ▸ hreg)
      have hkref := h.kref
      have hdel := h.deleted
      rw [if_neg (by omega)] at hdel
      constructor
      · show s.dev.kref + 1 =
          s.core.ref + (s.files.set f .opened).countP File.holdsRef
        simp only [File.holdsRef, Bool.toNat_true, Bool.toNat_false] at hcount
        omega
      · simp [hdel]
      · exact fun hno => by rw [show _ = true from halloc] at hno; cases hno
  | dropRef =>
      simp only [File.holdsRef, Bool.toNat_true, Bool.toNat_false] at hcount
      have hkref : s.dev.kref =
          (s.core.ref + (s.files.set f .closed).countP File.holdsRef) + 1 := by
        have := h.kref
        omega
      obtain ⟨hput, halloc', hdel⟩ := krefPut_refs hkref halloc h.deleted
      refine ⟨hput, hdel, ?_⟩
      exact fun hno => by rw [show _ = true from halloc'] at hno; cases hno
  | _ =>
      -- the other steps stay on their side of `kref_get` and `kref_put`
      refine h.congr ⟨rfl, rfl, rfl⟩ rfl ?_ ?_
      · simpa [File.holdsRef] using hcount
      · exact fun hno => by rw [show _ = true from halloc] at hno; cases hno

theorem refs_of_reachable {s : State} (h : skelDriver.Reachable s) :
    Refs s := by
  refine probed_induction ?_ ?_ ?_ ?_ h
  · exact ⟨rfl, rfl, fun _ => Or.inl rfl⟩
  · exact ⟨rfl, rfl, fun _ => Or.inr ⟨rfl, rfl⟩⟩
  · exact ⟨rfl, rfl, fun hno => by cases hno⟩
  · intro s a s' ev hreach hcore ih hmove
    have hhandles := handles_of_reachable hreach
    cases hmove with
    | core hmove => exact ih.core hmove hcore
    | suspend hbound | reset hbound | disconnect hbound =>
        have href : s.core.ref = 1 := by rw [hbound]; rfl
        refine ih.congr ⟨rfl, rfl, rfl⟩ href.symm rfl fun hno => ?_
        rw [ih.allocated_of_ref href] at hno
        cases hno
    | openFile hreg =>
        have href : s.core.ref = 1 :=
          Core.ref_of_registered (hhandles.registered ▸ hreg)
        refine ih.congr ⟨rfl, rfl, rfl⟩ rfl (by simp [File.holdsRef]) ?_
        intro hno
        rw [ih.allocated_of_ref href] at hno
        cases hno
    | release hfile =>
        have hcount := Pool.countP_set File.holdsRef .autopmPut hfile
        refine ih.congr ⟨rfl, rfl, rfl⟩ rfl ?_ ?_
        · simpa [File.holdsRef] using hcount
        · intro hno
          rcases ih.allocated hno with hun | ⟨-, hnil⟩
          · exact absurd hun hcore
          · rw [hnil] at hfile
            cases hfile
    | file hfile hmove => exact ih.file hhandles hfile hmove
    | call hcall hmove =>
        refine ih.congr hmove.sameRefs rfl rfl ?_
        rw [hmove.sameRefs.allocated]
        exact ih.allocated
    | _ => exact ih.congr ⟨rfl, rfl, rfl⟩ rfl rfl ih.allocated

end Skel
end USB
end KernelDrivers
