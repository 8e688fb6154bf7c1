import KernelDrivers.USB.Skel.Moves

/-!
# Return values

Where the return value of a call is fixed, and which steps fix it at the
number of an I/O error.  A value that is fixed stays so until it is returned.
-/

namespace KernelDrivers
namespace USB
namespace Skel

/-- The values that an error of the device is reported under. -/
def IoError (rv : Int) : Prop := rv = - EIO ∨ rv = -EPIPE

instance (rv : Int) : Decidable (IoError rv) :=
  inferInstanceAs (Decidable (_ ∨ _))

def Resume.result : Resume → Option Int
  | .retry => none
  | .exit rv _ => some rv

/-- The return value of `skel_read`, once it is fixed. -/
def ReadPc.result : ReadPc → Option Int
  | .clearErrors rv => some (reported rv)
  | .markOngoing _ next | .emptyBuffer _ next | .submit _ next => next.result
  | .submitFailed rv next => some (next.result.getD rv)
  | .exit rv _ => some rv
  | _ => none

/-- The return value of `skel_write`, once it is fixed. -/
def WritePc.result (count : Nat) : WritePc → Option Int
  | .clearErrors retval => some (reported retval)
  | .submitted => some (min count maxTransfer : Nat)
  | .submitFailed retval _ | .error retval _ | .up retval => some retval
  | _ => none

/-- The return value of `skel_flush`, once it is fixed. -/
def FlushPc.result : FlushPc → Option Int
  | .exit res => some res
  | _ => none

def Op.result : Op → Option Int
  | .read _ _ pc => pc.result
  | .write _ count pc => pc.result count
  | .flush pc => pc.result

/-- The next step of the call looks at `errors`. -/
def Op.looksAtErrors : Op → Bool
  | .read _ _ .checkErrors => true
  | .write _ _ .checkErrors => true
  | .flush .collect => true
  | _ => false

/-- The next step of the call is a submission that fails. -/
def Op.submitFails : Op → Outcome → Bool
  | .read _ _ (.submit _ _), .fails _ => true
  | .write _ _ (.submit _), .fails _ => true
  | _, _ => false

/-- A call that has returned has no value to return any more. -/
theorem Op.result_of_done {op : Op} (h : op.active = false) :
    op.result = none := by
  cases op with
  | read nonblock count pc =>
      have hpc : pc = .done := by simpa [Op.active] using h
      rw [hpc]; rfl
  | write nonblock count pc =>
      have hpc : pc = .done := by simpa [Op.active] using h
      rw [hpc]; rfl
  | flush pc =>
      have hpc : pc = .done := by simpa [Op.active] using h
      rw [hpc]; rfl

/-! ## The values that are no I/O errors -/

@[simp] theorem not_ioError_nat (n : Nat) : ¬ IoError n := by
  unfold IoError EIO EPIPE
  omega

/-- The other error numbers of the driver. -/
@[simp] theorem not_ioError_errno :
    ¬ IoError (-EINTR) ∧ ¬ IoError (-ENODEV) ∧ ¬ IoError (-EAGAIN) ∧
      ¬ IoError (-ERESTARTSYS) ∧ ¬ IoError (-ENOMEM) ∧ ¬ IoError (-EFAULT) := by
  decide

@[simp] theorem not_ioError_zero : ¬ IoError 0 := not_ioError_nat 0

@[simp] theorem not_ioError_copyToUser (d : UsbSkel) (n : Nat) (o : Outcome) :
    ¬ IoError (copyToUser d n o).1 := by
  cases o with
  | ok => exact not_ioError_nat n
  | fails => exact not_ioError_errno.2.2.2.2.2

@[simp] theorem flushed_zero : flushed 0 = 0 := rfl

@[simp] theorem Resume.result_succeeded (next : Resume) :
    next.succeeded.result = next.result := by
  cases next <;> rfl

@[simp] theorem Resume.result_failed (rv : Int) (next : Resume) :
    (next.failed rv).result = some (next.result.getD rv) := by
  cases next <;> rfl

/-- Every nonzero status of an unlinked or failed URB other than `-EPIPE` is
reported as `-EIO`. -/
theorem reported_of_ne {errors : Int} (h : errors ≠ -EPIPE) :
    reported errors = - EIO :=
  if_neg h

section Moves

variable {d d' : UsbSkel} {me : Owner} {nonblock : Bool} {count : Nat}
  {o : Outcome} {ev : List Event}

/-- Neither the value that a call is going to return nor one that is returned
in the events is an I/O error. -/
structure NoIoErrorIn (result : Option Int) (ev : List Event) : Prop where
  result : ∀ rv ∈ result, ¬ IoError rv
  returned : ∀ rv user, Event.returned rv user ∈ ev → ¬ IoError rv

theorem ReadMove.noIoError {pc pc' : ReadPc}
    (h : ReadMove d me nonblock count pc o d' pc' ev)
    (hresult : ∀ rv ∈ pc.result, ¬ IoError rv)
    (hlook : Op.looksAtErrors (.read nonblock count pc) = true → d.errors = 0)
    (hsubmit : Op.submitFails (.read nonblock count pc) o = false) :
    NoIoErrorIn pc'.result ev := by
  cases h with
  | tanked hneg =>
      rw [hlook rfl] at hneg
      exact absurd hneg (Int.lt_irrefl 0)
  | submitFails => cases hsubmit
  | submit =>
      refine ⟨?_, by simp⟩
      rw [Resume.result_succeeded]
      exact hresult
  | unmarkOngoing =>
      refine ⟨?_, by simp⟩
      rw [Resume.result_failed]
      exact hresult
  | exit =>
      refine ⟨by simp [ReadPc.result], ?_⟩
      intro rv user hmem
      have heq := List.mem_singleton.mp hmem
      cases heq
      exact hresult _ rfl
  | clear | markOngoing | emptyBuffer =>
      exact ⟨hresult, by simp⟩
  | _ => constructor <;> simp [ReadPc.result, Resume.result]

theorem WriteMove.noIoError {pc pc' : WritePc}
    (h : WriteMove d me nonblock count pc o d' pc' ev)
    (hresult : ∀ rv ∈ pc.result count, ¬ IoError rv)
    (hlook : Op.looksAtErrors (.write nonblock count pc) = true → d.errors = 0)
    (hsubmit : Op.submitFails (.write nonblock count pc) o = false) :
    NoIoErrorIn (pc'.result count) ev := by
  cases h with
  | tanked _ hneg =>
      rw [hlook rfl] at hneg
      exact absurd hneg (Int.lt_irrefl 0)
  | submitFails => cases hsubmit
  | written | up =>
      refine ⟨by simp [WritePc.result], ?_⟩
      intro rv user hmem
      have heq := List.mem_singleton.mp hmem
      cases heq
      exact hresult _ rfl
  | clear | unanchor => exact ⟨hresult, by simp⟩
  | freeCoherent => exact ⟨hresult, by simp⟩
  | submit =>
      refine ⟨?_, by simp⟩
      rintro rv ⟨⟩
      exact not_ioError_nat _
  | _ => constructor <;> simp [WritePc.result]

theorem FlushMove.noIoError {pc pc' : FlushPc}
    (h : FlushMove d me pc o d' pc' ev)
    (hresult : ∀ rv ∈ pc.result, ¬ IoError rv)
    (hlook : Op.looksAtErrors (.flush pc) = true → d.errors = 0) :
    NoIoErrorIn pc'.result ev := by
  cases h with
  | collect =>
      rw [hlook rfl]
      constructor <;> simp [FlushPc.result]
  | exit =>
      refine ⟨by simp [FlushPc.result], ?_⟩
      intro rv user hmem
      have heq := List.mem_singleton.mp hmem
      cases heq
      exact hresult _ rfl
  | _ => constructor <;> simp [FlushPc.result]

/-- A call that finds no error stored and whose submissions succeed does not
come to an I/O error. -/
theorem OpMove.noIoError {op op' : Op} (h : OpMove d me op o d' op' ev)
    (hresult : ∀ rv ∈ op.result, ¬ IoError rv)
    (hlook : op.looksAtErrors = true → d.errors = 0)
    (hsubmit : op.submitFails o = false) : NoIoErrorIn op'.result ev := by
  cases h with
  | read h => exact h.noIoError hresult hlook hsubmit
  | write h => exact h.noIoError hresult hlook hsubmit
  | flush h => exact h.noIoError hresult hlook

/-- The return value, once fixed, stays until it is returned. -/
theorem OpMove.result_kept {op op' : Op} (h : OpMove d me op o d' op' ev)
    {rv : Int} (hrv : op.result = some rv) :
    op'.result = some rv ∨ ∃ user, Event.returned rv user ∈ ev := by
  cases h with
  | read h =>
      cases h with
      | exit => cases hrv; exact Or.inr ⟨_, List.mem_singleton.mpr rfl⟩
      | submit => exact Or.inl ((Resume.result_succeeded _).trans hrv)
      | unmarkOngoing => exact Or.inl ((Resume.result_failed _ _).trans hrv)
      | clear | markOngoing | emptyBuffer => exact Or.inl hrv
      | @submitFails _ next =>
          refine Or.inl ?_
          show some (next.result.getD _) = _
          rw [show next.result = some rv from hrv]
          rfl
      | _ => cases hrv
  | write h =>
      cases h with
      | written | up =>
          cases hrv
          exact Or.inr ⟨_, List.mem_singleton.mpr rfl⟩
      | clear | unanchor | freeCoherent => exact Or.inl hrv
      | _ => cases hrv
  | flush h =>
      cases h with
      | exit => cases hrv; exact Or.inr ⟨_, List.mem_singleton.mpr rfl⟩
      | _ => cases hrv

/-- A call that finds an error stored is going to return it. -/
theorem OpMove.result_of_error {op op' : Op}
    (h : OpMove d me op o d' op' ev) (hlook : op.looksAtErrors = true)
    (hneg : d.errors < 0) : op'.result = some (reported d.errors) := by
  cases h with
  | read h =>
      cases h with
      | tanked => rfl
      | noError hnonneg => exact absurd hnonneg (Int.not_le.mpr hneg)
      | _ => cases hlook
  | write h =>
      cases h with
      | tanked => rfl
      | noError _ hnonneg => exact absurd hnonneg (Int.not_le.mpr hneg)
      | _ => cases hlook
  | flush h =>
      cases h with
      | collect =>
          show some (flushed d.errors) = _
          rw [flushed, if_pos (Int.ne_of_lt hneg)]
      | _ => cases hlook

end Moves

end Skel
end USB
end KernelDrivers
