import KernelDrivers.Lib.Ledger
import KernelDrivers.USB.Skel.Mutex

/-!
# The resources of `skel_write`

A writer takes a slot of `limit_sem` and allocates a coherent buffer.  Both
pass to the callback of the URB when the submission succeeds, and are given
back by the error path when anything fails.  The slots always add up to
`WRITES_IN_FLIGHT`, and a buffer has one owner until it is freed.
-/

namespace KernelDrivers
namespace USB
namespace Skel

open Lib

/-- The writer is between its successful `down` and its submission or
`up`. -/
def WritePc.holdsSlot : WritePc → Bool
  | .start | .submitted | .done => false
  | _ => true

/-- The writer will free the coherent buffer, or hand it to the URB. -/
def WritePc.ownsBuffer (b : Nat) : WritePc → Bool
  | .copyFromUser buf | .lockIo buf | .locked buf | .submit buf => buf = b
  | .submitFailed _ buf => buf = b
  | .error _ buf => buf = some b
  | _ => false

def Op.holdsSlot : Op → Bool
  | .write _ _ pc => pc.holdsSlot
  | _ => false

def Op.ownsBuffer (b : Nat) : Op → Bool
  | .write _ _ pc => pc.ownsBuffer b
  | _ => false

/-- The callback of the URB will free the coherent buffer. -/
def WriteUrb.ownsBuffer (b : Nat) (urb : WriteUrb) : Bool :=
  urb.transferBuffer = b ∧ urb.phase ≠ .up

def State.writersWithSlot (s : State) : Nat :=
  s.calls.countP fun c => c.2.holdsSlot

/-- The writers and the URBs that own a coherent buffer. -/
def State.owners (s : State) (b : Nat) : Nat :=
  (s.calls.countP fun c => c.2.ownsBuffer b) +
    s.dev.submitted.countP (WriteUrb.ownsBuffer b)

/-- `limit_sem`, the write URBs in flight and the writers with a slot. -/
def State.slots (s : State) : Nat :=
  s.dev.limitSem + s.dev.submitted.length + s.writersWithSlot

@[simp] def Event.allocates (b : Nat) : Event → Bool
  | .coherentAllocated buf => buf = b
  | _ => false

@[simp] def Event.frees (b : Nat) : Event → Bool
  | .coherentFreed buf _ => buf = b
  | _ => false

/-- The account of one coherent buffer. -/
def bufferLedger (b : Nat) : Ledger State Event where
  credit e := (e.allocates b).toNat
  debit e := (e.frees b).toNat
  balance s := s.owners b

/-! ## What a step does to the resources -/

/-- The fields of the device that belong to the write path. -/
structure SameWrites (d d' : UsbSkel) : Prop where
  limitSem : d'.limitSem = d.limitSem
  submitted : d'.submitted = d.submitted
  buffers : d'.buffers = d.buffers
  allocated : d'.allocated = d.allocated

/-- None of the events is about a coherent buffer. -/
def NoBufferEvents (ev : List Event) : Prop :=
  ∀ b, (bufferLedger b).credits ev = 0 ∧ (bufferLedger b).debits ev = 0

section Moves

variable {d d' : UsbSkel} {me : Owner} {nonblock : Bool} {count : Nat}
  {o : Outcome} {ev : List Event}

theorem ReadMove.sameWrites {pc pc' : ReadPc}
    (h : ReadMove d me nonblock count pc o d' pc' ev) :
    SameWrites d d' ∧ NoBufferEvents ev := by
  cases h <;> exact ⟨⟨rfl, rfl, rfl, rfl⟩, fun b => ⟨rfl, rfl⟩⟩

theorem FlushMove.sameWrites {pc pc' : FlushPc}
    (h : FlushMove d me pc o d' pc' ev) :
    SameWrites d d' ∧ NoBufferEvents ev := by
  cases h <;> exact ⟨⟨rfl, rfl, rfl, rfl⟩, fun b => ⟨rfl, rfl⟩⟩

theorem FileMove.sameWrites {intfdata : Bool} {file file' : File}
    (h : FileMove d intfdata file o d' file' ev) :
    SameWrites d d' ∧ NoBufferEvents ev := by
  obtain ⟨k, n, rfl⟩ := h.frame
  refine ⟨⟨rfl, rfl, rfl, rfl⟩, ?_⟩
  rcases h.events with rfl | rfl <;> exact fun b => ⟨rfl, rfl⟩

theorem CoreMove.sameWrites {s s' : State} {pc : Core}
    (h : CoreMove s pc o s' ev) (hpc : pc ≠ .unbound) :
    SameWrites s.dev s'.dev ∧ NoBufferEvents ev := by
  constructor
  · cases h with
    | kzalloc => exact absurd rfl hpc
    | probeFails | dropRef =>
        obtain ⟨k, n, hput⟩ := krefPut_frame s.dev
        rw [hput]
        exact ⟨rfl, rfl, rfl, rfl⟩
    | _ => exact ⟨rfl, rfl, rfl, rfl⟩
  · rcases h.events with rfl | rfl | rfl <;> exact fun b => ⟨rfl, rfl⟩

theorem WriteMove.allocated_eq {pc pc' : WritePc}
    (h : WriteMove d me nonblock count pc o d' pc' ev) :
    d'.allocated = d.allocated := by
  cases h <;> rfl

/-- A step of a writer moves a slot between the semaphore, the writer and the
URBs. -/
theorem WriteMove.slots {pc pc' : WritePc}
    (h : WriteMove d me nonblock count pc o d' pc' ev) :
    d'.limitSem + d'.submitted.length + pc'.holdsSlot.toNat =
      d.limitSem + d.submitted.length + pc.holdsSlot.toNat := by
  cases h with
  | down hpos =>
      -- `down` waits for a positive count
      simp only [WritePc.holdsSlot, Bool.toNat_true, Bool.toNat_false]
      omega
  | submit =>
      simp only [WritePc.holdsSlot, Bool.toNat_true, Bool.toNat_false,
        List.length_append, List.length_singleton]
      omega
  | up =>
      simp only [WritePc.holdsSlot, Bool.toNat_true, Bool.toNat_false]
      omega
  | _ => rfl

/-- A step of a writer moves a buffer between the events, the writer and the
URBs. -/
theorem WriteMove.buffers {pc pc' : WritePc}
    (h : WriteMove d me nonblock count pc o d' pc' ev) (b : Nat) :
    (pc.ownsBuffer b).toNat + d.submitted.countP (WriteUrb.ownsBuffer b) +
        (bufferLedger b).credits ev =
      (bufferLedger b).debits ev +
        ((pc'.ownsBuffer b).toNat +
          d'.submitted.countP (WriteUrb.ownsBuffer b)) := by
  cases h with
  | allocCoherent => simp [WritePc.ownsBuffer, bufferLedger, Nat.add_comm]
  | submit =>
      -- the buffer passes from the writer to the URB
      rw [Pool.countP_concat]
      simp [WritePc.ownsBuffer, bufferLedger, WriteUrb.ownsBuffer,
        Nat.add_comm]
  | @freeCoherent _ _ buf =>
      cases buf <;> simp [WritePc.ownsBuffer, bufferLedger]
  | _ => simp [WritePc.ownsBuffer, bufferLedger]

theorem toNat_lt_succ (n b : Nat) :
    (decide (b < n + 1)).toNat =
      (decide (b < n)).toNat + (decide (n = b)).toNat := by
  rcases Nat.lt_trichotomy b n with h | rfl | h
  · simp [h, Nat.lt_succ_of_lt h, Nat.ne_of_gt h]
  · simp
  · simp [Nat.not_lt.mpr (Nat.le_of_lt h), Nat.ne_of_lt h,
      show ¬ b < n + 1 by omega]

/-- A writer allocates the next buffer. -/
theorem WriteMove.credits {pc pc' : WritePc}
    (h : WriteMove d me nonblock count pc o d' pc' ev) (b : Nat) :
    (decide (b < d'.buffers)).toNat =
      (decide (b < d.buffers)).toNat + (bufferLedger b).credits ev := by
  cases h with
  | allocCoherent =>
      simp only [bufferLedger, Ledger.credits_cons, Ledger.credits_nil]
      exact toNat_lt_succ d.buffers b
  | @freeCoherent _ _ buf => cases buf <;> simp [bufferLedger]
  | _ => rfl

theorem OpMove.slots {op op' : Op} (h : OpMove d me op o d' op' ev) :
    d'.limitSem + d'.submitted.length + op'.holdsSlot.toNat =
      d.limitSem + d.submitted.length + op.holdsSlot.toNat := by
  cases h with
  | read h =>
      obtain ⟨hsame, -⟩ := h.sameWrites
      rw [hsame.limitSem, hsame.submitted]
      rfl
  | write h => exact h.slots
  | flush h =>
      obtain ⟨hsame, -⟩ := h.sameWrites
      rw [hsame.limitSem, hsame.submitted]
      rfl

theorem OpMove.buffers {op op' : Op} (h : OpMove d me op o d' op' ev)
    (b : Nat) :
    (op.ownsBuffer b).toNat + d.submitted.countP (WriteUrb.ownsBuffer b) +
        (bufferLedger b).credits ev =
      (bufferLedger b).debits ev +
        ((op'.ownsBuffer b).toNat +
          d'.submitted.countP (WriteUrb.ownsBuffer b)) := by
  cases h with
  | read h =>
      obtain ⟨hsame, hev⟩ := h.sameWrites
      rw [hsame.submitted, (hev b).1, (hev b).2]
      simp [Op.ownsBuffer]
  | write h => exact h.buffers b
  | flush h =>
      obtain ⟨hsame, hev⟩ := h.sameWrites
      rw [hsame.submitted, (hev b).1, (hev b).2]
      simp [Op.ownsBuffer]

theorem OpMove.credits {op op' : Op} (h : OpMove d me op o d' op' ev)
    (b : Nat) :
    (decide (b < d'.buffers)).toNat =
      (decide (b < d.buffers)).toNat + (bufferLedger b).credits ev := by
  cases h with
  | read h =>
      obtain ⟨hsame, hev⟩ := h.sameWrites
      rw [hsame.buffers, (hev b).1]
      rfl
  | write h => exact h.credits b
  | flush h =>
      obtain ⟨hsame, hev⟩ := h.sameWrites
      rw [hsame.buffers, (hev b).1]
      rfl

theorem OpMove.allocated_eq {op op' : Op} (h : OpMove d me op o d' op' ev) :
    d'.allocated = d.allocated := by
  cases h with
  | read h => exact h.sameWrites.1.allocated
  | write h => exact h.allocated_eq
  | flush h => exact h.sameWrites.1.allocated

end Moves

/-! ## The system -/

/-- What a step of the whole does to the slots and the buffers. -/
structure Conserves (s : State) (ev : List Event) (s' : State) : Prop where
  slots : s'.slots = s.slots
  allocated : s'.dev.allocated = s.dev.allocated
  balances : ∀ b, (bufferLedger b).StepBalances s ev s'
  credits : ∀ b, (decide (b < s'.dev.buffers)).toNat =
    (decide (b < s.dev.buffers)).toNat + (bufferLedger b).credits ev

/-- A step that leaves the write path and the calls alone. -/
theorem Conserves.of_same {s s' : State} {ev : List Event}
    (hsame : SameWrites s.dev s'.dev) (hev : NoBufferEvents ev)
    (hcalls : s'.calls = s.calls) : Conserves s ev s' where
  slots := by
    simp only [State.slots, State.writersWithSlot, hsame.limitSem,
      hsame.submitted, hcalls]
  allocated := hsame.allocated
  balances b := by
    have hbalance : s'.owners b = s.owners b := by
      simp only [State.owners, hsame.submitted, hcalls]
    show s.owners b + _ = _ + s'.owners b
    rw [(hev b).1, (hev b).2, hbalance, Nat.add_zero, Nat.zero_add]
  credits b := by rw [hsame.buffers, (hev b).1]; rfl

/-- A call that is added has neither a slot nor a buffer. -/
theorem Conserves.enter (s : State) (f : Nat) {op : Op}
    (hslot : op.holdsSlot = false) (hbuf : ∀ b, op.ownsBuffer b = false) :
    Conserves s [] { s with calls := s.calls ++ [(f, op)] } where
  slots := by
    simp [State.slots, State.writersWithSlot, hslot]
  allocated := rfl
  balances b := by
    simp [Ledger.StepBalances, bufferLedger, State.owners, hbuf]
  credits b := rfl

theorem Conserves.call {s : State} {i f : Nat} {op op' : Op} {o : Outcome}
    {d' : UsbSkel} {ev : List Event} (hcall : s.calls[i]? = some (f, op))
    (h : OpMove s.dev (.call i) op o d' op' ev) :
    Conserves s ev { s with dev := d', calls := s.calls.set i (f, op') } where
  slots := by
    -- the other calls keep what they have, so the counts differ by this one
    have hcount := Pool.countP_set (fun c : Nat × Op => c.2.holdsSlot)
      (f, op') hcall
    have hslots := h.slots
    simp only [State.slots, State.writersWithSlot] at hcount ⊢
    omega
  allocated := h.allocated_eq
  balances b := by
    have hcount := Pool.countP_set (fun c : Nat × Op => c.2.ownsBuffer b)
      (f, op') hcall
    have hbuffers := h.buffers b
    simp only [Ledger.StepBalances, bufferLedger, State.owners] at hcount hbuffers ⊢
    omega
  credits := h.credits

/-- The steps of the callback of a write URB. -/
theorem Conserves.urb {s : State} {k : Nat} {urb urb' : WriteUrb}
    {errors : Int} {ev : List Event} (hurb : s.dev.submitted[k]? = some urb)
    (hcredit : ∀ b, (bufferLedger b).credits ev = 0)
    (hdebit : ∀ b, (bufferLedger b).debits ev + (urb'.ownsBuffer b).toNat =
      (urb.ownsBuffer b).toNat) :
    Conserves s ev { s with
      dev := { s.dev with
        errors := errors
        submitted := s.dev.submitted.set k urb' } } where
  slots := by simp [State.slots, State.writersWithSlot]
  allocated := rfl
  balances b := by
    have hcount := Pool.countP_set (WriteUrb.ownsBuffer b) urb' hurb
    have hd := hdebit b
    have hc := hcredit b
    simp only [Ledger.StepBalances, State.owners,
      show (bufferLedger b).balance = fun s => s.owners b from rfl] at *
    omega
  credits b := by rw [hcredit b]; rfl

theorem Conserves.urbUp {s : State} {k buf length : Nat}
    (hurb : s.dev.submitted[k]? = some ⟨buf, length, .up⟩) :
    Conserves s [] { s with
      dev := { s.dev with
        submitted := s.dev.submitted.eraseIdx k
        limitSem := s.dev.limitSem + 1 } } where
  slots := by
    obtain ⟨hlt, -⟩ := List.getElem?_eq_some_iff.mp hurb
    simp only [State.slots, State.writersWithSlot,
      List.length_eraseIdx_of_lt hlt]
    omega
  allocated := rfl
  balances b := by
    have hcount := Pool.countP_eraseIdx (WriteUrb.ownsBuffer b) hurb
    have hup : WriteUrb.ownsBuffer b ⟨buf, length, .up⟩ = false := by
      simp [WriteUrb.ownsBuffer]
    rw [hup] at hcount
    simp only [Ledger.StepBalances, State.owners,
      show (bufferLedger b).balance = fun s => s.owners b from rfl,
      Ledger.credits_nil, Ledger.debits_nil, Bool.toNat_false] at *
    omega
  credits b := rfl

/-- Every step behind the allocation of the object conserves the slots and the
buffers. -/
theorem conserves_of_move {s s' : State} {a : Act} {ev : List Event}
    (h : Move s a s' ev) (hbound : s.core ≠ .unbound) :
    Conserves s ev s' := by
  cases h with
  | core hmove =>
      obtain ⟨hsame, hev⟩ := hmove.sameWrites hbound
      exact .of_same hsame hev hmove.calls_eq
  | file _ hmove =>
      obtain ⟨hsame, hev⟩ := hmove.sameWrites
      exact .of_same hsame hev rfl
  | enterRead | enterFlush => exact .enter s _ rfl fun _ => rfl
  | enterWrite => exact .enter s _ rfl fun _ => rfl
  | call hcall hmove => exact .call hcall hmove
  | writeCompletes hurb =>
      refine .urb hurb (fun b => rfl) fun b => ?_
      simp [bufferLedger, WriteUrb.ownsBuffer]
  | writeFrees hurb =>
      refine .urb hurb (fun b => rfl) fun b => ?_
      simp [bufferLedger, WriteUrb.ownsBuffer]
  | writeUps hurb => exact .urbUp hurb
  | _ => exact .of_same ⟨rfl, rfl, rfl, rfl⟩ (fun b => ⟨rfl, rfl⟩) rfl

/-- The slots add up to `WRITES_IN_FLIGHT` from the allocation on. -/
theorem slots_of_reachable {s : State} (h : skelDriver.Reachable s) :
    s.slots = if s.dev.allocated then writesInFlight else 0 := by
  refine probed_induction
    (I := fun s => s.slots = if s.dev.allocated then writesInFlight else 0)
    rfl rfl rfl ?_ h
  intro s a s' ev _ hcore ih hmove
  have hcons := conserves_of_move hmove hcore
  rw [hcons.slots, hcons.allocated, ih]

theorem stepBalances_of_reachable {s s' : State} {a : Act} {ev : List Event}
    (hreach : skelDriver.Reachable s)
    (hstep : skelDriver.step s a = some (s', ev)) (b : Nat) :
    (bufferLedger b).StepBalances s ev s' ∧
      (decide (b < s'.dev.buffers)).toNat =
        (decide (b < s.dev.buffers)).toNat + (bufferLedger b).credits ev := by
  refine probed_cases
    (P := fun s ev s' => (bufferLedger b).StepBalances s ev s' ∧
      (decide (b < s'.dev.buffers)).toNat =
        (decide (b < s.dev.buffers)).toNat + (bufferLedger b).credits ev)
    ⟨rfl, rfl⟩ ⟨rfl, rfl⟩ hreach (step_cases hstep) fun hcore => ?_
  have hcons := conserves_of_move (step_cases hstep) hcore
  exact ⟨hcons.balances b, hcons.credits b⟩

/-- Every buffer is allocated once at most. -/
theorem credits_of_run {actions : List Act} {s : State} {tr : List Event}
    (hrun : skelDriver.run actions = some (s, tr)) (b : Nat) :
    (bufferLedger b).credits tr = (decide (b < s.dev.buffers)).toNat := by
  refine skelDriver.run_induction
    (P := fun _ s tr =>
      (bufferLedger b).credits tr = (decide (b < s.dev.buffers)).toNat)
    rfl ?_ hrun
  intro actions s tr a s' ev hrun ih hstep
  rw [Ledger.credits_append, ih,
    (stepBalances_of_reachable ⟨actions, tr, hrun⟩ hstep b).2]

theorem balanced_of_run {actions : List Act} {s : State} {tr : List Event}
    (hrun : skelDriver.run actions = some (s, tr)) (b : Nat) :
    (bufferLedger b).Balanced s tr :=
  (bufferLedger b).balanced_of_run skelDriver rfl
    (fun _ _ _ _ hreach hstep =>
      (stepBalances_of_reachable hreach hstep b).1) hrun

theorem Op.ownsBuffer_of_done {op : Op} (h : op.active = false) (b : Nat) :
    op.ownsBuffer b = false := by
  cases op with
  | write nonblock count pc =>
      have hpc : pc = .done := by simpa [Op.active] using h
      rw [hpc]
      rfl
  | _ => rfl

/-- When every call has returned and no URB is on the anchor, no buffer has an
owner. -/
theorem owners_eq_zero {s : State} (hcalls : ∀ c ∈ s.calls, c.2.active = false)
    (hurbs : s.dev.submitted = []) (b : Nat) : s.owners b = 0 := by
  have hcount : (s.calls.countP fun c => c.2.ownsBuffer b) = 0 := by
    rw [List.countP_eq_zero]
    intro c hc
    rw [Op.ownsBuffer_of_done (hcalls c hc) b]
    exact Bool.false_ne_true
  rw [State.owners, hcount, hurbs]
  rfl

/-- What holds of the slots and of the coherent buffers in a state that was
reached with the events `tr`. -/
structure Throttled (s : State) (tr : List Event) : Prop where
  slots : s.dev.limitSem + s.dev.submitted.length + s.writersWithSlot =
    writesInFlight
  inFlight_le : s.dev.submitted.length ≤ 8
  limitSem_le : s.dev.limitSem ≤ 8
  /-- A buffer is allocated once at most, and then it has an owner or has been
  freed, and only once. -/
  freed_or_owned : ∀ b, tr.countP (Event.frees b) + s.owners b =
    tr.countP (Event.allocates b)
  allocated_once : ∀ b, tr.countP (Event.allocates b) ≤ 1
  /-- Nothing is left over when every write is over. -/
  all_freed : (∀ c ∈ s.calls, c.2.active = false) → s.dev.submitted = [] →
    ∀ b, tr.countP (Event.frees b) = tr.countP (Event.allocates b)

/-- Write throttling conserves its resources in every run. -/
theorem throttled_of_run {actions : List Act} {s : State} {tr : List Event}
    (hrun : skelDriver.run actions = some (s, tr))
    (halloc : s.dev.allocated = true) : Throttled s tr := by
  have hslots : s.dev.limitSem + s.dev.submitted.length + s.writersWithSlot =
      8 := by
    have := slots_of_reachable ⟨actions, tr, hrun⟩
    rwa [halloc, if_pos rfl] at this
  have hfreed : ∀ b, tr.countP (Event.frees b) + s.owners b =
      tr.countP (Event.allocates b) := by
    intro b
    have := balanced_of_run hrun b
    rw [← Ledger.sum_toNat, ← Ledger.sum_toNat]
    exact this.symm
  refine ⟨hslots, by omega, by omega, hfreed, fun b => ?_, ?_⟩
  · rw [← Ledger.sum_toNat]
    exact (credits_of_run hrun b).le.trans (Bool.toNat_le _)
  · intro hcalls hurbs b
    rw [← hfreed b, owners_eq_zero hcalls hurbs b, Nat.add_zero]

/-- One write of 100 bytes up to its submission: the URB has the slot and the
buffer. -/
def oneWrite : List Act :=
  bringUp ++ [.enterWrite 0 false 100] ++ List.replicate 8 (.call 0 .ok)

/-- The write returns, its URB completes, and the callback gives both back. -/
def oneWriteOver : List Act :=
  oneWrite ++ [.call 0 .ok, .writeCompletes 0 0, .writeCallback 0,
    .writeCallback 0]

theorem throttled_oneWrite :
    (∃ s tr, skelDriver.run oneWrite = some (s, tr) ∧ Throttled s tr ∧
      s.dev.limitSem = 7 ∧ s.owners 0 = 1) ∧
    ∃ s tr, skelDriver.run oneWriteOver = some (s, tr) ∧ Throttled s tr ∧
      s.dev.limitSem = 8 ∧ s.owners 0 = 0 ∧ tr = [.coherentAllocated 0,
        .writeSubmitted 0, .returned 100 [], .writeCompleted 0,
        .coherentFreed 0 .callback] :=
  ⟨⟨_, _, rfl, @throttled_of_run oneWrite _ _ rfl rfl, rfl, rfl⟩,
    ⟨_, _, rfl, @throttled_of_run oneWriteOver _ _ rfl rfl, rfl, rfl, rfl⟩⟩

end Skel
end USB
end KernelDrivers
