import KernelDrivers.WaitQueue.Fifo
import KernelDrivers.WaitQueue.Guard

/-!
# One writer and one reader of `wait1.c`

With no lock around the ring, two writers or two readers at a time can lose or
repeat a byte.  Here at most one call of `my_write` and one of `my_read` are in
progress, and their statements interleave in any order.

A byte is accepted when `tail` goes past it and delivered by `put_user`.  The
queue between the two is the ring from `head` to `tail`, less the byte that a
reader has delivered and not yet removed.
-/

namespace KernelDrivers
namespace WaitQueue
namespace Processes

open Lib

/-- A call of this kind that has not returned. -/
def Proc.busy (writer : Bool) (p : Proc) : Bool :=
  (p.op.isWrite == writer) && decide (p.pc ≠ .done)

/-- The reader is between its `put_user` and its update of `head`. -/
def Proc.taking (p : Proc) : Bool :=
  !p.op.isWrite && decide (p.pc = .advance)

/-- Another call waits until there is no other of its kind. -/
def Alone (s : State) : Act → Prop
  | .enter op => s.procs.countP (Proc.busy op.isWrite) = 0
  | _ => True

instance (s : State) (a : Act) : Decidable (Alone s a) :=
  match a with
  | .enter op =>
      inferInstanceAs (Decidable (s.procs.countP (Proc.busy op.isWrite) = 0))
  | .signal _ | .proc _ => inferInstanceAs (Decidable True)

/-- The byte that a statement moves. -/
def Proc.moved (m : Wait1) (p : Proc) : List WaitQueue.Event :=
  match p.pc, p.op with
  | .access, .read false => [.delivered (m.cell m.head.toNat)]
  | .advance, .write (some b) => [.accepted b]
  | _, _ => []

def moved (s : State) : Act → List WaitQueue.Event
  | .proc i =>
      match s.procs[i]? with
      | none => []
      | some p => p.moved s.mem
  | _ => []

/-- The module with at most one call of each kind in progress. -/
def pipe : System State Act WaitQueue.Event where
  init := ⟨Wait1.initial, []⟩
  step := fun s a =>
    if Alone s a then
      (State.step s a).map fun (s', _) => (s', moved s a)
    else none

/-- The bytes on their way. -/
def stream : Channel State WaitQueue.Event UInt8 where
  put := fifo.put
  take := fifo.take
  held := fun s => (contents s.mem).drop (s.procs.countP Proc.taking)

/-- No `tail` is moved onto `head`.  At `head = 0` the guard of `my_write` lets
this happen. -/
def NoOvertake (s : State) : Act → Prop
  | .proc i => ∀ p ∈ s.procs[i]?, p.op.isWrite = true → p.pc = .advance →
      ¬ (s.mem.head = 0 ∧ s.mem.tail = ringSize - 1)
  | _ => True

variable {s s' : State} {a : Act} {ev tr : List WaitQueue.Event}

theorem pipe_step (h : pipe.step s a = some (s', ev)) :
    Alone s a ∧ ev = moved s a ∧ ∃ ev', Step s a s' ev' := by
  simp only [pipe] at h
  split_ifs at h with halone
  obtain ⟨⟨t, ev'⟩, hstep, heq⟩ := Option.map_eq_some_iff.mp h
  cases heq
  exact ⟨halone, rfl, ev', step_cases hstep⟩

theorem reachable_of_pipe (h : pipe.Reachable s) : wait1.Reachable s := by
  refine pipe.reachable_invariant (I := wait1.Reachable) ⟨[], [], rfl⟩ ?_ h
  intro s a s' ev hreach hstep
  simp only [pipe] at hstep
  split_ifs at hstep
  obtain ⟨⟨t, ev'⟩, hstep', heq⟩ := Option.map_eq_some_iff.mp hstep
  cases heq
  exact System.Reachable.step wait1 hreach hstep'

/-! ## What a process knows -/

/-- There is room for one more byte, except at `head = 0`. -/
def Room (m : Wait1) : Prop :=
  pending m + 1 < ringSize ∨ m.head = 0 ∧ m.tail = ringSize - 1

/-- What holds of a process between two of its statements. -/
def Fits (m : Wait1) (p : Proc) : Prop :=
  match p.op, p.pc with
  | _, .start | _, .setCondition | _, .wakeUp | _, .done => True
  | .write _, .access => Room m
  | .write b, .advance => Room m ∧ b = some (m.cell m.tail.toNat)
  | .write _, _ => p.snap = prev m ∨ pending m + 1 < ringSize
  | .read _, .access | .read _, .advance => m.head ≠ m.tail
  | .read _, _ => p.snap = m.head

structure OneEach (s : State) : Prop where
  one : ∀ writer, s.procs.countP (Proc.busy writer) ≤ 1
  fits : ∀ p ∈ s.procs, Fits s.mem p

section Frame

variable {m m' : Wait1} {p p' q : Proc} {ev' : List Event}

theorem fits_woken : Fits m q.woken ↔ Fits m q := by
  unfold Proc.woken
  split_ifs with hpc
  · obtain ⟨op, pc, snap, pending⟩ := q
    cases hpc
    cases op <;> rfl
  · rfl

theorem busy_woken (writer : Bool) : q.woken.busy writer = q.busy writer := by
  unfold Proc.woken
  split_ifs with hpc
  · simp [Proc.busy, hpc]
  · rfl

theorem taking_woken : q.woken.taking = q.taking := by
  unfold Proc.woken
  split_ifs with hpc
  · simp [Proc.taking, hpc]
  · rfl

theorem pending_move_read (hm : InRange m) (hne : m.head ≠ m.tail)
    (fault : Bool) : pending (Op.move m (.read fault)) + 1 = pending m := by
  obtain ⟨h₁, h₂, h₃, h₄⟩ := hm
  unfold pending
  simp only [Op.move, CInt.tmod_succ h₁]
  unfold ringSize at *
  omega

theorem pending_move_write (hm : InRange m) (hroom : pending m + 1 < ringSize)
    (buf : Option UInt8) : pending (Op.move m (.write buf)) = pending m + 1 := by
  obtain ⟨h₁, h₂, h₃, h₄⟩ := hm
  unfold pending at hroom ⊢
  simp only [Op.move, CInt.tmod_succ h₃]
  unfold ringSize at *
  omega

theorem pending_eq_zero_iff (hm : InRange m) : pending m = 0 ↔ m.head = m.tail := by
  obtain ⟨h₁, h₂, h₃, h₄⟩ := hm
  unfold pending
  unfold ringSize at *
  omega

/-- The byte at `tail` joins the queue. -/
theorem contents_move_write (hm : InRange m) (hroom : pending m + 1 < ringSize)
    (buf : Option UInt8) :
    contents (Op.move m (.write buf)) = contents m ++ [m.cell m.tail.toNat] := by
  unfold contents
  rw [pending_move_write hm hroom, ← tail_index hm]
  exact Ring.window_succ m.cell ringSize m.head.toNat (pending m)

/-- The byte at `head` leaves the queue. -/
theorem contents_move_read (hm : InRange m) (hne : m.head ≠ m.tail)
    (fault : Bool) : contents m =
      m.cell m.head.toNat :: contents (Op.move m (.read fault)) :=
  contents_removeByte hm hne

/-- The statement keeps what the process knows. -/
theorem Move.fits (h : Move m p m' p' ev') (hm : InRange m) (hp : Fits m p) :
    Fits m' p' := by
  obtain ⟨op, pc, snap, pending⟩ := p
  cases h with
  | start hpc => cases op <;> simp [Fits, Op.snapshot]
  | guard hpc =>
      cases hpc
      by_cases heq : snap = m.tail
      · simp only [heq, if_true]
        cases op with
        | write buf => exact heq ▸ hp
        | read fault => exact heq ▸ hp
      · simp only [heq, if_false]
        cases op with
        | write buf =>
            rcases hp with hprev | hroom
            · by_cases hfull : m.head = 0 ∧ m.tail = ringSize - 1
              · exact Or.inr hfull
              · refine Or.inl (room_of_guard hm ?_ hfull)
                intro htail
                exact heq (hprev.trans htail)
            · exact Or.inl hroom
        | read fault => exact fun htail => heq (Eq.trans hp htail)
  | reset hpc | goOn hpc | sleep hpc | retry hpc =>
      cases hpc
      cases op <;> exact hp
  | @fetch b hpc hop =>
      cases hpc
      cases hop
      refine ⟨hp, congrArg some ?_⟩
      have hlt : m.tail.toNat < ringSize := by
        have := hm.tail_lt
        have := hm.tail_nonneg
        omega
      show b = (m.store m.tail.toNat b).cell m.tail.toNat
      rw [Wait1.cell_store m hlt, Function.update_self]
  | put hpc hop =>
      cases hpc
      cases hop
      exact hp
  | interrupted | fetchFault | putFault | advance | setCondition | wakeUp =>
      cases op <;> trivial

/-- A process of the other kind only sees room made, or a byte put in. -/
theorem fits_move (hm : InRange m) (hp : Fits m p) (hpc : p.pc = .advance)
    (hno : p.op.isWrite = true → ¬ (m.head = 0 ∧ m.tail = ringSize - 1))
    (hq : Fits m q) (hkind : q.op.isWrite ≠ p.op.isWrite) :
    Fits (p.op.move m) q := by
  obtain ⟨op, pc, snap, pend⟩ := p
  obtain ⟨op', pc', snap', pend'⟩ := q
  cases hpc
  cases op with
  | write buf =>
      have hroom : pending m + 1 < ringSize := hp.1.resolve_right (hno rfl)
      cases op' with
      | write buf' => exact absurd rfl hkind
      | read fault =>
          have hmove : (Op.move m (.write buf)).head ≠
              (Op.move m (.write buf)).tail := by
            have hcount := pending_move_write hm hroom buf
            have hrange := Op.inRange_move hm (.write buf)
            rw [Ne, ← pending_eq_zero_iff hrange]
            omega
          cases pc' with
          | access | advance => exact hmove
          | start | setCondition | wakeUp | done => trivial
          | guard | reset | sleepTest | asleep | signalTest => exact hq
  | read fault =>
      have hcount : pending (Op.move m (.read fault)) + 1 < ringSize := by
        rw [pending_move_read hm hp fault]
        exact pending_lt m
      cases op' with
      | read fault' => exact absurd rfl hkind
      | write buf =>
          cases pc' with
          | access => exact Or.inl hcount
          | advance => exact ⟨Or.inl hcount, hq.2⟩
          | start | setCondition | wakeUp | done => trivial
          | guard | reset | sleepTest | asleep | signalTest => exact Or.inr hcount

theorem Move.fits_other (h : Move m p m' p' ev') (hm : InRange m)
    (hp : Fits m p)
    (hno : p.op.isWrite = true → p.pc = .advance →
      ¬ (m.head = 0 ∧ m.tail = ringSize - 1))
    (hq : Fits m q) (hkind : q.op.isWrite = p.op.isWrite → q.pc = .done) :
    Fits m' q := by
  by_cases hdone : q.pc = .done
  · obtain ⟨op, pc, snap, pend⟩ := q
    cases hdone
    cases op <;> trivial
  · have hne : q.op.isWrite ≠ p.op.isWrite := fun heq => hdone (hkind heq)
    -- a store touches no cell that a reader knows of
    have hstore : ∀ b, p.op.isWrite = true →
        Fits (m.store m.tail.toNat b) q := by
      intro b hwrite
      obtain ⟨op, pc, snap, pend⟩ := q
      cases op with
      | write buf => exact absurd hwrite.symm hne
      | read fault => cases pc <;> exact hq
    cases h with
    | fetchFault hpc hop => exact hstore 0 (by rw [hop]; rfl)
    | fetch hpc hop => exact hstore _ (by rw [hop]; rfl)
    | advance hpc => exact fits_move hm hp hpc (fun hw => hno hw hpc) hq hne
    | _ => exact hq

/-- A call stays of its kind, and one that has returned does not come back. -/
theorem Move.busy (h : Move m p m' p' ev') (writer : Bool) :
    p'.busy writer = true → p.busy writer = true := by
  have hop := h.snap.1
  have hpc : p.pc ≠ .done := by
    cases h <;> simp_all
  intro hbusy
  rw [Proc.busy, hop, Bool.and_eq_true] at hbusy
  simp [Proc.busy, hbusy.1, hpc]

end Frame

/-! ## One step -/

theorem countP_woken (f : Proc → Bool) (hf : ∀ q : Proc, f q.woken = f q)
    (procs : List Proc) : (procs.map Proc.woken).countP f = procs.countP f := by
  rw [List.countP_map]
  exact congrArg (List.countP · procs) (funext hf)

/-- A process that is not busy afterwards or was before adds nobody. -/
theorem countP_set_le {procs : List Proc} {i : Nat} {p p' : Proc}
    {f : Proc → Bool} (hp : procs[i]? = some p) (hbusy : f p' = true → f p = true) :
    (procs.set i p').countP f ≤ procs.countP f := by
  have hcount := Pool.countP_set f p' hp
  cases hf' : f p' with
  | false =>
      rw [hf'] at hcount
      exact Nat.le_of_add_right_le hcount.le
  | true =>
      rw [hf', hbusy hf'] at hcount
      exact (Nat.add_right_cancel hcount).le

theorem OneEach.unique (h : OneEach s) {i j : Nat} {p q : Proc}
    (hp : s.procs[i]? = some p) (hpc : p.pc ≠ .done) (hq : s.procs[j]? = some q)
    (hji : j ≠ i) : q.op.isWrite = p.op.isWrite → q.pc = .done := by
  intro hkind
  by_contra hdone
  refine hji (Pool.eq_of_countP_le_one (h.one p.op.isWrite) hp ?_ hq ?_)
  · simp [Proc.busy, hpc]
  · simp [Proc.busy, hkind, hdone]

theorem OneEach.step (h : OneEach s) (hm : InRange s.mem) (halone : Alone s a)
    (hno : NoOvertake s a) {ev' : List Event} (hstep : Step s a s' ev') :
    OneEach s' := by
  cases hstep with
  | enter op =>
      constructor
      · intro writer
        rw [Pool.countP_concat]
        by_cases hkind : writer = op.isWrite
        · subst hkind
          rw [halone, Nat.zero_add]
          exact Bool.toNat_le _
        · have hidle : Proc.busy writer ⟨op, .start, 0, false⟩ = false := by
            simp [Proc.busy, Ne.symm hkind]
          rw [hidle]
          exact h.one writer
      · refine Pool.forall_concat h.fits ?_
        cases op <;> trivial
  | @signal i p hp =>
      constructor
      · intro writer
        refine (countP_set_le hp fun hbusy => ?_).trans (h.one writer)
        rw [← busy_woken]
        exact hbusy
      · refine Pool.forall_set h.fits ?_
        have hfits : Fits s.mem p.woken :=
          fits_woken.mpr (h.fits p (List.mem_of_getElem? hp))
        exact hfits
  | @wakeUp i p hp hpc =>
      constructor
      · intro writer
        rw [countP_woken (Proc.busy writer) fun q => busy_woken writer]
        refine (countP_set_le hp fun hbusy => ?_).trans (h.one writer)
        simp [Proc.busy] at hbusy
      · intro q hq
        obtain ⟨r, hr, rfl⟩ := List.mem_map.mp hq
        refine fits_woken.mpr (Pool.forall_set h.fits ?_ r hr)
        obtain ⟨op, pc, snap, pend⟩ := p
        cases op <;> trivial
  | @proc i p p' m' ev' hp hpc hmove =>
      have hfits := h.fits p (List.mem_of_getElem? hp)
      have hlive : p.pc ≠ .done := by
        cases hmove <;> simp_all
      constructor
      · intro writer
        exact (countP_set_le hp (hmove.busy writer)).trans (h.one writer)
      · intro q hq
        obtain ⟨j, hj⟩ := List.mem_iff_getElem?.mp hq
        rcases Pool.set_cases hj with ⟨-, rfl⟩ | ⟨hji, hj⟩
        · exact hmove.fits hm hfits
        · exact hmove.fits_other hm hfits (hno p hp)
            (h.fits q (List.mem_of_getElem? hj)) (h.unique hp hlive hj hji)

/-! ## The bytes -/

section Bytes

variable {i : Nat} {p p' : Proc} {m' : Wait1} {ev' : List Event}

/-- A reader that has delivered its byte is the only one. -/
theorem OneEach.taking_le_one (h : OneEach s) :
    s.procs.countP Proc.taking ≤ 1 := by
  refine (List.countP_mono_left fun q _ htaking => ?_).trans (h.one false)
  simp only [Proc.taking, Bool.and_eq_true, Bool.not_eq_true',
    decide_eq_true_eq] at htaking
  simp [Proc.busy, htaking.1, htaking.2]

theorem taking_set (hp : s.procs[i]? = some p) (p' : Proc) :
    (s.procs.set i p').countP Proc.taking + p.taking.toNat =
      s.procs.countP Proc.taking + p'.taking.toNat :=
  Pool.countP_set Proc.taking p' hp

/-- Where a reader has delivered its byte, the byte is still in the ring. -/
theorem OneEach.taking_le_pending (h : OneEach s) (hm : InRange s.mem) :
    s.procs.countP Proc.taking ≤ (contents s.mem).length := by
  rcases Nat.eq_zero_or_pos (s.procs.countP Proc.taking) with hzero | hpos
  · omega
  · obtain ⟨q, hq, htaking⟩ := List.countP_pos_iff.mp hpos
    have hone := h.taking_le_one
    have hfits := h.fits q hq
    obtain ⟨op, pc, snap, pend⟩ := q
    cases op with
    | write buf => cases htaking
    | read fault =>
        obtain rfl : pc = .advance := by simpa [Proc.taking, Op.isWrite] using htaking
        have hne := mt (pending_eq_zero_iff hm).mp hfits
        simp only [contents, Ring.length_window]
        omega

/-- A statement that moves no byte. -/
theorem conserves_of_silent (hp : s.procs[i]? = some p)
    (hmoved : p.moved s.mem = []) (htaking : p'.taking = p.taking)
    (hcontents : contents m' = contents s.mem) :
    stream.StepConserves s (p.moved s.mem) ⟨m', s.procs.set i p'⟩ := by
  have hset := taking_set hp p'
  rw [htaking] at hset
  rw [hmoved]
  unfold Channel.StepConserves
  simp only [stream, Channel.puts_nil, Channel.takes_nil, List.append_nil,
    List.nil_append, hcontents, Nat.add_right_cancel hset]

theorem conserves_of_put (h : OneEach s) (hm : InRange s.mem)
    (hp : s.procs[i]? = some p) (hpc : p.pc = .access)
    (hop : p.op = .read false) :
    stream.StepConserves s (p.moved s.mem)
      ⟨s.mem, s.procs.set i { p with pc := .advance }⟩ := by
  have hne : s.mem.head ≠ s.mem.tail := by
    have hfits := h.fits p (List.mem_of_getElem? hp)
    simpa only [Fits, hop, hpc] using hfits
  have hset := taking_set hp { p with pc := .advance }
  -- it is the only reader on its way
  have hnone : s.procs.countP Proc.taking = 0 := by
    refine List.countP_eq_zero.mpr fun q hq htaking => ?_
    obtain ⟨j, hj⟩ := List.mem_iff_getElem?.mp hq
    simp only [Proc.taking, Bool.and_eq_true, Bool.not_eq_true',
      decide_eq_true_eq] at htaking
    have hji : j ≠ i := by
      rintro rfl
      rw [Option.some.inj (hp.symm.trans hj), htaking.2] at hpc
      cases hpc
    have hdone := h.unique hp (by simp [hpc]) hj hji (by rw [htaking.1, hop]; rfl)
    rw [htaking.2] at hdone
    cases hdone
  have hone : (s.procs.set i { p with pc := .advance }).countP Proc.taking = 1 := by
    simpa [hnone, Proc.taking, hop, hpc, Op.isWrite] using hset
  have hmoved : p.moved s.mem = [.delivered (s.mem.cell s.mem.head.toNat)] := by
    simp only [Proc.moved, hpc, hop]
  have hcontents := contents_move_read hm hne false
  rw [hmoved]
  unfold Channel.StepConserves
  simp only [stream, Channel.puts_singleton, Channel.takes_singleton, fifo,
    hnone, hone, List.drop_zero, List.append_nil, List.singleton_append]
  rw [hcontents, List.drop_one, List.tail_cons]

theorem conserves_of_advance_read (h : OneEach s) (hm : InRange s.mem)
    (hp : s.procs[i]? = some p) (hpc : p.pc = .advance) {fault : Bool}
    (hop : p.op = .read fault) :
    stream.StepConserves s (p.moved s.mem)
      ⟨p.op.move s.mem, s.procs.set i { p with pc := .setCondition }⟩ := by
  have hne : s.mem.head ≠ s.mem.tail := by
    have hfits := h.fits p (List.mem_of_getElem? hp)
    simpa only [Fits, hop, hpc] using hfits
  have htaking : p.taking = true := by simp [Proc.taking, hop, hpc, Op.isWrite]
  have hset := taking_set hp { p with pc := .setCondition }
  have hone : s.procs.countP Proc.taking = 1 := by
    have hle := h.taking_le_one
    have hpos : 0 < s.procs.countP Proc.taking :=
      List.countP_pos_iff.mpr ⟨p, List.mem_of_getElem? hp, htaking⟩
    omega
  have hnone : (s.procs.set i { p with pc := .setCondition }).countP
      Proc.taking = 0 := by
    have hafter : Proc.taking { p with pc := .setCondition } = false := by
      simp [Proc.taking]
    rw [hone, htaking, hafter, Bool.toNat_true, Bool.toNat_false] at hset
    omega
  have hmoved : p.moved s.mem = [] := by simp only [Proc.moved, hpc, hop]
  have hmove : p.op.move s.mem = Op.move s.mem (.read fault) := by rw [hop]
  rw [hmoved, hmove]
  unfold Channel.StepConserves
  simp only [stream, Channel.puts_nil, Channel.takes_nil, List.append_nil,
    List.nil_append, hone, hnone, List.drop_zero]
  rw [contents_move_read hm hne fault, List.drop_one, List.tail_cons]

/-- A byte goes past `tail` and into the queue exactly when `tail` is not moved
onto `head`. -/
theorem conserves_of_advance_write_iff (h : OneEach s) (hm : InRange s.mem)
    (hp : s.procs[i]? = some p) (hpc : p.pc = .advance) {buf : Option UInt8}
    (hop : p.op = .write buf) :
    stream.StepConserves s (p.moved s.mem)
        ⟨p.op.move s.mem, s.procs.set i { p with pc := .setCondition }⟩ ↔
      ¬ (s.mem.head = 0 ∧ s.mem.tail = ringSize - 1) := by
  obtain ⟨hroom, hbuf⟩ :
      Room s.mem ∧ buf = some (s.mem.cell s.mem.tail.toNat) := by
    have hfits := h.fits p (List.mem_of_getElem? hp)
    simpa only [Fits, hop, hpc] using hfits
  have hset := taking_set hp { p with pc := .setCondition }
  have htaking : p.taking = false := by simp [Proc.taking, hop, Op.isWrite]
  have hafter : Proc.taking { p with pc := .setCondition } = false := by
    simp [Proc.taking]
  rw [htaking, hafter] at hset
  have hmoved : p.moved s.mem = [.accepted (s.mem.cell s.mem.tail.toNat)] := by
    simp only [Proc.moved, hpc, hop, hbuf]
  have hmove : p.op.move s.mem = Op.move s.mem (.write buf) := by rw [hop]
  have hle := h.taking_le_pending hm
  rw [hmoved, hmove]
  unfold Channel.StepConserves
  simp only [stream, Channel.puts_singleton, Channel.takes_singleton, fifo,
    Nat.add_right_cancel hset, List.nil_append]
  constructor
  · -- `tail` catches up with `head`, and the ring reads as empty
    rintro hcons ⟨hhead, htail⟩
    have hpending : pending (Op.move s.mem (.write buf)) = 0 := by
      simp [pending, Op.move, hhead, htail, ringSize]
    have hnone : contents (Op.move s.mem (.write buf)) = [] := by
      rw [contents, hpending, Ring.window_zero]
    rw [hnone, List.drop_nil] at hcons
    simp at hcons
  · intro hno
    rw [contents_move_write hm (hroom.resolve_right hno),
      List.drop_append_of_le_length hle]

/-- A statement of a process hands the bytes on, unless it moves `tail` onto
`head`. -/
theorem conserves_iff (h : OneEach s) (hm : InRange s.mem)
    (hp : s.procs[i]? = some p) (hmove : Move s.mem p m' p' ev') :
    stream.StepConserves s (p.moved s.mem) ⟨m', s.procs.set i p'⟩ ↔
      (p.op.isWrite = true → p.pc = .advance →
        ¬ (s.mem.head = 0 ∧ s.mem.tail = ringSize - 1)) := by
  cases hmove with
  | advance hpc =>
      cases hop : p.op with
      | write buf =>
          rw [← hop]
          have hiff := conserves_of_advance_write_iff h hm hp hpc hop
          exact hiff.trans ⟨fun hno _ _ => hno,
            fun hno => hno (by rw [hop]; rfl) hpc⟩
      | read fault =>
          rw [← hop]
          refine iff_of_true (conserves_of_advance_read h hm hp hpc hop) ?_
          intro hwrite
          rw [hop] at hwrite
          cases hwrite
  | put hpc hop =>
      refine iff_of_true (conserves_of_put h hm hp hpc hop) fun _ hadvance => ?_
      rw [hpc] at hadvance
      cases hadvance
  | guard hpc =>
      refine iff_of_true (conserves_of_silent hp ?_ ?_ rfl) fun _ hadvance => ?_
      · simp only [Proc.moved, hpc]
      · split_ifs <;> simp [Proc.taking, hpc]
      · rw [hpc] at hadvance
        cases hadvance
  | fetchFault hpc hop =>
      refine iff_of_true (conserves_of_silent hp ?_ ?_
        (contents_store_tail hm 0)) fun _ hadvance => ?_
      · simp only [Proc.moved, hpc, hop]
      · simp [Proc.taking, hpc]
      · rw [hpc] at hadvance
        cases hadvance
  | @fetch b hpc hop =>
      refine iff_of_true (conserves_of_silent hp ?_ ?_
        (contents_store_tail hm b)) fun _ hadvance => ?_
      · simp only [Proc.moved, hpc, hop]
      · simp [Proc.taking, hop, Op.isWrite]
      · rw [hpc] at hadvance
        cases hadvance
  | putFault hpc hop =>
      refine iff_of_true (conserves_of_silent hp ?_ ?_ rfl) fun _ hadvance => ?_
      · simp only [Proc.moved, hpc, hop]
      · simp [Proc.taking, hpc]
      · rw [hpc] at hadvance
        cases hadvance
  | start hpc | reset hpc | goOn hpc | sleep hpc | interrupted hpc | retry hpc
  | setCondition hpc | wakeUp hpc =>
      refine iff_of_true (conserves_of_silent hp ?_ ?_ rfl) fun _ hadvance => ?_
      · simp only [Proc.moved, hpc]
      · simp [Proc.taking, hpc]
      · rw [hpc] at hadvance
        cases hadvance

end Bytes

/-! ## Runs -/

/-- A step that leaves the ring and moves no byte. -/
theorem conserves_of_idle {procs : List Proc} (hmoved : moved s a = [])
    (htaking : procs.countP Proc.taking = s.procs.countP Proc.taking) :
    stream.StepConserves s (moved s a) { s with procs := procs } := by
  rw [hmoved]
  unfold Channel.StepConserves
  simp only [stream, Channel.puts_nil, Channel.takes_nil, List.append_nil,
    List.nil_append, htaking]

theorem stepConserves_iff_noOvertake (h : OneEach s) (hm : InRange s.mem)
    {ev' : List Event} (hstep : Step s a s' ev') :
    stream.StepConserves s (moved s a) s' ↔ NoOvertake s a := by
  cases hstep with
  | enter op =>
      refine iff_of_true (conserves_of_idle rfl ?_) trivial
      rw [Pool.countP_concat]
      simp [Proc.taking]
  | @signal i p hp =>
      refine iff_of_true (conserves_of_idle rfl ?_) trivial
      have hset := taking_set hp { p.woken with pending := true }
      have hsame : Proc.taking { p.woken with pending := true } = p.taking :=
        taking_woken
      rw [hsame] at hset
      exact Nat.add_right_cancel hset
  | @wakeUp i p hp hpc =>
      have hmoved : moved s (.proc i) = [] := by
        simp only [moved, hp, Proc.moved, hpc]
      refine iff_of_true (conserves_of_idle hmoved ?_) ?_
      · rw [countP_woken Proc.taking fun q => taking_woken]
        have hset := taking_set hp { p with pc := .done }
        have hsame : Proc.taking { p with pc := .done } = p.taking := by
          simp [Proc.taking, hpc]
        rw [hsame] at hset
        exact Nat.add_right_cancel hset
      · intro q hq hwrite hadvance
        obtain rfl : p = q := Option.some.inj (hp.symm.trans hq)
        rw [hpc] at hadvance
        cases hadvance
  | @proc i p p' m' ev' hp hpc hmove =>
      have hmoved : moved s (.proc i) = p.moved s.mem := by
        simp only [moved, hp]
      rw [hmoved, conserves_iff h hm hp hmove]
      constructor
      · intro hno q hq
        obtain rfl : p = q := Option.some.inj (hp.symm.trans hq)
        exact hno
      · exact fun hno => hno p hp

/-- With one writer and one reader at a time, and their statements in any
order, the device is a lossless queue exactly as long as no `tail` is moved
onto `head`. -/
theorem lossless_iff_noOvertake (acts : List Act) :
    pipe.Always stream.Conserved acts ↔ pipe.Meets NoOvertake acts := by
  have hiff : ∀ s tr a s' ev, pipe.Reachable s → stream.Conserved s tr →
      OneEach s → pipe.step s a = some (s', ev) →
      (stream.Conserved s' (tr ++ ev) ↔ NoOvertake s a) := by
    intro s tr a s' ev hreach hlaw hone hstep
    obtain ⟨-, rfl, ev', hcase⟩ := pipe_step hstep
    rw [stream.conserved_append_iff hlaw]
    exact stepConserves_iff_noOvertake hone
      (ranges_of_reachable (reachable_of_pipe hreach)).mem hcase
  have hinit : OneEach pipe.init := by
    refine ⟨fun _ => Nat.zero_le 1, fun p hp => ?_⟩
    cases hp
  refine System.always_iff_meets_of_invariant (fun s _ => OneEach s) rfl hinit
    ?_ hiff acts
  intro s tr a s' ev hreach hlaw hone hstep hafter
  have hno := (hiff s tr a s' ev hreach hlaw hone hstep).mp hafter
  obtain ⟨halone, -, ev', hcase⟩ := pipe_step hstep
  exact hone.step (ranges_of_reachable (reachable_of_pipe hreach)).mem halone hno
    hcase

end Processes
end WaitQueue
end KernelDrivers
