import KernelDrivers.Lib.Conserve
import KernelDrivers.WaitQueue.Calls

/-!
# The ring of `wait1.c` as a queue

`contents` reads the queue off the ring: the cells from `head` to `tail`.
Every completed call is then one step of a queue of bytes, with one exception.
At `head = 0` the value `prev` is `-1`, which no index equals, so the guard of
`my_write` lets a write into a full ring through; `tail` catches up with `head`
and the ring reads as empty.
-/

namespace KernelDrivers
namespace WaitQueue

open Lib

/-- The number of cells from `head` to `tail`. -/
def pending (s : Wait1) : Nat :=
  ((s.tail - s.head) % ringSize).toNat

/-- The ring contents from `head` to `tail`. -/
def contents (s : Wait1) : List UInt8 :=
  Ring.window s.cell ringSize s.head.toNat (pending s)

/-- The bytes that user space put in and got out, and the ring between
them. -/
def fifo : Channel Wait1 Event UInt8 where
  put
    | .accepted b => [b]
    | _ => []
  take
    | .delivered b => [b]
    | _ => []
  held := contents

theorem pending_lt (s : Wait1) : pending s < ringSize := by
  unfold pending ringSize
  omega

/-- The cell behind the contents is the one at `tail`. -/
theorem tail_index {s : Wait1} (hs : InRange s) :
    (s.head.toNat + pending s) % ringSize = s.tail.toNat := by
  obtain ⟨h₁, h₂, h₃, h₄⟩ := hs
  unfold pending
  unfold ringSize at *
  omega

theorem contents_store_tail {s : Wait1} (hs : InRange s) (b : UInt8) :
    contents (s.store s.tail.toNat b) = contents s := by
  have hlt : s.tail.toNat < ringSize := by
    have := hs.tail_lt
    have := hs.tail_nonneg
    omega
  unfold contents
  rw [Wait1.cell_store s hlt b]
  show Ring.window (Function.update s.cell s.tail.toNat b) ringSize
    s.head.toNat (pending s) = _
  rw [← tail_index hs]
  exact Ring.window_update_behind s.cell (pending_lt s) b

/-- With room for one more cell, an inserted byte goes to the end of the
queue. -/
theorem contents_insertByte {s : Wait1} (hs : InRange s)
    (hroom : pending s + 1 < ringSize) (b : UInt8) :
    contents (insertByte s (some b)).2 = contents s ++ [b] := by
  have hlt : s.tail.toNat < ringSize := by
    have := hs.tail_lt
    have := hs.tail_nonneg
    omega
  have hpending : pending (insertByte s (some b)).2 = pending s + 1 := by
    obtain ⟨h₁, h₂, h₃, h₄⟩ := hs
    unfold pending at hroom ⊢
    simp only [insertByte, Wait1.store_head, CInt.tmod_succ h₃]
    unfold ringSize at *
    omega
  have hcell : (insertByte s (some b)).2.cell =
      Function.update s.cell ((s.head.toNat + pending s) % ringSize) b := by
    rw [tail_index hs]
    exact Wait1.cell_store s hlt b
  unfold contents
  rw [hpending, hcell]
  exact Ring.window_push s.cell (pending_lt s) b

/-- A byte inserted into the full ring empties it. -/
theorem contents_insertByte_full {s : Wait1} (hhead : s.head = 0)
    (htail : s.tail = ringSize - 1) (b : UInt8) :
    contents (insertByte s (some b)).2 = [] := by
  have hpending : pending (insertByte s (some b)).2 = 0 := by
    simp [pending, insertByte, hhead, htail, ringSize]
  unfold contents
  rw [hpending, Ring.window_zero]

/-- A removed byte comes from the front of the queue. -/
theorem contents_removeByte {s : Wait1} (hs : InRange s)
    (hne : s.head ≠ s.tail) :
    contents s =
      s.cell s.head.toNat :: contents (removeByte s false).2 := by
  obtain ⟨h₁, h₂, h₃, h₄⟩ := hs
  have hpending : pending s = pending (removeByte s false).2 + 1 := by
    unfold pending
    simp only [removeByte, CInt.tmod_succ h₁, Bool.false_eq_true, if_false]
    unfold ringSize at *
    omega
  have hhead : (removeByte s false).2.head.toNat =
      (s.head.toNat + 1) % ringSize := by
    simp only [removeByte, CInt.tmod_succ h₁, Bool.false_eq_true, if_false]
    unfold ringSize at *
    omega
  have hfirst : s.head.toNat % ringSize = s.head.toNat := by
    apply Nat.mod_eq_of_lt
    omega
  have hcell : (removeByte s false).2.cell = s.cell := rfl
  unfold contents
  rw [hpending, Ring.window_eq_cons, hfirst, hhead, Ring.window_mod_start,
    hcell]

/-! ## Runs of completed calls -/

theorem inRange_insertByte {s : Wait1} (hs : InRange s) (buf : Option UInt8) :
    InRange (insertByte s buf).2 := by
  obtain ⟨h₁, h₂, h₃, h₄⟩ := hs
  cases buf with
  | none => exact ⟨h₁, h₂, h₃, h₄⟩
  | some b =>
      constructor
      · exact h₁
      · exact h₂
      · simp only [insertByte, CInt.tmod_succ h₃]
        unfold ringSize
        omega
      · simp only [insertByte, CInt.tmod_succ h₃]
        unfold ringSize
        omega

theorem inRange_removeByte {s : Wait1} (hs : InRange s) (fault : Bool) :
    InRange (removeByte s fault).2 := by
  obtain ⟨h₁, h₂, h₃, h₄⟩ := hs
  cases fault with
  | true => exact ⟨h₁, h₂, h₃, h₄⟩
  | false =>
      constructor
      · simp only [removeByte, CInt.tmod_succ h₁, Bool.false_eq_true, if_false]
        unfold ringSize
        omega
      · simp only [removeByte, CInt.tmod_succ h₁, Bool.false_eq_true, if_false]
        unfold ringSize
        omega
      · exact h₃
      · exact h₄

/-- The call is not a `my_write` that gets its byte while `head` is `0` and
the ring is full. -/
def NoOverrun (s : Wait1) : Call → Prop
  | .write (some _) _ => ¬ (s.head = 0 ∧ s.tail = ringSize - 1)
  | _ => True

/-- Behind the loop of `my_write` there is room for one more byte, except at
`head = 0`. -/
theorem room_of_guard {s : Wait1} (hs : InRange s) (hguard : prev s ≠ s.tail)
    (hno : ¬ (s.head = 0 ∧ s.tail = ringSize - 1)) :
    pending s + 1 < ringSize := by
  rw [prev_eq hs] at hguard
  obtain ⟨h₁, h₂, h₃, h₄⟩ := hs
  unfold pending
  unfold ringSize at *
  omega

/-- The end of `my_write` is one step of the queue exactly when it is no
overrun. -/
theorem insertByte_stepConserves_iff {s : Wait1} (hs : InRange s)
    (hguard : prev s ≠ s.tail) (buf : Option UInt8) (signal : Bool) :
    fifo.StepConserves s [writeEvent buf (insertByte s buf).1]
        (insertByte s buf).2 ↔ NoOverrun s (.write buf signal) := by
  unfold Channel.StepConserves
  rw [fifo.puts_singleton, fifo.takes_singleton]
  cases buf with
  | none =>
      show contents s ++ [] = [] ++ contents (s.store s.tail.toNat 0) ↔ True
      simp [contents_store_tail hs]
  | some b =>
      show contents s ++ [b] = [] ++ contents (insertByte s (some b)).2 ↔
        ¬ (s.head = 0 ∧ s.tail = ringSize - 1)
      constructor
      · -- `tail` catches up with `head`, and the ring reads as empty
        rintro hcons ⟨hhead, htail⟩
        rw [contents_insertByte_full hhead htail] at hcons
        simp at hcons
      · intro hno
        rw [contents_insertByte hs (room_of_guard hs hguard hno) b]
        rfl

/-- The end of `my_read` is one step of the queue. -/
theorem removeByte_stepConserves {s : Wait1} (hs : InRange s)
    (hguard : s.head ≠ s.tail) (fault : Bool) :
    fifo.StepConserves s [readEvent s (removeByte s fault).1]
        (removeByte s fault).2 := by
  unfold Channel.StepConserves
  rw [fifo.puts_singleton, fifo.takes_singleton]
  cases fault with
  | true =>
      show contents s ++ [] = [] ++ contents s
      simp
  | false =>
      show contents s ++ [] =
        [s.cell s.head.toNat] ++ contents (removeByte s false).2
      rw [List.append_nil, contents_removeByte hs hguard]
      rfl

/-- A guard that makes `my_write` give up belongs to a ring that is no
overrun. -/
theorem noOverrun_of_guard {s : Wait1} (hs : InRange s)
    (hguard : prev s = s.tail) (buf : Option UInt8) (signal : Bool) :
    NoOverrun s (.write buf signal) := by
  cases buf with
  | none => trivial
  | some b =>
      rintro ⟨hhead, htail⟩
      rw [prev_eq hs] at hguard
      unfold ringSize at htail
      omega

/-- What a completed call can do: give up on a signal, or run its end. -/
theorem step_cases {s s' : Wait1} {call : Call} {ev : List Event}
    (hs : InRange s) (h : wait1.step s call = some (s', ev)) :
    (NoOverrun s call ∧ s' = { s with condition := 0 } ∧
      ev = [.failed (-ERESTARTSYS)]) ∨
    (∃ buf signal, call = .write buf signal ∧ prev s ≠ s.tail ∧
      s' = (insertByte s buf).2 ∧
      ev = [writeEvent buf (insertByte s buf).1]) ∨
    (∃ fault signal, call = .read fault signal ∧ s.head ≠ s.tail ∧
      s' = (removeByte s fault).2 ∧
      ev = [readEvent s (removeByte s fault).1]) := by
  have hrestart : -ERESTARTSYS ≠ 1 := by decide
  cases call with
  | write buf signal =>
      obtain ⟨⟨rv, t⟩, hcall, heq⟩ := Option.map_eq_some_iff.mp h
      obtain ⟨rfl, rfl⟩ := Prod.mk.inj heq
      unfold myWrite at hcall
      split_ifs at hcall with hguard hsignal
      · obtain ⟨rfl, rfl⟩ := Prod.mk.inj (Option.some.inj hcall)
        refine Or.inl ⟨noOverrun_of_guard hs hguard buf signal, rfl, ?_⟩
        cases buf <;> simp [writeEvent, hrestart]
      · have hpair := Option.some.inj hcall
        exact Or.inr (Or.inl ⟨buf, signal, rfl, hguard,
          by rw [hpair], by rw [hpair]⟩)
  | read fault signal =>
      obtain ⟨⟨rv, t⟩, hcall, heq⟩ := Option.map_eq_some_iff.mp h
      obtain ⟨rfl, rfl⟩ := Prod.mk.inj heq
      unfold myRead at hcall
      split_ifs at hcall with hguard hsignal
      · obtain ⟨rfl, rfl⟩ := Prod.mk.inj (Option.some.inj hcall)
        exact Or.inl ⟨trivial, rfl, by simp [readEvent, hrestart]⟩
      · have hpair := Option.some.inj hcall
        exact Or.inr (Or.inr ⟨fault, signal, rfl, hguard,
          by rw [hpair], by rw [hpair]⟩)

/-- The indices stay inside the ring in every reachable state. -/
theorem inRange_of_reachable {s : Wait1} (h : wait1.Reachable s) :
    InRange s := by
  refine wait1.reachable_invariant inRange_initial ?_ h
  intro s call s' ev hs hstep
  obtain ⟨-, rfl, -⟩ | ⟨buf, -, -, -, rfl, -⟩ | ⟨fault, -, -, -, rfl, -⟩ :=
    step_cases hs hstep
  · exact ⟨hs.head_nonneg, hs.head_lt, hs.tail_nonneg, hs.tail_lt⟩
  · exact inRange_insertByte hs buf
  · exact inRange_removeByte hs fault

/-- A completed call is one step of the queue exactly when it is no
overrun. -/
theorem stepConserves_iff {s s' : Wait1} {call : Call} {ev : List Event}
    (hs : InRange s) (hstep : wait1.step s call = some (s', ev)) :
    fifo.StepConserves s ev s' ↔ NoOverrun s call := by
  obtain ⟨hno, rfl, rfl⟩ | ⟨buf, signal, rfl, hguard, rfl, rfl⟩ |
    ⟨fault, signal, rfl, hguard, rfl, rfl⟩ := step_cases hs hstep
  · have hheld : contents { s with condition := 0 } = contents s := rfl
    simp [Channel.StepConserves, fifo, hno, hheld]
  · exact insertByte_stepConserves_iff hs hguard buf signal
  · exact iff_of_true (removeByte_stepConserves hs hguard fault) trivial

/-- The device is a lossless queue at every point of a run of completed calls
exactly when no byte was written into a full ring with `head = 0`. -/
theorem lossless_iff_no_overrun (calls : List Call) :
    wait1.Always fifo.Conserved calls ↔ wait1.Meets NoOverrun calls := by
  refine System.always_iff_meets rfl ?_ calls
  intro s tr call s' ev hreach hlaw hstep
  rw [fifo.conserved_append_iff hlaw]
  exact stepConserves_iff (inRange_of_reachable hreach) hstep

/-- Writes into the initial ring are all let through. -/
theorem run_writes (b : UInt8) (n : Nat) (hn : n ≤ ringSize) :
    ∃ s, wait1.run (List.replicate n (.write (some b) false)) =
        some (s, List.replicate n (.accepted b)) ∧
      s.head = 0 ∧ s.tail = ((n % ringSize : Nat) : Int) := by
  induction n with
  | zero => exact ⟨Wait1.initial, rfl, rfl, rfl⟩
  | succ n ih =>
      obtain ⟨s, hrun, hhead, htail⟩ := ih (by omega)
      have hguard : prev s ≠ s.tail := by
        rw [prev, hhead, htail]
        have : ((0 : Int) - 1).tmod ringSize = -1 := by decide
        omega
      have hstep : wait1.step s (.write (some b) false) =
          some ((insertByte s (some b)).2, [.accepted b]) := by
        simp [wait1, myWrite, hguard, writeEvent, insertByte]
      refine ⟨(insertByte s (some b)).2, ?_, ?_, ?_⟩
      · rw [List.replicate_succ', List.replicate_succ']
        exact wait1.run_concat_of_step hrun hstep
      · exact hhead
      · show (1 + s.tail).tmod ringSize = _
        rw [CInt.tmod_succ (by omega), htail]
        unfold ringSize
        omega

theorem puts_accepted (b : UInt8) (n : Nat) :
    fifo.puts (List.replicate n (.accepted b)) = List.replicate n b := by
  induction n with
  | zero => rfl
  | succ n ih =>
      rw [List.replicate_succ', fifo.puts_append, ih, fifo.puts_singleton,
        List.replicate_succ']
      rfl

theorem takes_accepted (b : UInt8) (n : Nat) :
    fifo.takes (List.replicate n (.accepted b)) = [] := by
  induction n with
  | zero => rfl
  | succ n ih =>
      rw [List.replicate_succ', fifo.takes_append, ih, fifo.takes_singleton]
      rfl

/-- After 512 writes and no read every byte is accepted and none is left. -/
theorem full_ring_overrun :
    ∃ s tr, wait1.run (List.replicate 512 (.write (some 65) false)) =
        some (s, tr) ∧ ¬ fifo.Conserved s tr := by
  obtain ⟨s, hrun, hhead, htail⟩ := run_writes 65 512 (le_refl _)
  refine ⟨s, _, hrun, ?_⟩
  have hpending : pending s = 0 := by
    simp [pending, hhead, htail, ringSize]
  have hheld : fifo.held s = [] := by
    show contents s = []
    unfold contents
    rw [hpending, Ring.window_zero]
  intro hcons
  unfold Channel.Conserved at hcons
  rw [hheld, puts_accepted, takes_accepted] at hcons
  have hlength := congrArg List.length hcons
  rw [List.length_replicate] at hlength
  exact absurd hlength (by decide)

end WaitQueue
end KernelDrivers
