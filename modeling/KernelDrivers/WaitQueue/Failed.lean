import KernelDrivers.WaitQueue.Fifo
import KernelDrivers.WaitQueue.Guard

/-!
# Failed and interrupted calls of `wait1.c`

A `my_write` whose `get_user` faults has stored 0 at `tail` all the same, and
this cell is not part of the queue.  A call that other processes overlap
changes the indices with one statement only, and a process that has come there
returns 1.
-/

namespace KernelDrivers
namespace WaitQueue

open Lib

/-- The return values of a call that gave up. -/
def GaveUp (rv : Int) : Prop :=
  rv = -EFAULT ∨ rv = -ERESTARTSYS

instance (rv : Int) : Decidable (GaveUp rv) :=
  inferInstanceAs (Decidable (_ ∨ _))

theorem not_gaveUp_one : ¬ GaveUp 1 := by
  decide

/-- The queue is as it was. -/
structure QueueKept (s s' : Wait1) : Prop where
  head : s'.head = s.head
  tail : s'.tail = s.tail
  contents : contents s' = contents s

theorem QueueKept.store_tail {s : Wait1} (hs : InRange s) (b : UInt8) :
    QueueKept s (s.store s.tail.toNat b) :=
  ⟨rfl, rfl, contents_store_tail hs b⟩

/-! ## Calls that do not overlap -/

/-- A `my_write` that gives up. -/
theorem myWrite_gaveUp {s s' : Wait1} {buf : Option UInt8} {signal : Bool}
    {rv : Int} (hs : InRange s) (hrv : GaveUp rv)
    (h : myWrite s buf signal = some (rv, s')) : QueueKept s s' := by
  unfold myWrite at h
  split_ifs at h
  · cases h
    exact ⟨rfl, rfl, rfl⟩
  · cases buf with
    | none =>
        cases h
        exact QueueKept.store_tail hs 0
    | some b =>
        cases h
        exact absurd hrv not_gaveUp_one

/-- A `my_read` that gives up. -/
theorem myRead_gaveUp {s s' : Wait1} {fault signal : Bool} {rv : Int}
    (hrv : GaveUp rv) (h : myRead s fault signal = some (rv, s')) :
    QueueKept s s' := by
  unfold myRead at h
  split_ifs at h
  · cases h
    exact ⟨rfl, rfl, rfl⟩
  · cases fault with
    | true =>
        cases h
        exact ⟨rfl, rfl, rfl⟩
    | false =>
        cases h
        exact absurd hrv not_gaveUp_one

/-! ## Calls that overlap -/

namespace Processes

/-- Only the update of an index changes the queue. -/
theorem Move.queueKept {m m' : Wait1} {p p' : Proc} {ev : List Event}
    (h : Move m p m' p' ev) (hm : InRange m) (hpc : p.pc ≠ .advance) :
    QueueKept m m' := by
  cases h with
  | advance hadvance => exact absurd hadvance hpc
  | fetchFault | fetch => exact QueueKept.store_tail hm _
  | _ => exact ⟨rfl, rfl, rfl⟩

/-- The process has updated its index. -/
def Pc.Moved : Pc → Prop
  | .setCondition | .wakeUp | .done => True
  | _ => False

theorem Proc.woken_moved {p : Proc} (h : p.pc.Moved) : p.woken.pc.Moved := by
  unfold Proc.woken
  split_ifs with hasleep
  · rw [hasleep] at h
    exact h.elim
  · exact h

/-- A process that has updated its index goes on so, and does not give up. -/
theorem Move.moved {m m' : Wait1} {p p' : Proc} {ev : List Event}
    (h : Move m p m' p' ev) (hp : p.pc.Moved) :
    p'.pc.Moved ∧ ∀ rv, GaveUp rv → ev ≠ [.returned rv] := by
  cases h with
  | setCondition => exact ⟨trivial, by simp⟩
  | wakeUp =>
      refine ⟨trivial, fun rv hrv heq => not_gaveUp_one ?_⟩
      cases heq
      exact hrv
  | _ hpc =>
      rw [hpc] at hp
      exact hp.elim

/-- Process `i` has updated its index. -/
def MovedBy (i : Nat) (s : State) : Prop :=
  ∃ p, s.procs[i]? = some p ∧ p.pc.Moved

theorem movedBy_set {s : State} {i j : Nat} {p q : Proc}
    (h : MovedBy i s) (hj : s.procs[j]? = some p)
    (hmoved : p.pc.Moved → q.pc.Moved) :
    ∃ r, (s.procs.set j q)[i]? = some r ∧ r.pc.Moved := by
  obtain ⟨r, hr, hpc⟩ := h
  by_cases hij : j = i
  · subst hij
    cases hr.symm.trans hj
    exact ⟨q, Pool.set_self hj, hmoved hpc⟩
  · exact ⟨r, (Pool.set_other (Ne.symm hij)).trans hr, hpc⟩

theorem MovedBy.step {s s' : State} {i : Nat} {a : Act} {ev : List Event}
    (h : MovedBy i s) (hstep : wait1.step s a = some (s', ev)) :
    MovedBy i s' := by
  cases step_cases hstep with
  | enter op =>
      obtain ⟨p, hp, hpc⟩ := h
      exact ⟨p, Pool.concat_kept hp _, hpc⟩
  | signal hj => exact movedBy_set h hj Proc.woken_moved
  | @wakeUp j p hj _ =>
      obtain ⟨r, hr, hpc⟩ :=
        movedBy_set (q := { p with pc := .done }) h hj fun _ => trivial
      exact ⟨r.woken, by rw [List.getElem?_map, hr]; rfl, r.woken_moved hpc⟩
  | proc hj _ hmove => exact movedBy_set h hj fun hp => (hmove.moved hp).1

/-- The call of process `i` ends with the last step of the run. -/
def Returns (i : Nat) (rv : Int) (acts : List Act) : Prop :=
  ∃ before s tr s', acts = before ++ [.proc i] ∧
    wait1.run before = some (s, tr) ∧
    wait1.step s (.proc i) = some (s', [.returned rv])

theorem returns_of_eq {i : Nat} {rv : Int} {before : List Act}
    (h : ((wait1.run before).bind fun state =>
      (wait1.step state.1 (.proc i)).map Prod.snd) = some [.returned rv]) :
    Returns i rv (before ++ [.proc i]) := by
  obtain ⟨⟨s, tr⟩, hrun, hstep⟩ := Option.bind_eq_some_iff.mp h
  obtain ⟨⟨s', ev⟩, hlast, rfl⟩ := Option.map_eq_some_iff.mp hstep
  exact ⟨before, s, tr, s', rfl, hrun, hlast⟩

/-- A step of process `i` keeps the queue. -/
def KeepsQueue (i : Nat) (s : State) (a : Act) : Prop :=
  a = .proc i → ∀ s' ev, wait1.step s a = some (s', ev) → QueueKept s.mem s'.mem

/-- A statement of process `i` keeps the queue, or updates the index. -/
theorem queueKept_or_moved {s s' : State} {i : Nat} {ev : List Event}
    (hreach : wait1.Reachable s)
    (hstep : wait1.step s (.proc i) = some (s', ev)) :
    QueueKept s.mem s'.mem ∨ (MovedBy i s' ∧ ev = []) := by
  cases step_cases hstep with
  | wakeUp => exact .inl ⟨rfl, rfl, rfl⟩
  | @proc _ p p' m' _ hp _ hmove =>
      by_cases hpc : p.pc = .advance
      · refine .inr ?_
        cases hmove with
        | advance =>
            exact ⟨⟨{ p with pc := .setCondition }, Pool.set_self hp, trivial⟩, rfl⟩
        | _ hother => rw [hpc] at hother; cases hother
      · exact .inl (hmove.queueKept (ranges_of_reachable hreach).mem hpc)

/-- A call that gives up has not updated its index before. -/
theorem not_movedBy_of_returns {s s' : State} {i : Nat} {rv : Int}
    (hrv : GaveUp rv) (hstep : wait1.step s (.proc i) = some (s', [.returned rv])) :
    ¬ MovedBy i s := by
  rintro ⟨p, hp, hpc⟩
  generalize hev : [Event.returned rv] = ev at hstep
  cases step_cases hstep with
  | wakeUp =>
      cases hev
      exact not_gaveUp_one hrv
  | proc hj _ hmove =>
      cases hp.symm.trans hj
      exact (hmove.moved hpc).2 rv hrv hev.symm

/-- No statement of a call that gives up changes the queue. -/
theorem meets_keepsQueue {i : Nat} {rv : Int} {acts : List Act}
    (hrv : GaveUp rv) (h : Returns i rv acts) :
    wait1.Meets (KeepsQueue i) acts := by
  obtain ⟨before, s, tr, s', rfl, hrun, hlast⟩ := h
  rintro earlier _ t trt hpre hrunt - rfl t' ev hstep
  refine (queueKept_or_moved ⟨earlier, trt, hrunt⟩ hstep).resolve_right ?_
  rintro ⟨hmoved, rfl⟩
  rcases List.prefix_concat_iff.mp hpre with heq | hpre
  · obtain ⟨rfl, -⟩ := List.append_inj' heq rfl
    rw [hrun] at hrunt
    cases hrunt
    rw [hlast] at hstep
    cases hstep
  · -- the process was at the end of its call from there on
    refine not_movedBy_of_returns hrv hlast ?_
    refine wait1.run_persists (P := fun s _ => MovedBy i s)
      (wait1.run_concat_of_step hrunt hstep) hmoved hpre ?_ hrun
    exact fun s tr a s' ev h hstep => h.step hstep

end Processes

/-- A call that gives up leaves the queue as it was: from every reachable state
when no other call is in progress, and with each of its statements when calls
overlap. -/
theorem gaveUp_keeps_queue {rv : Int} (hrv : GaveUp rv) :
    (∀ s, wait1.Reachable s → ∀ s',
      (∀ buf signal, myWrite s buf signal = some (rv, s') → QueueKept s s') ∧
      (∀ fault signal, myRead s fault signal = some (rv, s') → QueueKept s s')) ∧
    ∀ i acts, Processes.Returns i rv acts →
      Processes.wait1.Meets (Processes.KeepsQueue i) acts :=
  ⟨fun _ hreach _ =>
    ⟨fun _ _ h => myWrite_gaveUp (inRange_of_reachable hreach) hrv h,
      fun _ _ h => myRead_gaveUp hrv h⟩,
    fun _ _ h => Processes.meets_keepsQueue hrv h⟩

/-- A faulting write and a faulting read of a ring that holds a byte, and a
write that faults while another process has handed this byte out and not yet
updated `head`. -/
theorem faults_keep_queue :
    ∃ s, wait1.run [.write (some 65) false] = some (s, [.accepted 65]) ∧
      contents s = [65] ∧ QueueKept s (s.store s.tail.toNat 0) ∧
      QueueKept s s ∧
      Processes.wait1.Meets (Processes.KeepsQueue 2)
        ((.enter (.write (some 65)) :: Processes.steps 0 6 ++
          .enter (.read false) :: Processes.steps 1 3 ++
          .enter (.write none) :: Processes.steps 2 2) ++ [.proc 2]) :=
  have hkept := @gaveUp_keeps_queue (-EFAULT) (by decide)
  have hreach : wait1.Reachable (insertByte Wait1.initial (some 65)).2 :=
    ⟨[.write (some 65) false], [.accepted 65], rfl⟩
  ⟨_, rfl, by decide +kernel, (hkept.1 _ hreach _).1 none false rfl,
    (hkept.1 _ hreach _).2 true false rfl,
    hkept.2 _ _ (Processes.returns_of_eq (by decide +kernel))⟩

end WaitQueue
end KernelDrivers
