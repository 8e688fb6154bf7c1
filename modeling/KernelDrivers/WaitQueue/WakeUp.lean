import KernelDrivers.WaitQueue.Guard

/-!
# Lost wake-ups

One `condition` serves readers and writers.  A process that is going to sleep
clears it after its guard and looks at it only then, so an update by another
process in between can be missed in two ways: the process falls asleep on a
reason that is gone, or it clears the `condition` under a sleeper whose reason
is gone.

Between the update of an index and `condition=1` a sleeper's reason is gone
for a moment although its wake-up is on the way.  The flag `excused` says
whether this moment counts: with `false` the law is about every reachable
state, with `true` it leaves out the states in which some process is right
before its `condition=1`.
-/

namespace KernelDrivers
namespace WaitQueue
namespace Processes

open Lib

/-- A process is right before its `condition=1`, and this is an excuse. -/
def Imminent (excused : Bool) (s : State) : Prop :=
  excused = true ∧ ∃ q ∈ s.procs, q.pc = .setCondition

/-- A process may sleep: its reason to block is there, or the wake-up is on
the way. -/
def MaySleep (excused : Bool) (s : State) (p : Proc) : Prop :=
  p.op.Blocked s.mem ∨ Imminent excused s

/-- No process sleeps with `condition == 0` on a reason that is gone. -/
def NoLostWakeUp (excused : Bool) (s : State) (_ : List Event) : Prop :=
  s.mem.condition = 0 → ∀ p ∈ s.procs, p.pc = .asleep → MaySleep excused s p

/-- A process falls asleep only if it may, `condition=0` is executed only while
every sleeper may sleep, and (where the moment before `condition=1` counts) an
index is updated only with nobody asleep. -/
def InTime (excused : Bool) (s : State) : Act → Prop
  | .proc i => ∀ p ∈ s.procs[i]?,
      match p.pc with
      | .sleepTest =>
          s.mem.condition = 0 → p.pending = false → MaySleep excused s p
      | .reset => ∀ q ∈ s.procs, q.pc = .asleep → MaySleep excused s q
      | .advance => excused = true ∨
          (s.mem.condition = 0 → ∀ q ∈ s.procs, q.pc ≠ .asleep)
      | _ => True
  | _ => True

variable {excused : Bool} {s : State} {m m' : Wait1} {i : Nat}
  {p p' : Proc} {tr ev : List Event}

/-! ## Frame lemmas -/

/-- Whether a process is blocked depends on the two indices alone. -/
theorem blocked_congr (hhead : m'.head = m.head) (htail : m'.tail = m.tail)
    (op : Op) : op.Blocked m' ↔ op.Blocked m := by
  cases op with
  | write buf =>
      show (m'.tail + 1) % ringSize = m'.head ↔
        (m.tail + 1) % ringSize = m.head
      rw [hhead, htail]
  | read fault =>
      show m'.head = m'.tail ↔ m.head = m.tail
      rw [hhead, htail]

/-- Whoever is before its `condition=1` stays there while others step. -/
theorem Imminent.set (h : Imminent excused s) (hp : s.procs[i]? = some p)
    (hkeep : p.pc = .setCondition → p'.pc = .setCondition) (m' : Wait1) :
    Imminent excused ⟨m', s.procs.set i p'⟩ := by
  obtain ⟨hexcused, q, hq, hqpc⟩ := h
  by_cases heq : q = p
  · rw [heq] at hqpc
    exact ⟨hexcused, p', Pool.mem_set_self hp p', hkeep hqpc⟩
  · exact ⟨hexcused, q, Pool.mem_set_of_ne hp hq heq p', hqpc⟩

theorem Imminent.of_set (h : Imminent excused ⟨m', s.procs.set i p'⟩)
    (hpc : p'.pc ≠ .setCondition) : Imminent excused s := by
  obtain ⟨hexcused, q, hq, hqpc⟩ := h
  rcases List.mem_or_eq_of_mem_set hq with hq | rfl
  · exact ⟨hexcused, q, hq, hqpc⟩
  · exact absurd hqpc hpc

/-- The indices stay and no `condition=1` is executed: whoever could sleep can
still. -/
theorem MaySleep.frame {q : Proc} (h : MaySleep excused s q)
    (hhead : m'.head = s.mem.head) (htail : m'.tail = s.mem.tail)
    (hp : s.procs[i]? = some p)
    (hkeep : p.pc = .setCondition → p'.pc = .setCondition) :
    MaySleep excused ⟨m', s.procs.set i p'⟩ q := by
  rcases h with hblocked | himminent
  · exact Or.inl ((blocked_congr hhead htail q.op).mpr hblocked)
  · exact Or.inr (himminent.set hp hkeep m')

theorem MaySleep.of_frame {q : Proc}
    (h : MaySleep excused ⟨m', s.procs.set i p'⟩ q)
    (hhead : m'.head = s.mem.head) (htail : m'.tail = s.mem.tail)
    (hpc : p'.pc ≠ .setCondition) : MaySleep excused s q := by
  rcases h with hblocked | himminent
  · exact Or.inl ((blocked_congr hhead htail q.op).mp hblocked)
  · exact Or.inr (himminent.of_set hpc)

/-- A step that leaves the indices and `condition` alone and does not end in
sleep keeps the law. -/
theorem NoLostWakeUp.frame (h : NoLostWakeUp excused s tr)
    (hp : s.procs[i]? = some p)
    (hkeep : p.pc = .setCondition → p'.pc = .setCondition)
    (hhead : m'.head = s.mem.head) (htail : m'.tail = s.mem.tail)
    (hcondition : m'.condition = s.mem.condition) (hawake : p'.pc ≠ .asleep) :
    NoLostWakeUp excused ⟨m', s.procs.set i p'⟩ (tr ++ ev) := by
  intro hzero q hq hasleep
  rcases List.mem_or_eq_of_mem_set hq with hq | rfl
  · have hmay := h (hcondition ▸ hzero) q hq hasleep
    exact hmay.frame hhead htail hp hkeep
  · exact absurd hasleep hawake

/-! ## The three statements at which a wake-up can be lost -/

/-- Falling asleep. -/
theorem sleep_iff (h : NoLostWakeUp excused s tr)
    (hp : s.procs[i]? = some p) (hpc : p.pc = .sleepTest)
    (hzero : s.mem.condition = 0) :
    NoLostWakeUp excused ⟨s.mem, s.procs.set i { p with pc := .asleep }⟩
        (tr ++ ev) ↔ MaySleep excused s p := by
  have hother : p.pc = .setCondition → Pc.asleep = .setCondition := by
    simp [hpc]
  constructor
  · intro hafter
    have hmay := hafter hzero _ (Pool.mem_set_self hp _) rfl
    exact MaySleep.of_frame (q := p) hmay rfl rfl (by simp)
  · intro hmay _ q hq hasleep
    rcases List.mem_or_eq_of_mem_set hq with hq | rfl
    · exact (h hzero q hq hasleep).frame rfl rfl hp hother
    · exact MaySleep.frame (q := p) hmay rfl rfl hp hother

/-- `condition=0`. -/
theorem reset_iff (hp : s.procs[i]? = some p) (hpc : p.pc = .reset) :
    NoLostWakeUp excused ⟨{ s.mem with condition := 0 },
        s.procs.set i { p with pc := .sleepTest }⟩ (tr ++ ev) ↔
      ∀ q ∈ s.procs, q.pc = .asleep → MaySleep excused s q := by
  have hother : p.pc = .setCondition → Pc.sleepTest = .setCondition := by
    simp [hpc]
  constructor
  · intro hafter q hq hasleep
    have hne : q ≠ p := by
      rintro rfl
      rw [hpc] at hasleep
      cases hasleep
    have hmay := hafter rfl q (Pool.mem_set_of_ne hp hq hne _) hasleep
    exact hmay.of_frame rfl rfl (by simp)
  · intro hall _ q hq hasleep
    rcases List.mem_or_eq_of_mem_set hq with hq | rfl
    · exact (hall q hq hasleep).frame rfl rfl hp hother
    · cases hasleep

/-- An update of one index ends every reason to block. -/
theorem not_blocked_move (hm : InRange m) {op : Op} (hblocked : op.Blocked m)
    (mover : Op) : ¬ op.Blocked (mover.move m) := by
  obtain ⟨h₁, h₂, h₃, h₄⟩ := hm
  intro hafter
  unfold ringSize at *
  cases mover with
  | write buf =>
      cases op with
      | write buf' =>
          have hfull : (m.tail + 1) % 512 = m.head := hblocked
          have hstill : ((1 + m.tail).tmod 512 + 1) % 512 = m.head := hafter
          rw [CInt.tmod_succ h₃] at hstill
          omega
      | read fault =>
          have hempty : m.head = m.tail := hblocked
          have hstill : m.head = (1 + m.tail).tmod 512 := hafter
          rw [CInt.tmod_succ h₃] at hstill
          omega
  | read fault =>
      cases op with
      | write buf =>
          have hfull : (m.tail + 1) % 512 = m.head := hblocked
          have hstill : (m.tail + 1) % 512 = (1 + m.head).tmod 512 := hafter
          rw [CInt.tmod_succ h₁] at hstill
          omega
      | read fault' =>
          have hempty : m.head = m.tail := hblocked
          have hstill : (1 + m.head).tmod 512 = m.tail := hafter
          rw [CInt.tmod_succ h₁] at hstill
          omega

theorem move_condition (op : Op) : (op.move m).condition = m.condition := by
  cases op <;> rfl

/-- The update of an index. -/
theorem advance_iff (hranges : Ranges s) (h : NoLostWakeUp excused s tr)
    (hp : s.procs[i]? = some p) (hpc : p.pc = .advance) :
    NoLostWakeUp excused ⟨p.op.move s.mem,
        s.procs.set i { p with pc := .setCondition }⟩ (tr ++ ev) ↔
      excused = true ∨
        (s.mem.condition = 0 → ∀ q ∈ s.procs, q.pc ≠ .asleep) := by
  constructor
  · intro hafter
    by_cases hexcused : excused = true
    · exact Or.inl hexcused
    · refine Or.inr fun hzero q hq hasleep => ?_
      -- no wake-up excuses a sleeper, so it must be blocked before and after
      have hnone : ∀ t, ¬ Imminent excused t := fun t ht => hexcused ht.1
      have hbefore : q.op.Blocked s.mem :=
        (h hzero q hq hasleep).resolve_right (hnone s)
      have hne : q ≠ p := by
        rintro rfl
        rw [hpc] at hasleep
        cases hasleep
      have hmem := Pool.mem_set_of_ne hp hq hne { p with pc := .setCondition }
      have hzero' : (p.op.move s.mem).condition = 0 :=
        (move_condition p.op).trans hzero
      have hblocked : q.op.Blocked (p.op.move s.mem) :=
        (hafter hzero' q hmem hasleep).resolve_right (hnone _)
      exact not_blocked_move hranges.mem hbefore p.op hblocked
  · intro hcond hzero q hq hasleep
    have hself := Pool.mem_set_self hp { p with pc := .setCondition }
    rcases hcond with hexcused | hnobody
    · exact Or.inr ⟨hexcused, _, hself, rfl⟩
    · rcases List.mem_or_eq_of_mem_set hq with hq | rfl
      · have hzero' := (move_condition p.op).symm.trans hzero
        exact absurd hasleep (hnobody hzero' q hq)
      · cases hasleep

/-! ## Runs -/

theorem Proc.woken_awake (p : Proc) : p.woken.pc ≠ .asleep := by
  unfold Proc.woken
  split_ifs with hasleep
  · simp
  · exact hasleep

theorem Proc.woken_of_awake {p : Proc} (h : p.pc ≠ .asleep) : p.woken = p :=
  if_neg h

/-- Which steps of one process keep the law. -/
theorem move_iff (hranges : Ranges s) (h : NoLostWakeUp excused s tr)
    (hp : s.procs[i]? = some p) (hmove : Move s.mem p m' p' ev) :
    NoLostWakeUp excused ⟨m', s.procs.set i p'⟩ (tr ++ ev) ↔
      InTime excused s (.proc i) := by
  have hcond : InTime excused s (.proc i) ↔
      match p.pc with
      | .sleepTest =>
          s.mem.condition = 0 → p.pending = false → MaySleep excused s p
      | .reset => ∀ q ∈ s.procs, q.pc = .asleep → MaySleep excused s q
      | .advance => excused = true ∨
          (s.mem.condition = 0 → ∀ q ∈ s.procs, q.pc ≠ .asleep)
      | _ => True := by
    simp only [InTime, hp, Option.mem_some_iff, forall_eq']
  rw [hcond]
  cases hmove with
  | reset hpc =>
      simp only [hpc]
      exact reset_iff hp hpc
  | goOn hpc hgo =>
      simp only [hpc]
      refine ⟨fun _ hzero hnone => ?_, fun _ => ?_⟩
      · rcases hgo with hnonzero | hpending
        · exact absurd hzero hnonzero
        · rw [hnone] at hpending
          cases hpending
      · exact h.frame hp (by simp [hpc]) rfl rfl rfl (by simp)
  | sleep hpc hzero hnone =>
      simp only [hpc]
      rw [sleep_iff h hp hpc hzero]
      exact ⟨fun hmay _ _ => hmay, fun hall => hall hzero hnone⟩
  | advance hpc =>
      simp only [hpc]
      exact advance_iff hranges h hp hpc
  | setCondition hpc =>
      simp only [hpc, iff_true]
      intro hzero
      cases hzero
  | guard hpc =>
      simp only [hpc, iff_true]
      refine h.frame hp (by simp [hpc]) rfl rfl rfl ?_
      show (if p.snap = s.mem.tail then Pc.reset else .access) ≠ .asleep
      split_ifs <;> simp
  | start hpc | interrupted hpc | retry hpc | fetchFault hpc | fetch hpc
  | putFault hpc | put hpc | wakeUp hpc =>
      -- neither the indices nor `condition` change, and nobody falls asleep
      simp only [hpc, iff_true]
      exact h.frame hp (by simp [hpc]) rfl rfl rfl (by simp)

theorem noLostWakeUp_step_iff {s' : State} {a : Act}
    (hreach : wait1.Reachable s) (h : NoLostWakeUp excused s tr)
    (hstep : wait1.step s a = some (s', ev)) :
    NoLostWakeUp excused s' (tr ++ ev) ↔ InTime excused s a := by
  cases step_cases hstep with
  | enter op =>
      refine ⟨fun _ => trivial, fun _ hzero q hq hasleep => ?_⟩
      rcases List.mem_append.mp hq with hq | hq
      · rcases h hzero q hq hasleep with hblocked | ⟨hexcused, r, hr, hrpc⟩
        · exact Or.inl hblocked
        · exact Or.inr ⟨hexcused, r, List.mem_append_left _ hr, hrpc⟩
      · cases List.mem_singleton.mp hq
        cases hasleep
  | @signal i p hp =>
      refine ⟨fun _ => trivial, fun _ => ?_⟩
      refine h.frame hp (fun hpc => ?_) rfl rfl rfl p.woken_awake
      show p.woken.pc = .setCondition
      rw [Proc.woken_of_awake (by simp [hpc]), hpc]
  | @wakeUp i p hp hpc =>
      constructor
      · intro _ q hq
        cases hp.symm.trans hq
        rw [hpc]
        trivial
      · intro _ _ q hq hasleep
        obtain ⟨r, -, rfl⟩ := List.mem_map.mp hq
        exact absurd hasleep r.woken_awake
  | @proc i p p' m' _ hp hpc hmove =>
      exact move_iff (ranges_of_reachable hreach) h hp hmove

/-- No wake-up is lost at any point of a run, if and only if every step of it
that could lose one is in time. -/
theorem noLostWakeUp_iff_inTime (excused : Bool) (acts : List Act) :
    wait1.Always (NoLostWakeUp excused) acts ↔
      wait1.Meets (InTime excused) acts := by
  refine wait1.always_iff_meets (fun _ _ hmem => by cases hmem) ?_ acts
  intro s tr a s' ev hreach hlaw hstep
  exact noLostWakeUp_step_iff hreach hlaw hstep

/-- A reader finds the ring empty; before it executes `condition=0`, a writer
runs from its first to its last statement; then the reader falls asleep. -/
def writeInWindow : List Act :=
  List.flatten [
    .enter (.read false) :: steps 0 2,
    .enter (.write (some 65)) :: steps 1 6,
    steps 0 2]

/-- The reader sleeps on a ring that holds a byte, and no process is left that
could wake it. -/
theorem reader_sleeps_on_byte :
    ∃ s tr, wait1.run writeInWindow = some (s, tr) ∧
      ∀ excused, ¬ NoLostWakeUp excused s tr := by
  let reader : Proc := ⟨.read false, .asleep, 0, false⟩
  let writer : Proc := ⟨.write (some 65), .done, -1, false⟩
  refine ⟨⟨_, [reader, writer]⟩, _, rfl, fun excused hlaw => ?_⟩
  have hmay := hlaw rfl reader (by simp) rfl
  rcases hmay with hempty | ⟨-, q, hq, hpc⟩
  · exact absurd hempty (by decide)
  · rcases List.mem_pair.mp hq with rfl | rfl <;> cases hpc

end Processes
end WaitQueue
end KernelDrivers
