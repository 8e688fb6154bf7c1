import KernelDrivers.WaitQueue.Processes

/-!
# The guard of a blocked writer

`my_write` computes `prev` once, before its loop.  The guard compares this old
value with `tail`, so it means "full" only as long as `head` has not moved
since; and at `head = 0` the C remainder makes `prev` a value that no index
has.  The guard is right at each test exactly where neither of the two shows.
-/

namespace KernelDrivers
namespace WaitQueue
namespace Processes

open Lib

/-- Every guard that a writer has evaluated was true exactly when the ring was
full. -/
def GuardsTruthful (_ : State) (tr : List Event) : Prop :=
  ∀ stays full, .tested true stays full ∈ tr → stays = full

/-- A writer does not evaluate its guard with `tail` right behind `head`, or
at its own `prev`, unless `head` is what it was when `prev` was computed, and
not `0`. -/
def FreshGuard (s : State) : Act → Prop
  | .proc i => ∀ p ∈ s.procs[i]?, p.op.isWrite = true → p.pc = .guard →
      p.snap = s.mem.tail ∨ (s.mem.tail + 1) % ringSize = s.mem.head →
      s.mem.head = p.snap + 1 ∧ s.mem.head ≠ 0
  | _ => True

/-- Both indices are inside the ring, and `prev` is one behind such an
index. -/
structure Ranges (s : State) : Prop where
  mem : InRange s.mem
  snap : ∀ p ∈ s.procs, p.op.isWrite = true →
    -1 ≤ p.snap ∧ p.snap + 1 < ringSize

section Moves

variable {m m' : Wait1} {p p' : Proc} {ev : List Event}

theorem Op.inRange_move (hm : InRange m) (op : Op) : InRange (op.move m) := by
  obtain ⟨h₁, h₂, h₃, h₄⟩ := hm
  cases op with
  | write buf =>
      refine ⟨h₁, h₂, ?_, ?_⟩
      · simp only [Op.move, CInt.tmod_succ h₃]
        unfold ringSize
        omega
      · simp only [Op.move, CInt.tmod_succ h₃]
        unfold ringSize
        omega
  | read fault =>
      refine ⟨?_, ?_, h₃, h₄⟩
      · simp only [Op.move, CInt.tmod_succ h₁]
        unfold ringSize
        omega
      · simp only [Op.move, CInt.tmod_succ h₁]
        unfold ringSize
        omega

theorem Move.inRange (h : Move m p m' p' ev) (hm : InRange m) :
    InRange m' := by
  cases h with
  | advance hpc => exact Op.inRange_move hm p.op
  | _ => exact ⟨hm.head_nonneg, hm.head_lt, hm.tail_nonneg, hm.tail_lt⟩

/-- A process keeps its call, and its local variable or takes a new
snapshot. -/
theorem Move.snap (h : Move m p m' p' ev) :
    p'.op = p.op ∧ (p'.snap = p.snap ∨ p'.snap = p.op.snapshot m) := by
  cases h with
  | start => exact ⟨rfl, Or.inr rfl⟩
  | _ => exact ⟨rfl, Or.inl rfl⟩

end Moves

@[simp] theorem Proc.woken_op (p : Proc) : p.woken.op = p.op := by
  unfold Proc.woken
  split_ifs <;> rfl

@[simp] theorem Proc.woken_snap (p : Proc) : p.woken.snap = p.snap := by
  unfold Proc.woken
  split_ifs <;> rfl

theorem snapshot_range {m : Wait1} (hm : InRange m) {op : Op}
    (hop : op.isWrite = true) :
    -1 ≤ op.snapshot m ∧ op.snapshot m + 1 < ringSize := by
  have h₁ := hm.head_nonneg
  have h₂ := hm.head_lt
  cases op with
  | write buf =>
      rw [Op.snapshot, prev_eq hm]
      omega
  | read fault => cases hop

theorem ranges_of_reachable {s : State} (h : wait1.Reachable s) :
    Ranges s := by
  refine wait1.reachable_invariant ?_ ?_ h
  · exact ⟨inRange_initial, nofun⟩
  · intro s a s' ev ih hstep
    cases step_cases hstep with
    | enter op =>
        refine ⟨ih.mem, Pool.forall_concat ih.snap fun _ => ?_⟩
        show (-1 : Int) ≤ 0 ∧ (0 : Int) + 1 < 512
        omega
    | @signal i p hp =>
        refine ⟨ih.mem, Pool.forall_set ih.snap ?_⟩
        simpa using ih.snap p (List.mem_of_getElem? hp)
    | @wakeUp i p hp hpc =>
        refine ⟨ih.mem, fun q hq => ?_⟩
        obtain ⟨r, hr, rfl⟩ := List.mem_map.mp hq
        rw [Proc.woken_op, Proc.woken_snap]
        have hold := ih.snap p (List.mem_of_getElem? hp)
        have hset := Pool.forall_set (i := i) (y := { p with pc := .done })
          ih.snap hold
        exact hset r hr
    | @proc i p p' m' ev hp hpc hmove =>
        refine ⟨hmove.inRange ih.mem, Pool.forall_set ih.snap fun hop => ?_⟩
        obtain ⟨hsame, hsnap | hsnap⟩ := hmove.snap
        · rw [hsnap]
          exact ih.snap p (List.mem_of_getElem? hp) (hsame ▸ hop)
        · rw [hsnap]
          exact snapshot_range ih.mem (hsame ▸ hop)

/-! ## One test -/

/-- A test is right exactly when `head` has not moved since the snapshot and
is not `0`, where this matters. -/
theorem test_truthful_iff {m : Wait1} (hm : InRange m) {snap : Int}
    (hsnap : -1 ≤ snap ∧ snap + 1 < ringSize) :
    (snap = m.tail ↔ (m.tail + 1) % ringSize = m.head) ↔
      (snap = m.tail ∨ (m.tail + 1) % ringSize = m.head →
        m.head = snap + 1 ∧ m.head ≠ 0) := by
  obtain ⟨h₁, h₂, h₃, h₄⟩ := hm
  unfold ringSize at *
  constructor
  · rintro hright (hstays | hfull)
    · have hfull := hright.mp hstays
      omega
    · have hstays := hright.mpr hfull
      omega
  · intro hfresh
    constructor
    · intro hstays
      have := hfresh (Or.inl hstays)
      omega
    · intro hfull
      have := hfresh (Or.inr hfull)
      omega

/-- Only a guard test shows one. -/
theorem Move.tested {m m' : Wait1} {p p' : Proc} {ev : List Event}
    (h : Move m p m' p' ev) (hpc : p.pc ≠ .guard) :
    ∀ writer stays full, .tested writer stays full ∉ ev := by
  cases h with
  | guard hguard => exact absurd hguard hpc
  | _ => simp

/-- A test of a writer keeps the law exactly when it is right. -/
theorem truthful_append_iff {s : State} {tr : List Event}
    (h : GuardsTruthful s tr) {p : Proc} (hop : p.op.isWrite = true)
    (s' : State) (m : Wait1) :
    GuardsTruthful s'
        (tr ++ [.tested p.op.isWrite (p.snap = m.tail) (p.op.Blocked m)]) ↔
      (p.snap = m.tail ↔ (m.tail + 1) % ringSize = m.head) := by
  have hblocked : p.op.Blocked m ↔ (m.tail + 1) % ringSize = m.head := by
    cases hcase : p.op with
    | write buf => exact Iff.rfl
    | read fault => rw [hcase] at hop; cases hop
  rw [← hblocked]
  constructor
  · intro hafter
    have hnew := hafter (p.snap = m.tail) (p.op.Blocked m)
      (List.mem_append_right tr (by rw [hop]; simp))
    exact decide_eq_decide.mp hnew
  · intro hright stays full hmem
    rcases List.mem_append.mp hmem with hmem | hmem
    · exact h stays full hmem
    · obtain ⟨-, rfl, rfl⟩ := Event.tested.inj (List.mem_singleton.mp hmem)
      exact decide_eq_decide.mpr hright

/-- Events that show no test of a writer keep the law. -/
theorem GuardsTruthful.append {s s' : State} {tr ev : List Event}
    (h : GuardsTruthful s tr)
    (hev : ∀ stays full, .tested true stays full ∉ ev) :
    GuardsTruthful s' (tr ++ ev) := by
  intro stays full hmem
  rcases List.mem_append.mp hmem with hmem | hmem
  · exact h stays full hmem
  · exact absurd hmem (hev stays full)

theorem truthful_step_iff {s s' : State} {tr ev : List Event} {a : Act}
    (hreach : wait1.Reachable s) (h : GuardsTruthful s tr)
    (hstep : wait1.step s a = some (s', ev)) :
    GuardsTruthful s' (tr ++ ev) ↔ FreshGuard s a := by
  have hranges := ranges_of_reachable hreach
  cases step_cases hstep with
  | enter | signal => exact ⟨fun _ => trivial, fun _ => h.append (by simp)⟩
  | @wakeUp i p hp hpc =>
      refine ⟨fun _ q hq _ hguard => ?_, fun _ => h.append (by simp)⟩
      cases hp.symm.trans hq
      rw [hpc] at hguard
      cases hguard
  | @proc i p p' m' _ hp hpc hmove =>
      have hmem := List.mem_of_getElem? hp
      have hcond : FreshGuard s (.proc i) ↔
          (p.op.isWrite = true → p.pc = .guard →
            p.snap = s.mem.tail ∨ (s.mem.tail + 1) % ringSize = s.mem.head →
            s.mem.head = p.snap + 1 ∧ s.mem.head ≠ 0) := by
        constructor
        · exact fun hall => hall p hp
        · intro hone q hq
          cases hp.symm.trans hq
          exact hone
      rw [hcond]
      by_cases hguard : p.pc = .guard
      · cases hop : p.op.isWrite with
        | true =>
            -- the one step at which the two sides can fail
            cases hmove with
            | guard =>
                rw [truthful_append_iff h hop,
                  test_truthful_iff hranges.mem (hranges.snap p hmem hop)]
                exact ⟨fun hfresh _ _ => hfresh, fun hall => hall rfl hguard⟩
            | _ hother => rw [hguard] at hother; cases hother
        | false =>
            refine ⟨fun _ hwrite => absurd hwrite (by simp),
              fun _ => h.append ?_⟩
            cases hmove with
            | guard => simp [hop]
            | _ hother => rw [hguard] at hother; cases hother
      · refine ⟨fun _ _ hother => absurd hother hguard, fun _ => h.append ?_⟩
        exact hmove.tested hguard true

/-- At every point of a run all guards of writers were true exactly on a full
ring, if and only if each was evaluated with a snapshot that still told. -/
theorem guardsTruthful_iff_fresh (acts : List Act) :
    wait1.Always GuardsTruthful acts ↔ wait1.Meets FreshGuard acts := by
  refine wait1.always_iff_meets (fun _ _ hmem => by cases hmem) ?_ acts
  intro s tr a s' ev hreach hlaw hstep
  exact truthful_step_iff hreach hlaw hstep

/-- Two readers pass their guard on one byte and both remove it, so `head` is
at 2 and `tail` at 1.  A writer finds the ring full and sleeps; a third reader
removes a byte and wakes it. -/
def wokenWriter : List Act :=
  List.flatten [
    .enter (.write (some 65)) :: steps 0 6,
    [.enter (.read false), .enter (.read false)],
    steps 1 2, steps 2 2, steps 1 2, steps 2 2,
    .enter (.write (some 66)) :: steps 3 4,
    .enter (.read false) :: steps 4 6,
    steps 3 3]

/-- The woken writer finds room in the ring and stays in its loop. -/
theorem woken_writer_stays :
    ∃ s tr, wait1.run wokenWriter = some (s, tr) ∧ ¬ GuardsTruthful s tr := by
  have htrace : (wait1.run wokenWriter).map Prod.snd =
      some [.tested true false false, .returned 1,
        .tested false false false, .tested false false false,
        .tested true true true, .tested false false false, .returned 1,
        .tested true true false] := by
    decide +kernel
  obtain ⟨⟨s, tr⟩, hrun, rfl⟩ := Option.map_eq_some_iff.mp htrace
  refine ⟨s, _, hrun, fun hlaw => ?_⟩
  have hwrong : true = false := hlaw true false (by simp)
  cases hwrong

end Processes
end WaitQueue
end KernelDrivers
