import KernelDrivers.Lib.Pool
import KernelDrivers.Lib.System
import Mathlib.Data.UInt

/-!
# The completion thread of `comp1.c`

One thread waits on a completion.  `test_read` and `test_driver_exit` store
into `completion_flag` what they are and complete it; the thread reads the flag
after each wake-up, and clears it after a read event.  An open file holds a
reference to the module, so `test_driver_exit` begins when every `test_read` is
over.

The thread clears the flag without a look at it, so an exit that stores its `2`
while the thread is busy with a read event is wiped out.  This is the only way
to lose it.
-/

namespace KernelDrivers
namespace Completion

open Lib

/-! ## `struct completion` -/

/-- `UINT_MAX`, at which the count of a completion stays. -/
def uintMax : Nat := 2 ^ 32 - 1

/-- `complete`. -/
def complete (done : Nat) : Nat := if done = uintMax then done else done + 1

/-- What `wait_for_completion` leaves; it returns only for `done ≠ 0`. -/
def take (done : Nat) : Nat := if done = uintMax then done else done - 1

/-- `completion_done`. -/
def completionDone (done : Nat) : Bool := done != 0

theorem complete_pos (done : Nat) : 0 < complete done := by
  unfold complete uintMax
  split_ifs with hmax <;> omega

/-! ## The module -/

/-- The next statement of `wait_function`. -/
inductive ThreadPc where
  /-- In `wait_for_completion`. -/
  | waiting
  /-- `completion_flag == 2`. -/
  | testing
  /-- `++read_count`. -/
  | counting
  /-- `completion_flag = 0`. -/
  | resetting
  | terminated
  deriving DecidableEq

/-- The next statement of `test_read` or `test_driver_exit`. -/
inductive SenderPc where
  | setFlag
  /-- `completion_done`. -/
  | check
  | complete
  /-- The wake-up is given, or was already pending. -/
  | issued
  deriving DecidableEq

structure Comp1 where
  readCount : UInt32
  completionFlag : Int
  /-- The count of `data_read_done`. -/
  done : Nat
  waitThread : ThreadPc
  readers : List SenderPc
  /-- `none` before `test_driver_exit`. -/
  exit : Option SenderPc

inductive Event where
  /-- "Event Came From Read Function". -/
  | readEvent (count : UInt32)
  /-- "Event Came From Exit Function". -/
  | exitEvent
  | exitIssued
  deriving DecidableEq

inductive Act where
  | enterRead
  | read (i : Nat)
  | enterExit
  | exit
  | thread
  deriving DecidableEq

/-- The check-then-complete that both senders share. -/
def send (flag : Int) (s : Comp1) : SenderPc → Option (Comp1 × SenderPc)
  | .setFlag => some ({ s with completionFlag := flag }, .check)
  | .check => some (s, if completionDone s.done then .issued else .complete)
  | .complete => some ({ s with done := complete s.done }, .issued)
  | .issued => none

def testRead (s : Comp1) (pc : SenderPc) : Option (Comp1 × SenderPc) :=
  send 1 s pc

def testDriverExit (s : Comp1) (pc : SenderPc) : Option (Comp1 × SenderPc) :=
  send 2 s pc

def waitFunction (s : Comp1) : Option (Comp1 × List Event) :=
  match s.waitThread with
  | .waiting =>
      if s.done = 0 then none
      else some ({ s with done := take s.done, waitThread := .testing }, [])
  | .testing =>
      if s.completionFlag = 2 then
        some ({ s with waitThread := .terminated }, [.exitEvent])
      else some ({ s with waitThread := .counting }, [])
  | .counting =>
      let count := s.readCount + 1
      some ({ s with readCount := count, waitThread := .resetting },
        [.readEvent count])
  | .resetting =>
      some ({ s with completionFlag := 0, waitThread := .waiting }, [])
  | .terminated => none

def Comp1.step (s : Comp1) : Act → Option (Comp1 × List Event)
  | .enterRead =>
      if s.exit = none then
        some ({ s with readers := s.readers ++ [.setFlag] }, [])
      else none
  | .read i =>
      match s.readers[i]? with
      | none => none
      | some pc => (testRead s pc).map fun (s', pc') =>
          ({ s' with readers := s'.readers.set i pc' }, [])
  | .enterExit =>
      if s.exit = none ∧ ∀ pc ∈ s.readers, pc = .issued then
        some ({ s with exit := some .setFlag }, [])
      else none
  | .exit =>
      match s.exit with
      | none => none
      | some pc => (testDriverExit s pc).map fun (s', pc') =>
          ({ s' with exit := some pc' },
            if pc' = .issued then [.exitIssued] else [])
  | .thread => waitFunction s

/-- The module after `test_driver_init`. -/
def Comp1.initial : Comp1 := ⟨0, 0, 0, .waiting, [], none⟩

def comp1 : System Comp1 Act Event where
  init := Comp1.initial
  step := Comp1.step

/-! ## What one step can do -/

inductive Step (s : Comp1) : Act → Comp1 → List Event → Prop
  | enterRead : s.exit = none →
      Step s .enterRead { s with readers := s.readers ++ [.setFlag] } []
  | read {i : Nat} {pc pc' : SenderPc} {s' : Comp1} :
      s.readers[i]? = some pc → send 1 s pc = some (s', pc') →
      Step s (.read i) { s' with readers := s'.readers.set i pc' } []
  | enterExit : s.exit = none → (∀ pc ∈ s.readers, pc = .issued) →
      Step s .enterExit { s with exit := some .setFlag } []
  | exitFlag : s.exit = some .setFlag →
      Step s .exit { s with completionFlag := 2, exit := some .check } []
  | exitSkip : s.exit = some .check → 0 < s.done →
      Step s .exit { s with exit := some .issued } [.exitIssued]
  | exitCheck : s.exit = some .check → s.done = 0 →
      Step s .exit { s with exit := some .complete } []
  | exitComplete : s.exit = some .complete →
      Step s .exit { s with done := complete s.done, exit := some .issued }
        [.exitIssued]
  | wake : s.waitThread = .waiting → 0 < s.done →
      Step s .thread { s with done := take s.done, waitThread := .testing } []
  | terminate : s.waitThread = .testing → s.completionFlag = 2 →
      Step s .thread { s with waitThread := .terminated } [.exitEvent]
  | readEvent : s.waitThread = .testing → s.completionFlag ≠ 2 →
      Step s .thread { s with waitThread := .counting } []
  | count : s.waitThread = .counting →
      Step s .thread
        { s with readCount := s.readCount + 1, waitThread := .resetting }
        [.readEvent (s.readCount + 1)]
  | reset : s.waitThread = .resetting →
      Step s .thread { s with completionFlag := 0, waitThread := .waiting } []

variable {s s' : Comp1} {a : Act} {tr ev : List Event}

theorem waitFunction_cases (h : waitFunction s = some (s', ev)) :
    Step s .thread s' ev := by
  unfold waitFunction at h
  cases hpc : s.waitThread with
  | waiting =>
      simp only [hpc] at h
      split_ifs at h with hdone
      cases h
      exact .wake hpc (Nat.pos_of_ne_zero hdone)
  | testing =>
      simp only [hpc] at h
      split_ifs at h with hflag
      · cases h
        exact .terminate hpc hflag
      · cases h
        exact .readEvent hpc hflag
  | counting =>
      simp only [hpc] at h
      cases h
      exact .count hpc
  | resetting =>
      simp only [hpc] at h
      cases h
      exact .reset hpc
  | terminated =>
      simp only [hpc] at h
      cases h

theorem exit_cases (h : comp1.step s .exit = some (s', ev)) :
    Step s .exit s' ev := by
  change s.step .exit = some (s', ev) at h
  unfold Comp1.step at h
  cases hexit : s.exit with
  | none =>
      simp only [hexit] at h
      cases h
  | some pc =>
      cases pc with
      | setFlag =>
          simp only [hexit] at h
          cases h
          exact .exitFlag hexit
      | check =>
          simp only [hexit, testDriverExit, send, completionDone] at h
          by_cases hdone : s.done = 0
          · simp only [hdone] at h
            cases h
            exact .exitCheck hexit hdone
          · simp only [bne_iff_ne.mpr hdone] at h
            cases h
            exact .exitSkip hexit (Nat.pos_of_ne_zero hdone)
      | complete =>
          simp only [hexit] at h
          cases h
          exact .exitComplete hexit
      | issued =>
          simp only [hexit] at h
          cases h

theorem step_cases (h : comp1.step s a = some (s', ev)) : Step s a s' ev := by
  cases a with
  | enterRead =>
      simp only [comp1, Comp1.step] at h
      split_ifs at h with hexit
      cases h
      exact .enterRead hexit
  | read i =>
      simp only [comp1, Comp1.step] at h
      cases hpc : s.readers[i]? with
      | none =>
          simp only [hpc] at h
          cases h
      | some pc =>
          simp only [hpc] at h
          obtain ⟨⟨t, pc'⟩, hsend, heq⟩ := Option.map_eq_some_iff.mp h
          cases heq
          exact .read hpc hsend
  | enterExit =>
      simp only [comp1, Comp1.step] at h
      split_ifs at h with hguard
      cases h
      exact .enterExit hguard.1 hguard.2
  | exit => exact exit_cases h
  | thread => exact waitFunction_cases h

/-! ## Shutdown -/

/-- An event is not a read event that comes after the wake-up of
`test_driver_exit`. -/
def NoReadEvent (before : List Event) (e : Event) : Prop :=
  ∀ count, e = .readEvent count → .exitIssued ∉ before

/-- After the wake-up of `test_driver_exit` the thread is gone, or is up to
see the flag `2` on a completion; and no wake-up is taken for a read event
again. -/
structure ShutDown (s : Comp1) (tr : List Event) : Prop where
  thread : s.exit = some .issued → s.waitThread = .terminated ∨
    s.completionFlag = 2 ∧
      (s.waitThread = .testing ∨ s.waitThread = .waiting ∧ 0 < s.done)
  noReadEvent : History NoReadEvent tr

/-- `test_driver_exit` stores its `2` while the thread is not between its test
of the flag and its reset of the flag. -/
def ThreadClear (s : Comp1) : Act → Prop
  | .exit => s.exit = some .setFlag →
      s.waitThread ≠ .counting ∧ s.waitThread ≠ .resetting
  | _ => True

instance (s : Comp1) (a : Act) : Decidable (ThreadClear s a) := by
  cases a <;> unfold ThreadClear <;> infer_instance

/-- What holds while the `2` is not wiped out. -/
structure Kept (s : Comp1) : Prop where
  readsOver : s.exit ≠ none → ∀ pc ∈ s.readers, pc = .issued
  thread : ∀ pc, s.exit = some pc → pc ≠ .setFlag → s.completionFlag = 2 ∧
    s.waitThread ≠ .counting ∧ s.waitThread ≠ .resetting
  pending : s.exit = some .issued → s.waitThread = .waiting → 0 < s.done

theorem Kept.of_no_exit (hexit : s.exit = none) : Kept s where
  readsOver := fun hsome => absurd hexit hsome
  thread := fun pc hpc => by rw [hexit] at hpc; cases hpc
  pending := fun hpc => by rw [hexit] at hpc; cases hpc

/-- What a sender leaves alone. -/
theorem send_frame {flag : Int} {pc pc' : SenderPc}
    (h : send flag s pc = some (s', pc')) :
    s'.exit = s.exit ∧ s'.waitThread = s.waitThread ∧
      (s'.completionFlag = s.completionFlag ∨ s'.completionFlag = flag) := by
  cases pc with
  | setFlag => cases h; exact ⟨rfl, rfl, Or.inr rfl⟩
  | check | complete => cases h; exact ⟨rfl, rfl, Or.inl rfl⟩
  | issued => cases h

theorem Kept.step (h : Kept s) (hstep : Step s a s' ev)
    (hok : ThreadClear s a) : Kept s' := by
  cases hstep with
  | enterRead hnone => exact .of_no_exit hnone
  | @read i pc pc' t hpc hsend =>
      apply Kept.of_no_exit
      show t.exit = none
      rw [(send_frame hsend).1]
      by_contra hsome
      -- once the exit has begun no reader has a step left
      cases h.readsOver hsome pc (List.mem_of_getElem? hpc)
      cases hsend
  | enterExit hnone hover =>
      exact ⟨fun _ => hover, fun pc hpc hne => absurd (by cases hpc; rfl) hne,
        fun hpc => by cases hpc⟩
  | exitFlag hpc =>
      refine ⟨fun _ => h.readsOver (by simp [hpc]), fun _ _ _ => ?_,
        fun hissued => by cases hissued⟩
      exact ⟨rfl, hok hpc⟩
  | exitSkip hpc hdone =>
      refine ⟨fun _ => h.readsOver (by simp [hpc]), fun _ _ _ => ?_,
        fun _ _ => hdone⟩
      exact h.thread .check hpc (by decide)
  | exitCheck hpc hdone =>
      refine ⟨fun _ => h.readsOver (by simp [hpc]), fun _ _ _ => ?_,
        fun hissued => by cases hissued⟩
      exact h.thread .check hpc (by decide)
  | exitComplete hpc =>
      refine ⟨fun _ => h.readsOver (by simp [hpc]), fun _ _ _ => ?_,
        fun _ _ => complete_pos s.done⟩
      exact h.thread .complete hpc (by decide)
  | wake hthread hdone =>
      refine ⟨h.readsOver, fun pc hpc hne => ?_, fun _ hwait => by cases hwait⟩
      exact ⟨(h.thread pc hpc hne).1, by simp, by simp⟩
  | terminate hthread hflag =>
      exact ⟨h.readsOver, fun _ _ _ => ⟨hflag, by simp, by simp⟩,
        fun _ hwait => by cases hwait⟩
  | readEvent hthread hflag =>
      refine ⟨h.readsOver, fun pc hpc hne => ?_, fun _ hwait => by cases hwait⟩
      exact absurd (h.thread pc hpc hne).1 hflag
  | count hthread =>
      refine ⟨h.readsOver, fun pc hpc hne => ?_, fun _ hwait => by cases hwait⟩
      exact absurd hthread (h.thread pc hpc hne).2.1
  | reset hthread =>
      refine ⟨h.readsOver, fun pc hpc hne => ?_, fun hpc => ?_⟩
      · exact absurd hthread (h.thread pc hpc hne).2.2
      · exact absurd hthread (h.thread .issued hpc (by decide)).2.2

/-- The wake-up of the exit is given once, at its last step. -/
theorem issued_step (h : .exitIssued ∈ tr → s.exit = some .issued)
    (hstep : Step s a s' ev) :
    .exitIssued ∈ tr ++ ev → s'.exit = some .issued := by
  intro hmem
  rcases List.mem_append.mp hmem with hmem | hmem
  · have hissued := h hmem
    cases hstep with
    | enterRead hnone | enterExit hnone => rw [hissued] at hnone; cases hnone
    | exitFlag hpc | exitCheck hpc => rw [hissued] at hpc; cases hpc
    | exitSkip | exitComplete => rfl
    | read hpc hsend => exact (send_frame hsend).1.trans hissued
    | _ => exact hissued
  · cases hstep with
    | exitSkip | exitComplete => rfl
    | _ => simp at hmem

/-- While the `2` is kept, no read event is shown after the exit. -/
theorem Kept.noReadEvent_step (h : Kept s)
    (hissued : .exitIssued ∈ tr → s.exit = some .issued)
    (hhistory : History NoReadEvent tr)
    (hstep : Step s a s' ev) :
    History NoReadEvent (tr ++ ev) := by
  cases hstep with
  | count hthread =>
      rw [history_concat]
      refine ⟨hhistory, fun _ _ hmem => ?_⟩
      exact (h.thread .issued (hissued hmem) (by decide)).2.1 hthread
  | _ => exact hhistory.append (by simp [NoReadEvent])

/-- If the `2` is never stored over a read event, the shutdown law holds at
every point of the run. -/
theorem always_shutDown {acts : List Act}
    (hmeets : comp1.Meets ThreadClear acts) : comp1.Always ShutDown acts := by
  have hkept : comp1.Always (fun s tr => Kept s ∧
      (.exitIssued ∈ tr → s.exit = some .issued) ∧
      History NoReadEvent tr) acts := by
    refine hmeets.always ?_ ?_
    · exact ⟨.of_no_exit rfl, by simp, history_nil⟩
    · rintro s tr a s' ev - ⟨hkept, hissued, hhistory⟩ hstep hok
      have hcase := step_cases hstep
      exact ⟨hkept.step hcase hok, issued_step hissued hcase,
        hkept.noReadEvent_step hissued hhistory hcase⟩
  intro before s tr hpre hrun
  obtain ⟨h, -, hhistory⟩ := hkept before s tr hpre hrun
  refine ⟨fun hissued => ?_, hhistory⟩
  obtain ⟨hflag, hcount, hreset⟩ := h.thread .issued hissued (by decide)
  cases hthread : s.waitThread with
  | waiting => exact Or.inr ⟨hflag, Or.inr ⟨rfl, h.pending hissued hthread⟩⟩
  | testing => exact Or.inr ⟨hflag, Or.inl rfl⟩
  | counting => exact absurd hthread hcount
  | resetting => exact absurd hthread hreset
  | terminated => exact Or.inl rfl

/-- Under the law the thread is at most two steps from its end. -/
theorem ShutDown.terminates (h : ShutDown s tr) (hissued : s.exit = some .issued) :
    ∃ n ≤ 2, ∃ s' tr',
      (List.replicate n .thread).foldlM comp1.advance (s, tr) =
        some (s', tr') ∧ s'.waitThread = .terminated := by
  have test (t : Comp1) (ev : List Event) (hthread : t.waitThread = .testing)
      (hflag : t.completionFlag = 2) :
      comp1.advance (t, ev) .thread =
        some ({ t with waitThread := .terminated }, ev ++ [.exitEvent]) := by
    simp [System.advance, comp1, Comp1.step, waitFunction, hthread, hflag]
  rcases h.thread hissued with hdone | ⟨hflag, htesting | ⟨hwaiting, hpos⟩⟩
  · exact ⟨0, by omega, s, tr, rfl, hdone⟩
  · refine ⟨1, by omega, { s with waitThread := .terminated },
      tr ++ [.exitEvent], ?_, rfl⟩
    show (comp1.advance (s, tr) .thread).bind some = _
    rw [test s tr htesting hflag]
    rfl
  · let woken : Comp1 := { s with done := take s.done, waitThread := .testing }
    have wake : comp1.advance (s, tr) .thread = some (woken, tr) := by
      simp [System.advance, comp1, Comp1.step, waitFunction, hwaiting,
        Nat.ne_of_gt hpos, woken]
    refine ⟨2, le_refl 2, { woken with waitThread := .terminated },
      tr ++ [.exitEvent], ?_, rfl⟩
    show (comp1.advance (s, tr) .thread).bind
      (fun next => (comp1.advance next .thread).bind some) = _
    rw [wake, Option.bind_some, test woken tr rfl hflag]
    rfl

/-! ## The exit that is wiped out -/

/-- The `2` is stored and the thread will not see it. -/
structure Lost (s : Comp1) : Prop where
  begun : s.exit ≠ none ∧ s.exit ≠ some .setFlag
  running : s.waitThread ≠ .terminated
  unseen : s.waitThread = .counting ∨ s.waitThread = .resetting ∨
    s.completionFlag ≠ 2

/-- A lost exit stays lost: nobody stores a `2` again. -/
theorem Lost.step (h : Lost s) (hstep : Step s a s' ev) : Lost s' := by
  obtain ⟨hbegun, hrunning, hunseen⟩ := h
  cases hstep with
  | enterRead hnone | enterExit hnone => exact absurd hnone hbegun.1
  | exitFlag hpc => exact absurd hpc hbegun.2
  | @read i pc pc' t hpc hsend =>
      obtain ⟨hexit, hthread, hflag⟩ := send_frame hsend
      refine ⟨by rwa [← hexit] at hbegun, by rwa [← hthread] at hrunning, ?_⟩
      show t.waitThread = .counting ∨ t.waitThread = .resetting ∨
        t.completionFlag ≠ 2
      rw [hthread]
      rcases hflag with hflag | hflag
      · rwa [hflag]
      · exact Or.inr (Or.inr (by rw [hflag]; decide))
  | exitSkip | exitCheck | exitComplete =>
      exact ⟨⟨by simp, by simp⟩, hrunning, hunseen⟩
  | wake hthread =>
      refine ⟨hbegun, by simp, Or.inr (Or.inr ?_)⟩
      simpa [hthread] using hunseen
  | terminate hthread hflag =>
      exact absurd hflag (by simpa [hthread] using hunseen)
  | readEvent => exact ⟨hbegun, by simp, Or.inl rfl⟩
  | count => exact ⟨hbegun, by simp, Or.inr (Or.inl rfl)⟩
  | reset => exact ⟨hbegun, by simp, Or.inr (Or.inr (by simp))⟩

theorem Lost.not_shutDown (h : Lost s) (hissued : s.exit = some .issued) :
    ¬ ShutDown s tr := by
  intro hlaw
  rcases hlaw.thread hissued with hdone | ⟨hflag, hthread⟩
  · exact h.running hdone
  · rcases h.unseen with hcount | hreset | hother
    · simp [hcount] at hthread
    · simp [hreset] at hthread
    · exact hother hflag

/-- The shutdown law holds at every point of a run in which the exit never
stores its `2` over a read event; and in a run in which the exit has issued its
wake-up, only then. -/
theorem shutDown_iff_clear (acts : List Act) :
    (comp1.Meets ThreadClear acts → comp1.Always ShutDown acts) ∧
      ∀ s tr, comp1.run acts = some (s, tr) → s.exit = some .issued →
        (comp1.Always ShutDown acts ↔ comp1.Meets ThreadClear acts) := by
  refine ⟨always_shutDown, fun s tr hrun hissued => ?_⟩
  refine ⟨fun halways => ?_, always_shutDown⟩
  intro before a t trb hpre hbefore henabled
  by_contra hbad
  obtain ⟨⟨t', ev⟩, hstep⟩ := Option.isSome_iff_exists.mp henabled
  have hlost : Lost t' := by
    cases step_cases hstep with
    | exitFlag hpc =>
        have hbusy : t.waitThread = .counting ∨ t.waitThread = .resetting := by
          by_contra hclear
          push Not at hclear
          exact hbad fun _ => hclear
        refine ⟨⟨by simp, by simp⟩, fun hdone => ?_, ?_⟩
        · rcases hbusy with hbusy | hbusy <;> rw [hbusy] at hdone <;> cases hdone
        · exact hbusy.elim Or.inl fun hreset => Or.inr (Or.inl hreset)
    | exitSkip hpc | exitCheck hpc | exitComplete hpc =>
        exact absurd (fun hset => by rw [hpc] at hset; cases hset) hbad
    | _ => exact absurd trivial hbad
  have hend : Lost s := comp1.run_persists (P := fun s _ => Lost s)
    (comp1.run_concat_of_step hbefore hstep) hlost hpre
    (fun _ _ _ _ _ h hs => h.step (step_cases hs)) hrun
  exact hend.not_shutDown hissued (halways acts s tr List.prefix_rfl hrun)

/-- One read whose event is over before the module goes. -/
def readThenExit : List Act :=
  List.flatten [
    [.enterRead], List.replicate 3 (.read 0), List.replicate 4 .thread,
    [.enterExit], List.replicate 3 .exit, List.replicate 2 .thread]

theorem shutDown_readThenExit :
    comp1.Always ShutDown readThenExit ∧
      (comp1.Always ShutDown readThenExit ↔
        comp1.Meets ThreadClear readThenExit) :=
  ⟨(shutDown_iff_clear readThenExit).1 (System.meets_of_check (by decide)),
    (shutDown_iff_clear readThenExit).2 _ _ rfl rfl⟩

/-- The exit runs while the thread is between its test and its reset of the
flag on account of a read. -/
def exitDuringReadEvent : List Act :=
  List.flatten [
    [.enterRead], List.replicate 3 (.read 0), List.replicate 2 .thread,
    [.enterExit], List.replicate 3 .exit, List.replicate 6 .thread]

/-- The wake-up of the exit is taken for a read event, and the thread waits
again with nothing pending. -/
theorem exit_taken_for_read :
    ∃ s tr, comp1.run exitDuringReadEvent = some (s, tr) ∧
      ¬ ShutDown s tr ∧ comp1.step s .thread = none ∧
      tr = [.exitIssued, .readEvent 1, .readEvent 2] := by
  refine ⟨_, _, rfl, fun hlaw => ?_, rfl, rfl⟩
  rcases hlaw.thread rfl with hdone | ⟨hflag, -⟩
  · cases hdone
  · cases hflag

end Completion
end KernelDrivers
