import KernelDrivers.Lib.Pool
import KernelDrivers.Lib.System
import Mathlib.Tactic.SplitIfs

/-!
# The polling timer of `test_serial.c`

`test_startup` arms the one timer of the driver, whose handler `test_timer`
arms it again, and `test_shutdown` removes it with `del_timer`, which does not
wait for a handler.  A handler that is still on its way to `add_timer` then is
marked as stale.

The timer is allocated by the first `test_startup` and never freed.
`timer_setup` does not take a pending timer off its queue.
-/

namespace KernelDrivers
namespace UartDriver

open Lib

/-- The next statement of `test_startup` or `test_shutdown`. -/
inductive PortPc where
  | closed
  | kmalloc
  | timerSetup
  | addTimer
  | opened
  /-- `test_shutdown` has removed the timer and returns. -/
  | shutDown
  deriving DecidableEq

/-- The next statement of `test_timer`. -/
inductive HandlerPc where
  /-- The tests of `port`, its state and its tty. -/
  | tests
  | push
  | addTimer
  | transmit
  deriving DecidableEq

structure Handler where
  pc : HandlerPc
  /-- A `del_timer` came while it ran. -/
  stale : Bool
  deriving DecidableEq

structure Uart where
  port : PortPc
  allocated : Bool
  pending : Bool
  handlers : List Handler
  deriving DecidableEq

inductive Event where
  /-- `add_timer`, whether the timer was pending, and whether the port was
  closed. -/
  | added (pending closed : Bool)
  | deleted (pending : Bool)
  deriving DecidableEq

inductive Act where
  /-- The next statement of the port's functions; `granted` is what `kmalloc`
  does. -/
  | port (granted : Bool)
  | expire
  /-- The next statement of a handler; `passed` is how its tests come out. -/
  | handler (i : Nat) (passed : Bool)
  deriving DecidableEq

/-- `test_startup` and `test_shutdown`, one statement. -/
def portStep (s : Uart) (granted : Bool) : Uart × List Event :=
  match s.port with
  | .closed => ({ s with port := .kmalloc }, [])
  | .kmalloc =>
      if s.allocated ∨ granted then
        ({ s with allocated := true, port := .timerSetup }, [])
      else ({ s with port := .closed }, [])
  | .timerSetup => ({ s with port := .addTimer }, [])
  | .addTimer =>
      ({ s with pending := true, port := .opened }, [.added s.pending false])
  | .opened =>
      ({ s with
          pending := false
          handlers := s.handlers.map fun h => { h with stale := true }
          port := .shutDown },
        [.deleted s.pending])
  | .shutDown => ({ s with port := .closed }, [])

/-- `test_timer`, one statement of the handler `h` at `i`. -/
def testTimer (s : Uart) (i : Nat) (h : Handler) (passed : Bool) :
    Uart × List Event :=
  match h.pc with
  | .tests =>
      if passed then
        ({ s with handlers := s.handlers.set i { h with pc := .push } }, [])
      else ({ s with handlers := s.handlers.eraseIdx i }, [])
  | .push =>
      ({ s with handlers := s.handlers.set i { h with pc := .addTimer } }, [])
  | .addTimer =>
      ({ s with
          pending := true
          handlers := s.handlers.set i { h with pc := .transmit } },
        [.added s.pending (s.port = .closed)])
  | .transmit => ({ s with handlers := s.handlers.eraseIdx i }, [])

def step (s : Uart) : Act → Option (Uart × List Event)
  | .port granted => some (portStep s granted)
  | .expire =>
      if s.pending then
        some ({ s with pending := false, handlers := s.handlers ++ [⟨.tests, false⟩] },
          [])
      else none
  | .handler i passed =>
      match s.handlers[i]? with
      | none => none
      | some h => some (testTimer s i h passed)

def driver : System Uart Act Event where
  init := { port := .closed, allocated := false, pending := false, handlers := [] }
  step := step

/-- The timer is added only when it is not pending and the port is not closed,
and while the port is closed it is not pending. -/
structure Quiet (s : Uart) (tr : List Event) : Prop where
  added : ∀ pending closed, .added pending closed ∈ tr →
    pending = false ∧ closed = false
  closed : s.port = .closed → s.pending = false

/-- No stale handler arms the timer. -/
def InTime (s : Uart) : Act → Prop
  | .handler i _ => ∀ h ∈ s.handlers[i]?, h.pc = .addTimer → h.stale = false
  | _ => True

/-- A handler that may still arm the timer. -/
def Handler.willArm (h : Handler) : Bool :=
  !h.stale && h.pc ≠ .transmit

/-- The timer is armed once, or is about to be, and only while the port is
open. -/
def Armed (s : Uart) : Prop :=
  s.pending.toNat + s.handlers.countP Handler.willArm ≤
    (decide (s.port = .opened)).toNat

variable {s s' : Uart} {a : Act} {ev tr : List Event} {i : Nat} {h : Handler}
  {granted passed : Bool}

theorem Armed.quiet (harmed : Armed s) (hport : s.port ≠ .opened) :
    s.pending = false ∧ s.handlers.countP Handler.willArm = 0 := by
  unfold Armed at harmed
  simp only [hport, decide_false, Bool.toNat_false, Nat.le_zero,
    Nat.add_eq_zero_iff] at harmed
  exact ⟨by simpa using harmed.1, harmed.2⟩

theorem armed_of_quiet (hpending : s.pending = false)
    (hnone : s.handlers.countP Handler.willArm = 0) : Armed s := by
  simp [Armed, hpending, hnone]

/-- After a `del_timer` no handler may arm the timer. -/
theorem countP_stale (handlers : List Handler) :
    (handlers.map fun h => { h with stale := true }).countP Handler.willArm =
      0 := by
  rw [List.countP_eq_zero]
  intro h hmem
  obtain ⟨h, -, rfl⟩ := List.mem_map.mp hmem
  simp [Handler.willArm]

/-! ## One statement -/

theorem armed_port (harmed : Armed s) (granted : Bool) :
    Armed (portStep s granted).1 := by
  unfold portStep
  cases hport : s.port with
  | closed =>
      obtain ⟨hpending, hnone⟩ := harmed.quiet (by simp [hport])
      exact armed_of_quiet hpending hnone
  | kmalloc =>
      obtain ⟨hpending, hnone⟩ := harmed.quiet (by simp [hport])
      dsimp only
      split_ifs
      · exact armed_of_quiet hpending hnone
      · exact armed_of_quiet hpending hnone
  | timerSetup =>
      obtain ⟨hpending, hnone⟩ := harmed.quiet (by simp [hport])
      exact armed_of_quiet hpending hnone
  | addTimer =>
      obtain ⟨-, hnone⟩ := harmed.quiet (by simp [hport])
      simp [Armed, hnone]
  | opened => exact armed_of_quiet rfl (countP_stale s.handlers)
  | shutDown =>
      obtain ⟨hpending, hnone⟩ := harmed.quiet (by simp [hport])
      exact armed_of_quiet hpending hnone

/-- An expiry hands the arming over to a new handler. -/
theorem armed_expire (harmed : Armed s) (hpending : s.pending = true) :
    Armed { s with pending := false, handlers := s.handlers ++ [⟨.tests, false⟩] } := by
  unfold Armed at harmed ⊢
  rw [Pool.countP_concat]
  simpa [hpending, Handler.willArm, Nat.add_comm] using harmed

/-- A step after which the handler may not arm the timer unless it might have
before. -/
theorem countP_set_le (hi : s.handlers[i]? = some h) {h' : Handler}
    (hle : h'.willArm.toNat ≤ h.willArm.toNat) :
    (s.handlers.set i h').countP Handler.willArm ≤
      s.handlers.countP Handler.willArm := by
  have hcount := Pool.countP_set Handler.willArm h' hi
  omega

theorem countP_eraseIdx_le (hi : s.handlers[i]? = some h) :
    (s.handlers.eraseIdx i).countP Handler.willArm ≤
      s.handlers.countP Handler.willArm := by
  have hcount := Pool.countP_eraseIdx Handler.willArm hi
  omega

/-- A handler that is still to arm the timer finds it off its queue and the
port open. -/
theorem Armed.of_willArm (harmed : Armed s) (hi : s.handlers[i]? = some h)
    (hwill : h.willArm = true) : s.pending = false ∧ s.port = .opened := by
  have hpos : 0 < s.handlers.countP Handler.willArm :=
    List.countP_pos_iff.mpr ⟨h, List.mem_of_getElem? hi, hwill⟩
  have hone := Bool.toNat_le (decide (s.port = .opened))
  unfold Armed at harmed
  refine ⟨?_, ?_⟩
  · cases hpending : s.pending with
    | false => rfl
    | true =>
        rw [hpending, Bool.toNat_true] at harmed
        omega
  · by_contra hport
    rw [decide_eq_false hport, Bool.toNat_false] at harmed
    omega

theorem Armed.of_le (harmed : Armed s) {handlers : List Handler}
    (hle : handlers.countP Handler.willArm ≤ s.handlers.countP Handler.willArm) :
    Armed { s with handlers := handlers } :=
  Nat.le_trans (Nat.add_le_add_left hle _) harmed

theorem armed_handler (harmed : Armed s) (hi : s.handlers[i]? = some h)
    (hfresh : h.pc = .addTimer → h.stale = false) (passed : Bool) :
    Armed (testTimer s i h passed).1 := by
  unfold testTimer
  cases hpc : h.pc with
  | tests =>
      cases passed with
      | true =>
          exact harmed.of_le (countP_set_le hi (by simp [Handler.willArm, hpc]))
      | false => exact harmed.of_le (countP_eraseIdx_le hi)
  | push =>
      exact harmed.of_le (countP_set_le hi (by simp [Handler.willArm, hpc]))
  | addTimer =>
      have hwill : h.willArm = true := by simp [Handler.willArm, hpc, hfresh hpc]
      obtain ⟨hpending, hport⟩ := harmed.of_willArm hi hwill
      have hcount := Pool.countP_set Handler.willArm { h with pc := .transmit } hi
      rw [hwill, show Handler.willArm { h with pc := .transmit } = false by
        simp [Handler.willArm]] at hcount
      unfold Armed at harmed ⊢
      simp only [hpending, Bool.toNat_false, Bool.toNat_true] at harmed hcount ⊢
      omega
  | transmit => exact harmed.of_le (countP_eraseIdx_le hi)

theorem armed_step (harmed : Armed s) (hstep : step s a = some (s', ev))
    (hok : InTime s a) : Armed s' := by
  cases a with
  | port granted =>
      have heq : portStep s granted = (s', ev) := Option.some.inj hstep
      simpa [heq] using armed_port harmed granted
  | expire =>
      simp only [step] at hstep
      split_ifs at hstep with hpending
      cases hstep
      exact armed_expire harmed hpending
  | handler i passed =>
      cases hi : s.handlers[i]? with
      | none => simp [step, hi] at hstep
      | some h =>
          simp only [step, hi] at hstep
          have heq : testTimer s i h passed = (s', ev) := Option.some.inj hstep
          simpa [heq] using armed_handler harmed hi (hok h hi) passed

/-- What a step adds to the trace about `add_timer`. -/
theorem added_step {pending closed : Bool} (harmed : Armed s)
    (hstep : step s a = some (s', ev)) (hok : InTime s a)
    (hmem : .added pending closed ∈ ev) : pending = false ∧ closed = false := by
  cases a with
  | port granted =>
      have heq : ev = (portStep s granted).2 :=
        (congrArg Prod.snd (Option.some.inj hstep)).symm
      rw [heq] at hmem
      cases hport : s.port with
      | addTimer =>
          -- the port is being opened, and no timer runs
          simp only [portStep, hport, List.mem_singleton, Event.added.injEq] at hmem
          obtain ⟨rfl, rfl⟩ := hmem
          exact ⟨(harmed.quiet (by simp [hport])).1, rfl⟩
      | kmalloc =>
          simp only [portStep, hport] at hmem
          split_ifs at hmem <;> cases hmem
      | closed => simp [portStep, hport] at hmem
      | timerSetup => simp [portStep, hport] at hmem
      | opened => simp [portStep, hport] at hmem
      | shutDown => simp [portStep, hport] at hmem
  | expire =>
      simp only [step] at hstep
      split_ifs at hstep
      cases hstep
      cases hmem
  | handler i passed =>
      cases hi : s.handlers[i]? with
      | none => simp [step, hi] at hstep
      | some h =>
          simp only [step, hi] at hstep
          have heq : ev = (testTimer s i h passed).2 :=
            (congrArg Prod.snd (Option.some.inj hstep)).symm
          rw [heq] at hmem
          cases hpc : h.pc with
          | addTimer =>
              -- only a handler that passed its tests comes here
              have hwill : h.willArm = true := by
                simp [Handler.willArm, hpc, hok h hi hpc]
              obtain ⟨hpending, hport⟩ := harmed.of_willArm hi hwill
              simpa [testTimer, hpc, hpending, hport] using hmem
          | tests => cases passed <;> simp [testTimer, hpc] at hmem
          | push => simp [testTimer, hpc] at hmem
          | transmit => simp [testTimer, hpc] at hmem

/-! ## Runs -/

/-- The timer is quiet throughout every run in which no stale handler arms
it. -/
theorem quiet_of_inTime (acts : List Act) (hok : driver.Meets InTime acts) :
    driver.Always Quiet acts := by
  intro before s tr hpre hrun
  have hlaw := hok.run_induction
    (P := fun _ s tr => Armed s ∧ ∀ pending closed,
      .added pending closed ∈ tr → pending = false ∧ closed = false)
    ⟨armed_of_quiet rfl rfl, by simp⟩ ?_ before s tr hpre hrun
  · exact ⟨hlaw.2, fun hport => (hlaw.1.quiet (by simp [hport])).1⟩
  · rintro before s tr a s' ev - ⟨harmed, hadded⟩ hstep hin
    refine ⟨armed_step harmed hstep hin, fun pending closed hmem => ?_⟩
    rcases List.mem_append.mp hmem with hmem | hmem
    · exact hadded pending closed hmem
    · exact added_step harmed hstep hin hmem

/-- The port is opened, the timer expires, its handler runs to its end, and
the port is closed. -/
def handlerEnds : List Act :=
  [.port true, .port true, .port true, .port true, .expire, .handler 0 true,
    .handler 0 true, .handler 0 true, .handler 0 true, .port true, .port true]

/-- The same, with the port closed before the handler arms the timer. -/
def handlerLate : List Act :=
  [.port true, .port true, .port true, .port true, .expire, .handler 0 true,
    .handler 0 true, .port true, .port true, .handler 0 true]

instance (s : Uart) (a : Act) : Decidable (InTime s a) := by
  cases a <;> unfold InTime <;> infer_instance

theorem quiet_handlerEnds : driver.Meets InTime handlerEnds ∧
    driver.Always Quiet handlerEnds :=
  have hok := System.meets_of_check (by decide +kernel)
  ⟨hok, quiet_of_inTime handlerEnds hok⟩

theorem armed_while_closed : ¬ driver.Always Quiet handlerLate := by
  intro h
  have hlaw := h _ _ _ List.prefix_rfl rfl
  exact absurd (hlaw.closed rfl) (by decide)

end UartDriver
end KernelDrivers
