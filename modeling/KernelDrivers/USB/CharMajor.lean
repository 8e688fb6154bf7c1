import KernelDrivers.Errno
import KernelDrivers.Lib.Holdings
import KernelDrivers.Lib.System
import Mathlib.Data.UInt
import Mathlib.Tactic.SplitIfs

/-!
# The character major of `usbdrv1.c`

Every `dev_probe` that gets through its allocations registers the one major of
the driver and notes in the one flag `registered` how that went; every
`dev_disconnect` looks at the flag to see whether there is something to undo.
The flag says nothing about which interface it was set for.

The USB core probes an interface that is not bound, and binds it when
`dev_probe` returned 0.  `usb_deregister_dev` in `dev_disconnect` does nothing
for an interface without a minor, and none has one.
-/

namespace KernelDrivers
namespace USB
namespace CharMajor

open Lib

/-- `MAJOR`. -/
def major : Int := 92

/-- What `dev_probe` finds, and how its calls come out. -/
structure Probe where
  bNumEndpoints : UInt8
  /-- `usb_endpoint_is_int_in`. -/
  isIntIn : Bool
  kzalloc : Bool
  inputAllocateDevice : Bool
  usbAllocCoherent : Bool
  usbAllocUrb : Bool
  inputRegisterDevice : { error : Int // error ≤ 0 }
  /-- The error with which the kernel refuses the major, when it does. -/
  refused : Option { error : Int // error < 0 }

structure Driver where
  registered : Int
  /-- The driver holds the major. -/
  held : Bool
  /-- The interfaces whose probe returned 0. -/
  bound : List Nat

/-- The error with which `dev_probe` returns before it comes to the major. -/
def probeError (p : Probe) : Option Int :=
  if p.bNumEndpoints ≠ 1 then some (-ENODEV)
  else if ¬ p.isIntIn then some (-ENODEV)
  else if ¬ p.kzalloc ∨ ¬ p.inputAllocateDevice then some (-ENOMEM)
  else if ¬ p.usbAllocCoherent then some (-ENOMEM)
  else if ¬ p.usbAllocUrb then some (-ENOMEM)
  else if p.inputRegisterDevice.val ≠ 0 then some p.inputRegisterDevice.val
  else none

/-- `register_chrdev` of the driver's major, which is not 0. -/
def registerChrdev (s : Driver) (p : Probe) : Int :=
  if s.held then -EBUSY
  else
    match p.refused with
    | some error => error.val
    | none => 0

/-- `dev_probe`, what it registered and what it returns. -/
def devProbe (s : Driver) (p : Probe) : Driver × List (Entry Int) × Int :=
  match probeError p with
  | some error => (s, [], error)
  | none =>
      let t := registerChrdev s p
      if t < 0 then ({ s with registered := 0 }, [], t)
      else ({ s with registered := 1, held := true }, [.acquired major], t)

/-- `dev_disconnect`, and what it undid. -/
def devDisconnect (s : Driver) : Driver × List (Entry Int) :=
  if s.registered ≠ 0 then
    ({ s with registered := 0, held := false }, [.released major])
  else ({ s with registered := 0 }, [])

inductive Act where
  | probe (interface : Nat) (p : Probe)
  | disconnect (interface : Nat)

/-- The calls of the USB core. -/
def step (s : Driver) : Act → Option (Driver × List (Entry Int))
  | .probe interface p =>
      if interface ∈ s.bound then none
      else
        let result := devProbe s p
        some ({ result.1 with
          bound := if result.2.2 = 0 then interface :: s.bound else s.bound },
          result.2.1)
  | .disconnect interface =>
      if interface ∈ s.bound then
        let result := devDisconnect s
        some ({ result.1 with bound := s.bound.erase interface }, result.2)
      else none

def driver : System Driver Act (Entry Int) where
  init := { registered := 0, held := false, bound := [] }
  step := step

/-- The flag tells the truth, what is undone was registered, and when nothing
is bound everything is undone. -/
structure Bookkept (s : Driver) (tr : List (Entry Int)) : Prop where
  flag : s.registered = 1 ↔ s.held = true
  covered : Holdings.Covered [] tr
  last : s.bound = [] → s.held = false
  undone : s.held = false →
    tr.count (.released major) = tr.count (.acquired major)

/-- A probe that comes to the major finds it free. -/
def FindsFree (s : Driver) : Act → Prop
  | .probe _ p => probeError p = none → s.held = false
  | .disconnect _ => True

/-- The flag is a flag, and the trace leaves held what is held. -/
structure Recorded (s : Driver) (tr : List (Entry Int)) : Prop where
  flag : s.registered = 0 ∨ s.registered = 1
  settled : Holdings.settle [] tr = if s.held then [major] else []

variable {s s' : Driver} {tr ev : List (Entry Int)} {interface : Nat} {p : Probe}

/-! ## One call -/

theorem probeError_ne_zero {error : Int} (h : probeError p = some error) :
    error ≠ 0 := by
  simp only [probeError, ne_eq] at h
  split_ifs at h with hendpoints hint hstructs hdata hurb hinput <;> cases h
  · decide
  · exact hinput
  · decide
  · decide
  · decide
  · decide

theorem registerChrdev_of_held (hheld : s.held = true) :
    registerChrdev s p < 0 := by
  rw [registerChrdev, if_pos hheld]
  decide

theorem registerChrdev_of_free (hfree : s.held = false) :
    registerChrdev s p < 0 ∨ registerChrdev s p = 0 := by
  rw [registerChrdev, if_neg (by simp [hfree])]
  cases p.refused with
  | none => exact .inr rfl
  | some error => exact .inl error.property

/-- `dev_probe` returns early, is refused the major, or registers it. -/
theorem devProbe_cases (s : Driver) (p : Probe) :
    (probeError p ≠ none ∧ ∃ error ≠ 0, devProbe s p = (s, [], error)) ∨
    (probeError p = none ∧ ∃ t < 0,
      devProbe s p = ({ s with registered := 0 }, [], t)) ∨
    (probeError p = none ∧ s.held = false ∧ devProbe s p =
      ({ s with registered := 1, held := true }, [.acquired major], 0)) := by
  unfold devProbe
  cases hearly : probeError p with
  | some error =>
      exact .inl ⟨by simp, error, probeError_ne_zero hearly, rfl⟩
  | none =>
      cases hheld : s.held with
      | true =>
          have hneg : registerChrdev s p < 0 := registerChrdev_of_held hheld
          exact .inr (.inl ⟨rfl, _, hneg, if_pos hneg⟩)
      | false =>
          rcases registerChrdev_of_free (p := p) hheld with hneg | hzero
          · exact .inr (.inl ⟨rfl, _, hneg, if_pos hneg⟩)
          · exact .inr (.inr ⟨rfl, rfl, by simp [hzero]⟩)

/-- The interface is bound exactly when the major was registered. -/
theorem probe_cases (h : step s (.probe interface p) = some (s', ev)) :
    (probeError p ≠ none ∧ s' = s ∧ ev = []) ∨
    (probeError p = none ∧ s' = { s with registered := 0 } ∧ ev = []) ∨
    (probeError p = none ∧ s.held = false ∧ ev = [.acquired major] ∧
      s' = { registered := 1, held := true, bound := interface :: s.bound }) := by
  by_cases hbound : interface ∈ s.bound
  · simp [step, hbound] at h
  rw [step, if_neg hbound] at h
  rcases devProbe_cases s p with ⟨hearly, error, hne, hresult⟩ |
      ⟨hcame, t, hneg, hresult⟩ | ⟨hcame, hfree, hresult⟩
  · simp only [hresult, hne, if_false] at h
    cases h
    exact .inl ⟨hearly, rfl, rfl⟩
  · simp only [hresult, hneg.ne, if_false] at h
    cases h
    exact .inr (.inl ⟨hcame, rfl, rfl⟩)
  · simp only [hresult, if_true] at h
    cases h
    exact .inr (.inr ⟨hcame, hfree, rfl, rfl⟩)

/-- A disconnect undoes the registration that the flag is set for. -/
theorem disconnect_cases
    (h : step s (.disconnect interface) = some (s', ev)) :
    (s.registered ≠ 0 ∧ ev = [.released major] ∧
      s' = { registered := 0, held := false,
             bound := s.bound.erase interface }) ∨
    (s.registered = 0 ∧ ev = [] ∧
      s' = { registered := 0, held := s.held,
             bound := s.bound.erase interface }) := by
  simp only [step] at h
  split_ifs at h with hbound
  by_cases hflag : s.registered = 0
  · simp only [devDisconnect, hflag, ne_eq, not_true_eq_false, if_false] at h
    cases h
    exact .inr ⟨hflag, rfl, rfl⟩
  · simp only [devDisconnect, hflag, ne_eq, not_false_eq_true, if_true] at h
    cases h
    exact .inl ⟨hflag, rfl, rfl⟩

/-- A step from a state in which the books are right keeps the record. -/
theorem recorded_step {a : Act} (h : Bookkept s tr) (hrec : Recorded s tr)
    (hstep : step s a = some (s', ev)) : Recorded s' (tr ++ ev) := by
  cases a with
  | probe interface p =>
      rcases probe_cases hstep with ⟨-, rfl, rfl⟩ | ⟨-, rfl, rfl⟩ |
          ⟨-, hfree, rfl, rfl⟩
      · simpa using hrec
      · exact ⟨.inl rfl, by simpa using hrec.settled⟩
      · refine ⟨.inr rfl, ?_⟩
        rw [Holdings.settle_append, hrec.settled, hfree]
        rfl
  | disconnect interface =>
      rcases disconnect_cases hstep with ⟨hflag, rfl, rfl⟩ | ⟨hflag, rfl, rfl⟩
      · have hheld := h.flag.mp (hrec.flag.resolve_left hflag)
        refine ⟨.inl rfl, ?_⟩
        rw [Holdings.settle_append, hrec.settled, hheld]
        rfl
      · exact ⟨.inl rfl, by simpa using hrec.settled⟩

/-- A step keeps the books exactly when it is no probe that comes to a major
which the driver holds. -/
theorem bookkept_step_iff {a : Act} (h : Bookkept s tr) (hrec : Recorded s tr)
    (hstep : step s a = some (s', ev)) :
    Bookkept s' (tr ++ ev) ↔ FindsFree s a := by
  cases a with
  | probe interface p =>
      rcases probe_cases hstep with ⟨hearly, rfl, rfl⟩ | ⟨hcame, rfl, rfl⟩ |
          ⟨-, hfree, rfl, rfl⟩
      · -- the probe ends before it comes to the major
        exact iff_of_true (by simpa using h) (fun hcame => absurd hcame hearly)
      · -- `register_chrdev` fails, and the flag says 0 while the major may be held
        constructor
        · intro hafter _
          by_contra hheld
          have hzero : (0 : Int) = 1 := hafter.flag.mpr (by simpa using hheld)
          cases hzero
        · intro hfree
          have hheld : s.held = false := hfree hcame
          refine ⟨iff_of_false Int.zero_ne_one (by simp [hheld]), ?_, h.last, ?_⟩
          · simpa using h.covered
          · simpa using h.undone
      · -- the major was free and is held from here on
        refine iff_of_true ⟨iff_of_true rfl rfl, ?_, by simp, by simp⟩
          (fun _ => hfree)
        rw [Holdings.covered_append]
        exact ⟨h.covered, trivial⟩
  | disconnect interface =>
      refine iff_of_true ?_ trivial
      rcases disconnect_cases hstep with ⟨hflag, rfl, rfl⟩ | ⟨hflag, rfl, rfl⟩
      · -- the flag is set, so there is a major to give back
        have hheld := h.flag.mp (hrec.flag.resolve_left hflag)
        have hsettled := hrec.settled
        rw [if_pos hheld] at hsettled
        have hcovered : Holdings.Covered [] (tr ++ [.released major]) := by
          rw [Holdings.covered_append, hsettled]
          exact ⟨h.covered, by simp [Holdings.Covered]⟩
        refine ⟨iff_of_false Int.zero_ne_one Bool.false_ne_true, hcovered,
          fun _ => rfl, fun _ => ?_⟩
        refine hcovered.released_eq_acquired ?_ major
        rw [Holdings.settle_append, hsettled]
        rfl
      · have hfree : s.held = false := by
          have hnot : ¬ s.held = true := fun hheld => by
            rw [h.flag.mpr hheld] at hflag
            cases hflag
          simpa using hnot
        rw [List.append_nil]
        exact ⟨iff_of_false Int.zero_ne_one (by simp [hfree]), h.covered,
          fun _ => hfree, h.undone⟩

/-! ## The books over a run -/

/-- The books are right throughout a run exactly when every probe in it that
comes to the major finds it free. -/
theorem bookkept_iff (acts : List Act) :
    driver.Always Bookkept acts ↔ driver.Meets FindsFree acts := by
  refine System.always_iff_meets_of_invariant Recorded
    ⟨by decide, trivial, fun _ => rfl, fun _ => rfl⟩ ⟨.inl rfl, rfl⟩ ?_ ?_ acts
  · exact fun s tr a s' ev _ hlaw hrec hstep _ => recorded_step hlaw hrec hstep
  · exact fun s tr a s' ev _ hlaw hrec hstep =>
      bookkept_step_iff hlaw hrec hstep

/-- An interface with one interrupt endpoint, for which everything is
granted. -/
def mouse : Probe where
  bNumEndpoints := 1
  isIntIn := true
  kzalloc := true
  inputAllocateDevice := true
  usbAllocCoherent := true
  usbAllocUrb := true
  inputRegisterDevice := ⟨0, le_rfl⟩
  refused := none

/-- Two mice are plugged in and the first is taken out again: nothing is bound,
and the major is still held. -/
theorem two_mice : ¬ driver.Always Bookkept
    [.probe 0 mouse, .probe 1 mouse, .disconnect 0] := by
  intro h
  have hlaw := h _ _ _ List.prefix_rfl rfl
  exact absurd (hlaw.last rfl) (by decide)

end CharMajor
end USB
end KernelDrivers
