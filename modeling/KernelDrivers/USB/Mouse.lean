import KernelDrivers.Errno
import KernelDrivers.Lib.System
import Mathlib.Tactic.SplitIfs

/-!
# The interrupt URB of `usbdrv1.c`

`usb_mouse_open` submits the URB, its completion handler `usb_mouse_irq` submits
it again before it looks at the packet, and `usb_mouse_close` kills it.  The
input core opens the mouse when it is closed and closes it when it is open.

The USB core calls the completion handler of a URB when the last call has
returned.  By then the host controller may have put the next packet into the
buffer, which is the same one all the time.
-/

namespace KernelDrivers
namespace USB
namespace Mouse

open Lib

/-- `mouse->data`, of `signed char`. -/
abbrev Packet := Fin 8 → Int8

inductive Urb where
  | idle
  | inFlight
  /-- Its handler has still to be called. -/
  | completed (status : Int)
  deriving DecidableEq

/-- What `usb_mouse_irq` does next. -/
inductive HandlerPc where
  | status (status : Int)
  | inputSync
  | resubmit
  /-- `printk` of `data[k]`. -/
  | print (k : Fin 8)
  /-- `current_data = data[0]`. -/
  | store
  | left
  | right
  | wheel
  | wheelMoves
  deriving DecidableEq

/-- The handler has not come to its `usb_submit_urb` yet. -/
def HandlerPc.early : HandlerPc → Bool
  | .status _ | .inputSync | .resubmit => true
  | _ => false

/-- Where the input core is with the mouse. -/
inductive Phase where
  | closed
  /-- Inside `usb_mouse_open`. -/
  | opening
  | opened
  /-- `usb_kill_urb` of `usb_mouse_close` refuses submissions, unlinks the URB
  and waits for it. -/
  | reject
  | unlink
  | wait
  deriving DecidableEq

structure State where
  urb : Urb
  handler : Option HandlerPc
  phase : Phase
  /-- Submissions are refused. -/
  rejecting : Bool
  data : Packet
  currentData : Int

inductive Event where
  | opened
  | submitted (result : Int)
  /-- The handler is called, with a packet in the buffer. -/
  | called (packet : Packet)
  /-- The URB was unlinked, and the handler does not submit it again. -/
  | gaveUp
  | looked (k : Fin 8) (value : Int8)
  | printed (text : String)

/-- An error of `usb_submit_urb` other than that the URB is in use. -/
abbrev SubmitError := { error : Int // error < 0 ∧ error ≠ -EBUSY }

inductive Act where
  | openMouse
  /-- `usb_submit_urb` of `usb_mouse_open`, which fails when told so. -/
  | submit (error : Option SubmitError)
  | closeMouse
  | kill
  | complete (status : Int) (packet : Packet)
  | giveBack
  | handler (error : Option SubmitError)

/-- `usb_submit_urb`. -/
def usbSubmitUrb (s : State) (error : Option SubmitError) : State × Int :=
  match s.urb with
  | .idle =>
      if s.rejecting then (s, -EPERM)
      else
        match error with
        | none => ({ s with urb := .inFlight }, 0)
        | some error => (s, error.val)
  | _ => (s, -EBUSY)

/-- A look at `data[k]`. -/
def State.look (s : State) (k : Fin 8) : List Event := [.looked k (s.data k)]

def State.goTo (s : State) (pc : HandlerPc) : State := { s with handler := some pc }

def State.leave (s : State) : State := { s with handler := none }

/-- One statement of `usb_mouse_irq`. -/
def usbMouseIrq (s : State) (error : Option SubmitError) :
    HandlerPc → State × List Event
  | .status status =>
      if status = 0 then (s.goTo .inputSync, [])
      else if status = -ECONNRESET ∨ status = -ENOENT ∨ status = -ESHUTDOWN then
        (s.leave, [.gaveUp])
      else (s.goTo .resubmit, [])
  | .inputSync => (s.goTo .resubmit, [])
  | .resubmit =>
      let (s', result) := usbSubmitUrb s error
      (s'.goTo (.print 0), [.submitted result])
  | .print k =>
      (s.goTo (if h : k.val + 1 < 8 then .print ⟨k.val + 1, h⟩ else .store),
        s.look k)
  | .store => ({ s.goTo .left with currentData := (s.data 0).toInt }, s.look 0)
  | .left =>
      if s.data 1 &&& 0x01 ≠ 0 then
        (s.leave, s.look 1 ++ [.printed "Left mouse button clicked!\n"])
      else (s.goTo .right, s.look 1)
  | .right =>
      if s.data 1 &&& 0x02 ≠ 0 then
        (s.leave, s.look 1 ++ [.printed "Right mouse button clicked!\n"])
      else (s.goTo .wheel, s.look 1)
  | .wheel =>
      if s.data 1 &&& 0x04 ≠ 0 then
        (s.leave, s.look 1 ++ [.printed "Wheel button clicked!\n"])
      else (s.goTo .wheelMoves, s.look 1)
  | .wheelMoves =>
      if s.data 5 ≠ 0 then (s.leave, s.look 5 ++ [.printed "Wheel moves!\n"])
      else (s.leave, s.look 5)

/-- A URB in flight comes back with `-ENOENT`. -/
def Urb.unlinked : Urb → Urb
  | .inFlight => .completed (-ENOENT)
  | urb => urb

def State.step (s : State) : Act → Option (State × List Event)
  | .openMouse =>
      match s.phase with
      | .closed => some ({ s with phase := .opening }, [.opened])
      | _ => none
  | .submit error =>
      match s.phase with
      | .opening =>
          let (s', result) := usbSubmitUrb s error
          some ({ s' with phase := .opened }, [.submitted result])
      | _ => none
  | .closeMouse =>
      match s.phase with
      | .opened => some ({ s with phase := .reject }, [])
      | _ => none
  | .kill =>
      match s.phase with
      | .reject => some ({ s with rejecting := true, phase := .unlink }, [])
      | .unlink => some ({ s with urb := s.urb.unlinked, phase := .wait }, [])
      | .wait =>
          match s.urb, s.handler with
          | .idle, none => some ({ s with rejecting := false, phase := .closed }, [])
          | _, _ => none
      | _ => none
  | .complete status packet =>
      match s.urb with
      | .inFlight =>
          some ({ s with urb := .completed status, data := packet }, [])
      | _ => none
  | .giveBack =>
      match s.urb, s.handler with
      | .completed status, none =>
          some ({ s with urb := .idle, handler := some (.status status) },
            [.called s.data])
      | _, _ => none
  | .handler error => s.handler.map fun pc => usbMouseIrq s error pc

def mouse : System State Act Event where
  init :=
    { urb := .idle
      handler := none
      phase := .closed
      rejecting := false
      data := fun _ => 0
      currentData := 0 }
  step := State.step

/-! ## The life of the URB -/

/-- The URB is on its way, or its handler will submit it again. -/
def State.Listening (s : State) : Prop :=
  s.urb ≠ .idle ∨ ∃ pc, s.handler = some pc ∧ pc.early = true

def Event.fails (before : Bool) : Event → Bool
  | .opened => false
  | .submitted result => before || decide (result ≠ 0)
  | .gaveUp => true
  | _ => before

/-- Since the mouse was opened, a submission has failed or the URB was
unlinked. -/
def failed (tr : List Event) : Bool := tr.foldl Event.fails false

/-- The URB is never submitted while it is in use, a closed mouse is quiet, and
an open one listens until a submission fails. -/
structure Law (s : State) (tr : List Event) : Prop where
  unused : .submitted (-EBUSY) ∉ tr
  closed : s.phase = .closed → s.urb = .idle ∧ s.handler = none
  opened : s.phase = .opened → s.Listening ∨ failed tr = true

/-- The law, with what a step needs of it: before its `usb_submit_urb` the
handler has the URB to itself. -/
structure Sound (s : State) (tr : List Event) : Prop where
  unused : .submitted (-EBUSY) ∉ tr
  early : ∀ pc, s.handler = some pc → pc.early = true → s.urb = .idle
  down : s.phase = .closed ∨ s.phase = .opening → s.urb = .idle ∧ s.handler = none
  opened : s.phase = .opened → s.Listening ∨ failed tr = true

section Steps

variable {s s' : State} {a : Act} {pc : HandlerPc} {error : Option SubmitError}
  {ev tr : List Event}

theorem failed_append (tr ev : List Event) :
    failed (tr ++ ev) = ev.foldl Event.fails (failed tr) :=
  List.foldl_append

theorem listening_of_inFlight (h : s.urb = .inFlight) : s.Listening :=
  Or.inl (by simp [h])

/-- An idle URB is submitted, or it stays idle and there is an error. -/
theorem submit_cases (h : s.urb = .idle) (error : Option SubmitError) :
    usbSubmitUrb s error = ({ s with urb := .inFlight }, 0) ∨
      ∃ result, usbSubmitUrb s error = (s, result) ∧ result ≠ 0 ∧
        result ≠ -EBUSY := by
  simp only [usbSubmitUrb, h]
  split_ifs
  · exact Or.inr ⟨-EPERM, rfl, by decide, by decide⟩
  · cases error with
    | none => exact Or.inl rfl
    | some error =>
        exact Or.inr ⟨error.val, rfl, by have := error.property.1; omega,
          error.property.2⟩

/-- What the handler does once it has submitted the URB. -/
structure Late (s s' : State) (ev : List Event) : Prop where
  urb : s'.urb = s.urb
  phase : s'.phase = s.phase
  handler : ∀ pc, s'.handler = some pc → pc.early = false
  events : ∀ e ∈ ev, (∃ k v, e = .looked k v) ∨ ∃ text, e = .printed text

theorem irq_late (s : State) (error : Option SubmitError)
    (hpc : pc.early = false) :
    Late s (usbMouseIrq s error pc).1 (usbMouseIrq s error pc).2 := by
  cases pc with
  | status | inputSync | resubmit => cases hpc
  | print k =>
      refine ⟨rfl, rfl, fun pc hpc => ?_, by simp [usbMouseIrq, State.look]⟩
      simp only [usbMouseIrq, State.goTo] at hpc
      split_ifs at hpc <;> cases hpc <;> rfl
  | store =>
      refine ⟨rfl, rfl, fun pc hpc => ?_, by simp [usbMouseIrq, State.look]⟩
      cases hpc
      rfl
  | left | right | wheel | wheelMoves =>
      simp only [usbMouseIrq]
      split_ifs
      all_goals
        refine ⟨rfl, rfl, fun pc hpc => ?_, by simp [State.look]⟩
        cases hpc <;> rfl

theorem failed_of_late {s s' : State} (h : Late s s' ev) (tr : List Event) :
    failed (tr ++ ev) = failed tr := by
  have hevents := h.events
  clear h
  rw [failed_append]
  induction ev with
  | nil => rfl
  | cons e ev ih =>
      have hrest := ih fun e' he' => hevents e' (List.mem_cons_of_mem _ he')
      rcases hevents e List.mem_cons_self with ⟨k, v, rfl⟩ | ⟨text, rfl⟩ <;>
        exact hrest

theorem Sound.up (h : Sound s tr) (hpc : s.handler = some pc) :
    ¬ (s.phase = .closed ∨ s.phase = .opening) := by
  intro hdown
  cases hpc.symm.trans (h.down hdown).2

/-- A statement behind the `usb_submit_urb` of the handler. -/
theorem Sound.late (h : Sound s tr) (hpc : s.handler = some pc)
    (hearly : pc.early = false) (hlate : Late s s' ev) : Sound s' (tr ++ ev) := by
  refine ⟨?_, fun pc' hpc' hearly' => ?_, fun hdown => ?_, fun hopened => ?_⟩
  · rw [List.mem_append, not_or]
    refine ⟨h.unused, fun hmem => ?_⟩
    rcases hlate.events _ hmem with ⟨k, v, heq⟩ | ⟨text, heq⟩ <;> cases heq
  · rw [hlate.handler pc' hpc'] at hearly'
    cases hearly'
  · rw [hlate.phase] at hdown
    exact absurd hdown (h.up hpc)
  · rw [hlate.phase] at hopened
    rw [failed_of_late hlate, State.Listening, hlate.urb]
    refine (h.opened hopened).imp_left fun hlistening => ?_
    refine hlistening.imp_right fun ⟨pc', hpc', hearly'⟩ => ?_
    cases hpc.symm.trans hpc'
    rw [hearly] at hearly'
    cases hearly'

/-- A statement that brings the handler nearer to its `usb_submit_urb`. -/
theorem Sound.goTo (h : Sound s tr) (hpc : s.handler = some pc)
    (hidle : s.urb = .idle) {pc' : HandlerPc} (hearly : pc'.early = true) :
    Sound (s.goTo pc') (tr ++ []) := by
  rw [List.append_nil]
  exact ⟨h.unused, fun _ _ _ => hidle, fun hdown => absurd hdown (h.up hpc),
    fun _ => Or.inl (Or.inr ⟨pc', rfl, hearly⟩)⟩

/-- The `usb_submit_urb` of the handler. -/
theorem Sound.resubmit (h : Sound s tr) (hpc : s.handler = some .resubmit)
    (error : Option SubmitError) :
    Sound (usbMouseIrq s error .resubmit).1
      (tr ++ (usbMouseIrq s error .resubmit).2) := by
  have hidle : s.urb = .idle := h.early _ hpc rfl
  have hup := h.up hpc
  rcases submit_cases hidle error with hsubmit | ⟨result, hsubmit, hne, hunused⟩
  · simp only [usbMouseIrq, hsubmit]
    refine ⟨?_, fun pc' hpc' hearly' => ?_, fun hdown => absurd hdown hup,
      fun _ => Or.inl (listening_of_inFlight rfl)⟩
    · simpa [EBUSY] using h.unused
    · cases hpc'
      cases hearly'
  · simp only [usbMouseIrq, hsubmit]
    refine ⟨?_, fun pc' hpc' hearly' => ?_, fun hdown => absurd hdown hup,
      fun _ => Or.inr ?_⟩
    · simpa [hunused.symm] using h.unused
    · cases hpc'
      cases hearly'
    · simp [failed_append, Event.fails, hne]

theorem Sound.handler (h : Sound s tr)
    (hstep : State.step s (.handler error) = some (s', ev)) :
    Sound s' (tr ++ ev) := by
  obtain ⟨pc, hpc, hirq⟩ := Option.map_eq_some_iff.mp hstep
  cases hearly : pc.early with
  | false =>
      have hlate := irq_late s error hearly
      rw [hirq] at hlate
      exact h.late hpc hearly hlate
  | true =>
      have hidle : s.urb = .idle := h.early pc hpc hearly
      cases pc with
      | status status =>
          simp only [usbMouseIrq] at hirq
          split_ifs at hirq <;> cases hirq
          · exact h.goTo hpc hidle rfl
          · -- the URB was unlinked
            refine ⟨by simpa using h.unused, by rintro pc' ⟨⟩,
              fun hdown => absurd hdown (h.up hpc), fun _ => Or.inr ?_⟩
            rw [failed_append]
            rfl
          · exact h.goTo hpc hidle rfl
      | inputSync =>
          cases hirq
          exact h.goTo hpc hidle rfl
      | resubmit =>
          have hafter := h.resubmit hpc error
          rwa [hirq] at hafter
      | _ => cases hearly

theorem Sound.step (h : Sound s tr) (hstep : State.step s a = some (s', ev)) :
    Sound s' (tr ++ ev) := by
  cases a with
  | handler error => exact h.handler hstep
  | openMouse =>
      simp only [State.step] at hstep
      split at hstep <;> cases hstep
      rename_i hphase
      obtain ⟨hidle, hnone⟩ := h.down (Or.inl hphase)
      refine ⟨by simpa using h.unused, fun _ _ _ => hidle, fun _ => ⟨hidle, hnone⟩,
        by simp⟩
  | submit error =>
      simp only [State.step] at hstep
      split at hstep <;> cases hstep
      rename_i hphase
      obtain ⟨hidle, hnone⟩ := h.down (Or.inr hphase)
      rcases submit_cases hidle error with hsubmit | ⟨result, hsubmit, hne, hunused⟩
      · rw [hsubmit]
        refine ⟨by simpa [EBUSY] using h.unused, fun pc hpc => ?_, by simp,
          fun _ => Or.inl (listening_of_inFlight rfl)⟩
        cases hnone.symm.trans hpc
      · rw [hsubmit]
        refine ⟨by simpa [hunused.symm] using h.unused, fun pc hpc => ?_, by simp,
          fun _ => Or.inr ?_⟩
        · cases hnone.symm.trans hpc
        · simp [failed_append, Event.fails, hne]
  | closeMouse =>
      simp only [State.step] at hstep
      split at hstep <;> cases hstep
      exact ⟨by simpa using h.unused, h.early, by simp, by simp⟩
  | kill =>
      simp only [State.step] at hstep
      split at hstep
      · cases hstep
        exact ⟨by simpa using h.unused, h.early, by simp, by simp⟩
      · cases hstep
        refine ⟨by simpa using h.unused, fun pc hpc hearly => ?_, by simp, by simp⟩
        simp [h.early pc hpc hearly, Urb.unlinked]
      · split at hstep <;> cases hstep
        rename_i hidle hnone
        exact ⟨by simpa using h.unused, h.early, fun _ => ⟨hidle, hnone⟩, by simp⟩
      · cases hstep
  | complete status packet =>
      simp only [State.step] at hstep
      split at hstep <;> cases hstep
      rename_i hflying
      refine ⟨by simpa using h.unused, fun pc hpc hearly => ?_, fun hdown => ?_,
        fun _ => Or.inl (Or.inl (by simp))⟩
      · cases hflying.symm.trans (h.early pc hpc hearly)
      · cases hflying.symm.trans (h.down hdown).1
  | giveBack =>
      simp only [State.step] at hstep
      split at hstep <;> cases hstep
      rename_i hdone hnone
      refine ⟨by simpa using h.unused, fun _ _ _ => rfl, fun hdown => ?_,
        fun _ => Or.inl (Or.inr ⟨_, rfl, rfl⟩)⟩
      cases hdone.symm.trans (h.down hdown).1

end Steps

/-- In every run the URB is submitted only when it is not in use, a mouse that
is closed has neither a URB on its way nor a handler that runs, and one that is
open gets its next packet unless a submission has failed. -/
theorem mouse_listens (acts : List Act) : mouse.Always Law acts := by
  intro before s tr _ hrun
  have hsound : Sound s tr := by
    refine mouse.run_induction (P := fun _ s tr => Sound s tr) ?_ ?_ hrun
    · exact ⟨by simp, by rintro pc ⟨⟩, fun _ => ⟨rfl, rfl⟩, by rintro ⟨⟩⟩
    · exact fun _ _ _ _ _ _ _ ih hstep => ih.step hstep
  exact ⟨hsound.unused, fun hclosed => hsound.down (Or.inl hclosed), hsound.opened⟩

/-! ## What a report shows -/

/-- The packet for which the handler was called last. -/
def lastCalled (tr : List Event) : Option Packet :=
  tr.foldl (fun last e =>
    match e with
    | .called packet => some packet
    | _ => last) none

/-- The handler looks at the packet for which it was called. -/
def OwnPacket (before : List Event) : Event → Prop
  | .looked k value => ∃ packet, lastCalled before = some packet ∧ value = packet k
  | _ => True

/-- No other packet arrives while the handler runs. -/
def Undisturbed (s : State) : Act → Prop
  | .complete _ packet => s.handler = none ∨ packet = s.data
  | _ => True

section Reports

variable {s s' : State} {a : Act} {pc : HandlerPc} {error : Option SubmitError}
  {ev tr : List Event}

theorem lastCalled_append (tr ev : List Event)
    (h : ∀ e ∈ ev, ∀ packet, e ≠ .called packet) :
    lastCalled (tr ++ ev) = lastCalled tr := by
  induction ev using List.reverseRecOn with
  | nil => rw [List.append_nil]
  | append_singleton ev e ih =>
      have hrest := ih fun e' he' => h e' (List.mem_append_left _ he')
      have hlast := h e (List.mem_append_right _ List.mem_cons_self)
      rw [← List.append_assoc, lastCalled, List.foldl_append]
      cases e with
      | called packet => exact absurd rfl (hlast packet)
      | _ => exact hrest

/-- A statement of the handler leaves the buffer alone, and what it looks at is
in there. -/
structure Looks (s s' : State) (ev : List Event) : Prop where
  data : s'.data = s.data
  uncalled : ∀ e ∈ ev, ∀ packet, e ≠ .called packet
  values : ∀ k value, .looked k value ∈ ev → value = s.data k

theorem submit_frame (s : State) (error : Option SubmitError) :
    (usbSubmitUrb s error).1.handler = s.handler ∧
      (usbSubmitUrb s error).1.data = s.data := by
  unfold usbSubmitUrb
  split
  · split_ifs
    · exact ⟨rfl, rfl⟩
    · split <;> exact ⟨rfl, rfl⟩
  · exact ⟨rfl, rfl⟩

theorem irq_looks (s : State) (error : Option SubmitError) (pc : HandlerPc) :
    Looks s (usbMouseIrq s error pc).1 (usbMouseIrq s error pc).2 := by
  cases pc with
  | status | left | right | wheel | wheelMoves =>
      simp only [usbMouseIrq]
      split_ifs
      all_goals exact ⟨rfl, by simp [State.look], by simp [State.look]⟩
  | inputSync => exact ⟨rfl, by simp [usbMouseIrq], by simp [usbMouseIrq]⟩
  | resubmit =>
      exact ⟨(submit_frame s error).2, by simp [usbMouseIrq], by simp [usbMouseIrq]⟩
  | print | store =>
      exact ⟨rfl, by simp [usbMouseIrq, State.look],
        by simp [usbMouseIrq, State.look]⟩

theorem own_append (htr : History OwnPacket tr) (hlooks : Looks s s' ev)
    (hown : ev = [] ∨ lastCalled tr = some s.data) :
    History OwnPacket (tr ++ ev) := by
  rw [history_append]
  refine ⟨htr, fun before e after heq => ?_⟩
  have hmem : e ∈ ev := by simp [heq]
  cases e with
  | looked k value =>
      have hcalled : lastCalled (tr ++ before) = lastCalled tr := by
        refine lastCalled_append tr before fun e' he' => ?_
        exact hlooks.uncalled e' (by simp [heq, he'])
      rcases hown with hnil | hown
      · rw [hnil] at hmem
        cases hmem
      · exact ⟨s.data, hcalled.trans hown, hlooks.values k value hmem⟩
  | _ => trivial

/-- While the handler runs, the buffer holds its packet. -/
structure Own (s : State) (tr : List Event) : Prop where
  looks : History OwnPacket tr
  buffer : s.handler ≠ none → lastCalled tr = some s.data

/-- A step that the handler does not notice. -/
theorem Own.unnoticed (h : Own s tr) (hhandler : s'.handler = s.handler)
    (hlooks : Looks s s' ev) (hev : ∀ e ∈ ev, ∀ k value, e ≠ .looked k value) :
    Own s' (tr ++ ev) := by
  refine ⟨h.looks.append fun before e he => ?_, fun hrunning => ?_⟩
  · cases e with
    | looked k value => exact absurd rfl (hev _ he k value)
    | _ => trivial
  · rw [lastCalled_append tr ev hlooks.uncalled, hlooks.data]
    exact h.buffer (hhandler ▸ hrunning)

theorem Own.step (h : Own s tr) (hok : Undisturbed s a)
    (hstep : State.step s a = some (s', ev)) : Own s' (tr ++ ev) := by
  cases a with
  | handler error =>
      obtain ⟨pc, hpc, hirq⟩ := Option.map_eq_some_iff.mp hstep
      have hlooks : Looks s s' ev := by
        have hall := irq_looks s error pc
        rwa [hirq] at hall
      have hown : lastCalled tr = some s.data := h.buffer (by simp [hpc])
      refine ⟨own_append h.looks hlooks (Or.inr hown), fun _ => ?_⟩
      rw [lastCalled_append tr ev hlooks.uncalled, hlooks.data]
      exact hown
  | openMouse =>
      simp only [State.step] at hstep
      split at hstep <;> cases hstep
      exact h.unnoticed rfl ⟨rfl, by simp, by simp⟩ (by simp)
  | submit error =>
      simp only [State.step] at hstep
      split at hstep <;> cases hstep
      obtain ⟨hhandler, hdata⟩ := submit_frame s error
      exact h.unnoticed hhandler ⟨hdata, by simp, by simp⟩ (by simp)
  | closeMouse =>
      simp only [State.step] at hstep
      split at hstep <;> cases hstep
      exact h.unnoticed rfl ⟨rfl, by simp, by simp⟩ (by simp)
  | kill =>
      simp only [State.step] at hstep
      split at hstep
      · cases hstep
        exact h.unnoticed rfl ⟨rfl, by simp, by simp⟩ (by simp)
      · cases hstep
        exact h.unnoticed rfl ⟨rfl, by simp, by simp⟩ (by simp)
      · split at hstep <;> cases hstep
        exact h.unnoticed rfl ⟨rfl, by simp, by simp⟩ (by simp)
      · cases hstep
  | complete status packet =>
      simp only [State.step] at hstep
      split at hstep <;> cases hstep
      rw [List.append_nil]
      refine ⟨h.looks, fun hrunning => ?_⟩
      rcases hok with hnone | rfl
      · exact absurd hnone hrunning
      · exact h.buffer hrunning
  | giveBack =>
      simp only [State.step] at hstep
      split at hstep <;> cases hstep
      refine ⟨history_concat.mpr ⟨h.looks, trivial⟩, fun _ => ?_⟩
      rw [lastCalled, List.foldl_append]
      rfl

/-- A packet that arrives while the handler runs takes the place of its own. -/
theorem Own.undisturbed (h : Own s tr) (hstep : State.step s a = some (s', ev))
    (hafter : Own s' (tr ++ ev)) : Undisturbed s a := by
  cases a with
  | complete status packet =>
      simp only [State.step] at hstep
      split at hstep <;> cases hstep
      rw [List.append_nil] at hafter
      by_cases hnone : s.handler = none
      · exact Or.inl hnone
      · have hnew : lastCalled tr = some packet := hafter.buffer hnone
        exact Or.inr (Option.some.inj (hnew.symm.trans (h.buffer hnone)))
  | _ => trivial

end Reports

/-- The handler submits the URB before it looks at the packet.  It reports the
packet for which it was called exactly when no other one arrives while it
runs. -/
theorem reports_own_iff (acts : List Act) :
    mouse.Always Own acts ↔ mouse.Meets Undisturbed acts := by
  refine System.always_iff_meets ?_ ?_ acts
  · exact ⟨history_nil, fun hrunning => absurd rfl hrunning⟩
  · exact fun s tr a s' ev _ hown hstep =>
      ⟨fun hafter => hown.undisturbed hstep hafter, fun hok => hown.step hok hstep⟩

end Mouse
end USB
end KernelDrivers
