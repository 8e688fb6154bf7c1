import KernelDrivers.Lib.Pool
import KernelDrivers.USB.Skel.Moves

/-!
# Who holds `io_mutex`

The program counters at which a call or the thread of the USB core is inside
`io_mutex`, and the invariant that the mutex is held by exactly the one that
stands at such a place.
-/

namespace KernelDrivers
namespace USB
namespace Skel

open Lib

def ReadPc.holdsIo : ReadPc → Bool
  | .start | .done => false
  | _ => true

def WritePc.holdsIo : WritePc → Bool
  | .locked _ | .submit _ | .submitted | .submitFailed _ _ => true
  | _ => false

def FlushPc.holdsIo : FlushPc → Bool
  | .start | .done => false
  | _ => true

def Op.holdsIo : Op → Bool
  | .read _ _ pc => pc.holdsIo
  | .write _ _ pc => pc.holdsIo
  | .flush pc => pc.holdsIo

def Core.holdsIo : Core → Bool
  | .preResetLocked _ | .inReset | .postResetUnlock | .setDisconnected => true
  | _ => false

@[simp] theorem Resume.holdsIo_succeeded (next : Resume) :
    next.succeeded.holdsIo = true := by
  cases next <;> rfl

@[simp] theorem Resume.holdsIo_failed (rv : Int) (next : Resume) :
    (next.failed rv).holdsIo = true := by
  cases next <;> rfl

/-- What a step does to the mutex and to its own being inside. -/
inductive LockEffect (me : Owner) (before after : Option Owner)
    (held held' : Bool) : Prop
  | keep : after = before → held' = held → LockEffect me before after held held'
  | take : before = none → after = some me → held = false → held' = true →
      LockEffect me before after held held'
  | drop : after = none → held = true → held' = false →
      LockEffect me before after held held'

section Effect

variable {d d' : UsbSkel} {me : Owner} {nonblock : Bool} {count : Nat}
  {o : Outcome} {ev : List Event}

theorem ReadMove.lockEffect {pc pc' : ReadPc}
    (h : ReadMove d me nonblock count pc o d' pc' ev) :
    LockEffect me d.ioMutex d'.ioMutex pc.holdsIo pc'.holdsIo := by
  cases h with
  | lock hfree => exact .take hfree rfl rfl rfl
  | exit => exact .drop rfl rfl rfl
  | submit => exact .keep rfl (Resume.holdsIo_succeeded _)
  | unmarkOngoing => exact .keep rfl (Resume.holdsIo_failed _ _)
  | _ => exact .keep rfl rfl

theorem WriteMove.lockEffect {pc pc' : WritePc}
    (h : WriteMove d me nonblock count pc o d' pc' ev) :
    LockEffect me d.ioMutex d'.ioMutex pc.holdsIo pc'.holdsIo := by
  cases h with
  | lock hfree => exact .take hfree rfl rfl rfl
  | gone | written | unanchor => exact .drop rfl rfl rfl
  | _ => exact .keep rfl rfl

theorem FlushMove.lockEffect {pc pc' : FlushPc}
    (h : FlushMove d me pc o d' pc' ev) :
    LockEffect me d.ioMutex d'.ioMutex pc.holdsIo pc'.holdsIo := by
  cases h with
  | lock hfree => exact .take hfree rfl rfl rfl
  | exit => exact .drop rfl rfl rfl
  | _ => exact .keep rfl rfl

theorem OpMove.lockEffect {op op' : Op} (h : OpMove d me op o d' op' ev) :
    LockEffect me d.ioMutex d'.ioMutex op.holdsIo op'.holdsIo := by
  cases h with
  | read h => exact h.lockEffect
  | write h => exact h.lockEffect
  | flush h => exact h.lockEffect

theorem CoreMove.lockEffect {s s' : State} {pc : Core}
    (h : CoreMove s pc o s' ev) (hfresh : pc = .unbound → s = State.initial) :
    LockEffect .core s.dev.ioMutex s'.dev.ioMutex pc.holdsIo
      s'.core.holdsIo := by
  cases h with
  | kzalloc =>
      -- the object is new, and nobody has had the mutex before
      rw [hfresh rfl]
      exact .keep rfl rfl
  | preReset hfree | lockIo hfree => exact .take hfree rfl rfl rfl
  | postResetUnlock | setDisconnected => exact .drop rfl rfl rfl
  | probeFails | dropRef =>
      obtain ⟨k, n, hput⟩ := krefPut_frame s.dev
      exact .keep (by rw [hput]) rfl
  | _ => exact .keep rfl rfl

end Effect

/-- The one that has the effect is the owner afterwards exactly when it is
inside, and the ownership of all others is untouched. -/
theorem LockEffect.owner {me : Owner} {before after : Option Owner}
    {held held' : Bool} (h : LockEffect me before after held held')
    (hown : before = some me ↔ held = true) :
    (after = some me ↔ held' = true) ∧
      ∀ x, x ≠ me → (after = some x ↔ before = some x) := by
  cases h with
  | keep hafter hheld =>
      rw [hafter, hheld]
      exact ⟨hown, fun _ _ => Iff.rfl⟩
  | take hbefore hafter _ hheld =>
      rw [hafter, hbefore, hheld]
      exact ⟨by simp, fun x hx => by simp [Ne.symm hx]⟩
  | drop hafter hheld hheld' =>
      rw [hafter, hheld', hown.mpr hheld]
      exact ⟨by simp, fun x hx => by simp [Ne.symm hx]⟩

/-! ## The invariant -/

/-- The call or the thread of the USB core stands inside `io_mutex`. -/
def State.HoldsIo (s : State) : Owner → Prop
  | .call i => ∃ f op, s.calls[i]? = some (f, op) ∧ op.holdsIo = true
  | .core => s.core.holdsIo = true

/-- The mutex is held by the one that stands inside it, and by no other. -/
def IoMutex (s : State) : Prop :=
  ∀ x, s.dev.ioMutex = some x ↔ s.HoldsIo x

theorem State.holdsIo_call {s : State} {i f : Nat} {op : Op}
    (h : s.calls[i]? = some (f, op)) :
    s.HoldsIo (.call i) ↔ op.holdsIo = true := by
  constructor
  · rintro ⟨f', op', hcall, hheld⟩
    cases h.symm.trans hcall
    exact hheld
  · intro hheld
    exact ⟨f, op, h, hheld⟩

/-- Before `skel_probe` nothing has happened. -/
theorem initial_of_unbound {s : State} (h : skelDriver.Reachable s)
    (hcore : s.core = .unbound) : s = State.initial := by
  refine skelDriver.reachable_invariant
    (I := fun s => s.core = .unbound → s = State.initial) ?_ ?_ h hcore
  · exact fun _ => rfl
  · intro s a s' ev ih hstep hcore'
    cases step_cases hstep with
    | core hmove =>
        generalize s.core = pc at hmove
        cases hmove <;> cases hcore'
    | suspend | reset | disconnect => cases hcore'
    | openFile hreg | release hreg _ | file hreg _ | enterRead hreg
    | enterWrite hreg | enterFlush hreg | call hreg _ | readCompletes hreg _ _
    | readWakesUp hreg | writeCompletes hreg _ _ | writeFrees hreg
    | writeUps hreg =>
        rw [ih hcore'] at hreg
        cases hreg

/-- Before the allocation only the thread of the USB core can move. -/
theorem core_of_unbound {s s' : State} {a : Act} {ev : List Event}
    (hreach : skelDriver.Reachable s) (hcore : s.core = .unbound)
    (h : Move s a s' ev) :
    (s' = { State.initial with
        dev := UsbSkel.fresh
        core := .findEndpoints } ∨
      s' = { State.initial with core := .gone }) ∧ ev = [] := by
  have hs := initial_of_unbound hreach hcore
  subst hs
  cases h with
  | core hmove =>
      change CoreMove _ .unbound _ _ _ at hmove
      cases hmove with
      | kzalloc => exact ⟨Or.inl rfl, rfl⟩
      | noMemory => exact ⟨Or.inr rfl, rfl⟩
  | suspend hno | reset hno | disconnect hno | openFile hno | release hno _
  | file hno _ | enterRead hno | enterWrite hno | enterFlush hno | call hno _
  | readCompletes hno _ _ | writeCompletes hno _ _ | writeFrees hno
  | writeUps hno => cases hno
  | readWakesUp hno => exact absurd hno (Nat.lt_irrefl 0)

/-- What is so for the first step of `skel_probe` and for every later step is
so for every step from a reachable state. -/
theorem probed_cases {P : State → List Event → State → Prop}
    (hnomem : P State.initial [] { State.initial with core := .gone })
    (hfresh : P State.initial [] { State.initial with
      dev := UsbSkel.fresh
      core := .findEndpoints })
    {s s' : State} {a : Act} {ev : List Event}
    (hreach : skelDriver.Reachable s) (h : Move s a s' ev)
    (hstep : s.core ≠ .unbound → P s ev s') : P s ev s' := by
  by_cases hcore : s.core = .unbound
  · have hs := initial_of_unbound hreach hcore
    obtain ⟨rfl | rfl, rfl⟩ := core_of_unbound hreach hcore h
    · rw [hs]
      exact hfresh
    · rw [hs]
      exact hnomem
  · exact hstep hcore

/-- A fact that holds before `skel_probe` and behind its first step, and that
every later step keeps, holds in every reachable state. -/
theorem probed_induction {I : State → Prop} (hinit : I State.initial)
    (hnomem : I { State.initial with core := .gone })
    (hfresh : I { State.initial with
      dev := UsbSkel.fresh
      core := .findEndpoints })
    (hstep : ∀ s a s' ev, skelDriver.Reachable s → s.core ≠ .unbound → I s →
      Move s a s' ev → I s') {s : State} (h : skelDriver.Reachable s) :
    I s := by
  refine skelDriver.reachable_induction hinit ?_ h
  intro s a s' ev hreach ih hlast
  refine probed_cases (P := fun s _ s' => I s → I s') (fun _ => hnomem)
    (fun _ => hfresh) hreach (step_cases hlast) ?_ ih
  exact fun hcore ih => hstep s a s' ev hreach hcore ih (step_cases hlast)

/-- A call that is added does not hold the mutex. -/
theorem ioMutex_enter {s : State} (h : IoMutex s) (f : Nat) {op : Op}
    (hop : op.holdsIo = false) :
    IoMutex { s with calls := s.calls ++ [(f, op)] } := by
  intro x
  cases x with
  | core => exact h .core
  | call i =>
      rw [show s.dev.ioMutex = some (.call i) ↔ _ from h (.call i)]
      constructor
      · rintro ⟨f', op', hcall, hheld⟩
        exact ⟨f', op', Pool.concat_kept hcall (f, op), hheld⟩
      · rintro ⟨f', op', hcall, hheld⟩
        rcases Pool.concat_cases hcall with ⟨-, heq⟩ | hcall
        · cases heq
          rw [hop] at hheld
          cases hheld
        · exact ⟨f', op', hcall, hheld⟩

/-- A step of a call hands the mutex on correctly. -/
theorem ioMutex_call {s : State} (h : IoMutex s) {i f : Nat} {op op' : Op}
    {d' : UsbSkel} (hcall : s.calls[i]? = some (f, op))
    (heffect : LockEffect (.call i) s.dev.ioMutex d'.ioMutex op.holdsIo
      op'.holdsIo) :
    IoMutex { s with dev := d', calls := s.calls.set i (f, op') } := by
  obtain ⟨hme, hothers⟩ :=
    heffect.owner ((h (.call i)).trans (State.holdsIo_call hcall))
  intro x
  by_cases hx : x = .call i
  · subst hx
    rw [hme]
    exact (State.holdsIo_call (Pool.set_self hcall)).symm
  · rw [show d'.ioMutex = some x ↔ _ from hothers x hx, h x]
    cases x with
    | core => exact Iff.rfl
    | call j =>
        have hji : j ≠ i := fun hji => hx (by rw [hji])
        simp only [State.HoldsIo, Pool.set_other hji]

/-- A step that leaves the mutex, the calls and the places inside it alone
keeps the invariant. -/
theorem IoMutex.congr {s s' : State} (h : IoMutex s)
    (hmutex : s'.dev.ioMutex = s.dev.ioMutex) (hcalls : s'.calls = s.calls)
    (hcore : s'.core.holdsIo = s.core.holdsIo) : IoMutex s' := by
  intro x
  rw [hmutex, h x]
  cases x with
  | core => simp [State.HoldsIo, hcore]
  | call i => simp [State.HoldsIo, hcalls]

theorem ioMutex_core {s s' : State} (h : IoMutex s)
    (hcalls : s'.calls = s.calls)
    (heffect : LockEffect .core s.dev.ioMutex s'.dev.ioMutex s.core.holdsIo
      s'.core.holdsIo) : IoMutex s' := by
  obtain ⟨hme, hothers⟩ := heffect.owner (h .core)
  intro x
  cases x with
  | core => exact hme
  | call i =>
      rw [hothers (.call i) (by simp), h (.call i)]
      simp [State.HoldsIo, hcalls]

theorem ioMutex_of_reachable {s : State} (h : skelDriver.Reachable s) :
    IoMutex s := by
  refine skelDriver.reachable_induction ?_ ?_ h
  · intro x
    cases x <;> simp [skelDriver, State.initial, State.HoldsIo, Core.holdsIo]
  · intro s a s' ev hreach ih hstep
    cases step_cases hstep with
    | core hmove =>
        exact ioMutex_core ih hmove.calls_eq
          (hmove.lockEffect (initial_of_unbound hreach))
    | suspend hbound | reset hbound | disconnect hbound =>
        exact ih.congr rfl rfl (by rw [hbound]; rfl)
    | file _ hmove =>
        obtain ⟨k, n, rfl⟩ := hmove.frame
        exact ih.congr rfl rfl rfl
    | enterRead | enterWrite | enterFlush => exact ioMutex_enter ih _ rfl
    | call hcall hmove => exact ioMutex_call ih hcall hmove.lockEffect
    | _ => exact ih.congr rfl rfl rfl

/-- Two calls inside the mutex are the same call. -/
theorem IoMutex.unique {s : State} (h : IoMutex s) {x y : Owner}
    (hx : s.HoldsIo x) (hy : s.HoldsIo y) : x = y := by
  have := (h x).mpr hx
  rw [(h y).mpr hy] at this
  exact (Option.some.inj this).symm

/-- While the mutex has an owner, every other call is outside. -/
theorem IoMutex.outside {s : State} (h : IoMutex s) {x : Owner}
    (hx : s.HoldsIo x) {j : Nat} {c : Nat × Op} (hj : s.calls[j]? = some c)
    (hne : x ≠ .call j) : c.2.holdsIo = false := by
  obtain ⟨f, op⟩ := c
  by_contra hheld
  have hcall : s.HoldsIo (.call j) :=
    (State.holdsIo_call hj).mpr (by simpa using hheld)
  exact hne (h.unique hx hcall)

/-- While no call has the mutex, every call is outside. -/
theorem IoMutex.outside_of_free {s : State} (h : IoMutex s)
    (hfree : ∀ i, s.dev.ioMutex ≠ some (.call i)) {c : Nat × Op}
    (hc : c ∈ s.calls) : c.2.holdsIo = false := by
  obtain ⟨f, op⟩ := c
  obtain ⟨i, hi⟩ := List.mem_iff_getElem?.mp hc
  by_contra hheld
  refine hfree i ((h (.call i)).mpr ?_)
  exact (State.holdsIo_call hi).mpr (by simpa using hheld)

theorem IoMutex.outside_of_core {s : State} (h : IoMutex s)
    (hcore : s.core.holdsIo = true) {c : Nat × Op} (hc : c ∈ s.calls) :
    c.2.holdsIo = false := by
  have hown : s.dev.ioMutex = some .core := (h .core).mpr hcore
  refine h.outside_of_free (fun i => ?_) hc
  rw [hown]
  simp

/-! ## Submissions -/

/-- The next step of the call puts an URB in flight. -/
def Op.submits : Op → Outcome → Bool
  | .read _ _ (.submit _ _), .ok => true
  | .write _ _ (.submit _), .ok => true
  | _, _ => false

def Event.submission : Event → Bool
  | .readSubmitted _ | .writeSubmitted _ => true
  | _ => false

/-- A call is not at its submission if it is not at a kind of place to which
both submissions belong. -/
theorem Op.not_submits {p : Op → Bool}
    (hread : ∀ nonblock count length next,
      p (.read nonblock count (.submit length next)) = true)
    (hwrite : ∀ nonblock count buf,
      p (.write nonblock count (.submit buf)) = true)
    {op : Op} (h : p op = false) (o : Outcome) : op.submits o = false := by
  unfold Op.submits
  split
  · rw [hread] at h
    cases h
  · rw [hwrite] at h
    cases h
  · rfl

/-- Both kinds of URBs are submitted inside `io_mutex`. -/
theorem Op.not_submits_of_outside {op : Op} (h : op.holdsIo = false)
    (o : Outcome) : op.submits o = false :=
  Op.not_submits (fun _ _ _ _ => rfl) (fun _ _ _ => rfl) h o

theorem Op.holdsIo_of_submits {op : Op} {o : Outcome}
    (h : op.submits o = true) : op.holdsIo = true := by
  by_contra hout
  rw [Op.not_submits_of_outside (by simpa using hout) o] at h
  cases h

/-- A step of a call that is no submission leaves the URBs alone. -/
theorem OpMove.urbs_eq {d d' : UsbSkel} {me : Owner} {o : Outcome}
    {ev : List Event} {op op' : Op} (h : OpMove d me op o d' op' ev)
    (hop : op.submits o = false) :
    d'.bulkInUrb = d.bulkInUrb ∧ d'.readCallbacks = d.readCallbacks ∧
      d'.submitted = d.submitted ∧ ∀ e ∈ ev, e.submission = false := by
  cases h with
  | read h =>
      cases h with
      | submit => cases hop
      | _ => exact ⟨rfl, rfl, rfl, by simp [Event.submission]⟩
  | write h =>
      cases h with
      | submit => cases hop
      | @freeCoherent _ _ buf =>
          refine ⟨rfl, rfl, rfl, ?_⟩
          cases buf <;> simp [Event.submission]
      | _ => exact ⟨rfl, rfl, rfl, by simp [Event.submission]⟩
  | flush h => cases h <;> exact ⟨rfl, rfl, rfl, by simp [Event.submission]⟩

/-- A submission shows itself and nothing else. -/
theorem OpMove.event_of_submits {d d' : UsbSkel} {me : Owner} {o : Outcome}
    {ev : List Event} {op op' : Op} (h : OpMove d me op o d' op' ev)
    (hop : op.submits o = true) : ∃ e, ev = [e] := by
  cases h with
  | read h =>
      cases h with
      | submit => exact ⟨_, rfl⟩
      | _ => cases hop
  | write h =>
      cases h with
      | submit => exact ⟨_, rfl⟩
      | _ => cases hop
  | flush => cases hop

/-- While the USB core is inside the mutex no call submits. -/
theorem IoMutex.not_submits {s : State} (h : IoMutex s)
    (hcore : s.core.holdsIo = true) {i f : Nat} {op : Op}
    (hcall : s.calls[i]? = some (f, op)) (o : Outcome) :
    op.submits o = false :=
  Op.not_submits_of_outside
    (h.outside_of_core hcore (List.mem_of_getElem? hcall)) o

end Skel
end USB
end KernelDrivers
