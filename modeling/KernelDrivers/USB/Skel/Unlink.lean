import KernelDrivers.Lib.Pool
import KernelDrivers.USB.Skel.Results

/-!
# The status of an unlinked URB

Both callbacks say that "sync/async unlink faults aren't errors", but leave
only the message out for them: `errors` gets the status of an unlinked URB,
too.  The next call that looks at `errors` then fails with `-EIO`, and
`skel_flush` can be that call itself, because it kills the read URB before it
looks.  Without such a look no call fails.
-/

namespace KernelDrivers
namespace USB
namespace Skel

open Lib

/-- The status of an URB that was unlinked or killed. -/
def Unlinked (status : Int) : Prop :=
  status = -ENOENT ∨ status = -ECONNRESET ∨ status = -ESHUTDOWN

instance (status : Int) : Decidable (Unlinked status) :=
  inferInstanceAs (Decidable (_ ∨ _))

/-- The steps of a run in which URBs complete or are unlinked, no submission
fails and no reset happens. -/
def NoFailure (s : State) : Act → Prop
  | .readCompletes status _ => status = 0 ∨ Unlinked status
  | .writeCompletes _ status => status = 0 ∨ Unlinked status
  | .call i o => ∀ c ∈ s.calls[i]?, c.2.submitFails o = false
  | .reset => False
  | _ => True

instance (s : State) (a : Act) : Decidable (NoFailure s a) :=
  match a with
  | .readCompletes _ _ | .writeCompletes _ _ =>
      inferInstanceAs (Decidable (_ ∨ _))
  | .call _ _ => inferInstanceAs (Decidable (∀ _ ∈ _, _))
  | .reset => isFalse id
  | .core _ _ | .suspend | .disconnect | .openFile | .release _
  | .file _ _ | .enterRead _ _ _ | .enterWrite _ _ _ | .enterFlush _
  | .readWakesUp | .writeCallback _ => isTrue trivial

/-- No call looks at `errors` while the status of an unlinked URB is in it. -/
def NoUnlinkSeen (s : State) : Act → Prop
  | .call i _ => ∀ c ∈ s.calls[i]?, c.2.looksAtErrors = true →
      ¬ Unlinked s.dev.errors
  | _ => True

instance (s : State) (a : Act) : Decidable (NoUnlinkSeen s a) :=
  match a with
  | .call _ _ => inferInstanceAs (Decidable (∀ _ ∈ _, _ → _))
  | .core _ _ | .suspend | .reset | .disconnect | .openFile | .release _
  | .file _ _ | .enterRead _ _ _ | .enterWrite _ _ _ | .enterFlush _
  | .readCompletes _ _ | .readWakesUp | .writeCompletes _ _
  | .writeCallback _ => isTrue trivial

/-- No call has returned `-EIO` or `-EPIPE`. -/
def NoIoErrorReturned (tr : List Event) : Prop :=
  ∀ rv user, Event.returned rv user ∈ tr → ¬ IoError rv

/-- A reset is in progress. -/
def Core.resetting : Core → Bool
  | .preReset | .preResetLocked _ | .inReset | .postResetUnlock => true
  | _ => false

/-- Only statuses of unlinked URBs are ever stored. -/
structure OnlyUnlinks (s : State) : Prop where
  errors : s.dev.errors = 0 ∨ Unlinked s.dev.errors
  core : s.core.resetting = false

theorem Unlinked.neg {status : Int} (h : Unlinked status) : status < 0 := by
  rcases h with rfl | rfl | rfl <;> decide

theorem Unlinked.reported {status : Int} (h : Unlinked status) :
    reported status = - EIO := by
  refine reported_of_ne ?_
  rcases h with rfl | rfl | rfl <;> decide

theorem errorsAfter_unlinked {errors status : Int}
    (herrors : errors = 0 ∨ Unlinked errors)
    (hstatus : status = 0 ∨ Unlinked status) :
    errorsAfter errors status = 0 ∨ Unlinked (errorsAfter errors status) := by
  unfold errorsAfter
  split_ifs
  · exact hstatus
  · exact herrors

section Moves

variable {d d' : UsbSkel} {me : Owner} {o : Outcome} {ev : List Event}

/-- A call leaves `errors` alone or clears it. -/
theorem OpMove.errors {op op' : Op} (h : OpMove d me op o d' op' ev) :
    d'.errors = d.errors ∨ d'.errors = 0 := by
  cases h with
  | read h =>
      cases h with
      | clear => exact Or.inr rfl
      | _ => exact Or.inl rfl
  | write h =>
      cases h with
      | clear => exact Or.inr rfl
      | _ => exact Or.inl rfl
  | flush h =>
      cases h with
      | collect => exact Or.inr rfl
      | _ => exact Or.inl rfl

/-- Without a reset the thread of the USB core stores no error. -/
theorem CoreMove.onlyUnlinks {s s' : State} {pc : Core}
    (h : CoreMove s pc o s' ev) (hpc : pc.resetting = false) :
    (s'.dev.errors = s.dev.errors ∨ s'.dev.errors = 0) ∧
      s'.core.resetting = false := by
  cases h with
  | kzalloc => exact ⟨Or.inr rfl, rfl⟩
  | postReset | preReset | preResetLocked | drawnDown | postResetUnlock =>
      cases hpc
  | probeFails | dropRef =>
      obtain ⟨k, n, hput⟩ := krefPut_frame s.dev
      exact ⟨Or.inl (by rw [hput]), rfl⟩
  | _ => exact ⟨Or.inl rfl, rfl⟩

end Moves

theorem OnlyUnlinks.step {s s' : State} {a : Act} {ev : List Event}
    (h : OnlyUnlinks s) (hmove : Move s a s' ev) (hok : NoFailure s a) :
    OnlyUnlinks s' := by
  have hsame : ∀ errors : Int, errors = s.dev.errors ∨ errors = 0 →
      errors = 0 ∨ Unlinked errors := by
    rintro errors (rfl | rfl)
    · exact h.errors
    · exact Or.inl rfl
  cases hmove with
  | core hmove =>
      obtain ⟨herrors, hcore⟩ := hmove.onlyUnlinks h.core
      exact ⟨hsame _ herrors, hcore⟩
  | suspend | disconnect => exact ⟨h.errors, rfl⟩
  | reset => exact hok.elim
  | file _ hmove =>
      obtain ⟨k, n, rfl⟩ := hmove.frame
      exact ⟨h.errors, h.core⟩
  | call _ hmove => exact ⟨hsame _ hmove.errors, h.core⟩
  | readCompletes => exact ⟨errorsAfter_unlinked h.errors hok, h.core⟩
  | writeCompletes => exact ⟨errorsAfter_unlinked h.errors hok, h.core⟩
  | _ => exact ⟨h.errors, h.core⟩

/-! ## Steps of the other parts -/

/-- Only a step of a call returns a value. -/
theorem Move.calls_of_other {s s' : State} {a : Act} {ev : List Event}
    (h : Move s a s' ev) (ha : ∀ i o, a ≠ .call i o) :
    (∀ rv user, Event.returned rv user ∉ ev) ∧
      ∀ c ∈ s'.calls, c ∈ s.calls ∨ c.2.result = none := by
  cases h with
  | core hmove =>
      refine ⟨?_, fun c hc => Or.inl (hmove.calls_eq ▸ hc)⟩
      rcases hmove.events with rfl | rfl | rfl <;> simp
  | file _ hmove =>
      refine ⟨?_, fun c hc => Or.inl hc⟩
      rcases hmove.events with rfl | rfl <;> simp
  | enterRead | enterWrite | enterFlush =>
      refine ⟨by simp, fun c hc => ?_⟩
      rcases List.mem_append.mp hc with hc | hc
      · exact Or.inl hc
      · cases List.mem_singleton.mp hc
        exact Or.inr rfl
  | @call i o => exact absurd rfl (ha i o)
  | _ => exact ⟨by simp, fun c hc => Or.inl hc⟩

/-- A step of another part keeps the calls that are there. -/
theorem Move.calls_kept {s s' : State} {a : Act} {ev : List Event}
    (h : Move s a s' ev) (ha : ∀ i o, a ≠ .call i o) :
    ∀ c ∈ s.calls, c ∈ s'.calls := by
  cases h with
  | core hmove => exact fun c hc => hmove.calls_eq ▸ hc
  | enterRead | enterWrite | enterFlush =>
      exact fun c hc => List.mem_append_left _ hc
  | @call i o => exact absurd rfl (ha i o)
  | _ => exact fun c hc => hc

/-! ## No call fails without such a look -/

/-- No call has come to an I/O error. -/
structure Clean (s : State) (tr : List Event) : Prop where
  only : OnlyUnlinks s
  calls : ∀ c ∈ s.calls, ∀ rv ∈ c.2.result, ¬ IoError rv
  returned : NoIoErrorReturned tr

theorem NoIoErrorReturned.append {tr ev : List Event}
    (h : NoIoErrorReturned tr) (hev : NoIoErrorReturned ev) :
    NoIoErrorReturned (tr ++ ev) := by
  intro rv user hmem
  rcases List.mem_append.mp hmem with hmem | hmem
  · exact h rv user hmem
  · exact hev rv user hmem

/-- A step of another part. -/
theorem Clean.other {s s' : State} {tr ev : List Event} {a : Act}
    (h : Clean s tr) (hmove : Move s a s' ev) (hok : NoFailure s a)
    (ha : ∀ i o, a ≠ .call i o) : Clean s' (tr ++ ev) := by
  obtain ⟨hev, hcalls⟩ := hmove.calls_of_other ha
  refine ⟨h.only.step hmove hok, fun c hc rv hrv => ?_, ?_⟩
  · rcases hcalls c hc with hold | hnone
    · exact h.calls c hold rv hrv
    · rw [hnone] at hrv
      cases hrv
  · exact h.returned.append fun rv user hmem => absurd hmem (hev rv user)

/-- A step of a call that finds no unlink status. -/
theorem Clean.call {s s' : State} {tr ev : List Event} {i : Nat} {o : Outcome}
    (h : Clean s tr) (hmove : Move s (.call i o) s' ev)
    (hok : NoFailure s (.call i o)) (hseen : NoUnlinkSeen s (.call i o)) :
    Clean s' (tr ++ ev) := by
  have honly := h.only.step hmove hok
  cases hmove with
  | @call _ _ f op _ _ _ hcall hmove =>
      have hlook : op.looksAtErrors = true → s.dev.errors = 0 := fun hlook =>
        h.only.errors.resolve_right (hseen (f, op) hcall hlook)
      have hclean := hmove.noIoError
        (h.calls (f, op) (List.mem_of_getElem? hcall)) hlook
        (hok (f, op) hcall)
      exact ⟨honly, Pool.forall_set h.calls hclean.result,
        h.returned.append hclean.returned⟩

theorem Clean.step {s s' : State} {tr ev : List Event} {a : Act}
    (h : Clean s tr) (hmove : Move s a s' ev) (hok : NoFailure s a)
    (hseen : NoUnlinkSeen s a) : Clean s' (tr ++ ev) := by
  cases a with
  | call i o => exact h.call hmove hok hseen
  | _ => exact h.other hmove hok (by simp)

/-! ## Every such look makes a call fail -/

/-- Some call returns an I/O error, or has returned one. -/
def Failing (s : State) (tr : List Event) : Prop :=
  (∃ c ∈ s.calls, ∃ rv ∈ c.2.result, IoError rv) ∨ ¬ NoIoErrorReturned tr

/-- A call that is going to fail does so. -/
theorem Failing.step {s s' : State} {tr ev : List Event} {a : Act}
    (h : Failing s tr) (hmove : Move s a s' ev) : Failing s' (tr ++ ev) := by
  rcases h with ⟨c, hc, rv, hrv, hio⟩ | hreturned
  · by_cases ha : ∀ i o, a ≠ .call i o
    · exact Or.inl ⟨c, hmove.calls_kept ha c hc, rv, hrv, hio⟩
    · cases hmove with
      | @call i _ f op d' op' _ hcall hmove =>
          obtain ⟨j, hj⟩ := List.mem_iff_getElem?.mp hc
          by_cases hji : j = i
          · -- the failing call itself keeps its value or returns it
            subst hji
            cases hcall.symm.trans hj
            rcases hmove.result_kept hrv with hkept | ⟨user, hmem⟩
            · exact Or.inl ⟨(f, op'), List.mem_of_getElem? (Pool.set_self hcall),
                rv, hkept, hio⟩
            · exact Or.inr fun hno =>
                hno rv user (List.mem_append_right _ hmem) hio
          · refine Or.inl ⟨c, ?_, rv, hrv, hio⟩
            exact List.mem_of_getElem? ((Pool.set_other hji).trans hj)
      | _ => exact absurd (by simp) ha
  · refine Or.inr fun hno => hreturned fun rv user hmem => ?_
    exact hno rv user (List.mem_append_left _ hmem)

/-- A look at the status of an unlinked URB makes the call fail. -/
theorem failing_of_seen {s s' : State} {tr ev : List Event} {a : Act}
    (hmove : Move s a s' ev) (hseen : ¬ NoUnlinkSeen s a) :
    Failing s' (tr ++ ev) := by
  cases hmove with
  | @call i _ f op d' op' _ hcall hmove =>
      simp only [NoUnlinkSeen, not_forall, not_not] at hseen
      obtain ⟨c, hc, hlook, hunlinked⟩ := hseen
      cases hcall.symm.trans hc
      have hresult := hmove.result_of_error hlook hunlinked.neg
      refine Or.inl ⟨(f, op'), List.mem_of_getElem? (Pool.set_self hcall), _,
        hresult, ?_⟩
      exact Or.inl hunlinked.reported
  | _ => exact absurd trivial hseen

/-! ## Whole runs -/

/-- In a run without failures no call returns `-EIO` or `-EPIPE` if none looks
at `errors` while the status of an unlinked URB is in it.  Where all calls
have returned, that condition is also necessary. -/
theorem noIoError_iff {actions : List Act} {s : State} {tr : List Event}
    (hrun : skelDriver.run actions = some (s, tr))
    (hok : skelDriver.Meets NoFailure actions) :
    (skelDriver.Meets NoUnlinkSeen actions → NoIoErrorReturned tr) ∧
      ((∀ c ∈ s.calls, c.2.active = false) → NoIoErrorReturned tr →
        skelDriver.Meets NoUnlinkSeen actions) := by
  constructor
  · intro hseen
    have hinit : Clean skelDriver.init [] :=
      ⟨⟨Or.inl rfl, rfl⟩, nofun, nofun⟩
    have halways : skelDriver.Always Clean actions := by
      refine (hok.and hseen).always hinit ?_
      intro s tr a s' ev _ hclean hstep hboth
      exact hclean.step (step_cases hstep) hboth.1 hboth.2
    exact (halways actions s tr (List.prefix_refl actions) hrun).returned
  · -- a look that finds an unlink status makes a call fail from then on, and
    -- at the end of the run it has returned
    intro hdone hnone before a s₁ tr₁ hpre hrun₁ henabled
    by_contra hseen
    obtain ⟨⟨s₂, ev⟩, hstep⟩ := Option.isSome_iff_exists.mp henabled
    have hfailing : Failing s tr :=
      skelDriver.run_persists (skelDriver.run_concat_of_step hrun₁ hstep)
        (failing_of_seen (step_cases hstep) hseen) hpre
        (fun _ _ _ _ _ h hstep => h.step (step_cases hstep)) hrun
    rcases hfailing with ⟨c, hc, rv, hrv, -⟩ | hreturned
    · rw [Op.result_of_done (hdone c hc)] at hrv
      cases hrv
    · exact hreturned hnone

/-- A read starts the URB, a suspend kills it, and nobody looks. -/
def suspendKillsRead : List Act :=
  bringUp ++ [.enterRead 0 true 4] ++ List.replicate 10 (.call 0 .ok) ++
    [.suspend, .core .ok 0, .readCompletes (-ENOENT) [], .readWakesUp,
      .core .ok 0]

theorem noIoError_suspendKillsRead :
    ∃ s tr, skelDriver.run suspendKillsRead = some (s, tr) ∧
      NoIoErrorReturned tr ∧ s.dev.errors = -ENOENT :=
  ⟨_, _, rfl,
    (@noIoError_iff suspendKillsRead _ _ rfl
      (System.meets_of_check (by decide))).1
      (System.meets_of_check (by decide)), rfl⟩

/-- A read starts the URB, and the flush that kills it fails. -/
def flushKillsRead : List Act :=
  bringUp ++ [.enterRead 0 true 4] ++ List.replicate 10 (.call 0 .ok) ++
    [.enterFlush 0] ++ List.replicate 2 (.call 1 .ok) ++
    [.readCompletes (-ENOENT) [], .readWakesUp] ++
    List.replicate 3 (.call 1 .ok)

theorem flush_fails_by_unlink :
    ∃ s tr, skelDriver.run flushKillsRead = some (s, tr) ∧
      skelDriver.Meets NoFailure flushKillsRead ∧ ¬ NoIoErrorReturned tr := by
  refine ⟨_, _, rfl, System.meets_of_check (by decide), fun hno => ?_⟩
  have hreturned := hno (- EIO) []
  exact hreturned (by decide) (Or.inl rfl)

end Skel
end USB
end KernelDrivers
