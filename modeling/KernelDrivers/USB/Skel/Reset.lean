import KernelDrivers.Lib.Pool
import KernelDrivers.USB.Skel.Mutex
import KernelDrivers.USB.Skel.Results

/-!
# The notification about a reset

`skel_post_reset` leaves `-EPIPE` in `errors` for the next call.  `skel_read`
looks at `errors` inside `io_mutex` and cannot miss it, but `skel_write` looks
before it takes the mutex: a writer that has looked when the reset comes
submits its URB behind it, and one that is about to clear an older error
clears the `-EPIPE`.  Where no writer stands there, the notification reaches a
caller before the next URB is submitted.

The `-EPIPE` of a reset and that of a stalled URB are the same number, so the
law follows the one that the reset has stored: an observer writes down whether
it is still in `errors` and which calls have read it there.
-/

namespace KernelDrivers
namespace USB
namespace Skel

open Lib

/-! ## What is promised -/

def ReadPc.carriesPipe : ReadPc → Bool
  | .clearErrors rv | .exit rv _ => rv = -EPIPE
  | _ => false

def WritePc.carriesPipe : WritePc → Bool
  | .clearErrors rv | .error rv _ | .up rv => rv = -EPIPE
  | _ => false

def FlushPc.carriesPipe : FlushPc → Bool
  | .exit res => res = -EPIPE
  | _ => false

/-- The call has `-EPIPE` in hand and is going to return it. -/
def Op.carriesPipe : Op → Bool
  | .read _ _ pc => pc.carriesPipe
  | .write _ _ pc => pc.carriesPipe
  | .flush pc => pc.carriesPipe

/-- The next step of the call stores `0` to `errors`. -/
def Op.clearsErrors : Op → Bool
  | .read _ _ (.clearErrors _) | .write _ _ (.clearErrors _)
  | .flush .collect => true
  | _ => false

def Event.returnsPipe : Event → Bool
  | .returned rv _ => rv = -EPIPE
  | _ => false

/-- The notification of one reset, from the store in `skel_post_reset` until a
call has returned it. -/
structure Notice where
  /-- The `-EPIPE` of this reset is still in `errors`: no other status has been
  stored since. -/
  stored : Bool
  /-- The calls that have read it there. -/
  takers : List Nat
  deriving DecidableEq

/-- A step of a call: it may read the notification, clear it, or return what it
has read. -/
def Notice.afterCall (n : Notice) (i : Nat) (op : Op) (ev : List Event) :
    Option Notice :=
  if i ∈ n.takers ∧ ev.any Event.returnsPipe then none
  else
    some {
      stored := n.stored && !op.clearsErrors
      takers :=
        if n.stored && op.looksAtErrors then i :: n.takers else n.takers }

/-- What a step makes of a notification; `none` when it has been returned.  An
`-EPIPE` from elsewhere does not count. -/
def Notice.after (s : State) (a : Act) (ev : List Event) (n : Notice) :
    Option Notice :=
  match a with
  | .call i _ =>
      match s.calls[i]? with
      | some (_, op) => n.afterCall i op ev
      | none => some n
  | .readCompletes status _ | .writeCompletes _ status =>
      some { n with stored := n.stored && status = 0 }
  | _ => some n

/-- What an observer of the driver keeps. -/
structure ResetWatch where
  /-- The notifications that are out, one for each reset. -/
  out : List Notice
  /-- An URB was submitted while one was out. -/
  bypassed : Bool
  deriving DecidableEq

def ResetWatch.observe (s : State) (a : Act) (ev : List Event)
    (w : ResetWatch) : ResetWatch where
  out := w.out.filterMap (Notice.after s a ev) ++
    if .resetRecorded ∈ ev then [⟨true, []⟩] else []
  bypassed := w.bypassed || (!w.out.isEmpty && ev.any Event.submission)

/-- All runs of the driver, with the notifications written down. -/
def resetWatch : System (State × ResetWatch) Act Event :=
  skelDriver.watch ⟨[], false⟩ ResetWatch.observe

/-- The notification is in `errors`, or a call that has read it there has it
in hand. -/
def Notice.Kept (s : State) (n : Notice) : Prop :=
  (n.stored = true ∧ s.dev.errors = -EPIPE) ∨
    ∃ j ∈ n.takers, ∃ c, s.calls[j]? = some c ∧ c.2.carriesPipe = true

/-- No URB passes by a notification, and none is lost before it has been
returned. -/
structure ResetLaw (s : State) (w : ResetWatch) : Prop where
  bypass : w.bypassed = false
  kept : ∀ n ∈ w.out, n.Kept s

/-! ## When it holds -/

/-- Between the read of `errors` and the submission. -/
def ReadPc.pastCheck : ReadPc → Bool
  | .clearErrors _ | .inspect | .copy _ | .markOngoing _ _
  | .emptyBuffer _ _ | .submit _ _ => true
  | _ => false

/-- Between the read of `errors` and the submission. -/
def WritePc.pastCheck : WritePc → Bool
  | .clearErrors _ | .allocUrb | .allocCoherent | .copyFromUser _ | .lockIo _
  | .locked _ | .submit _ => true
  | _ => false

def Op.pastCheck : Op → Bool
  | .read _ _ pc => pc.pastCheck
  | .write _ _ pc => pc.pastCheck
  | .flush _ => false

def Op.isWrite : Op → Bool
  | .write _ _ _ => true
  | _ => false

/-- When `skel_post_reset` stores `-EPIPE`, no `skel_write` is between its read
of `errors` and its submission, and nothing is submitted while a `skel_write`
is on its way out with a notification that is out. -/
def NoWriterPast (w : State × ResetWatch) : Act → Prop
  | .core _ _ => w.1.core = .inReset →
      ∀ c ∈ w.1.calls, (c.2.isWrite && c.2.pastCheck) = false
  | .call i o => ∀ c ∈ w.1.calls[i]?, c.2.submits o = true →
      ∀ n ∈ w.2.out, ∀ j ∈ n.takers, ∀ c' ∈ w.1.calls[j]?,
        (c'.2.isWrite && c'.2.carriesPipe) = false
  | _ => True

instance (w : State × ResetWatch) (a : Act) : Decidable (NoWriterPast w a) :=
  match a with
  | .core _ _ => inferInstanceAs (Decidable (_ → ∀ _ ∈ _, _))
  | .call _ _ =>
      inferInstanceAs (Decidable (∀ _ ∈ _, _ → ∀ _ ∈ _, ∀ _ ∈ _, ∀ _ ∈ _, _))
  | .suspend | .reset | .disconnect | .openFile | .release _
  | .file _ _ | .enterRead _ _ _ | .enterWrite _ _ _ | .enterFlush _
  | .readCompletes _ _ | .readWakesUp | .writeCompletes _ _
  | .writeCallback _ => isTrue trivial

/-! ## The device is drawn down when the reset is recorded -/

/-- Behind the wait for the write URBs in `skel_pre_reset`. -/
def Core.writesDown : Core → Bool
  | .preResetLocked .killRead | .inReset => true
  | _ => false

/-- "We are sure no URBs are active". -/
structure DrawnDown (s : State) : Prop where
  submitted : s.core.writesDown = true → s.dev.submitted = []
  bulkInUrb : s.core = .inReset → s.dev.bulkInUrb = none

/-- `skel_draw_down` goes on to the read URB when the anchor is empty. -/
theorem drawDown_next {d : UsbSkel} {pc : DrawDown} {o : Outcome}
    (h : drawDown d pc o = some (some .killRead)) : d.submitted = [] := by
  cases pc with
  | waitAnchor =>
      cases o with
      | ok => simpa [drawDown] using h
      | fails err => cases h
  | killAnchored => simpa [drawDown] using h
  | killRead => simp [drawDown] at h

theorem drawDown_end {d : UsbSkel} {pc : DrawDown} {o : Outcome}
    (h : drawDown d pc o = some none) :
    pc = .killRead ∧ d.bulkInUrb = none := by
  cases pc with
  | waitAnchor => cases o <;> simp [drawDown] at h
  | killAnchored => simp [drawDown] at h
  | killRead =>
      simp only [drawDown, Option.ite_none_right_eq_some] at h
      exact ⟨rfl, h.1.1⟩

theorem Core.holdsIo_of_writesDown {core : Core}
    (h : core.writesDown = true) : core.holdsIo = true := by
  unfold Core.writesDown at h
  split at h
  · rfl
  · rfl
  · cases h

theorem DrawnDown.core {s s' : State} {o : Outcome} {ev : List Event}
    (h : DrawnDown s) (hmove : CoreMove s s.core o s' ev) : DrawnDown s' := by
  generalize hpc : s.core = pc at hmove
  cases hmove with
  | @preResetLocked _ _ pc' hdraw =>
      refine ⟨fun hwrites => ?_, nofun⟩
      cases pc' with
      | killRead => exact drawDown_next hdraw
      | _ => cases hwrites
  | drawnDown hdraw =>
      obtain ⟨rfl, hurb⟩ := drawDown_end hdraw
      exact ⟨fun _ => h.submitted (by rw [hpc]; rfl), fun _ => hurb⟩
  | _ => exact ⟨nofun, nofun⟩

theorem drawnDown_of_reachable {s : State} (h : skelDriver.Reachable s) :
    DrawnDown s := by
  refine skelDriver.reachable_induction ?_ ?_ h
  · exact ⟨fun _ => rfl, fun _ => rfl⟩
  · intro s a s' ev hreach ih hstep
    cases step_cases hstep with
    | core hmove => exact ih.core hmove
    | suspend | reset | disconnect => exact ⟨nofun, nofun⟩
    | file _ hmove =>
        obtain ⟨k, n, rfl⟩ := hmove.frame
        exact ⟨ih.submitted, ih.bulkInUrb⟩
    | @call i o f op _ _ _ hcall hmove =>
        have hquiet : s.core.holdsIo = true → op.submits o = false :=
          fun hcore => (ioMutex_of_reachable hreach).not_submits hcore hcall o
        refine ⟨fun hwrites => ?_, fun hcore => ?_⟩
        · obtain ⟨-, -, hsubmitted, -⟩ :=
            hmove.urbs_eq (hquiet (Core.holdsIo_of_writesDown hwrites))
          exact hsubmitted.trans (ih.submitted hwrites)
        · have hheld : s.core.holdsIo = true := by
            rw [show s.core = .inReset from hcore]
            rfl
          exact (hmove.urbs_eq (hquiet hheld)).1.trans (ih.bulkInUrb hcore)
    | readCompletes => exact ⟨ih.submitted, fun _ => rfl⟩
    | writeCompletes hurb | writeFrees hurb | writeUps hurb =>
        refine ⟨fun hwrites => ?_, ih.bulkInUrb⟩
        rw [ih.submitted hwrites] at hurb
        cases hurb
    | _ => exact ⟨ih.submitted, ih.bulkInUrb⟩

/-- A reader that is past its check is inside `io_mutex`. -/
theorem Op.holdsIo_of_pastCheck {op : Op} (hwrite : op.isWrite = false)
    (h : op.pastCheck = true) : op.holdsIo = true := by
  cases op with
  | read nonblock count pc => cases pc <;> first | rfl | cases h
  | write => cases hwrite
  | flush => cases h

/-- So is a reader or a flush that holds the notification. -/
theorem Op.holdsIo_of_carries {op : Op} (hwrite : op.isWrite = false)
    (h : op.carriesPipe = true) : op.holdsIo = true := by
  cases op with
  | read nonblock count pc => cases pc <;> first | rfl | cases h
  | write => cases hwrite
  | flush pc => cases pc <;> first | rfl | cases h

theorem Op.not_submits_of_pastCheck {op : Op} (h : op.pastCheck = false)
    (o : Outcome) : op.submits o = false :=
  Op.not_submits (fun _ _ _ _ => rfl) (fun _ _ _ => rfl) h o

theorem Op.not_submits_of_carries {op : Op} (h : op.carriesPipe = true)
    (o : Outcome) : op.submits o = false :=
  Op.not_submits (p := fun op => !op.carriesPipe) (fun _ _ _ _ => rfl)
    (fun _ _ _ => rfl) (by rw [h]; rfl) o

/-! ## A notification that is out -/

/-- While a notification is out, nothing is in flight. -/
structure Quiet (s : State) : Prop where
  bulkInUrb : s.dev.bulkInUrb = none
  submitted : s.dev.submitted = []
  probed : s.core ≠ .unbound

/-- The notification is in `errors` and no call has passed its check, or a
call has it in hand. -/
def Notice.Safe (s : State) (n : Notice) : Prop :=
  (n.stored = true ∧ s.dev.errors = -EPIPE ∧
      ∀ c ∈ s.calls, c.2.pastCheck = false) ∨
    ∃ j ∈ n.takers, ∃ c, s.calls[j]? = some c ∧ c.2.carriesPipe = true

theorem Notice.Safe.kept {s : State} {n : Notice} (h : n.Safe s) : n.Kept s :=
  h.imp_left fun hstored => ⟨hstored.1, hstored.2.1⟩

theorem Notice.Safe.congr {s s' : State} {n : Notice} (h : n.Safe s)
    (herrors : s.dev.errors = -EPIPE → s'.dev.errors = -EPIPE)
    (hcalls : s'.calls = s.calls) : n.Safe s' := by
  unfold Notice.Safe
  rw [hcalls]
  exact h.imp_left fun ⟨hstored, hpipe, hpast⟩ =>
    ⟨hstored, herrors hpipe, hpast⟩

/-- A call that begins has not passed its check. -/
theorem Notice.Safe.enter {s : State} {n : Notice} (h : n.Safe s) (f : Nat)
    {op : Op} (hop : op.pastCheck = false) :
    n.Safe { s with calls := s.calls ++ [(f, op)] } := by
  rcases h with ⟨hstored, herrors, hpast⟩ | ⟨j, hj, c, hcall, hcarries⟩
  · exact Or.inl ⟨hstored, herrors, Pool.forall_concat hpast hop⟩
  · exact Or.inr ⟨j, hj, c, Pool.concat_kept hcall (f, op), hcarries⟩

section Moves

variable {d d' : UsbSkel} {me : Owner} {o : Outcome} {ev : List Event}

/-- A call that has not passed its check stops there, or takes the
notification. -/
theorem OpMove.stops {op op' : Op} (h : OpMove d me op o d' op' ev)
    (hop : op.pastCheck = false) (herrors : d.errors = -EPIPE) :
    (op.clearsErrors = false ∧ op'.pastCheck = false ∧ d'.errors = -EPIPE) ∨
      (op.looksAtErrors = true ∧ op'.carriesPipe = true) := by
  have hneg : d.errors < 0 := by rw [herrors]; decide
  cases h with
  | read h =>
      cases h with
      | tanked =>
          exact Or.inr ⟨rfl, by simpa [Op.carriesPipe, ReadPc.carriesPipe]⟩
      | noError hnonneg => exact absurd hnonneg (Int.not_le.mpr hneg)
      | @unmarkOngoing _ _ next =>
          exact Or.inl ⟨rfl, by cases next <;> rfl, herrors⟩
      | _ => first | exact Or.inl ⟨rfl, rfl, herrors⟩ | cases hop
  | write h =>
      cases h with
      | tanked =>
          exact Or.inr ⟨rfl, by simpa [Op.carriesPipe, WritePc.carriesPipe]⟩
      | noError _ hnonneg => exact absurd hnonneg (Int.not_le.mpr hneg)
      | _ => first | exact Or.inl ⟨rfl, rfl, herrors⟩ | cases hop
  | flush h =>
      cases h with
      | collect => exact Or.inr ⟨rfl, by rw [herrors]; rfl⟩
      | _ => exact Or.inl ⟨rfl, rfl, herrors⟩

theorem any_returnsPipe {rv : Int} {user : List UInt8}
    (h : decide (rv = -EPIPE) = true) :
    [Event.returned rv user].any Event.returnsPipe = true := by
  simpa [Event.returnsPipe] using h

/-- A call that has taken the notification returns it. -/
theorem OpMove.carries {op op' : Op} (h : OpMove d me op o d' op' ev)
    (hop : op.carriesPipe = true) :
    op'.carriesPipe = true ∨ ev.any Event.returnsPipe = true := by
  cases h with
  | read h =>
      cases h with
      | @clear _ rv =>
          have hrv : rv = -EPIPE := of_decide_eq_true hop
          exact Or.inl (by rw [hrv]; rfl)
      | exit => exact Or.inr (any_returnsPipe hop)
      | _ => cases hop
  | write h =>
      cases h with
      | @clear _ rv =>
          have hrv : rv = -EPIPE := of_decide_eq_true hop
          exact Or.inl (by rw [hrv]; rfl)
      | freeCoherent => exact Or.inl hop
      | up => exact Or.inr (any_returnsPipe hop)
      | _ => cases hop
  | flush h =>
      cases h with
      | exit => exact Or.inr (any_returnsPipe hop)
      | _ => cases hop

end Moves

/-- A writer or a reader that holds a notification keeps all submissions
away, the one by assumption, the other by `io_mutex`. -/
theorem not_submits_of_carries {s : State} {w : ResetWatch}
    (hmutex : IoMutex s) {i f : Nat} {op : Op} {o : Outcome}
    (hcall : s.calls[i]? = some (f, op))
    (hok : NoWriterPast (s, w) (.call i o)) {n : Notice} (hn : n ∈ w.out)
    {j : Nat} (htaker : j ∈ n.takers) {c : Nat × Op}
    (hj : s.calls[j]? = some c) (hcarries : c.2.carriesPipe = true) :
    op.submits o = false := by
  by_contra hno
  have hsubmits : op.submits o = true := by simpa using hno
  cases hwrite : c.2.isWrite with
  | true =>
      -- a writer holds no mutex on its way out
      have := hok (f, op) hcall hsubmits n hn j htaker c hj
      rw [hwrite, hcarries] at this
      cases this
  | false =>
      have hme : s.HoldsIo (.call i) :=
        (State.holdsIo_call hcall).mpr (Op.holdsIo_of_submits hsubmits)
      have hother : s.HoldsIo (.call j) :=
        (State.holdsIo_call hj).mpr (Op.holdsIo_of_carries hwrite hcarries)
      cases hmutex.unique hme hother
      cases hcall.symm.trans hj
      rw [Op.not_submits_of_carries hcarries o] at hsubmits
      cases hsubmits

/-- No call submits while a notification is out. -/
theorem Notice.Safe.not_submits {s : State} {w : ResetWatch} {n : Notice}
    (h : n.Safe s) (hmutex : IoMutex s) {i f : Nat} {op : Op} {o : Outcome}
    (hcall : s.calls[i]? = some (f, op))
    (hok : NoWriterPast (s, w) (.call i o)) (hn : n ∈ w.out) :
    op.submits o = false := by
  rcases h with ⟨-, -, hpast⟩ | ⟨j, htaker, c, hj, hcarries⟩
  · exact Op.not_submits_of_pastCheck
      (hpast (f, op) (List.mem_of_getElem? hcall)) o
  · exact not_submits_of_carries hmutex hcall hok hn htaker hj hcarries

/-- A step of a call while a notification is out: the notification stays out,
in `errors` or in the hands of a call, unless the step returns it. -/
theorem Notice.Safe.call {s : State} {i f : Nat} {op op' : Op} {o : Outcome}
    {d' : UsbSkel} {ev : List Event} {n n' : Notice} (h : n.Safe s)
    (hcall : s.calls[i]? = some (f, op))
    (hmove : OpMove s.dev (.call i) op o d' op' ev)
    (hafter : n.afterCall i op ev = some n') :
    n'.Safe { s with dev := d', calls := s.calls.set i (f, op') } := by
  have hself : (s.calls.set i (f, op'))[i]? = some (f, op') :=
    Pool.set_self hcall
  have hreturned : ¬(i ∈ n.takers ∧ ev.any Event.returnsPipe = true) := by
    intro hreturned
    rw [Notice.afterCall, if_pos hreturned] at hafter
    cases hafter
  rw [Notice.afterCall, if_neg hreturned] at hafter
  cases hafter
  rcases h with ⟨hstored, herrors, hpast⟩ | ⟨j, htaker, c, hj, hcarries⟩
  · rcases hmove.stops (hpast (f, op) (List.mem_of_getElem? hcall)) herrors with
      ⟨hclears, hop', herrors'⟩ | ⟨hreads, htaken⟩
    · exact Or.inl ⟨by simp [hstored, hclears], herrors',
        Pool.forall_set hpast hop'⟩
    · exact Or.inr ⟨i, by simp [hstored, hreads], (f, op'), hself, htaken⟩
  · have htaker' : j ∈ if n.stored && op.looksAtErrors then i :: n.takers
        else n.takers := by
      split_ifs
      · exact List.mem_cons_of_mem i htaker
      · exact htaker
    by_cases hji : j = i
    · subst hji
      cases hcall.symm.trans hj
      rcases hmove.carries hcarries with hkept | hpipe
      · exact Or.inr ⟨j, htaker', (f, op'), hself, hkept⟩
      · exact absurd ⟨htaker, hpipe⟩ hreturned
    · exact Or.inr ⟨j, htaker', c, (Pool.set_other hji).trans hj, hcarries⟩

/-- Outside the two places where it stores to `errors` and allocates the
object, the thread of the USB core leaves `errors` and the URBs alone. -/
theorem CoreMove.staysQuiet {s s' : State} {o : Outcome} {ev : List Event}
    (hmove : CoreMove s s.core o s' ev) (h : Quiet s) :
    Quiet s' ∧
      (s'.dev.errors = s.dev.errors ∨ s'.dev.errors = -EPIPE) := by
  obtain ⟨hurb, hsubmitted, hprobed⟩ := h
  generalize s.core = pc at hmove hprobed
  cases hmove with
  | kzalloc => exact absurd rfl hprobed
  | postReset => exact ⟨⟨hurb, hsubmitted, nofun⟩, Or.inr rfl⟩
  | probeFails | dropRef =>
      obtain ⟨k, n, hput⟩ := krefPut_frame s.dev
      rw [hput]
      exact ⟨⟨hurb, hsubmitted, nofun⟩, Or.inl rfl⟩
  | _ => exact ⟨⟨hurb, hsubmitted, nofun⟩, Or.inl rfl⟩

/-- The device stays quiet as long as no call submits: nothing is in flight
that could complete. -/
theorem Quiet.step {s s' : State} {a : Act} {ev : List Event} (h : Quiet s)
    (hmove : Move s a s' ev)
    (hcalls : ∀ i o c, a = .call i o → s.calls[i]? = some c →
      c.2.submits o = false) :
    (∀ e ∈ ev, e.submission = false) ∧ Quiet s' := by
  cases hmove with
  | core hmove =>
      refine ⟨?_, (hmove.staysQuiet h).1⟩
      rcases hmove.events with rfl | rfl | rfl <;> simp [Event.submission]
  | suspend | reset | disconnect =>
      exact ⟨List.forall_mem_nil _, h.bulkInUrb, h.submitted, by simp⟩
  | file _ hmove =>
      obtain ⟨k, n, rfl⟩ := hmove.frame
      refine ⟨?_, h.bulkInUrb, h.submitted, h.probed⟩
      rcases hmove.events with rfl | rfl <;> simp [Event.submission]
  | @call i o _ _ _ _ _ hcall hmove =>
      obtain ⟨hurb, -, hsubmitted, hev⟩ :=
        hmove.urbs_eq (hcalls i o _ rfl hcall)
      exact ⟨hev, hurb.trans h.bulkInUrb, hsubmitted.trans h.submitted,
        h.probed⟩
  | readCompletes hurb =>
      rw [h.bulkInUrb] at hurb
      cases hurb
  | writeCompletes hurb | writeFrees hurb | writeUps hurb =>
      rw [h.submitted] at hurb
      cases hurb
  | _ =>
      exact ⟨List.forall_mem_nil _, h.bulkInUrb, h.submitted, h.probed⟩

/-- A notification that is out stays in safe hands until it is returned. -/
theorem Notice.Safe.step {s s' : State} {a : Act} {ev : List Event}
    {n n' : Notice} (h : n.Safe s) (hquiet : Quiet s) (hmove : Move s a s' ev)
    (hafter : n.after s a ev = some n') : n'.Safe s' := by
  cases hmove with
  | core hmove =>
      cases hafter
      refine h.congr (fun herrors => ?_) hmove.calls_eq
      rcases (hmove.staysQuiet hquiet).2 with hkept | hpipe
      · exact hkept.trans herrors
      · exact hpipe
  | file _ hmove =>
      cases hafter
      obtain ⟨k, m, rfl⟩ := hmove.frame
      exact h.congr id rfl
  | enterRead | enterWrite | enterFlush =>
      cases hafter
      exact h.enter _ rfl
  | call hcall hmove =>
      simp only [Notice.after, hcall] at hafter
      exact h.call hcall hmove hafter
  | readCompletes hurb =>
      rw [hquiet.bulkInUrb] at hurb
      cases hurb
  | writeCompletes hurb | writeFrees hurb | writeUps hurb =>
      rw [hquiet.submitted] at hurb
      cases hurb
  | _ =>
      cases hafter
      exact h.congr id rfl

/-! ## The step that records a reset -/

theorem OpMove.not_recorded {d d' : UsbSkel} {me : Owner} {o : Outcome}
    {ev : List Event} {op op' : Op} (h : OpMove d me op o d' op' ev) :
    Event.resetRecorded ∉ ev := by
  cases h with
  | read h => cases h <;> simp
  | write h => cases h <;> simp
  | flush h => cases h <;> simp

/-- Only `skel_post_reset` records a reset. -/
theorem Move.recorded {s s' : State} {a : Act} {ev : List Event}
    (h : Move s a s' ev) (hev : Event.resetRecorded ∈ ev) :
    s.core = .inReset ∧ (∃ o maxp, a = .core o maxp) ∧
      s' = { s with
        dev := { s.dev with errors := -EPIPE }
        core := .postResetUnlock } := by
  cases h with
  | @core o maxp _ _ hmove =>
      generalize s.core = pc at hmove ⊢
      cases hmove with
      | postReset => exact ⟨rfl, ⟨o, maxp, rfl⟩, rfl⟩
      | probeFails | dropRef =>
          rcases krefPut_events s.dev with hnone | hone
          · rw [hnone] at hev
            cases hev
          · rw [hone] at hev
            cases List.mem_singleton.mp hev
      | _ => cases hev
  | file _ hmove =>
      rcases hmove.events with rfl | rfl
      · cases hev
      · cases List.mem_singleton.mp hev
  | call _ hmove => exact absurd hev hmove.not_recorded
  | readCompletes | writeCompletes | writeFrees =>
      cases List.mem_singleton.mp hev
  | _ => cases hev

/-- When the reset records its notification, the device is drawn down and the
mutex keeps the readers out, so that only writers could be past their
check. -/
theorem safe_of_postReset {s : State} (hreach : skelDriver.Reachable s)
    (hcore : s.core = .inReset)
    (hwriters : ∀ c ∈ s.calls, (c.2.isWrite && c.2.pastCheck) = false) :
    Quiet { s with
        dev := { s.dev with errors := -EPIPE }
        core := .postResetUnlock } ∧
      Notice.Safe { s with
        dev := { s.dev with errors := -EPIPE }
        core := .postResetUnlock } ⟨true, []⟩ := by
  have hdown := drawnDown_of_reachable hreach
  have hheld : s.core.holdsIo = true := by
    rw [hcore]
    rfl
  refine ⟨⟨hdown.bulkInUrb hcore, hdown.submitted (by rw [hcore]; rfl), nofun⟩,
    Or.inl ⟨rfl, rfl, fun c hc => ?_⟩⟩
  by_contra hno
  have hpast : c.2.pastCheck = true := by simpa using hno
  cases hwrite : c.2.isWrite with
  | true =>
      have := hwriters c hc
      rw [hwrite, hpast] at this
      cases this
  | false =>
      have hout := (ioMutex_of_reachable hreach).outside_of_core hheld hc
      rw [Op.holdsIo_of_pastCheck hwrite hpast] at hout
      cases hout

/-! ## Whole runs -/

/-- The invariant of the runs that meet the condition. -/
structure ResetInv (s : State) (w : ResetWatch) : Prop where
  bypass : w.bypassed = false
  quiet : w.out ≠ [] → Quiet s
  safe : ∀ n ∈ w.out, n.Safe s

theorem ResetInv.law {s : State} {w : ResetWatch} (h : ResetInv s w) :
    ResetLaw s w where
  bypass := h.bypass
  kept n hn := (h.safe n hn).kept

theorem mem_observe {s : State} {a : Act} {ev : List Event} {w : ResetWatch}
    {n' : Notice} (h : n' ∈ (w.observe s a ev).out) :
    (∃ n ∈ w.out, n.after s a ev = some n') ∨
      (n' = ⟨true, []⟩ ∧ Event.resetRecorded ∈ ev) := by
  rcases List.mem_append.mp h with hold | hnew
  · exact Or.inl (List.mem_filterMap.mp hold)
  · split_ifs at hnew with hev
    · exact Or.inr ⟨List.mem_singleton.mp hnew, hev⟩
    · cases hnew

theorem ResetInv.step {s s' : State} {w : ResetWatch} {a : Act}
    {ev : List Event} (h : ResetInv s w) (hreach : skelDriver.Reachable s)
    (hmove : Move s a s' ev) (hok : NoWriterPast (s, w) a) :
    ResetInv s' (w.observe s a ev) := by
  -- while a notification is out, the step is no submission
  have hout : ∀ n ∈ w.out, (∀ e ∈ ev, e.submission = false) ∧ Quiet s' := by
    intro n hn
    refine (h.quiet (List.ne_nil_of_mem hn)).step hmove ?_
    rintro i o ⟨f, op⟩ rfl hcall
    exact (h.safe n hn).not_submits (ioMutex_of_reachable hreach) hcall hok hn
  -- and a step that records one leaves the device quiet
  have hnew : Event.resetRecorded ∈ ev →
      Quiet s' ∧ Notice.Safe s' ⟨true, []⟩ := by
    intro hev
    obtain ⟨hcore, ⟨o, maxp, rfl⟩, rfl⟩ := hmove.recorded hev
    exact safe_of_postReset hreach hcore (hok hcore)
  refine ⟨?_, fun hne => ?_, fun n' hn' => ?_⟩
  · change (w.bypassed || (!w.out.isEmpty && ev.any Event.submission)) = false
    rw [h.bypass, Bool.false_or]
    cases hlist : w.out with
    | nil => rfl
    | cons n rest =>
        have hev := (hout n (by rw [hlist]; exact List.mem_cons_self)).1
        simpa using hev
  · obtain ⟨n', hn'⟩ := List.exists_mem_of_ne_nil _ hne
    rcases mem_observe hn' with ⟨n, hn, -⟩ | ⟨-, hev⟩
    · exact (hout n hn).2
    · exact (hnew hev).1
  · rcases mem_observe hn' with ⟨n, hn, hafter⟩ | ⟨rfl, hev⟩
    · exact (h.safe n hn).step (h.quiet (List.ne_nil_of_mem hn)) hmove hafter
    · exact (hnew hev).2

/-- In every run in which no writer is past its check when a reset is recorded,
and in which nothing is submitted while a writer is on its way out with the
notification, the notification about the reset is neither bypassed nor
lost. -/
theorem resetLaw_of_noWriterPast {actions : List Act}
    (hok : resetWatch.Meets NoWriterPast actions) :
    resetWatch.Always (fun s _ => ResetLaw s.1 s.2) actions := by
  have halways : resetWatch.Always (fun s _ => ResetInv s.1 s.2) actions := by
    refine hok.always ⟨rfl, fun hne => absurd rfl hne, nofun⟩ ?_
    rintro ⟨s, w⟩ tr a ⟨s', w'⟩ ev hreach hinv hstep ha
    obtain ⟨hmove, rfl⟩ := System.watch_step hstep
    exact hinv.step hreach.of_watch (step_cases hmove) ha
  intro before s tr hpre hrun
  exact (halways before s tr hpre hrun).law

/-- The device is reset while nothing else goes on. -/
def resetDevice : List Act :=
  .reset :: List.replicate 5 (.core .ok 0)

/-- The next read reports the reset, and the one behind it submits its URB. -/
def resetThenRead : List Act :=
  bringUp ++ resetDevice ++ [.enterRead 0 false 4] ++
    List.replicate 6 (.call 0 .ok) ++ [.enterRead 0 false 4] ++
    List.replicate 8 (.call 1 .ok)

theorem resetLaw_resetThenRead :
    resetWatch.Always (fun s _ => ResetLaw s.1 s.2) resetThenRead ∧
      ∃ s, resetWatch.run resetThenRead =
        some ((s, ⟨[], false⟩),
          [.resetRecorded, .returned (-EPIPE) [], .readSubmitted 4]) :=
  ⟨resetLaw_of_noWriterPast (System.meets_of_check (by decide)), _, rfl⟩

/-- A writer looks at `errors`, the device is reset, and the writer submits its
URB. -/
def writePastReset : List Act :=
  bringUp ++ [.enterWrite 0 false 1] ++ List.replicate 2 (.call 0 .ok) ++
    resetDevice ++ List.replicate 6 (.call 0 .ok)

theorem write_bypasses_reset :
    ∃ s w tr, resetWatch.run writePastReset = some ((s, w), tr) ∧
      ¬ ResetLaw s w := by
  refine ⟨_, _, _, rfl, fun hlaw => ?_⟩
  cases hlaw.bypass

/-- An URB stalls, the next writer reads its `-EPIPE`, and clears `errors` when
the device has been reset. -/
def clearPastReset : List Act :=
  bringUp ++ [.enterWrite 0 false 1] ++ List.replicate 9 (.call 0 .ok) ++
    [.writeCompletes 0 (-EPIPE), .writeCallback 0, .writeCallback 0,
      .enterWrite 0 false 1] ++
    List.replicate 2 (.call 1 .ok) ++ resetDevice ++ [.call 1 .ok]

/-- The notification is neither in `errors` nor with any call. -/
example : (resetWatch.run clearPastReset).map (fun after =>
    (after.1.1.dev.errors, after.1.2)) = some (0, ⟨[⟨false, []⟩], false⟩) := by
  decide

end Skel
end USB
end KernelDrivers
