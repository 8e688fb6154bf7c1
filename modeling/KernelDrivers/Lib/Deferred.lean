import KernelDrivers.Lib.System
import Mathlib.Data.Fintype.Basic
import Mathlib.Logic.Function.Basic

/-!
# Deferred work and the unload of a module

A module hands functions to the kernel that run later and on their own: the
callbacks of timers, tasklets and work items.  The functions are part of the
module, so none of them may run, or wait to be run, when the module is gone.

A module is given by the statements of its init routine, of its exit routine
and of the handler of each item.  `learn` reads off the exit routine which items
it stops for good, and `safe_iff` is what follows: the unload is safe exactly
when the other items have come to rest by themselves.

The statements are interleaved as on a multiprocessor.  A waiter whose condition
holds may go on before it is woken.
-/

namespace KernelDrivers
namespace Lib
namespace Deferred

/-- A statement of a module with items `ι`. -/
inductive Op (ι : Type*) where
  | print (text : String)
  /-- A call into the kernel that has nothing to do with the items. -/
  | call (function : String)
  /-- `mod_timer`, `hrtimer_start`, `tasklet_schedule`, `schedule_work`,
  `schedule_delayed_work`. -/
  | schedule (j : ι)
  /-- `del_timer`, and what the module says if the item was on its queue.  It
  does not wait for the callback. -/
  | cancel (j : ι) (busy : Option String)
  /-- `del_timer_sync`, `hrtimer_cancel`. -/
  | cancelSync (j : ι) (busy : Option String)
  /-- `tasklet_kill` takes the scheduled bit when it is free. -/
  | claim (j : ι)
  /-- Then it waits for the handler, and gives the bit back. -/
  | unlock (j : ι)
  /-- `tasklet_disable` counts, and then waits for the handler. -/
  | disable (j : ι)
  | unlockWait (j : ι)
  /-- `tasklet_enable`. -/
  | enable (j : ι)
  /-- `wait_event_interruptible` for the module's condition. -/
  | wait
  | setCondition
  deriving DecidableEq

/-- The statements a handler may have: it stops no item. -/
def Op.inHandler {ι : Type*} : Op ι → Bool
  | .print _ | .call _ | .schedule _ | .disable _ | .unlockWait _
  | .enable _ | .setCondition => true
  | _ => false

/-- A timer, a tasklet or a work item. -/
structure Item (ι : Type*) where
  pending : Bool := false
  /-- The scheduled bit is with a `tasklet_kill`. -/
  claimed : Bool := false
  disabled : Nat := 0
  /-- What the handler has still to do while it runs. -/
  running : Option (List (Op ι)) := none

structure Module (ι : Type*) where
  init : List (Op ι)
  handler : ι → List (Op ι)
  exit : List (Op ι)

/-- The process that loads and unloads the module. -/
inductive Main (ι : Type*) where
  | init (rest : List (Op ι))
  | loaded
  | exit (done rest : List (Op ι))
  | unloaded

structure State (ι : Type*) where
  items : ι → Item ι
  main : Main ι
  condition : Bool

inductive Act (ι : Type*) where
  | main
  /-- A signal ends a `wait_event_interruptible`; no init routine looks at its
  value. -/
  | signal
  | rmmod
  | start (j : ι)
  | handler (j : ι)

/-- What a run shows, with the handler whose statement it was. -/
inductive Event (ι : Type*) where
  | printed (handler : Option ι) (text : String)
  | started (j : ι)
  | finished (j : ι)

section Semantics

variable {ι : Type*} [DecidableEq ι]

def State.setItem (s : State ι) (j : ι) (it : Item ι) : State ι :=
  { s with items := Function.update s.items j it }

/-- One statement.  A statement that has to wait is not enabled. -/
def exec (s : State ι) : Op ι → Option (State ι)
  | .print _ | .call _ => some s
  | .schedule j =>
      if (s.items j).pending || (s.items j).claimed then some s
      else some (s.setItem j { s.items j with pending := true })
  | .cancel j _ => some (s.setItem j { s.items j with pending := false })
  | .cancelSync j _ =>
      if (s.items j).running.isSome then none
      else some (s.setItem j { s.items j with pending := false })
  | .claim j =>
      if (s.items j).pending || (s.items j).claimed then none
      else some (s.setItem j { s.items j with claimed := true })
  | .unlock j =>
      if (s.items j).running.isSome then none
      else some (s.setItem j { s.items j with claimed := false })
  | .disable j =>
      some (s.setItem j { s.items j with disabled := (s.items j).disabled + 1 })
  | .unlockWait j => if (s.items j).running.isSome then none else some s
  | .enable j =>
      some (s.setItem j { s.items j with disabled := (s.items j).disabled - 1 })
  | .wait => if s.condition then some s else none
  | .setCondition => some { s with condition := true }

def Op.shows (s : State ι) (who : Option ι) : Op ι → List (Event ι)
  | .print text => [.printed who text]
  | .cancel j busy | .cancelSync j busy =>
      if (s.items j).pending then busy.toList.map (.printed who) else []
  | _ => []

def State.step (P : Module ι) (s : State ι) :
    Act ι → Option (State ι × List (Event ι))
  | .main =>
      match s.main with
      | .init [] => some ({ s with main := .loaded }, [])
      | .init (op :: rest) =>
          (exec s op).map fun s' => ({ s' with main := .init rest },
            op.shows s none)
      | .exit _ [] => some ({ s with main := .unloaded }, [])
      | .exit done (op :: rest) =>
          (exec s op).map fun s' =>
            ({ s' with main := .exit (done ++ [op]) rest }, op.shows s none)
      | _ => none
  | .signal =>
      match s.main with
      | .init (.wait :: rest) => some ({ s with main := .init rest }, [])
      | _ => none
  | .rmmod =>
      match s.main with
      | .loaded => some ({ s with main := .exit [] P.exit }, [])
      | _ => none
  | .start j =>
      if (s.items j).pending ∧ (s.items j).running.isNone ∧
          (s.items j).disabled = 0 then
        some (s.setItem j
          { s.items j with pending := false, running := some (P.handler j) },
          [.started j])
      else none
  | .handler j =>
      match (s.items j).running with
      | none => none
      | some [] =>
          some (s.setItem j { s.items j with running := none }, [.finished j])
      | some (op :: rest) =>
          (exec s op).map fun s' =>
            (s'.setItem j { s'.items j with running := some rest },
              op.shows s (some j))

def system (P : Module ι) : System (State ι) (Act ι) (Event ι) where
  init := { items := fun _ => {}, main := .init P.init, condition := false }
  step := State.step P

end Semantics

/-! ## What the exit routine stops -/

/-- Nothing of the item runs or waits to be run. -/
def Item.Idle {ι : Type*} (it : Item ι) : Prop :=
  it.pending = false ∧ it.running = none

/-- When the module is gone, nothing of it can run. -/
def Safe {ι : Type*} (s : State ι) (_ : List (Event ι)) : Prop :=
  ∀ j, s.main = .unloaded → (s.items j).Idle

/-- The step with which the exit routine returns. -/
def Ends {ι : Type*} (s : State ι) : Act ι → Prop
  | .main => ∃ done, s.main = .exit done []
  | _ => False

/-- What is known of the items inside the exit routine. -/
structure Known (ι : Type*) where
  /-- At rest, and left so by everybody. -/
  idle : List ι := []
  claimed : List ι := []
  /-- Not waiting to be run, and left so by everybody. -/
  unarmed : List ι := []

/-- Nobody but the item itself and items at rest schedules the item. -/
def Module.SchedulersIn {ι : Type*} (P : Module ι) (j : ι) (idle : List ι) : Prop :=
  ∀ k, .schedule j ∈ P.handler k → k = j ∨ k ∈ idle

section Analysis

variable {ι : Type*} [DecidableEq ι] [Fintype ι]

instance (P : Module ι) (j : ι) (idle : List ι) :
    Decidable (P.SchedulersIn j idle) :=
  inferInstanceAs (Decidable (∀ _, _ → _))

/-- What is known after one more statement of the exit routine. -/
def learn (P : Module ι) (known : Known ι) : Op ι → Known ι
  | .cancelSync j _ =>
      if P.SchedulersIn j known.idle then
        { known with idle := j :: known.idle }
      else known
  | .claim j => { known with claimed := j :: known.claimed }
  | .unlock j =>
      { known with
        idle :=
          if j ∈ known.claimed ∧ P.SchedulersIn j known.idle then
            j :: known.idle
          else known.idle
        claimed := known.claimed.filter (· ≠ j) }
  | .cancel j _ =>
      if ∀ k, .schedule j ∉ P.handler k then
        { known with unarmed := j :: known.unarmed }
      else known
  | .schedule _ => { known with idle := [], unarmed := [] }
  | _ => known

def learnt (P : Module ι) (done : List (Op ι)) : Known ι :=
  done.foldl (learn P) {}

/-- At the end of the exit routine every item is at rest that the routine has
not stopped. -/
def Leaves (P : Module ι) (s : State ι) (a : Act ι) : Prop :=
  Ends s a → ∀ j ∉ (learnt P P.exit).idle, (s.items j).running = none ∧
    (j ∉ (learnt P P.exit).unarmed → (s.items j).pending = false)

end Analysis

/-! ## One statement -/

/-- A statement shows only messages, of whoever runs it. -/
theorem Op.mem_shows {ι : Type*} {s : State ι} {op : Op ι} {who : Option ι}
    {e : Event ι} (h : e ∈ op.shows s who) :
    ∃ text, e = .printed who text := by
  cases op with
  | print text => exact ⟨text, List.mem_singleton.mp h⟩
  | cancel j busy | cancelSync j busy =>
      simp only [Op.shows] at h
      split_ifs at h
      · obtain ⟨text, -, rfl⟩ := List.mem_map.mp h
        exact ⟨text, rfl⟩
      · cases h
  | _ => cases h

section Statements

variable {ι : Type*} [DecidableEq ι] {P : Module ι} {s s' : State ι} {op : Op ι}
  {a : Act ι} {ev : List (Event ι)} {k : ι}

@[simp] theorem State.setItem_items (s : State ι) (j : ι) (it : Item ι) (k : ι) :
    (s.setItem j it).items k = if k = j then it else s.items k :=
  Function.update_apply ..

@[simp] theorem State.setItem_main (s : State ι) (j : ι) (it : Item ι) :
    (s.setItem j it).main = s.main := rfl

theorem setRunning_pending (s : State ι) (j : ι)
    (after : Option (List (Op ι))) (k : ι) :
    ((s.setItem j { s.items j with running := after }).items k).pending =
      (s.items k).pending := by
  rw [State.setItem_items]
  split_ifs with hkj
  · rw [hkj]
  · rfl

theorem setRunning_claimed (s : State ι) (j : ι)
    (after : Option (List (Op ι))) (k : ι) :
    ((s.setItem j { s.items j with running := after }).items k).claimed =
      (s.items k).claimed := by
  rw [State.setItem_items]
  split_ifs with hkj
  · rw [hkj]
  · rfl

/-- What a statement may do to an item. -/
structure Op.Changes {ι : Type*} (op : Op ι) (j : ι) (old new : Item ι) : Prop where
  running : new.running = old.running
  /-- An item gets on its queue only when it is scheduled and nobody has its
  bit. -/
  queued : new.pending = true →
    old.pending = true ∨ op = .schedule j ∧ old.claimed = false
  unqueued : (∀ busy, op ≠ .cancel j busy) → (∀ busy, op ≠ .cancelSync j busy) →
    old.pending = true → new.pending = true
  kept : op ≠ .unlock j → old.claimed = true → new.claimed = true
  taken : new.claimed = true → old.claimed = true ∨ op = .claim j
  disabled : op ≠ .disable j → new.disabled ≤ old.disabled

theorem Op.Changes.refl {ι : Type*} (op : Op ι) (j : ι) (it : Item ι) :
    op.Changes j it it :=
  ⟨rfl, Or.inl, fun _ _ => id, fun _ => id, Or.inl, fun _ => Nat.le_refl _⟩

/-- A statement either leaves the items alone, or sets one of them. -/
theorem exec_cases (h : exec s op = some s') :
    (s'.main = s.main ∧ s'.items = s.items) ∨
      ∃ j it, s' = s.setItem j it ∧ op.Changes j (s.items j) it := by
  cases op with
  | print | call | setCondition => cases h; exact Or.inl ⟨rfl, rfl⟩
  | wait =>
      simp only [exec] at h
      split_ifs at h
      cases h
      exact Or.inl ⟨rfl, rfl⟩
  | unlockWait j =>
      simp only [exec] at h
      split_ifs at h
      cases h
      exact Or.inl ⟨rfl, rfl⟩
  | schedule j =>
      simp only [exec] at h
      split_ifs at h with hbit <;> cases h
      · exact Or.inl ⟨rfl, rfl⟩
      · have hfree : (s.items j).claimed = false := by simp_all
        exact Or.inr ⟨j, _, rfl, rfl, fun _ => Or.inr ⟨rfl, hfree⟩,
          fun _ _ _ => rfl, fun _ => id, Or.inl, fun _ => Nat.le_refl _⟩
  | cancel j busy =>
      cases h
      exact Or.inr ⟨j, _, rfl, rfl, nofun, fun hno _ => absurd rfl (hno busy),
        fun _ => id, Or.inl, fun _ => Nat.le_refl _⟩
  | cancelSync j busy =>
      simp only [exec] at h
      split_ifs at h
      cases h
      exact Or.inr ⟨j, _, rfl, rfl, nofun, fun _ hno => absurd rfl (hno busy),
        fun _ => id, Or.inl, fun _ => Nat.le_refl _⟩
  | claim j =>
      simp only [exec] at h
      split_ifs at h
      cases h
      exact Or.inr ⟨j, _, rfl, rfl, Or.inl, fun _ _ => id, fun _ _ => rfl,
        fun _ => Or.inr rfl, fun _ => Nat.le_refl _⟩
  | unlock j =>
      simp only [exec] at h
      split_ifs at h
      cases h
      exact Or.inr ⟨j, _, rfl, rfl, Or.inl, fun _ _ => id,
        fun hno => absurd rfl hno, nofun, fun _ => Nat.le_refl _⟩
  | disable j =>
      cases h
      exact Or.inr ⟨j, _, rfl, rfl, Or.inl, fun _ _ => id, fun _ => id, Or.inl,
        fun hno => absurd rfl hno⟩
  | enable j =>
      cases h
      exact Or.inr ⟨j, _, rfl, rfl, Or.inl, fun _ _ => id, fun _ => id, Or.inl,
        fun _ => Nat.sub_le _ 1⟩

theorem exec_main (h : exec s op = some s') : s'.main = s.main := by
  rcases exec_cases h with ⟨hmain, -⟩ | ⟨j, it, rfl, -⟩
  · exact hmain
  · rfl

theorem exec_changes (h : exec s op = some s') (k : ι) :
    op.Changes k (s.items k) (s'.items k) := by
  rcases exec_cases h with ⟨-, hitems⟩ | ⟨j, it, rfl, hchanges⟩
  · rw [hitems]
    exact Op.Changes.refl op k _
  · rw [State.setItem_items]
    split_ifs with hkj
    · rw [hkj]
      exact hchanges
    · exact Op.Changes.refl op k _

/-- No statement starts or ends a handler. -/
theorem exec_running (h : exec s op = some s') (k : ι) :
    (s'.items k).running = (s.items k).running :=
  (exec_changes h k).running

theorem exec_pending (h : exec s op = some s') (hk : (s'.items k).pending = true) :
    (s.items k).pending = true ∨
      op = .schedule k ∧ (s.items k).claimed = false :=
  (exec_changes h k).queued hk

theorem exec_claimed (h : exec s op = some s') (hop : op ≠ .unlock k)
    (hk : (s.items k).claimed = true) : (s'.items k).claimed = true :=
  (exec_changes h k).kept hop hk

/-- The steps of the process that loads and unloads the module. -/
theorem main_cases (h : State.step P s .main = some (s', ev)) :
    (s.main = .init [] ∧ s' = { s with main := .loaded }) ∨
    (∃ op rest t, s.main = .init (op :: rest) ∧ exec s op = some t ∧
      s' = { t with main := .init rest }) ∨
    (∃ done, s.main = .exit done [] ∧ s' = { s with main := .unloaded }) ∨
    ∃ done op rest t, s.main = .exit done (op :: rest) ∧ exec s op = some t ∧
      s' = { t with main := .exit (done ++ [op]) rest } := by
  simp only [State.step] at h
  split at h
  · cases h
    exact Or.inl ⟨‹_›, rfl⟩
  · obtain ⟨t, hexec, heq⟩ := Option.map_eq_some_iff.mp h
    cases heq
    exact Or.inr (Or.inl ⟨_, _, t, ‹_›, hexec, rfl⟩)
  · cases h
    exact Or.inr (Or.inr (Or.inl ⟨_, ‹_›, rfl⟩))
  · obtain ⟨t, hexec, heq⟩ := Option.map_eq_some_iff.mp h
    cases heq
    exact Or.inr (Or.inr (Or.inr ⟨_, _, _, t, ‹_›, hexec, rfl⟩))
  · cases h

/-- Nobody but that process unloads the module. -/
theorem unloaded_of_step (ha : a ≠ .main) (h : State.step P s a = some (s', ev))
    (hgone : s'.main = .unloaded) : s.main = .unloaded := by
  cases a with
  | main => exact absurd rfl ha
  | signal | rmmod =>
      simp only [State.step] at h
      split at h <;> cases h
      cases hgone
  | start j =>
      simp only [State.step] at h
      split_ifs at h
      cases h
      exact hgone
  | handler j =>
      simp only [State.step] at h
      split at h
      · cases h
      · cases h
        exact hgone
      · obtain ⟨t, hexec, heq⟩ := Option.map_eq_some_iff.mp h
        cases heq
        exact (exec_main hexec).symm.trans hgone

/-- A module that is gone with nothing left takes no step. -/
theorem no_step_of_safe (hgone : s.main = .unloaded)
    (hsafe : ∀ j, (s.items j).Idle) : State.step P s a = none := by
  cases a with
  | main | signal | rmmod => simp [State.step, hgone]
  | start j => simp [State.step, (hsafe j).1]
  | handler j => simp [State.step, (hsafe j).2]

end Statements

/-! ## What is known stays so -/

/-- The knowledge is right. -/
structure Known.Holds {ι : Type*} (P : Module ι) (known : Known ι)
    (s : State ι) : Prop where
  idle : ∀ j ∈ known.idle, (s.items j).Idle
  closed : ∀ j ∈ known.idle, P.SchedulersIn j known.idle
  claimed : ∀ j ∈ known.claimed,
    (s.items j).claimed = true ∧ (s.items j).pending = false
  unarmed : ∀ j ∈ known.unarmed,
    (s.items j).pending = false ∧ ∀ k, .schedule j ∉ P.handler k

theorem Known.Holds.congr {ι : Type*} {P : Module ι} {known : Known ι}
    {s s' : State ι} (h : known.Holds P s) (hitems : s'.items = s.items) :
    known.Holds P s' := by
  constructor
  · rw [hitems]; exact h.idle
  · exact h.closed
  · rw [hitems]; exact h.claimed
  · rw [hitems]; exact h.unarmed

/-- One more item at rest. -/
theorem Known.Holds.stop {ι : Type*} {P : Module ι} {known : Known ι}
    {s : State ι} {j : ι} (h : known.Holds P s) (hidle : (s.items j).Idle)
    (hj : P.SchedulersIn j known.idle) :
    Known.Holds P { known with idle := j :: known.idle } s := by
  refine ⟨fun k hk => ?_, fun k hk i hi => ?_, h.claimed, h.unarmed⟩
  · rcases List.mem_cons.mp hk with rfl | hk
    · exact hidle
    · exact h.idle k hk
  · have hin : P.SchedulersIn k known.idle := by
      rcases List.mem_cons.mp hk with rfl | hk
      · exact hj
      · exact h.closed k hk
    exact (hin i hi).imp_right (List.mem_cons_of_mem _)

/-- An item at rest does not run. -/
theorem Known.Holds.not_idle {ι : Type*} {P : Module ι} {known : Known ι}
    {s : State ι} {i : ι} {rest : List (Op ι)} (h : known.Holds P s)
    (hrunning : (s.items i).running = some rest) : i ∉ known.idle := by
  intro hi
  rw [(h.idle i hi).2] at hrunning
  cases hrunning

section Soundness

variable {ι : Type*} [DecidableEq ι] {P : Module ι} {s s' : State ι}
  {known : Known ι} {op : Op ι} {rest : List (Op ι)} {i j : ι}

/-- Nothing gets on a queue by a statement that schedules nothing. -/
theorem exec_not_pending (h : exec s op = some s')
    (hschedule : ∀ j, op ≠ .schedule j) (hj : (s.items j).pending = false) :
    (s'.items j).pending = false := by
  by_contra hne
  rcases exec_pending h (by simpa using hne) with hbefore | ⟨hop, -⟩
  · rw [hj] at hbefore
    cases hbefore
  · exact hschedule j hop

/-- A statement that schedules nothing and gives no bit back. -/
theorem Known.Holds.exec (h : known.Holds P s)
    (hexec : Deferred.exec s op = some s') (hschedule : ∀ j, op ≠ .schedule j)
    (hunlock : ∀ j, op ≠ .unlock j) : known.Holds P s' := by
  refine ⟨fun j hj => ?_, h.closed, fun j hj => ?_, fun j hj => ?_⟩
  · obtain ⟨hno, hrest⟩ := h.idle j hj
    exact ⟨exec_not_pending hexec hschedule hno,
      (exec_running hexec j).trans hrest⟩
  · obtain ⟨hclaimed, hno⟩ := h.claimed j hj
    exact ⟨exec_claimed hexec (hunlock j) hclaimed,
      exec_not_pending hexec hschedule hno⟩
  · obtain ⟨hno, hnobody⟩ := h.unarmed j hj
    exact ⟨exec_not_pending hexec hschedule hno, hnobody⟩

/-- What a handler has still to do matters only for an item at rest. -/
theorem Known.Holds.setRunning (h : known.Holds P s)
    {after : Option (List (Op ι))} (hi : i ∈ known.idle → after = none) :
    known.Holds P (s.setItem i { s.items i with running := after }) := by
  refine ⟨fun k hk => ⟨?_, ?_⟩, h.closed, fun k hk => ?_, fun k hk => ?_⟩
  · rw [setRunning_pending]
    exact (h.idle k hk).1
  · rw [State.setItem_items]
    split_ifs with hki
    · exact hi (hki ▸ hk)
    · exact (h.idle k hk).2
  · rw [setRunning_claimed, setRunning_pending]
    exact h.claimed k hk
  · rw [setRunning_pending]
    exact h.unarmed k hk

/-- A handler does not wake what is at rest. -/
theorem Known.Holds.handler (h : known.Holds P s) (hop : op ∈ P.handler i)
    (hplain : op.inHandler = true)
    (hrunning : (s.items i).running = some (op :: rest))
    (hexec : Deferred.exec s op = some s') : known.Holds P s' := by
  have hunlock : ∀ k, op ≠ .unlock k := by
    rintro k rfl
    cases hplain
  -- what the handler schedules is not among the items in question
  have hpending : ∀ j, (s.items j).pending = false →
      (op = .schedule j → (s.items j).claimed = true) →
      (s'.items j).pending = false := by
    intro j hno hclaimed
    by_contra hne
    rcases exec_pending hexec (by simpa using hne) with hbefore | ⟨hop, hfree⟩
    · rw [hno] at hbefore
      cases hbefore
    · rw [hclaimed hop] at hfree
      cases hfree
  refine ⟨fun j hj => ?_, h.closed, fun j hj => ?_, fun j hj => ?_⟩
  · obtain ⟨hno, hrest⟩ := h.idle j hj
    refine ⟨hpending j hno fun hschedule => ?_, (exec_running hexec j).trans hrest⟩
    subst hschedule
    rcases h.closed j hj i hop with rfl | hi
    · exact absurd hj (h.not_idle hrunning)
    · exact absurd hi (h.not_idle hrunning)
  · obtain ⟨hclaimed, hno⟩ := h.claimed j hj
    exact ⟨exec_claimed hexec (hunlock j) hclaimed,
      hpending j hno fun _ => hclaimed⟩
  · obtain ⟨hno, hnobody⟩ := h.unarmed j hj
    refine ⟨hpending j hno fun hschedule => ?_, hnobody⟩
    subst hschedule
    exact absurd hop (hnobody i)

end Soundness

/-! ## The unload -/

section Unload

variable {ι : Type*} [DecidableEq ι] [Fintype ι] {P : Module ι} {s s' : State ι}
  {known : Known ι} {op : Op ι} {a : Act ι} {ev tr : List (Event ι)}

/-- A statement of the exit routine. -/
theorem Known.Holds.learn (h : known.Holds P s)
    (hexec : Deferred.exec s op = some s') :
    (Deferred.learn P known op).Holds P s' := by
  cases op with
  | print | call | wait | setCondition | disable | unlockWait | enable =>
      exact h.exec hexec nofun nofun
  | schedule j =>
      refine ⟨nofun, nofun, fun k hk => ?_, nofun⟩
      obtain ⟨hclaimed, hno⟩ := h.claimed k hk
      refine ⟨exec_claimed hexec nofun hclaimed, ?_⟩
      by_contra hne
      rcases exec_pending hexec (by simpa using hne) with hbefore | ⟨-, hfree⟩
      · rw [hno] at hbefore
        cases hbefore
      · rw [hclaimed] at hfree
        cases hfree
  | cancel j busy =>
      have hafter := h.exec hexec nofun nofun
      simp only [Deferred.learn]
      split_ifs with hnobody
      · refine ⟨hafter.idle, hafter.closed, hafter.claimed, fun k hk => ?_⟩
        rcases List.mem_cons.mp hk with rfl | hk
        · cases hexec
          exact ⟨by simp, hnobody⟩
        · exact hafter.unarmed k hk
      · exact hafter
  | cancelSync j busy =>
      have hafter := h.exec hexec nofun nofun
      simp only [Deferred.learn]
      split_ifs with hschedulers
      · refine hafter.stop ?_ hschedulers
        simp only [Deferred.exec] at hexec
        split_ifs at hexec with hrunning
        cases hexec
        exact ⟨by simp, by simpa using hrunning⟩
      · exact hafter
  | claim j =>
      have hafter := h.exec hexec nofun nofun
      refine ⟨hafter.idle, hafter.closed, fun k hk => ?_, hafter.unarmed⟩
      rcases List.mem_cons.mp hk with rfl | hk
      · simp only [Deferred.exec] at hexec
        split_ifs at hexec with hbit
        cases hexec
        simp_all
      · exact hafter.claimed k hk
  | unlock j =>
      -- only the bit changes, and the item has been found not to run
      have hsame : ∀ k, (s'.items k).pending = (s.items k).pending ∧
          (s'.items k).running = (s.items k).running ∧
          (k ≠ j → (s'.items k).claimed = (s.items k).claimed) := by
        intro k
        simp only [Deferred.exec] at hexec
        split_ifs at hexec
        cases hexec
        rw [State.setItem_items]
        split_ifs with hkj
        · subst hkj
          exact ⟨rfl, rfl, fun hne => absurd rfl hne⟩
        · exact ⟨rfl, rfl, fun _ => rfl⟩
      have hafter : Known.Holds P
          { known with claimed := known.claimed.filter (· ≠ j) } s' := by
        refine ⟨fun k hk => ?_, h.closed, fun k hk => ?_, fun k hk => ?_⟩
        · exact ⟨(hsame k).1.trans (h.idle k hk).1,
            (hsame k).2.1.trans (h.idle k hk).2⟩
        · obtain ⟨hk, hkj⟩ := List.mem_filter.mp hk
          obtain ⟨hclaimed, hno⟩ := h.claimed k hk
          exact ⟨((hsame k).2.2 (by simpa using hkj)).trans hclaimed,
            (hsame k).1.trans hno⟩
        · exact ⟨(hsame k).1.trans (h.unarmed k hk).1, (h.unarmed k hk).2⟩
      simp only [Deferred.learn]
      by_cases hstops : j ∈ known.claimed ∧ P.SchedulersIn j known.idle
      · rw [if_pos hstops]
        refine hafter.stop ⟨?_, ?_⟩ hstops.2
        · exact (hsame j).1.trans (h.claimed j hstops.1).2
        · simp only [Deferred.exec] at hexec
          split_ifs at hexec with hrunning
          cases hexec
          simpa using hrunning
      · rw [if_neg hstops]
        exact hafter

/-- The handlers stop nothing. -/
def Module.Plain (P : Module ι) : Prop :=
  ∀ j, ∀ op ∈ P.handler j, op.inHandler = true

instance (P : Module ι) : Decidable P.Plain :=
  inferInstanceAs (Decidable (∀ j, ∀ op ∈ P.handler j, op.inHandler = true))

/-- Everybody runs the statements of the module, and inside the exit routine
everything is as it was learnt. -/
structure Tracked (P : Module ι) (s : State ι) : Prop where
  loading : ∀ rest, s.main = .init rest → rest <:+ P.init
  running : ∀ j rest, (s.items j).running = some rest →
    ∀ op ∈ rest, op ∈ P.handler j
  exiting : ∀ done rest, s.main = .exit done rest →
    done ++ rest = P.exit ∧ (learnt P done).Holds P s

theorem Tracked.exec_running (h : Tracked P s) (hexec : exec s op = some s') :
    ∀ j rest, (s'.items j).running = some rest →
      ∀ op ∈ rest, op ∈ P.handler j := by
  intro j rest hrunning
  rw [Deferred.exec_running hexec] at hrunning
  exact h.running j rest hrunning

/-- A step of a handler or of the kernel, which leaves the process alone. -/
theorem Tracked.of_items (h : Tracked P s) (hmain : s'.main = s.main)
    (hrunning : ∀ j rest, (s'.items j).running = some rest →
      ∀ op ∈ rest, op ∈ P.handler j)
    (hholds : ∀ known : Known ι, known.Holds P s → known.Holds P s') :
    Tracked P s' := by
  refine ⟨?_, hrunning, fun done rest hexit => ?_⟩
  · rw [hmain]
    exact h.loading
  · obtain ⟨hall, hknown⟩ := h.exiting done rest (hmain ▸ hexit)
    exact ⟨hall, hholds _ hknown⟩

theorem Tracked.main (h : Tracked P s)
    (hstep : State.step P s .main = some (s', ev)) : Tracked P s' := by
  rcases main_cases hstep with ⟨-, rfl⟩ | ⟨op, rest, t, hmain, hexec, rfl⟩ |
      ⟨done, -, rfl⟩ | ⟨done, op, rest, t, hmain, hexec, rfl⟩
  · exact ⟨nofun, h.running, nofun⟩
  · have hrunning := h.exec_running hexec
    refine ⟨fun rest' hinit => ?_, hrunning, nofun⟩
    cases hinit
    exact (List.suffix_cons op rest).trans (h.loading _ hmain)
  · exact ⟨nofun, h.running, nofun⟩
  · have hrunning := h.exec_running hexec
    refine ⟨nofun, hrunning, fun done' rest' hexit => ?_⟩
    cases hexit
    obtain ⟨hall, hknown⟩ := h.exiting done (op :: rest) hmain
    refine ⟨by simpa using hall, ?_⟩
    rw [learnt, List.foldl_append]
    exact (hknown.learn hexec).congr rfl

theorem Tracked.step (hP : P.Plain) (h : Tracked P s)
    (hstep : State.step P s a = some (s', ev)) : Tracked P s' := by
  cases a with
  | main => exact h.main hstep
  | signal =>
      simp only [State.step] at hstep
      split at hstep <;> cases hstep
      rename_i hmain
      refine ⟨fun rest hinit => ?_, h.running, nofun⟩
      cases hinit
      exact (List.suffix_cons _ _).trans (h.loading _ hmain)
  | rmmod =>
      simp only [State.step] at hstep
      split at hstep <;> cases hstep
      refine ⟨nofun, h.running, fun done rest hexit => ?_⟩
      cases hexit
      exact ⟨rfl, nofun, nofun, nofun, nofun⟩
  | start j =>
      simp only [State.step] at hstep
      split_ifs at hstep with hguard
      cases hstep
      refine h.of_items rfl (fun k rest hrunning => ?_) fun known hknown => ?_
      · rw [State.setItem_items] at hrunning
        split_ifs at hrunning with hkj
        · cases hrunning
          subst hkj
          exact fun _ hop => hop
        · exact h.running k rest hrunning
      · -- only what waits to be run is started
        have hne : ∀ k, (s.items k).pending = false → k ≠ j := by
          rintro k hno rfl
          rw [hguard.1] at hno
          cases hno
        refine ⟨fun k hk => ?_, hknown.closed, fun k hk => ?_, fun k hk => ?_⟩
        · rw [State.setItem_items, if_neg (hne k (hknown.idle k hk).1)]
          exact hknown.idle k hk
        · rw [State.setItem_items, if_neg (hne k (hknown.claimed k hk).2)]
          exact hknown.claimed k hk
        · rw [State.setItem_items, if_neg (hne k (hknown.unarmed k hk).1)]
          exact hknown.unarmed k hk
  | handler i =>
      simp only [State.step] at hstep
      split at hstep
      · cases hstep
      · rename_i hrunning
        cases hstep
        refine h.of_items rfl (fun k rest hrest => ?_) fun known hknown => ?_
        · rw [State.setItem_items] at hrest
          split_ifs at hrest with hki
          exact h.running k rest hrest
        · exact hknown.setRunning fun _ => rfl
      · rename_i op rest hrunning
        obtain ⟨t, hexec, heq⟩ := Option.map_eq_some_iff.mp hstep
        cases heq
        have hop : op ∈ P.handler i :=
          h.running i (op :: rest) hrunning op List.mem_cons_self
        have hmain : t.main = s.main := exec_main hexec
        have hrun := h.exec_running hexec
        refine h.of_items hmain (fun k rest' hrest => ?_) fun known hknown =>
          (hknown.handler hop (hP i op hop) hrunning hexec).setRunning
            fun hi => absurd hi (hknown.not_idle hrunning)
        rw [State.setItem_items] at hrest
        split_ifs at hrest with hki
        · cases hrest
          subst hki
          exact fun op' hop' =>
            h.running k (op :: rest) hrunning op' (List.mem_cons_of_mem _ hop')
        · exact hrun k rest' hrest

theorem tracked_of_reachable (hP : P.Plain) (h : (system P).Reachable s) :
    Tracked P s := by
  refine (system P).reachable_invariant (I := Tracked P) ?_ ?_ h
  · refine ⟨fun rest hinit => ?_, nofun, nofun⟩
    cases hinit
    exact List.suffix_refl _
  · exact fun s a s' ev ih hstep => ih.step hP hstep

/-- At the end of the exit routine what it has stopped is at rest. -/
theorem Tracked.idle_iff (h : Tracked P s) {done : List (Op ι)}
    (hmain : s.main = .exit done []) :
    (∀ j, (s.items j).Idle) ↔ Leaves P s .main := by
  obtain ⟨hall, hknown⟩ := h.exiting done [] hmain
  rw [List.append_nil] at hall
  rw [hall] at hknown
  constructor
  · exact fun hidle _ j _ => ⟨(hidle j).2, fun _ => (hidle j).1⟩
  · intro hleaves j
    by_cases hj : j ∈ (learnt P P.exit).idle
    · exact hknown.idle j hj
    · obtain ⟨hrunning, hpending⟩ := hleaves ⟨done, hmain⟩ j hj
      refine ⟨?_, hrunning⟩
      by_cases hunarmed : j ∈ (learnt P P.exit).unarmed
      · exact (hknown.unarmed j hunarmed).1
      · exact hpending hunarmed

/-- Nothing of the module can run after its unload exactly when at the end of
the exit routine everything is at rest that the routine does not stop. -/
theorem safe_iff (hP : P.Plain) (acts : List (Act ι)) :
    (system P).Always Safe acts ↔ (system P).Meets (Leaves P) acts := by
  refine System.always_iff_meets (fun j hgone => nomatch hgone) ?_ acts
  intro s tr a s' ev hreach hsafe hstep
  change State.step P s a = some (s', ev) at hstep
  have htracked := tracked_of_reachable hP hreach
  have hloaded : s.main ≠ .unloaded := fun hgone => by
    have hnone : State.step P s a = none :=
      no_step_of_safe hgone fun j => hsafe j hgone
    exact absurd (hnone.symm.trans hstep) (by simp)
  by_cases ha : a = .main
  · subst ha
    rcases main_cases hstep with ⟨hmain, rfl⟩ | ⟨op, rest, t, hmain, -, rfl⟩ |
        ⟨done, hmain, rfl⟩ | ⟨done, op, rest, t, hmain, -, rfl⟩
    · exact iff_of_true (fun _ => nofun) fun ⟨_, hexit⟩ => by simp [hmain] at hexit
    · exact iff_of_true (fun _ => nofun) fun ⟨_, hexit⟩ => by simp [hmain] at hexit
    · rw [← htracked.idle_iff hmain]
      exact ⟨fun hafter j => hafter j rfl, fun hidle j _ => hidle j⟩
    · exact iff_of_true (fun _ => nofun) fun ⟨_, hexit⟩ => by simp [hmain] at hexit
  · refine iff_of_true (fun j hgone => ?_) ?_
    · exact absurd (unloaded_of_step ha hstep hgone) hloaded
    · cases a with
      | main => exact absurd rfl ha
      | _ => exact fun hends => hends.elim

theorem safe_iff_of_leaves {ok : State ι → Act ι → Prop} (hP : P.Plain)
    (hleaves : ∀ s a, Leaves P s a ↔ ok s a) (acts : List (Act ι)) :
    (system P).Always Safe acts ↔ (system P).Meets ok acts := by
  have hok : Leaves P = ok := by
    funext s a
    exact propext (hleaves s a)
  rw [safe_iff hP, hok]

/-- A module whose exit routine stops every item can always be unloaded
safely. -/
theorem always_safe (hP : P.Plain) (hall : ∀ j, j ∈ (learnt P P.exit).idle)
    (acts : List (Act ι)) : (system P).Always Safe acts := by
  refine (safe_iff hP acts).mpr fun before a s tr _ _ _ => ?_
  exact fun _ j hj => absurd (hall j) hj

end Unload

end Deferred
end Lib
end KernelDrivers
