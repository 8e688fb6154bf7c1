import KernelDrivers.Lib.Deferred.Finish

/-!
# The timers, the tasklets and the work items

`timer1.c`, `timer2.c`, `tasklet1.c`, `tasklet2.c`, `tasklet3.c`, `wait2.c` and
`invoke1.c`, each with the statements that start, stop, run or wait for its
deferred work.
A message is a statement of its own, since a handler that is interrupted there
is still running; its text is the format of the source.  The kernel is one for
several processors, where `tasklet_disable` and `tasklet_kill` wait for a
handler.
-/

namespace KernelDrivers
namespace DeferredWork

open Lib Deferred

/-! ## The modules -/

namespace Timer1

/-- `my_timer_callback`. -/
def myTimerCallback : List (Op Unit) := [.print "%s called (%ld).\n"]

/-- `my_init`: `mod_timer` returns zero for a timer that was just set up. -/
def myInit : List (Op Unit) :=
  [.print "Timer module loaded\n",
    .print "Setup timer to fire in 300ms (%ld)\n",
    .schedule ()]

def myExit : List (Op Unit) :=
  [.cancel () (some "The timer is still in use...\n"),
    .print "Timer module unloaded\n"]

def driver : Module Unit where
  init := myInit
  handler _ := myTimerCallback
  exit := myExit

end Timer1

namespace Timer2

/-- `my_hrtimer_callback`: it returns `HRTIMER_NORESTART`. -/
def myHrtimerCallback : List (Op Unit) :=
  [.print "my_hrtimer_callback called (%ld).\n"]

def hrtInitModule : List (Op Unit) :=
  [.print "HR Timer module installing\n",
    .print "Starting timer to fire in %ldms (%ld)\n",
    .schedule ()]

def hrtCleanupModule : List (Op Unit) :=
  [.cancelSync () (some "The timer was still in use...\n"),
    .print "HR Timer module uninstalling\n"]

def driver : Module Unit where
  init := hrtInitModule
  handler _ := myHrtimerCallback
  exit := hrtCleanupModule

end Timer2

/-- `tasklet_kill`. -/
def taskletKill {ι : Type*} (j : ι) : List (Op ι) := [.claim j, .unlock j]

/-- `tasklet_disable`. -/
def taskletDisable {ι : Type*} (j : ι) : List (Op ι) :=
  [.disable j, .unlockWait j]

namespace Tasklet1

def myTaskletHandler : List (Op Unit) :=
  taskletDisable () ++
    [.print "my_tasklet run: do what the tasklet want to do....\n", .enable ()]

def helloTaskletInit : List (Op Unit) :=
  [.print "module init start. \n", .print "Hello tasklet!\n", .schedule (),
    .print "module init end.\n"]

def helloTaskletExit : List (Op Unit) :=
  taskletKill () ++ [.print "Goodbye, tasklet!\n"]

def driver : Module Unit where
  init := helloTaskletInit
  handler _ := myTaskletHandler
  exit := helloTaskletExit

end Tasklet1

namespace Tasklet2

inductive Work where
  | timer
  | taskletDemo
  deriving DecidableEq

instance : Fintype Work where
  elems := {.timer, .taskletDemo}
  complete w := by cases w <;> simp

def taskletDemoHandle : List (Op Work) := [.print "%s\n", .print "%ld\n"]

/-- `ISR_handler`. -/
def isrHandler : List (Op Work) := [.schedule .taskletDemo]

def taskletDemoInit : List (Op Work) :=
  [.print "init tasklet demo.\n", .schedule .timer]

def taskletDemoExit : List (Op Work) :=
  [.print "exit tasklet demo.\n", .cancelSync .timer none]

def driver : Module Work where
  init := taskletDemoInit
  handler
    | .timer => isrHandler
    | .taskletDemo => taskletDemoHandle
  exit := taskletDemoExit

end Tasklet2

namespace Tasklet3

def taskletFunction : List (Op Unit) := [.print "%s\n"]

def myInit : List (Op Unit) := [.schedule (), .print "tasklet example\n"]

def myExit : List (Op Unit) :=
  taskletKill () ++ [.print "tasklet example cleanup\n"]

def driver : Module Unit where
  init := myInit
  handler _ := taskletFunction
  exit := myExit

end Tasklet3

namespace Wait2

/-- `work_handler`, without its `msleep`. -/
def workHandler : List (Op Unit) :=
  [.print "Waitqueue module handler %s\n",
    .print "Wake up the sleeping module\n",
    .setCondition]

def myInit : List (Op Unit) :=
  [.print "Wait queue example\n",
    .schedule (),
    .print "Going to sleep %s\n",
    .wait,
    .print "woken up by the work job\n"]

def myExit : List (Op Unit) := [.print "waitqueue example cleanup\n"]

def driver : Module Unit where
  init := myInit
  handler _ := workHandler
  exit := myExit

end Wait2

namespace Invoke1

def delayedShutdown : List (Op Unit) := [.call "call_usermodehelper"]

def myShutdownInit : List (Op Unit) := [.schedule ()]

def myShutdownExit : List (Op Unit) := []

def driver : Module Unit where
  init := myShutdownInit
  handler _ := delayedShutdown
  exit := myShutdownExit

end Invoke1

/-! ## What is left at the unload -/

/-- `hrtimer_cancel` and `tasklet_kill` wait: nothing of these modules can run
once they are gone, whatever the timer and the tasklet do meanwhile. -/
theorem waits_before_unload (acts : List (Act Unit)) :
    (system Timer2.driver).Always Safe acts ∧
      (system Tasklet3.driver).Always Safe acts :=
  ⟨always_safe (by decide) (by decide) acts,
    always_safe (by decide) (by decide) acts⟩

/-- `del_timer` takes the timer off its queue, but does not wait for the
callback. -/
theorem Timer1.leaves_iff (s : State Unit) (a : Act Unit) :
    Leaves Timer1.driver s a ↔ (Ends s a → (s.items ()).running = none) := by
  have hlearnt : learnt Timer1.driver Timer1.driver.exit =
      { unarmed := [()] } := rfl
  simp [Leaves, hlearnt, Unique.forall_iff]

/-- `del_timer_sync` stops the timer, and with it everybody who schedules the
tasklet; but the tasklet may have been scheduled before. -/
theorem Tasklet2.leaves_iff (s : State Work) (a : Act Work) :
    Leaves Tasklet2.driver s a ↔
      (Ends s a → (s.items .taskletDemo).Idle) := by
  have hlearnt : learnt Tasklet2.driver Tasklet2.driver.exit =
      { idle := [.timer] } := rfl
  have hwork : ∀ w : Work, w ≠ .timer ↔ w = .taskletDemo := by decide
  simp [Leaves, hlearnt, hwork, Item.Idle, and_comm]

/-- An exit routine that stops nothing. -/
theorem leaves_iff_of_nothing {P : Module Unit} (hlearnt : learnt P P.exit = {})
    (s : State Unit) (a : Act Unit) :
    Leaves P s a ↔ (Ends s a → (s.items ()).Idle) := by
  simp [Leaves, hlearnt, Item.Idle, and_comm, Unique.forall_iff]

/-- The work item has set the condition and is about to return, and `rmmod`
comes before it has. -/
def Wait2.goneInHandler : List (Act Unit) :=
  [.main, .main, .start (), .handler (), .handler (), .handler (), .main,
    .main, .main, .main, .rmmod, .main, .main]

/-- `rmmod` comes within the delay. -/
def Invoke1.goneInDelay : List (Act Unit) := [.main, .main, .rmmod, .main]

/-- Four modules can be unloaded safely exactly when their work is over by then:
for `timer1.c` a callback that runs is, for `tasklet2.c` the tasklet, and for
`wait2.c` and `invoke1.c` the work item.  The exit routines of these two do
nothing about it, and there are runs in which it is too early, also when
`wait2.c` has slept until its work item woke it. -/
theorem unload_safe_iff (acts : List (Act Unit))
    (acts' : List (Act Tasklet2.Work)) :
    ((system Timer1.driver).Always Safe acts ↔
      (system Timer1.driver).Meets
        (fun s a => Ends s a → (s.items ()).running = none) acts) ∧
    ((system Tasklet2.driver).Always Safe acts' ↔
      (system Tasklet2.driver).Meets
        (fun s a => Ends s a → (s.items .taskletDemo).Idle) acts') ∧
    ((system Wait2.driver).Always Safe acts ↔
      (system Wait2.driver).Meets
        (fun s a => Ends s a → (s.items ()).Idle) acts) ∧
    ((system Invoke1.driver).Always Safe acts ↔
      (system Invoke1.driver).Meets
        (fun s a => Ends s a → (s.items ()).Idle) acts) ∧
    ¬ (system Wait2.driver).Always Safe Wait2.goneInHandler ∧
    ¬ (system Invoke1.driver).Always Safe Invoke1.goneInDelay := by
  refine ⟨safe_iff_of_leaves (by decide) Timer1.leaves_iff acts,
    safe_iff_of_leaves (by decide) Tasklet2.leaves_iff acts',
    safe_iff_of_leaves (by decide) (leaves_iff_of_nothing rfl) acts,
    safe_iff_of_leaves (by decide) (leaves_iff_of_nothing rfl) acts,
    fun halways => ?_, fun halways => ?_⟩
  · obtain ⟨-, hrunning⟩ := halways _ _ _ List.prefix_rfl rfl () rfl
    cases hrunning
  · obtain ⟨hpending, -⟩ := halways _ _ _ List.prefix_rfl rfl () rfl
    cases hpending

/-! ## The way to the unload -/

theorem Timer1.flows : Timer1.driver.Flows :=
  ⟨by decide, by decide, by decide, by decide⟩

theorem Timer2.flows : Timer2.driver.Flows :=
  ⟨by decide, by decide, by decide, by decide⟩

theorem Tasklet2.flows : Tasklet2.driver.Flows :=
  ⟨by decide, by decide, by decide, by decide⟩

theorem Tasklet3.flows : Tasklet3.driver.Flows :=
  ⟨by decide, by decide, by decide, by decide⟩

theorem Wait2.flows : Wait2.driver.Flows :=
  ⟨by decide, by decide, by decide, by decide⟩

theorem Invoke1.flows : Invoke1.driver.Flows :=
  ⟨by decide, by decide, by decide, by decide⟩

/-- `my_init` sleeps until the work item has run. -/
theorem Wait2.awaits {s : State Unit} (h : (system Wait2.driver).Reachable s) :
    Awaits s := by
  have hkeeps : Wait2.driver.Keeps () := by
    simp [Module.Keeps, Wait2.driver, Wait2.myExit]
  refine awaits_of_wakes Wait2.flows hkeeps (by decide) (by decide) ?_ h
  intro rest hsuffix
  have hrest : rest = [.print "woken up by the work job\n"] := by
    simpa [Wait2.driver, Wait2.myInit, List.suffix_cons_iff] using hsuffix
  simp [hrest]

/-- These six modules always come to their unload, without a signal and in a
bounded number of steps, in whatever order everybody moves. -/
theorem always_unloaded (acts : List (Act Unit))
    (acts' : List (Act Tasklet2.Work)) :
    Finishes Timer1.driver 11 acts ∧ Finishes Timer2.driver 11 acts ∧
      Finishes Tasklet2.driver 14 acts' ∧ Finishes Tasklet3.driver 11 acts ∧
      Finishes Wait2.driver 14 acts ∧ Finishes Invoke1.driver 7 acts := by
  refine ⟨?_, ?_, ?_, ?_, ?_, ?_⟩
  · have hbounded : Timer1.driver.Bounded fun _ => 3 := by decide
    exact finishes Timer1.flows hbounded
      (fun s => awaits_of_no_wait Timer1.flows.plain (by decide)) acts
  · have hbounded : Timer2.driver.Bounded fun _ => 3 := by decide
    exact finishes Timer2.flows hbounded
      (fun s => awaits_of_no_wait Timer2.flows.plain (by decide)) acts
  · have hbounded : Tasklet2.driver.Bounded fun
        | .timer => 7
        | .taskletDemo => 4 := by decide
    exact finishes Tasklet2.flows hbounded
      (fun s => awaits_of_no_wait Tasklet2.flows.plain (by decide)) acts'
  · have hbounded : Tasklet3.driver.Bounded fun _ => 3 := by decide
    exact finishes Tasklet3.flows hbounded
      (fun s => awaits_of_no_wait Tasklet3.flows.plain (by decide)) acts
  · have hbounded : Wait2.driver.Bounded fun _ => 5 := by decide
    exact finishes Wait2.flows hbounded (fun s => Wait2.awaits) acts
  · have hbounded : Invoke1.driver.Bounded fun _ => 3 := by decide
    exact finishes Invoke1.flows hbounded
      (fun s => awaits_of_no_wait Invoke1.flows.plain (by decide)) acts

/-! ## The handler that disables itself -/

namespace Tasklet1

/-- The handler waits in `tasklet_disable` for itself, and `tasklet_kill` for
the handler. -/
def Deadlock (s : State Unit) : Prop :=
  (s.items ()).running = some myTaskletHandler.tail ∧
    ∃ done rest, s.main = .exit done (.unlock () :: rest)

/-- The handler has not come past its `tasklet_disable`, and it is started only
once. -/
structure SelfDisabled (s : State Unit) : Prop where
  handler : ∀ rest, (s.items ()).running = some rest →
    rest = myTaskletHandler ∧ (s.items ()).disabled = 0 ∨
      rest = myTaskletHandler.tail
  fresh : (s.items ()).running = none → (s.items ()).disabled = 0
  once : (s.items ()).pending = true → (s.items ()).running = none
  early : ∀ rest, s.main = .init rest → .schedule () ∈ rest → (s.items ()).Idle

section Steps

variable {s s' t : State Unit} {op : Op Unit} {a : Act Unit}
  {ev tr : List (Event Unit)}

/-- A statement that neither schedules nor disables. -/
theorem SelfDisabled.exec (h : SelfDisabled s)
    (hexec : Deferred.exec s op = some t) (hschedule : op ≠ .schedule ())
    (hdisable : op ≠ .disable ()) (main : Main Unit)
    (hearly : ∀ rest, main = .init rest → .schedule () ∈ rest →
      (t.items ()).Idle) : SelfDisabled { t with main := main } := by
  have hchanges := exec_changes hexec ()
  have hle := hchanges.disabled hdisable
  have hzero : (s.items ()).disabled = 0 → (t.items ()).disabled = 0 :=
    fun hzero => by omega
  refine ⟨fun rest hrest => ?_, fun hnone => ?_, fun hpending => ?_, hearly⟩
  · exact (h.handler rest (hchanges.running.symm.trans hrest)).imp_left
      fun ⟨hwhole, hdisabled⟩ => ⟨hwhole, hzero hdisabled⟩
  · exact hzero (h.fresh (hchanges.running.symm.trans hnone))
  · have hwas := (hchanges.queued hpending).resolve_right fun hop =>
      hschedule hop.1
    exact hchanges.running.trans (h.once hwas)

theorem SelfDisabled.setMain (h : SelfDisabled s) (main : Main Unit)
    (hearly : ∀ rest, main = .init rest → .schedule () ∈ rest →
      (s.items ()).Idle) : SelfDisabled { s with main := main } :=
  ⟨h.handler, h.fresh, h.once, hearly⟩

/-- The init routine schedules once, and otherwise prints. -/
theorem init_cases {rest : List (Op Unit)} (h : op :: rest <:+ helloTaskletInit) :
    (op = .schedule () ∧ .schedule () ∉ rest) ∨ ∃ text, op = .print text := by
  simp only [helloTaskletInit, List.suffix_cons_iff, List.cons.injEq] at h
  rcases h with ⟨rfl, -⟩ | ⟨rfl, -⟩ | ⟨rfl, rfl⟩ | ⟨rfl, -⟩ | hnil
  · exact Or.inr ⟨_, rfl⟩
  · exact Or.inr ⟨_, rfl⟩
  · exact Or.inl ⟨rfl, by simp⟩
  · exact Or.inr ⟨_, rfl⟩
  · simp at hnil

theorem SelfDisabled.main (ht : Tracked driver s) (h : SelfDisabled s)
    (hstep : State.step driver s .main = some (s', ev)) : SelfDisabled s' := by
  rcases main_cases hstep with ⟨-, rfl⟩ | ⟨op, rest, t, hmain, hexec, rfl⟩ |
      ⟨done, -, rfl⟩ | ⟨done, op, rest, t, hmain, hexec, rfl⟩
  · exact h.setMain _ (by rintro rest ⟨⟩)
  · rcases init_cases (ht.loading _ hmain) with ⟨rfl, honce⟩ | ⟨text, rfl⟩
    · have hearly : ∀ rest', Main.init rest = .init rest' →
          .schedule () ∈ rest' → (t.items ()).Idle := by
        intro rest' hinit hmem
        cases hinit
        exact absurd hmem honce
      obtain ⟨-, hnone⟩ := h.early _ hmain List.mem_cons_self
      simp only [Deferred.exec] at hexec
      split_ifs at hexec <;> cases hexec
      · exact h.setMain _ hearly
      · refine ⟨fun rest' hrest => ?_, fun _ => ?_, fun _ => ?_, hearly⟩
        · simp [hnone] at hrest
        · simpa using h.fresh hnone
        · simpa using hnone
    · cases hexec
      refine h.setMain _ fun rest' hinit hmem => ?_
      cases hinit
      exact h.early _ hmain (List.mem_cons_of_mem _ hmem)
  · exact h.setMain _ (by rintro rest ⟨⟩)
  · have hop : op.inExit = true := by
      have hexit : op ∈ driver.exit := by
        rw [← (ht.exiting _ _ hmain).1]
        simp
      have hall : ∀ op ∈ driver.exit, op.inExit = true := by decide
      exact hall op hexit
    refine h.exec hexec ?_ ?_ _ (by rintro rest ⟨⟩)
    · rintro rfl
      cases hop
    · rintro rfl
      cases hop

theorem SelfDisabled.step (ht : Tracked driver s) (h : SelfDisabled s)
    (hstep : State.step driver s a = some (s', ev)) : SelfDisabled s' := by
  cases a with
  | main => exact h.main ht hstep
  | signal =>
      simp only [State.step] at hstep
      split at hstep <;> cases hstep
      rename_i hmain
      rcases init_cases (ht.loading _ hmain) with ⟨hop, -⟩ | ⟨text, hop⟩ <;>
        cases hop
  | rmmod =>
      simp only [State.step] at hstep
      split at hstep <;> cases hstep
      exact h.setMain _ (by rintro rest ⟨⟩)
  | start =>
      simp only [State.step] at hstep
      split_ifs at hstep with hguard
      cases hstep
      obtain ⟨hpending, -, hzero⟩ := hguard
      refine ⟨fun rest hrest => ?_, fun hnone => ?_, fun hno => ?_,
        fun rest hinit hmem => ?_⟩
      · left
        simp only [State.setItem_items, if_true] at hrest ⊢
        cases hrest
        exact ⟨rfl, hzero⟩
      · simp at hnone
      · simp at hno
      · exact absurd (h.early rest hinit hmem) (Item.not_idle_of_pending hpending)
  | handler =>
      simp only [State.step] at hstep
      split at hstep
      · cases hstep
      · rename_i hrunning
        rcases h.handler _ hrunning with ⟨hnil, -⟩ | hnil <;> cases hnil
      · rename_i op rest hrunning
        obtain ⟨t, hexec, heq⟩ := Option.map_eq_some_iff.mp hstep
        cases heq
        rcases h.handler _ hrunning with ⟨hwhole, -⟩ | htail
        · cases hwhole
          cases hexec
          refine ⟨fun rest hrest => ?_, fun hnone => ?_, fun hpending => ?_,
            fun rest hinit hmem => ?_⟩
          · right
            simpa [myTaskletHandler, taskletDisable] using hrest.symm
          · simp at hnone
          · have hwas : (s.items ()).pending = true := by simpa using hpending
            cases hrunning.symm.trans (h.once hwas)
          · exact absurd (h.early rest hinit hmem)
              (Item.not_idle_of_running hrunning)
        · -- it waits for itself
          cases htail
          simp [Deferred.exec, hrunning] at hexec

/-- The handler shows nothing. -/
theorem SelfDisabled.quiet (h : SelfDisabled s)
    (hstep : State.step driver s a = some (s', ev)) (text : String) :
    .printed (some ()) text ∉ ev := by
  have hnone : ∀ op : Op Unit, .printed (some ()) text ∉ op.shows s none := by
    intro op hmem
    obtain ⟨text', heq⟩ := Op.mem_shows hmem
    cases heq
  cases a with
  | main =>
      simp only [State.step] at hstep
      split at hstep
      · cases hstep
        simp
      · obtain ⟨t, -, heq⟩ := Option.map_eq_some_iff.mp hstep
        cases heq
        exact hnone _
      · cases hstep
        simp
      · obtain ⟨t, -, heq⟩ := Option.map_eq_some_iff.mp hstep
        cases heq
        exact hnone _
      · cases hstep
  | signal | rmmod =>
      simp only [State.step] at hstep
      split at hstep <;> cases hstep
      simp
  | start =>
      simp only [State.step] at hstep
      split_ifs at hstep
      cases hstep
      simp
  | handler =>
      simp only [State.step] at hstep
      split at hstep
      · cases hstep
      · cases hstep
        simp
      · rename_i op rest hrunning
        obtain ⟨t, hexec, heq⟩ := Option.map_eq_some_iff.mp hstep
        cases heq
        rcases h.handler _ hrunning with ⟨hwhole, -⟩ | htail
        · cases hwhole
          simp [Op.shows]
        · cases htail
          simp [Deferred.exec, hrunning] at hexec

/-- In the deadlock nobody can take a step. -/
theorem Deadlock.stuck (h : Deadlock s) (a : Act Unit) :
    State.step driver s a = none := by
  obtain ⟨hrunning, done, rest, hmain⟩ := h
  cases a with
  | main => simp [State.step, hmain, Deferred.exec, hrunning]
  | signal | rmmod => simp [State.step, hmain]
  | start => simp [State.step, hrunning]
  | handler =>
      simp [State.step, hrunning, myTaskletHandler, taskletDisable, Deferred.exec]

/-- The init routine never waits. -/
theorem init_goesOn {ops : List (Op Unit)} (ht : Tracked driver s)
    (hmain : s.main = .init ops) : (State.step driver s .main).isSome = true := by
  cases ops with
  | nil => simp [State.step, hmain]
  | cons op rest =>
      have hexec : (Deferred.exec s op).isSome = true := by
        rcases init_cases (ht.loading _ hmain) with ⟨rfl, -⟩ | ⟨text, rfl⟩ <;>
          exact exec_straight rfl
      simp [State.step, hmain, hexec]

/-- The exit routine waits for the handler, which waits for itself. -/
theorem SelfDisabled.exit_goesOn {done ops : List (Op Unit)}
    (ht : Tracked driver s) (hc : Claims s) (h : SelfDisabled s)
    (hrunning : (s.items ()).running = some myTaskletHandler.tail)
    (hmain : s.main = .exit done ops) :
    Deadlock s ∨ (State.step driver s .main).isSome = true := by
  have hpending : (s.items ()).pending = false := by
    by_contra hne
    cases hrunning.symm.trans (h.once (by simpa using hne))
  cases ops with
  | nil => exact Or.inr (by simp [State.step, hmain])
  | cons op rest =>
      have hop : op ∈ driver.exit := by
        rw [← (ht.exiting _ _ hmain).1]
        simp
      have hops : op = .claim () ∨ op = .unlock () ∨
          op = .print "Goodbye, tasklet!\n" := by
        simpa [driver, helloTaskletExit, taskletKill] using hop
      rcases hops with rfl | rfl | rfl
      · have hfree := hc.claim_free (by decide) ht hmain
        exact Or.inr (by simp [State.step, hmain, Deferred.exec, hpending, hfree])
      · exact Or.inl ⟨hrunning, done, rest, hmain⟩
      · exact Or.inr (by simp [State.step, hmain, Deferred.exec])

/-- Until the deadlock somebody can go on. -/
theorem SelfDisabled.goesOn (ht : Tracked driver s) (hc : Claims s)
    (hdue : Due () s) (hgone : s.main ≠ .unloaded) (h : SelfDisabled s) :
    Deadlock s ∨ ∃ a, (State.step driver s a).isSome = true := by
  cases hrunning : (s.items ()).running with
  | none =>
      right
      by_cases hpending : (s.items ()).pending = true
      · refine ⟨.start (), ?_⟩
        simp [State.step, hpending, hrunning, h.fresh hrunning]
      · -- the init routine has not scheduled the tasklet yet
        have hidle : (s.items ()).Idle := ⟨by simpa using hpending, hrunning⟩
        obtain ⟨rest, hmain, -⟩ := hdue.resolve_right fun hbusy => hbusy hidle
        exact ⟨.main, init_goesOn ht hmain⟩
  | some rest =>
      rcases h.handler rest hrunning with ⟨rfl, -⟩ | rfl
      · right
        refine ⟨.handler (), ?_⟩
        simp [State.step, hrunning, myTaskletHandler, taskletDisable, Deferred.exec]
      · cases hmain : s.main with
        | init ops => exact Or.inr ⟨.main, init_goesOn ht hmain⟩
        | loaded => exact Or.inr ⟨.rmmod, by simp [State.step, hmain]⟩
        | unloaded => exact absurd hmain hgone
        | exit done ops =>
            exact (h.exit_goesOn ht hc hrunning hmain).imp_right fun hstep =>
              ⟨.main, hstep⟩

end Steps

end Tasklet1

end DeferredWork
end KernelDrivers
