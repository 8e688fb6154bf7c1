import KernelDrivers.Lib.Pool
import KernelDrivers.Lib.System
import Mathlib.Data.UInt

/-!
# The registered receiver of `signal1.c`

`REG_CURRENT_TASK` stores the calling process in the global `task`, and every
`test_read` signals it.  The only place that clears `task` is `test_release`,
which runs once for an open file, in the process that drops its last reference;
so the registration of a process outlives its last `close` when a child still
holds the file.

Processes are numbered in the order in which they are created.  An open file
is the list of the processes that hold it, with one entry for each descriptor.
-/

namespace KernelDrivers
namespace Signal

open Lib

def SIGTEST : Int := 44

/-- `_IOW('a','a',int32_t*)`. -/
def REG_CURRENT_TASK : UInt32 := 0x40086161

/-- The fields of `struct kernel_siginfo` that `test_read` sets. -/
structure KernelSiginfo where
  siSigno : Int
  siCode : Int
  siInt : Int
  deriving DecidableEq

/-- The variables of the module. -/
structure Driver where
  task : Option Nat
  signum : Int
  deriving DecidableEq

/-- `test_ioctl`, called by `current`. -/
def testIoctl (d : Driver) (current : Nat) (cmd : UInt32) : Driver :=
  if cmd = REG_CURRENT_TASK then ⟨some current, SIGTEST⟩ else d

/-- `test_release`, run by `refTask`. -/
def testRelease (d : Driver) (refTask : Nat) : Driver :=
  if d.task = some refTask then { d with task := none } else d

/-- `test_read`: the receiver and the signal. -/
def testRead (d : Driver) : Option (Nat × KernelSiginfo) :=
  d.task.map fun task =>
    (task, { siSigno := SIGTEST, siCode := -1, siInt := 1 })

structure Process where
  alive : Bool
  /-- It has executed a `REG_CURRENT_TASK`. -/
  registered : Bool
  deriving DecidableEq

structure State where
  driver : Driver
  procs : List Process
  /-- The holders of each open file. -/
  files : List (List Nat)
  deriving DecidableEq

inductive Event where
  /-- `send_sig_info`, and whether the receiver is alive. -/
  | sent (task : Nat) (info : KernelSiginfo) (alive : Bool)
  /-- `test_release`, with `task` before and after. -/
  | released (current : Nat) (before after : Option Nat)
  deriving DecidableEq

inductive Act where
  /-- A process that holds no file of the device. -/
  | spawn
  | open (p : Nat)
  | ioctl (p f : Nat) (cmd : UInt32)
  | read (p f : Nat)
  | close (p f : Nat)
  | fork (p : Nat)
  /-- The end of a process that has closed its files. -/
  | exit (p : Nat)
  deriving DecidableEq

def State.Alive (s : State) (p : Nat) : Prop :=
  s.procs[p]?.map Process.alive = some true

def State.Registered (s : State) (p : Nat) : Prop :=
  s.procs[p]?.map Process.registered = some true

/-- The process has the device open. -/
def State.Holds (s : State) (p : Nat) : Prop := ∃ refs ∈ s.files, p ∈ refs

instance (s : State) (p : Nat) : Decidable (s.Alive p) :=
  inferInstanceAs (Decidable (_ = _))

instance (s : State) (p : Nat) : Decidable (s.Holds p) :=
  inferInstanceAs (Decidable (∃ refs ∈ s.files, p ∈ refs))

/-- The process holds the open file. -/
def State.HoldsFile (s : State) (p f : Nat) : Prop :=
  ∃ refs ∈ s.files[f]?, p ∈ refs

instance (s : State) (p f : Nat) : Decidable (s.HoldsFile p f) :=
  inferInstanceAs (Decidable (∃ refs ∈ s.files[f]?, p ∈ refs))

/-- The holders of an open file after a fork: the child gets a descriptor for
each one of the parent. -/
def forkRefs (parent child : Nat) (refs : List Nat) : List Nat :=
  refs ++ (refs.filter (· == parent)).map fun _ => child

/-- Drop one descriptor; the last one releases the file. -/
def drop (s : State) (p f : Nat) (refs : List Nat) : State × List Event :=
  let refs := refs.erase p
  if refs = [] then
    let d := testRelease s.driver p
    ({ s with driver := d, files := s.files.set f refs },
      [.released p s.driver.task d.task])
  else ({ s with files := s.files.set f refs }, [])

def State.step (s : State) : Act → Option (State × List Event)
  | .spawn => some ({ s with procs := s.procs ++ [⟨true, false⟩] }, [])
  | .open p =>
      if s.Alive p then some ({ s with files := s.files ++ [[p]] }, [])
      else none
  | .ioctl p f cmd =>
      if s.Alive p ∧ s.HoldsFile p f then
        some ({ s with
          driver := testIoctl s.driver p cmd
          procs := s.procs.modify p fun proc =>
            { proc with
              registered := proc.registered || cmd == REG_CURRENT_TASK } },
          [])
      else none
  | .read p f =>
      if s.Alive p ∧ s.HoldsFile p f then
        match testRead s.driver with
        | none => some (s, [])
        | some (task, info) =>
            some (s, [.sent task info (decide (s.Alive task))])
      else none
  | .close p f =>
      match s.files[f]? with
      | none => none
      | some refs =>
          if s.Alive p ∧ p ∈ refs then some (drop s p f refs) else none
  | .fork p =>
      if s.Alive p then
        some ({ s with
          procs := s.procs ++ [⟨true, false⟩]
          files := s.files.map (forkRefs p s.procs.length) }, [])
      else none
  | .exit p =>
      if s.Alive p ∧ ¬ s.Holds p then
        some ({ s with
          procs := s.procs.modify p fun proc => { proc with alive := false } },
          [])
      else none

def signal1 : System State Act Event where
  init := ⟨⟨none, 0⟩, [], []⟩
  step := State.step

/-! ## What one step can do -/

inductive Step (s : State) : Act → State → List Event → Prop
  | spawn : Step s .spawn { s with procs := s.procs ++ [⟨true, false⟩] } []
  | open {p : Nat} : s.Alive p →
      Step s (.open p) { s with files := s.files ++ [[p]] } []
  | ioctl {p f : Nat} {cmd : UInt32} : s.Alive p → s.HoldsFile p f →
      Step s (.ioctl p f cmd)
        { s with
          driver := testIoctl s.driver p cmd
          procs := s.procs.modify p fun proc =>
            { proc with
              registered := proc.registered || cmd == REG_CURRENT_TASK } } []
  | read {p f : Nat} {ev : List Event} :
      (∀ e ∈ ev, ∃ task info, s.driver.task = some task ∧
        e = .sent task info (decide (s.Alive task))) →
      Step s (.read p f) s ev
  | close {p f : Nat} {refs : List Nat} : s.files[f]? = some refs →
      p ∈ refs → Step s (.close p f) (drop s p f refs).1 (drop s p f refs).2
  | fork {p : Nat} : s.Alive p →
      Step s (.fork p)
        { s with
          procs := s.procs ++ [⟨true, false⟩]
          files := s.files.map (forkRefs p s.procs.length) } []
  | exit {p : Nat} : ¬ s.Holds p →
      Step s (.exit p)
        { s with
          procs := s.procs.modify p fun proc => { proc with alive := false } }
        []

variable {s s' : State} {a : Act} {tr ev : List Event}

theorem step_cases (h : signal1.step s a = some (s', ev)) : Step s a s' ev := by
  cases a with
  | spawn =>
      cases h
      exact .spawn
  | «open» p =>
      simp only [signal1, State.step] at h
      split_ifs at h with halive
      cases h
      exact .open halive
  | ioctl p f cmd =>
      simp only [signal1, State.step] at h
      split_ifs at h with hguard
      cases h
      exact .ioctl hguard.1 hguard.2
  | read p f =>
      simp only [signal1, State.step] at h
      split_ifs at h with hguard
      cases hread : testRead s.driver with
      | none =>
          simp only [hread] at h
          cases h
          exact .read (by simp)
      | some sent =>
          obtain ⟨task, info⟩ := sent
          simp only [hread] at h
          cases h
          obtain ⟨task', htask, heq⟩ := Option.map_eq_some_iff.mp hread
          cases heq
          refine .read fun e he => ?_
          cases List.mem_singleton.mp he
          exact ⟨task, _, htask, rfl⟩
  | close p f =>
      simp only [signal1, State.step] at h
      cases hrefs : s.files[f]? with
      | none =>
          simp only [hrefs] at h
          cases h
      | some refs =>
          simp only [hrefs] at h
          split_ifs at h with hguard
          have hdrop : drop s p f refs = (s', ev) := Option.some.inj h
          obtain ⟨rfl, rfl⟩ : (drop s p f refs).1 = s' ∧
              (drop s p f refs).2 = ev := by
            rw [hdrop]
            exact ⟨rfl, rfl⟩
          exact .close hrefs hguard.2
  | fork p =>
      simp only [signal1, State.step] at h
      split_ifs at h with halive
      cases h
      exact .fork halive
  | exit p =>
      simp only [signal1, State.step] at h
      split_ifs at h with hguard
      cases h
      exact .exit hguard.2

/-! ## The receiver -/

/-- `task` is `NULL` or a process that is alive, registered itself and has the
device open. -/
def ReceiverOk (s : State) : Prop :=
  ∀ p, s.driver.task = some p → s.Alive p ∧ s.Registered p ∧ s.Holds p

/-- A signal goes to a live process, and a release clears no registration but
that of the process in which it runs. -/
def EventOk : Event → Prop
  | .sent _ _ alive => alive = true
  | .released current before after =>
      ∀ p, before = some p → p ≠ current → after = some p

structure ReceiverLaw (s : State) (tr : List Event) : Prop where
  task : ReceiverOk s
  events : ∀ e ∈ tr, EventOk e

/-- When the registered process drops its last descriptor of the device, that
is the last reference to the open file. -/
def LastTogether (s : State) : Act → Prop
  | .close p f => s.driver.task = some p → ∀ refs ∈ s.files[f]?,
      refs.erase p = [] ∨ p ∈ refs.erase p ∨ ∃ g ≠ f, s.HoldsFile p g
  | _ => True

variable {p q f : Nat} {refs : List Nat}

theorem map_concat {α β : Type} {l : List α} {x : α} {g : α → β} {v : β}
    (h : l[p]?.map g = some v) : (l ++ [x])[p]?.map g = some v := by
  obtain ⟨y, hy, hv⟩ := Option.map_eq_some_iff.mp h
  rw [Pool.concat_kept hy x, Option.map_some, hv]

theorem map_modify {α β : Type} {l : List α} {upd : α → α} {g : α → β}
    (h : ∀ x, g (upd x) = g x) (i : Nat) :
    (l.modify i upd)[p]?.map g = l[p]?.map g := by
  rw [List.getElem?_modify]
  cases hp : l[p]? with
  | none => simp
  | some x => by_cases hi : i = p <;> simp [hi, h]

/-- Who holds the device after one open file has changed. -/
theorem holds_set {refs' : List Nat} (hf : s.files[f]? = some refs)
    (d : Driver) : ({ s with driver := d, files := s.files.set f refs' } :
      State).Holds q ↔ q ∈ refs' ∨ ∃ g ≠ f, s.HoldsFile q g := by
  constructor
  · rintro ⟨held, hheld, hq⟩
    obtain ⟨g, hg⟩ := List.mem_iff_getElem?.mp hheld
    rcases Pool.set_cases hg with ⟨-, rfl⟩ | ⟨hne, hg⟩
    · exact Or.inl hq
    · exact Or.inr ⟨g, hne, held, hg, hq⟩
  · rintro (hq | ⟨g, hne, held, hheld, hq⟩)
    · exact ⟨refs', Pool.mem_set_self hf refs', hq⟩
    · refine ⟨held, ?_, hq⟩
      apply List.mem_iff_getElem?.mpr
      exact ⟨g, (Pool.set_other hne).trans hheld⟩

theorem holds_iff (hf : s.files[f]? = some refs) :
    s.Holds q ↔ q ∈ refs ∨ ∃ g ≠ f, s.HoldsFile q g := by
  have hset : s.files.set f refs = s.files := by
    apply List.ext_getElem?
    intro g
    by_cases hg : g = f
    · rw [hg, Pool.set_self hf, hf]
    · exact Pool.set_other hg
  rw [← holds_set hf s.driver, hset]

/-- The other processes do not notice that one drops a descriptor. -/
theorem holds_drop (hf : s.files[f]? = some refs) (hne : q ≠ p) (d : Driver)
    (h : s.Holds q) :
    ({ s with driver := d, files := s.files.set f (refs.erase p) } :
      State).Holds q := by
  rw [holds_set hf d]
  rw [holds_iff hf] at h
  exact h.imp_left (List.mem_erase_of_ne hne).mpr

theorem testRelease_task (d : Driver) (refTask : Nat) :
    (testRelease d refTask).task = some q ↔ d.task = some q ∧ q ≠ refTask := by
  unfold testRelease
  split_ifs with htask
  · simp [htask, eq_comm]
  · constructor
    · exact fun hq => ⟨hq, fun heq => htask (heq ▸ hq)⟩
    · exact And.left

theorem testRelease_ok (d : Driver) (refTask : Nat) :
    EventOk (.released refTask d.task (testRelease d refTask).task) := by
  intro p hp hne
  exact (testRelease_task d refTask).mpr ⟨hp, hne⟩

/-- The one step that can go wrong. -/
theorem close_iff (h : ReceiverLaw s tr) (hf : s.files[f]? = some refs) :
    ReceiverLaw (drop s p f refs).1 (tr ++ (drop s p f refs).2) ↔
      LastTogether s (.close p f) := by
  have hcond : LastTogether s (.close p f) ↔ (s.driver.task = some p →
      refs.erase p = [] ∨ p ∈ refs.erase p ∨ ∃ g ≠ f, s.HoldsFile p g) := by
    simp only [LastTogether, hf, Option.mem_some_iff, forall_eq']
  rw [hcond]
  unfold drop
  by_cases hlast : refs.erase p = []
  · -- the file is released, by the process itself
    simp only [hlast, if_true, true_or, implies_true, iff_true]
    refine ⟨fun q hq => ?_, fun e he => ?_⟩
    · have hother := (testRelease_task s.driver p).mp hq
      obtain ⟨halive, hregistered, hholds⟩ := h.task q hother.1
      refine ⟨halive, hregistered, ?_⟩
      have hdrop := holds_drop hf hother.2 (testRelease s.driver p) hholds
      rwa [hlast] at hdrop
    · rcases List.mem_append.mp he with he | he
      · exact h.events e he
      · cases List.mem_singleton.mp he
        exact testRelease_ok s.driver p
  · -- the file stays, and the receiver must hold it or another
    simp only [hlast, if_false, false_or, List.append_nil]
    constructor
    · intro hafter htask
      exact (holds_set hf s.driver).mp (hafter.task p htask).2.2
    · intro hok
      refine ⟨fun q hq => ?_, h.events⟩
      obtain ⟨halive, hregistered, hholds⟩ := h.task q hq
      refine ⟨halive, hregistered, ?_⟩
      by_cases hne : q = p
      · subst hne
        exact (holds_set hf s.driver).mpr (hok hq)
      · exact holds_drop hf hne s.driver hholds

theorem State.HoldsFile.holds (h : s.HoldsFile p f) : s.Holds p := by
  obtain ⟨refs, hrefs, hp⟩ := h
  exact ⟨refs, List.mem_of_getElem? hrefs, hp⟩

theorem receiverOk_ioctl (h : ReceiverOk s) (halive : s.Alive p)
    (hheld : s.HoldsFile p f) (cmd : UInt32) :
    ReceiverOk { s with
      driver := testIoctl s.driver p cmd
      procs := s.procs.modify p fun proc =>
        { proc with
          registered := proc.registered || cmd == REG_CURRENT_TASK } } := by
  intro q hq
  have hsame (r : Nat) (hr : s.Alive r) :
      ((s.procs.modify p fun proc =>
        { proc with
          registered := proc.registered || cmd == REG_CURRENT_TASK })[r]?).map
        Process.alive = some true := by
    refine Eq.trans (map_modify ?_ p) hr
    intro proc
    rfl
  by_cases hcmd : cmd = REG_CURRENT_TASK
  · -- the caller becomes the receiver
    have hself : p = q := by
      simpa [testIoctl, hcmd] using hq
    subst hself
    refine ⟨hsame p halive, ?_, State.HoldsFile.holds hheld⟩
    obtain ⟨proc, hproc, -⟩ := Option.map_eq_some_iff.mp halive
    simp [State.Registered, hproc, hcmd]
  · have htask : s.driver.task = some q := by
      simpa [testIoctl, hcmd] using hq
    obtain ⟨hq', hregistered, hholds⟩ := h q htask
    refine ⟨hsame q hq', ?_, hholds⟩
    exact (map_modify (fun _ => by simp [hcmd]) p).trans hregistered

theorem receiverLaw_step_iff (h : ReceiverLaw s tr)
    (hstep : signal1.step s a = some (s', ev)) :
    ReceiverLaw s' (tr ++ ev) ↔ LastTogether s a := by
  cases step_cases hstep with
  | close hf => exact close_iff h hf
  | spawn =>
      refine iff_of_true ⟨fun q hq => ?_, by simpa using h.events⟩ trivial
      obtain ⟨halive, hregistered, hholds⟩ := h.task q hq
      exact ⟨map_concat halive, map_concat hregistered, hholds⟩
  | «open» =>
      refine iff_of_true ⟨fun q hq => ?_, by simpa using h.events⟩ trivial
      obtain ⟨halive, hregistered, refs, hrefs, hheld⟩ := h.task q hq
      exact ⟨halive, hregistered, refs, List.mem_append_left _ hrefs, hheld⟩
  | @ioctl p f cmd halive hheld =>
      refine iff_of_true ⟨?_, by simpa using h.events⟩ trivial
      exact receiverOk_ioctl h.task halive hheld cmd
  | @read p f _ hsent =>
      refine iff_of_true ⟨h.task, fun e he => ?_⟩ trivial
      rcases List.mem_append.mp he with he | he
      · exact h.events e he
      · obtain ⟨task, info, htask, rfl⟩ := hsent e he
        exact decide_eq_true (h.task task htask).1
  | @fork p halive =>
      refine iff_of_true ⟨fun q hq => ?_, by simpa using h.events⟩ trivial
      obtain ⟨halive, hregistered, refs, hrefs, hheld⟩ := h.task q hq
      refine ⟨map_concat halive, map_concat hregistered, _,
        List.mem_map_of_mem hrefs, List.mem_append_left _ hheld⟩
  | @exit p hnone =>
      refine iff_of_true ⟨fun q hq => ?_, by simpa using h.events⟩ trivial
      obtain ⟨halive, hregistered, hholds⟩ := h.task q hq
      -- a process that exits holds nothing, and the receiver does
      have hne : p ≠ q := fun heq => hnone (heq ▸ hholds)
      refine ⟨?_, ?_, hholds⟩
      · show ((s.procs.modify p _)[q]?).map _ = _
        rw [List.getElem?_modify_ne _ _ hne]
        exact halive
      · show ((s.procs.modify p _)[q]?).map _ = _
        rw [List.getElem?_modify_ne _ _ hne]
        exact hregistered

/-- At every point of a run the receiver is a live, registered holder of the
device, if and only if the registered process never drops its last descriptor
of the device on an open file that others still hold. -/
theorem receiverLaw_iff_lastTogether (acts : List Act) :
    signal1.Always ReceiverLaw acts ↔ signal1.Meets LastTogether acts := by
  have hinit : ReceiverLaw signal1.init [] := by
    refine ⟨fun p hp => ?_, by simp⟩
    cases hp
  refine signal1.always_iff_meets hinit ?_ acts
  intro s tr a s' ev _ hlaw hstep
  exact receiverLaw_step_iff hlaw hstep

/-- A process registers, forks, closes its file and ends; then the child, which
still holds the file, reads. -/
def childOutlivesParent : List Act :=
  [.spawn, .open 0, .ioctl 0 0 REG_CURRENT_TASK, .fork 0, .close 0 0, .exit 0,
    .read 1 0]

/-- The signal goes to a process that has exited. -/
theorem signal_to_dead_process :
    ∃ s tr, signal1.run childOutlivesParent = some (s, tr) ∧
      ¬ ReceiverLaw s tr := by
  refine ⟨_, _, rfl, fun hlaw => ?_⟩
  have hdead := hlaw.events (.sent 0 ⟨44, -1, 1⟩ false) (by decide)
  cases hdead

end Signal
end KernelDrivers
