import KernelDrivers.Errno
import KernelDrivers.Lib.Holdings
import KernelDrivers.Lib.System

/-!
# The string of `procfs1.c`

`my_proc_write` copies what it is given into a buffer of its own and puts it in
the place of the string before it, which it frees.  `my_proc_show` prints the
string, or what `%s` prints for `NULL`.

The kernel passes at most `MAX_RW_COUNT` bytes, so `count + 1` is not `0`.
-/

namespace KernelDrivers
namespace HelloProc

open Lib

/-- A buffer of `kzalloc`, with a name that no buffer before it had. -/
structure Buffer where
  name : Nat
  bytes : List UInt8
  deriving DecidableEq

/-- The module, and the pointer `str`. -/
structure Module where
  loaded : Bool
  str : Option Buffer
  /-- The name of the next buffer. -/
  next : Nat
  fresh : ∀ b ∈ str, b.name < next

/-- `kfree`.  It does nothing with `NULL`. -/
def kfree : Option Buffer → List (Entry Nat)
  | none => []
  | some b => [.released b.name]

/-- `my_proc_show`. -/
def myProcShow (s : Module) : List UInt8 :=
  (match s.str with
    | none => "(null)".toUTF8.toList
    | some b => b.bytes.takeWhile (· ≠ 0)) ++ "\n".toUTF8.toList

/-- `copy_from_user` of a payload.  An empty one does not touch the user's
memory. -/
def CopyFails (payload : List UInt8) (fault : Bool) : Prop :=
  fault = true ∧ payload ≠ []

instance (payload : List UInt8) (fault : Bool) :
    Decidable (CopyFails payload fault) :=
  inferInstanceAs (Decidable (_ ∧ _))

/-- `my_proc_write`: the module, the return value and what was done with
buffers.  The byte behind the payload is left of `kzalloc`. -/
def myProcWrite (s : Module) (payload : List UInt8) (kzalloc fault : Bool) :
    Module × Int × List (Entry Nat) :=
  if ¬ kzalloc then (s, -ENOMEM, [])
  else
    let tmp : Buffer := ⟨s.next, payload ++ [0]⟩
    if CopyFails payload fault then
      ({ s with
          next := s.next + 1
          fresh := fun b hb => Nat.lt_succ_of_lt (s.fresh b hb) },
        EFAULT, .acquired tmp.name :: kfree (some tmp))
    else
      ({ s with
          str := some tmp
          next := s.next + 1
          fresh := fun b hb => by cases hb; exact Nat.lt_succ_self _ },
        payload.length, .acquired tmp.name :: kfree s.str)

/-- `hello_exit`. -/
def helloExit (s : Module) : Module := { s with loaded := false }

/-- What a run shows. -/
inductive Event where
  /-- A write, whether it could be done, `str` before and behind it, and what it
  returned. -/
  | wrote (payload : List UInt8) (done : Bool) (before after : Option Buffer)
      (returned : Int)
  | memory (entry : Entry Nat)

inductive Act where
  | write (payload : List UInt8) (kzalloc fault : Bool)
  | exit

def Module.step (s : Module) : Act → Option (Module × List Event)
  | .write payload kzalloc fault =>
      if s.loaded then
        let result := myProcWrite s payload kzalloc fault
        let done := kzalloc = true ∧ ¬ CopyFails payload fault
        some (result.1,
          .wrote payload done s.str result.1.str result.2.1 ::
            result.2.2.map .memory)
      else none
  | .exit => if s.loaded then some (helloExit s, []) else none

/-- The module from its load on. -/
def helloProc : System Module Act Event where
  init := ⟨true, none, 0, nofun⟩
  step := Module.step

/-! ## Atomic replacement -/

/-- What was done with buffers. -/
def Event.entry : Event → Option (Entry Nat)
  | .memory entry => some entry
  | _ => none

/-- The payload of a write that was done. -/
def Event.payload : Event → Option (List UInt8)
  | .wrote payload true _ _ _ => some payload
  | _ => none

/-- The payload of the last write that was done. -/
def lastPayload (tr : List Event) : Option (List UInt8) :=
  (tr.filterMap Event.payload).getLast?

/-- A write that is done returns its count; one that fails returns a negative
number and leaves the string alone. -/
def Event.Honest : Event → Prop
  | .wrote payload true _ _ returned => returned = payload.length
  | .wrote _ false before after returned => returned < 0 ∧ after = before
  | .memory _ => True

/-- The writes are honest, the file shows the last one that was done, every
buffer is freed only while it is allocated, and one is allocated exactly from
the first write on that was done to the unload. -/
structure Atomic (s : Module) (tr : List Event) : Prop where
  honest : ∀ e ∈ tr, e.Honest
  shown : ∀ payload ∈ lastPayload tr,
    myProcShow s = payload.takeWhile (· ≠ 0) ++ "\n".toUTF8.toList
  freed : Holdings.Covered [] (tr.filterMap Event.entry)
  allocated : (Holdings.settle [] (tr.filterMap Event.entry)).length =
    if s.loaded ∧ (lastPayload tr).isSome then 1 else 0

/-- No copy fails, and the module is not unloaded with a string. -/
def Clean (s : Module) : Act → Prop
  | .write payload kzalloc fault => ¬ (kzalloc = true ∧ CopyFails payload fault)
  | .exit => s.str = none

variable {s s' : Module} {a : Act} {ev tr : List Event}

/-! ## What one step can do -/

/-- The steps, case by case. -/
inductive Step (s : Module) : Act → Module → List Event → Prop
  | refused (payload : List UInt8) (fault : Bool) :
      Step s (.write payload false fault) s
        [.wrote payload false s.str s.str (-ENOMEM)]
  | faulted {payload : List UInt8} {fault : Bool} {s' : Module} :
      CopyFails payload fault → s'.loaded = s.loaded → s'.str = s.str →
      Step s (.write payload true fault) s'
        [.wrote payload false s.str s.str EFAULT, .memory (.acquired s.next),
          .memory (.released s.next)]
  | replaced {payload : List UInt8} {fault : Bool} {s' : Module} :
      ¬ CopyFails payload fault → s'.loaded = s.loaded →
      s'.str = some ⟨s.next, payload ++ [0]⟩ →
      Step s (.write payload true fault) s'
        (.wrote payload true s.str s'.str payload.length ::
          .memory (.acquired s.next) :: (kfree s.str).map .memory)
  | exit : Step s .exit (helloExit s) []

theorem step_cases (h : helloProc.step s a = some (s', ev)) :
    s.loaded = true ∧ Step s a s' ev := by
  cases a with
  | write payload kzalloc fault =>
      simp only [helloProc, Module.step] at h
      split_ifs at h with hloaded
      refine ⟨hloaded, ?_⟩
      cases kzalloc with
      | false =>
          cases h
          simpa [myProcWrite] using Step.refused payload fault
      | true =>
          by_cases hcopy : CopyFails payload fault
          · simp only [myProcWrite, hcopy] at h
            cases h
            exact .faulted hcopy rfl rfl
          · simp only [myProcWrite, hcopy] at h
            cases h
            exact .replaced hcopy rfl rfl
  | exit =>
      simp only [helloProc, Module.step] at h
      split_ifs at h with hloaded
      cases h
      exact ⟨hloaded, .exit⟩

/-! ## What is allocated -/

/-- The string is the last payload that was stored, and its buffer is what is
allocated. -/
structure Held (s : Module) (tr : List Event) : Prop where
  last : s.str.map Buffer.bytes = (lastPayload tr).map (· ++ [0])
  freed : Holdings.Covered [] (tr.filterMap Event.entry)
  settled : Holdings.settle [] (tr.filterMap Event.entry) =
    s.str.toList.map Buffer.name

/-- Events without a stored payload leave the last one. -/
theorem lastPayload_append_nil (h : ev.filterMap Event.payload = []) :
    lastPayload (tr ++ ev) = lastPayload tr := by
  unfold lastPayload
  rw [List.filterMap_append, h, List.append_nil]

theorem payload_memory (entries : List (Entry Nat)) :
    (entries.map Event.memory).filterMap Event.payload = [] := by
  induction entries with
  | nil => rfl
  | cons entry entries ih => exact ih

theorem entry_memory (entries : List (Entry Nat)) :
    (entries.map Event.memory).filterMap Event.entry = entries := by
  induction entries with
  | nil => rfl
  | cons entry entries ih => exact congrArg (entry :: ·) ih

/-- The old string is freed behind the allocation of the new one. -/
theorem kfree_str (s : Module) :
    Holdings.Covered (s.next :: s.str.toList.map Buffer.name) (kfree s.str) ∧
      Holdings.settle (s.next :: s.str.toList.map Buffer.name) (kfree s.str) =
        [s.next] := by
  cases hstr : s.str with
  | none => exact ⟨trivial, rfl⟩
  | some b =>
      have hne : s.next ≠ b.name := Nat.ne_of_gt (s.fresh b hstr)
      simp [kfree, Holdings.Covered, Holdings.settle, hne]

theorem Held.append (h : Held s tr)
    (hlast : s'.str.map Buffer.bytes = (lastPayload (tr ++ ev)).map (· ++ [0]))
    (hfreed : Holdings.Covered (s.str.toList.map Buffer.name)
      (ev.filterMap Event.entry))
    (hsettled : Holdings.settle (s.str.toList.map Buffer.name)
      (ev.filterMap Event.entry) = s'.str.toList.map Buffer.name) :
    Held s' (tr ++ ev) := by
  refine ⟨hlast, ?_, ?_⟩
  · rw [List.filterMap_append, Holdings.covered_append, h.settled]
    exact ⟨h.freed, hfreed⟩
  · rw [List.filterMap_append, Holdings.settle_append, h.settled]
    exact hsettled

theorem Held.step (h : Held s tr) (hstep : Step s a s' ev) :
    Held s' (tr ++ ev) := by
  cases hstep with
  | refused payload fault =>
      refine h.append ?_ trivial rfl
      rw [lastPayload_append_nil rfl, h.last]
  | faulted hcopy _ hstr =>
      refine h.append ?_ ⟨List.mem_cons_self, trivial⟩ ?_
      · rw [lastPayload_append_nil rfl, hstr, h.last]
      · rw [hstr]
        exact List.erase_cons_head ..
  | @replaced payload fault _ hcopy _ hstr =>
      -- the new string is allocated before the old one is freed
      obtain ⟨hcovered, hleft⟩ := kfree_str s
      have hentries : (.wrote payload true s.str s'.str payload.length ::
          .memory (.acquired s.next) :: (kfree s.str).map .memory).filterMap
            Event.entry = .acquired s.next :: kfree s.str := by
        simp only [List.filterMap_cons, Event.entry, entry_memory]
      have hpayload : (.wrote payload true s.str s'.str payload.length ::
          .memory (.acquired s.next) :: (kfree s.str).map .memory).filterMap
            Event.payload = [payload] := by
        simp only [List.filterMap_cons, Event.payload, payload_memory]
      refine h.append ?_ ?_ ?_
      · unfold lastPayload
        rw [List.filterMap_append, hpayload, List.getLast?_concat, hstr]
        rfl
      · rw [hentries]
        exact hcovered
      · rw [hentries, hstr]
        exact hleft
  | exit => exact h.append (by rw [List.append_nil]; exact h.last) trivial rfl

/-! ## The law -/

/-- The NUL behind a payload ends it at the latest. -/
theorem takeWhile_terminated (payload : List UInt8) :
    (payload ++ [0]).takeWhile (· ≠ 0) = payload.takeWhile (· ≠ 0) := by
  induction payload with
  | nil => rfl
  | cons b payload ih =>
      rw [List.cons_append, List.takeWhile_cons, List.takeWhile_cons, ih]

/-- With what is allocated, the law is one about the writes and the unload. -/
theorem atomic_iff (h : Held s tr) :
    Atomic s tr ↔ (∀ e ∈ tr, e.Honest) ∧ (s.loaded = false → s.str = none) := by
  have hlast := h.last
  constructor
  · rintro ⟨hhonest, -, -, hallocated⟩
    refine ⟨hhonest, fun hunloaded => ?_⟩
    rw [h.settled, hunloaded] at hallocated
    cases hstr : s.str with
    | none => rfl
    | some b => simp [hstr] at hallocated
  · rintro ⟨hhonest, hunloaded⟩
    refine ⟨hhonest, fun payload hpayload => ?_, h.freed, ?_⟩
    · rw [Option.mem_def.mp hpayload] at hlast
      obtain ⟨b, hstr, hbytes⟩ := Option.map_eq_some_iff.mp hlast
      unfold myProcShow
      rw [hstr]
      show b.bytes.takeWhile _ ++ _ = _
      rw [hbytes, takeWhile_terminated]
    · rw [h.settled]
      cases hstr : s.str with
      | none =>
          rw [hstr] at hlast
          simp [Option.map_eq_none_iff.mp hlast.symm]
      | some b =>
          have hloaded : s.loaded = true := by
            by_contra hnot
            rw [hunloaded (by simpa using hnot)] at hstr
            cases hstr
          rw [hstr] at hlast
          obtain ⟨payload, hpayload, -⟩ := Option.map_eq_some_iff.mp hlast.symm
          simp [hloaded, hpayload]

/-- One step keeps the law exactly when it is clean. -/
theorem atomic_step_iff (hheld : Held s tr) (hlaw : Atomic s tr)
    (hloaded : s.loaded = true) (hstep : Step s a s' ev) :
    Atomic s' (tr ++ ev) ↔ Clean s a := by
  rw [atomic_iff (hheld.step hstep), List.forall_mem_append]
  have hbefore := hlaw.honest
  cases hstep with
  | refused payload fault =>
      refine iff_of_true ⟨⟨hbefore, ?_⟩, by simp [hloaded]⟩ (by simp [Clean])
      simp [Event.Honest, ENOMEM]
  | faulted hcopy hsame hstr =>
      refine iff_of_false (fun h => ?_) (fun h => h ⟨rfl, hcopy⟩)
      have hreturned := h.1.2 _ List.mem_cons_self
      exact absurd hreturned.1 (by decide)
  | replaced hcopy hsame hstr =>
      refine iff_of_true ⟨⟨hbefore, ?_⟩, by simp [hsame, hloaded]⟩
        (fun h => hcopy h.2)
      intro e he
      rcases List.mem_cons.mp he with rfl | he
      · rfl
      · rcases List.mem_cons.mp he with rfl | he
        · trivial
        · obtain ⟨entry, -, rfl⟩ := List.mem_map.mp he
          trivial
  | exit =>
      constructor
      · exact fun h => h.2 rfl
      · exact fun h => ⟨⟨hbefore, nofun⟩, fun _ => h⟩

/-- The string is replaced atomically, and freed, exactly as long as no copy
fails and the module is not unloaded after a write that was done. -/
theorem atomic_iff_clean (acts : List Act) :
    helloProc.Always Atomic acts ↔ helloProc.Meets Clean acts := by
  have hnothing : Held helloProc.init [] := ⟨rfl, trivial, rfl⟩
  refine System.always_iff_meets_of_invariant Held ?_ hnothing ?_ ?_ acts
  · exact (atomic_iff hnothing).mpr ⟨nofun, nofun⟩
  · exact fun _ _ _ _ _ _ _ hheld hstep _ => hheld.step (step_cases hstep).2
  · intro s tr a s' ev _ hlaw hheld hstep
    obtain ⟨hloaded, hcase⟩ := step_cases hstep
    exact atomic_step_iff hheld hlaw hloaded hcase

/-- The copy of a write faults: it returns 14, as if it had taken 14 bytes. -/
theorem faulted_write_returns_positive :
    ¬ helloProc.Always Atomic [.write [65] true true] := by
  intro h
  have hlaw := h _ _ _ List.prefix_rfl rfl
  have hhonest := hlaw.honest _ List.mem_cons_self
  exact absurd hhonest.1 (by decide)

end HelloProc
end KernelDrivers
