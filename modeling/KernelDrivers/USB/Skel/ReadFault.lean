import KernelDrivers.USB.Skel.ReadStream
import KernelDrivers.USB.Skel.Results

/-!
# A fault in `copy_to_user` of `skel_read`

`skel_read` advances `bulk_in_copied` behind the `copy_to_user`, also where it
faulted, and goes on to the read-ahead.  The bytes are then skipped by all
later reads, or the next URB overwrites them.
-/

namespace KernelDrivers
namespace USB
namespace Skel

open Lib

/-- Nothing of the buffer has been lost between two states with these events
in between: the counts and the bytes that are left are as before, and no new
read has been started. -/
structure Kept (d d' : UsbSkel) (ev : List Event) : Prop where
  copied : d'.bulkInCopied = d.bulkInCopied
  filled : d'.bulkInFilled = d.bulkInFilled
  contents : buffered d' = buffered d
  idle : ∀ length, Event.readSubmitted length ∉ ev

/-! ## What a reader copies -/

/-- Behind the test of `count` a read is for at least one byte, and it copies
only if there is at least one. -/
def ReadPc.Sized (count : Nat) : ReadPc → Prop
  | .start | .done => True
  | .copy available => 0 < count ∧ 0 < available
  | _ => 0 < count

def Op.Sized : Op → Prop
  | .read _ count pc => pc.Sized count
  | _ => True

section Moves

variable {d d' : UsbSkel} {me : Owner} {nonblock : Bool} {count : Nat}
  {o : Outcome} {ev : List Event}

/-- `skel_read` gets past its first statement with a nonzero `count`. -/
theorem readStep_start {pc' : ReadPc}
    (h : readStep d me nonblock count .start o = some (d', pc', ev)) :
    pc' = .done ∨ 0 < count := by
  by_cases hcount : count = 0
  · simp only [readStep, hcount, if_true, Option.some.injEq,
      Prod.mk.injEq] at h
    exact Or.inl h.2.1.symm
  · exact Or.inr (Nat.pos_of_ne_zero hcount)

theorem ReadMove.sized {pc pc' : ReadPc}
    (h : ReadMove d me nonblock count pc o d' pc' ev) (hpc : pc.Sized count)
    (hstart : pc = .start → pc' = .done ∨ 0 < count) : pc'.Sized count := by
  cases h with
  | zeroCount | lockInterrupted | exit => trivial
  | lock => exact (hstart rfl).resolve_left nofun
  | filled hfilled => exact ⟨hpc, hfilled⟩
  | copyShort | copyAll => exact hpc.1
  | @submit _ next => cases next <;> exact hpc
  | @unmarkOngoing _ _ next => cases next <;> exact hpc
  | _ => exact hpc

theorem Op.step_sized {op op' : Op}
    (h : op.step d me o = some (d', op', ev)) (hop : op.Sized) :
    op'.Sized := by
  cases op with
  | read nonblock count pc =>
      obtain ⟨⟨d₁, pc₁, ev₁⟩, hstep, heq⟩ := Option.map_eq_some_iff.mp h
      cases heq
      refine (readStep_cases hstep).sized hop ?_
      rintro rfl
      exact readStep_start hstep
  | write | flush =>
      obtain ⟨⟨d₁, pc₁, ev₁⟩, -, heq⟩ := Option.map_eq_some_iff.mp h
      cases heq
      trivial

end Moves

theorem sized_of_reachable {s : State} (h : skelDriver.Reachable s) :
    ∀ c ∈ s.calls, c.2.Sized := by
  refine skelDriver.reachable_invariant (I := fun s => ∀ c ∈ s.calls, c.2.Sized)
    nofun ?_ h
  intro s a s' ev ih hstep
  cases step_cases hstep with
  | core hmove =>
      rw [hmove.calls_eq]
      exact ih
  | enterRead | enterWrite | enterFlush =>
      exact Pool.forall_concat ih trivial
  | call =>
      obtain ⟨f, op, d', op', hcall, hop, hs'⟩ := call_step hstep
      have hsized := ih (f, op) (List.mem_of_getElem? hcall)
      rw [hs']
      exact Pool.forall_set ih (Op.step_sized hop hsized)
  | _ => exact ih

/-! ## What a fault does -/

/-- The bytes in front of a position are out of reach: the reads are behind it,
or the buffer counts as empty. -/
def UsbSkel.Consumed (copied : Nat) (d : UsbSkel) : Prop :=
  d.bulkInUrb = none ∧ (copied < d.bulkInCopied ∨ d.bulkInFilled = 0)

/-- The bytes at a position are out of reach or given up to a new read. -/
def Lost (copied : Nat) (s : State) (ev : List Event) : Prop :=
  (∃ length, Event.readSubmitted length ∈ ev) ∨ s.dev.Consumed copied

section Moves

variable {d d' : UsbSkel} {me : Owner} {nonblock : Bool} {count copied : Nat}
  {o : Outcome} {ev : List Event}

theorem UsbSkel.Consumed.congr (h : d.Consumed copied)
    (hsame : SameRead d d') : d'.Consumed copied := by
  unfold UsbSkel.Consumed
  rw [hsame.bulkInUrb, hsame.bulkInCopied, hsame.bulkInFilled]
  exact h

/-- A step of a read does not bring the bytes back. -/
theorem ReadMove.consumed {pc pc' : ReadPc}
    (h : ReadMove d me nonblock count pc o d' pc' ev)
    (hd : d.Consumed copied) :
    (∃ length, Event.readSubmitted length ∈ ev) ∨ d'.Consumed copied := by
  obtain ⟨hurb, hbehind⟩ := hd
  cases h with
  | @submit length => exact Or.inl ⟨length, List.mem_singleton.mpr rfl⟩
  | copyShort | copyAll =>
      exact Or.inr ⟨hurb, hbehind.imp_left fun h => Nat.lt_add_right _ h⟩
  | emptyBuffer => exact Or.inr ⟨hurb, Or.inr rfl⟩
  | _ => exact Or.inr ⟨hurb, hbehind⟩

theorem OpMove.consumed {op op' : Op} (h : OpMove d me op o d' op' ev)
    (hd : d.Consumed copied) :
    (∃ length, Event.readSubmitted length ∈ ev) ∨ d'.Consumed copied := by
  cases h with
  | read h => exact h.consumed hd
  | write h => exact Or.inr (hd.congr h.sameRead)
  | flush h => exact Or.inr (hd.congr h.sameRead)

/-- The faulting `copy_to_user` itself: the bytes of its chunk leave the
buffer without reaching anybody. -/
theorem ReadMove.fault {available : Nat} {pc' : ReadPc} {err : Int}
    (h : ReadMove d me nonblock count (.copy available) (.fails err) d' pc' ev)
    (hready : available = d.bulkInFilled - d.bulkInCopied) :
    pc'.result = some (-EFAULT) ∧ pc'.copied = [] ∧ ev = [] ∧
      d'.bulkInCopied = d.bulkInCopied + min available count ∧
      d'.bulkInUrb = d.bulkInUrb ∧
      buffered d =
        Bytes.slice d.bulkInBuffer d.bulkInCopied (min available count) ++
          buffered d' := by
  cases h with
  | copyShort | copyAll =>
      exact ⟨rfl, rfl, rfl, rfl, rfl, buffered_copy hready count⟩

end Moves

theorem Lost.step {copied : Nat} {s s' : State} {a : Act}
    {ev ev' : List Event} (h : Lost copied s ev) (hmove : Move s a s' ev') :
    Lost copied s' (ev ++ ev') := by
  rcases h with ⟨length, hsubmitted⟩ | hconsumed
  · exact Or.inl ⟨length, List.mem_append_left _ hsubmitted⟩
  cases hmove with
  | core hmove =>
      refine Or.inr ?_
      by_cases hcore : s.core = .unbound
      · rw [hcore] at hmove
        cases hmove with
        | kzalloc => exact ⟨rfl, Or.inr rfl⟩
        | noMemory => exact hconsumed
      · exact hconsumed.congr (hmove.sameRead hcore)
  | file _ hmove => exact Or.inr (hconsumed.congr hmove.sameRead)
  | call _ hmove =>
      refine (hmove.consumed hconsumed).imp_left ?_
      rintro ⟨length, hsubmitted⟩
      exact ⟨length, List.mem_append_right _ hsubmitted⟩
  | readCompletes hurb => exact absurd hconsumed.1 (by simp [hurb])
  | _ => exact Or.inr hconsumed

/-- Behind a fault the bytes are lost at once. -/
theorem lost_of_fault {s s' : State} {i f count available : Nat}
    {nonblock : Bool} {err : Int} {ev : List Event}
    (hreach : skelDriver.Reachable s)
    (hcall : s.calls[i]? = some (f, .read nonblock count (.copy available)))
    (hstep : skelDriver.step s (.call i (.fails err)) = some (s', ev)) :
    Lost s.dev.bulkInCopied s' ev := by
  have hmem := List.mem_of_getElem? hcall
  obtain ⟨hurb, havailable⟩ := (readSide_of_reachable hreach).ready _ hmem
  obtain ⟨hcount, hpos⟩ := sized_of_reachable hreach _ hmem
  cases step_cases hstep with
  | @call _ _ _ _ d' op' _ hcall' hmove =>
      cases hcall.symm.trans hcall'
      cases hmove with
      | read hmove =>
          obtain ⟨-, -, -, hcopied, hurb', -⟩ := hmove.fault havailable
          refine Or.inr ⟨hurb'.trans hurb, Or.inl ?_⟩
          show s.dev.bulkInCopied < d'.bulkInCopied
          rw [hcopied]
          exact Nat.lt_add_of_pos_right (lt_min hpos hcount)

/-! ## Whole runs -/

/-- At no point behind a faulting `copy_to_user`, and so not where `skel_read`
has returned `-EFAULT`, is the buffer as it was before. -/
theorem not_kept_of_fault {before rest : List Act} {s s' : State}
    {tr ev : List Event} {i f count available : Nat} {nonblock : Bool}
    {err : Int} (hrun : skelDriver.run before = some (s, tr))
    (hcall : s.calls[i]? = some (f, .read nonblock count (.copy available)))
    (hlater : skelDriver.run (before ++ .call i (.fails err) :: rest) =
      some (s', tr ++ ev)) :
    ¬ Kept s.dev s'.dev ev := by
  have hreach : skelDriver.Reachable s := ⟨before, tr, hrun⟩
  have hmem := List.mem_of_getElem? hcall
  obtain ⟨s₁, ev₁, hstep⟩ := skelDriver.run_through hrun hlater
  have hrun₁ := skelDriver.run_concat_of_step hrun hstep
  -- what is lost there stays lost
  obtain ⟨ev', hev, hlost⟩ := skelDriver.run_persists
    (P := fun s' tr' => ∃ ev, tr' = tr ++ ev ∧ Lost s.dev.bulkInCopied s' ev)
    hrun₁ ⟨ev₁, rfl, lost_of_fault hreach hcall hstep⟩
    ⟨rest, (List.append_cons ..).symm⟩ (by
      rintro s tr a s' ev ⟨ev₀, rfl, hlost⟩ hstep
      exact ⟨ev₀ ++ ev, List.append_assoc .., hlost.step (step_cases hstep)⟩)
    hlater
  cases List.append_cancel_left hev
  rintro ⟨hcopied, hfilled, -, hidle⟩
  rcases hlost with ⟨length, hsubmitted⟩ | ⟨-, hbehind | hempty⟩
  · exact hidle length hsubmitted
  · exact absurd hbehind (by rw [hcopied]; exact Nat.lt_irrefl _)
  · -- there was something to copy, so the buffer was not empty
    have havailable : available = s.dev.bulkInFilled - s.dev.bulkInCopied :=
      ((readSide_of_reachable hreach).ready _ hmem).2
    have hpos : 0 < available := (sized_of_reachable hreach _ hmem).2
    omega

/-- A read that does not wait leaves two bytes behind. -/
def filledBuffer : List Act :=
  bringUp ++ [.enterRead 0 true 2] ++ List.replicate 10 (.call 0 .ok) ++
    [.readCompletes 0 [1, 2], .readWakesUp]

/-- The call `i`, a read of one byte, up to its `copy_to_user`. -/
def readOneByte (i : Nat) : List Act :=
  .enterRead 0 false 1 :: List.replicate 5 (.call i .ok)

theorem not_kept_readOneByte :
    ∃ s tr s' ev, skelDriver.run (filledBuffer ++ readOneByte 1) = some (s, tr) ∧
      skelDriver.run (filledBuffer ++ readOneByte 1 ++
        [.call 1 (.fails (-EFAULT)), .call 1 .ok]) = some (s', tr ++ ev) ∧
      ¬ Kept s.dev s'.dev ev :=
  ⟨_, _, _, [.returned (-EFAULT) []], rfl, rfl,
    @not_kept_of_fault (filledBuffer ++ readOneByte 1) [.call 1 .ok] _ _ _ _ 1 0
      1 2 false (-EFAULT) rfl rfl rfl⟩

/-- The first of two bytes is gone with the fault, and the next read gets the
second one. -/
theorem fault_skips_byte :
    ∃ s tr s₁ s₂, skelDriver.run filledBuffer = some (s, tr) ∧
      buffered s.dev = [1, 2] ∧
      skelDriver.run (filledBuffer ++ readOneByte 1 ++
          [.call 1 (.fails (-EFAULT)), .call 1 .ok]) =
        some (s₁, tr ++ [.returned (-EFAULT) []]) ∧
      ¬ Kept s.dev s₁.dev [.returned (-EFAULT) []] ∧
      skelDriver.run (filledBuffer ++ readOneByte 1 ++
          [.call 1 (.fails (-EFAULT)), .call 1 .ok] ++ readOneByte 2 ++
          List.replicate 2 (.call 2 .ok)) =
        some (s₂, tr ++ [.returned (-EFAULT) [], .returned 1 [2]]) :=
  ⟨_, _, _, _, rfl, rfl, rfl, mt Kept.copied (by decide), rfl⟩

end Skel
end USB
end KernelDrivers
