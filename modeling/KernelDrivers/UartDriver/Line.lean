import KernelDrivers.Lib.Conserve
import KernelDrivers.UartDriver.Transmit

/-!
# The transmit ring of `test_serial.c` with its writer

`test_timer` calls `test_tx_chars` without the lock of the port.  The serial
core puts characters into the ring meanwhile, so the statements of both
interleave.

The serial core is not in the source.  It is taken as any writer that keeps to
the protocol of `struct circ_buf`, and the high-priority character `x_char` and
the flow control behind `uart_tx_stopped` change at any time.
-/

namespace KernelDrivers
namespace UartDriver
namespace Transmit

open Lib CInt

/-- The next statement of `test_tx_chars`. -/
inductive TxPc where
  | idle
  /-- The test of `x_char`. -/
  | xChar
  /-- The test of the ring and of `uart_tx_stopped`. -/
  | tests
  /-- `pr_debug` of the character at `tail`. -/
  | write (count : Int)
  /-- The update of `tail`. -/
  | advance (count : Int)
  /-- The two tests behind the body of the loop. -/
  | again (count : Int)
  /-- The test for `uart_write_wakeup`. -/
  | wakeup
  deriving DecidableEq

/-- Whoever puts characters into the ring.  Between two of its statements
`test_tx_chars` may take characters out. -/
structure RingWriter (pageShift : Fin 32) where
  /-- Its local variables and its next statement. -/
  Local : Type
  /-- What its caller decides at a statement. -/
  Input : Type
  start : Local
  /-- One statement, with the characters that it publishes. -/
  step : Local → CircBuf → Input → Option (Local × CircBuf × List UInt8)
  /-- What it has made sure of about the ring. -/
  Sure : CircBuf → Local → Prop
  sure_start : ∀ buf, Sure ⟨buf, 0, 0⟩ start
  /-- A reader that takes a character out does not invalidate it. -/
  sure_take : ∀ xmit l, InRange pageShift xmit → ¬ xmit.Empty → Sure xmit l →
    Sure (xmit.take pageShift) l
  /-- What is published goes behind the characters that are there. -/
  appends : ∀ xmit l input l' xmit' cs, InRange pageShift xmit →
    Sure xmit l → step l xmit input = some (l', xmit', cs) →
    InRange pageShift xmit' ∧ Sure xmit' l' ∧
      contents pageShift xmit' = contents pageShift xmit ++ cs

variable {pageShift : Fin 32} (W : RingWriter pageShift)

structure Line where
  port : UartPort
  /-- `uart_tx_stopped`. -/
  stopped : Bool
  tx : TxPc
  writer : W.Local

inductive LineEvent where
  /-- A character is in the ring. -/
  | put (c : UInt8)
  | called
  | wrote (c : UInt8)
  | wroteX (c : UInt8)
  | wakeup

inductive LineAct where
  /-- `test_timer` calls `test_tx_chars`. -/
  | timer
  /-- The next statement of `test_tx_chars`. -/
  | tx
  /-- The next statement of the writer. -/
  | writer (input : W.Input)
  | setXChar (c : UInt8)
  | setStopped (stopped : Bool)

variable {W}

/-- `test_tx_chars`, one statement. -/
def txStep (s : Line W) : Option (Line W × List LineEvent) :=
  match s.tx with
  | .idle => none
  | .xChar =>
      if s.port.xChar ≠ 0 then
        some ({ s with
          port := { s.port with tx := s.port.tx + 1, xChar := 0 }
          tx := .idle }, [.wroteX s.port.xChar])
      else some ({ s with tx := .tests }, [])
  | .tests =>
      if s.port.xmit.Empty ∨ s.stopped then some ({ s with tx := .idle }, [])
      else
        some ({ s with tx := .write ((s.port.fifosize >>> 1).toNat : Nat) }, [])
  | .write count =>
      some ({ s with tx := .advance count },
        [.wrote (s.port.xmit.buf s.port.xmit.tail.toNat)])
  | .advance count =>
      some ({ s with
        port := { s.port with
          xmit := s.port.xmit.take pageShift, tx := s.port.tx + 1 }
        tx := .again count }, [])
  | .again count =>
      if s.port.xmit.Empty then some ({ s with tx := .wakeup }, [])
      else if 0 < count - 1 then some ({ s with tx := .write (count - 1) }, [])
      else some ({ s with tx := .wakeup }, [])
  | .wakeup =>
      some ({ s with tx := .idle },
        if s.port.xmit.charsPending pageShift < wakeupChars then [.wakeup] else [])

/-- The writer, one statement. -/
def writerStep (s : Line W) (input : W.Input) :
    Option (Line W × List LineEvent) :=
  (W.step s.writer s.port.xmit input).map fun (l, xmit, cs) =>
    ({ s with port := { s.port with xmit := xmit }, writer := l },
      cs.map .put)

def Line.step (s : Line W) : LineAct W → Option (Line W × List LineEvent)
  | .timer =>
      if s.tx = .idle then some ({ s with tx := .xChar }, [.called]) else none
  | .tx => txStep s
  | .writer input => writerStep s input
  | .setXChar c => some ({ s with port := { s.port with xChar := c } }, [])
  | .setStopped stopped => some ({ s with stopped := stopped }, [])

variable (W) in
/-- The line after the port was started, with any page for its ring. -/
def line (fifosize : UInt32) (buf : Bytes) :
    System (Line W) (LineAct W) LineEvent where
  init := ⟨⟨⟨buf, 0, 0⟩, 0, fifosize, 0⟩, false, .idle, W.start⟩
  step := Line.step

/-- A character was written and not yet removed. -/
def TxPc.removing : TxPc → Bool
  | .advance _ => true
  | _ => false

/-- The ring, less the character that was written and not yet removed. -/
def Line.held (s : Line W) : List UInt8 :=
  if s.tx.removing then (contents pageShift s.port.xmit).tail
  else contents pageShift s.port.xmit

variable (W) in
/-- The characters on their way. -/
def wire : Channel (Line W) LineEvent UInt8 where
  put
    | .put c => [c]
    | _ => []
  take
    | .wrote c => [c]
    | _ => []
  held := Line.held

/-- The characters that a call has written after some events, from `n` on. -/
def burstFrom (n : Nat) (ev : List LineEvent) : Nat :=
  ev.foldl (fun n e =>
    match e with
    | .called => 0
    | .wrote _ => n + 1
    | _ => n) n

/-- The characters that the last call has written so far. -/
def burst (tr : List LineEvent) : Nat := burstFrom 0 tr

/-- The characters are written in the order in which they were put in, each of
them once, and a call writes no more of them than half of `fifosize`, or
one. -/
structure Transmits (fifosize : UInt32) (s : Line W) (tr : List LineEvent) :
    Prop where
  conserved : (wire W).Conserved s tr
  burst : burst tr ≤ max 1 (fifosize.toNat / 2)

/-! ## What a statement knows -/

section Contents

variable {xmit : CircBuf}

theorem pending_lt_size (h : InRange pageShift xmit) :
    pending pageShift xmit < uartXmitSize pageShift := by
  have hcount := pending_eq h
  obtain ⟨h₁, h₂, h₃, h₄⟩ := h
  split_ifs at hcount <;> omega

/-- A ring that is not empty has a first character. -/
theorem contents_eq_cons (h : InRange pageShift xmit) (hne : ¬ xmit.Empty) :
    contents pageShift xmit =
      xmit.buf xmit.tail.toNat :: contents pageShift (xmit.take pageShift) := by
  unfold contents
  rw [pending_take h hne, window_take h]

theorem contents_eq_nil_iff (h : InRange pageShift xmit) :
    contents pageShift xmit = [] ↔ xmit.Empty := by
  rw [empty_iff h, ← List.length_eq_zero_iff, contents, Ring.length_window]

end Contents

/-- The characters that a call may write. -/
def budget (fifosize : UInt32) : Nat := max 1 (fifosize.toNat / 2)

/-- What holds between two statements of `test_tx_chars`, when the call has
written `n` characters. -/
def TxFits (fifosize : UInt32) (xmit : CircBuf) (n : Nat) : TxPc → Prop
  | .xChar | .tests => n = 0
  | .write count => ¬ xmit.Empty ∧ n + max 1 count.toNat = budget fifosize
  | .advance count => ¬ xmit.Empty ∧ n + max 1 count.toNat = budget fifosize + 1
  | .again count => n + max 1 count.toNat = budget fifosize + 1
  | .idle | .wakeup => n ≤ budget fifosize

structure Fits (fifosize : UInt32) (s : Line W) (n : Nat) : Prop where
  range : InRange pageShift s.port.xmit
  fifo : s.port.fifosize = fifosize
  tx : TxFits fifosize s.port.xmit n s.tx
  writer : W.Sure s.port.xmit s.writer

section Statements

variable {fifosize : UInt32} {s s' : Line W} {ev tr : List LineEvent} {n : Nat}

theorem burst_append (tr ev : List LineEvent) :
    burst (tr ++ ev) = burstFrom (burst tr) ev :=
  List.foldl_append

@[simp] theorem burstFrom_put (n : Nat) (cs : List UInt8) :
    burstFrom n (cs.map .put) = n := by
  induction cs with
  | nil => rfl
  | cons c cs ih => exact ih

@[simp] theorem puts_put (cs : List UInt8) :
    (wire W).puts (cs.map .put) = cs := by
  induction cs with
  | nil => rfl
  | cons c cs ih => exact congrArg (c :: ·) ih

@[simp] theorem takes_put (cs : List UInt8) :
    (wire W).takes (cs.map .put) = [] := by
  induction cs with
  | nil => rfl
  | cons c cs ih => exact ih

theorem TxFits.le_budget {xmit : CircBuf} {pc : TxPc}
    (h : TxFits fifosize xmit n pc) : n ≤ budget fifosize := by
  cases pc with
  | idle | wakeup => exact h
  | xChar | tests =>
      have hzero : n = 0 := h
      omega
  | write count =>
      have hsum := h.2
      omega
  | advance count =>
      have hsum := h.2
      omega
  | again count =>
      have hsum : n + max 1 count.toNat = budget fifosize + 1 := h
      omega

theorem TxFits.not_empty {xmit : CircBuf} {pc : TxPc}
    (h : TxFits fifosize xmit n pc) (hremoving : pc.removing = true) :
    ¬ xmit.Empty := by
  cases pc with
  | advance count => exact h.1
  | idle | xChar | tests | write | again | wakeup => cases hremoving

/-- The tests of `test_tx_chars` read the ring from the side of `tail`, which
the writer leaves alone. -/
theorem TxFits.congr {xmit xmit' : CircBuf} {pc : TxPc}
    (h : TxFits fifosize xmit n pc) (hne : ¬ xmit.Empty → ¬ xmit'.Empty) :
    TxFits fifosize xmit' n pc := by
  cases pc with
  | write count => exact ⟨hne h.1, h.2⟩
  | advance count => exact ⟨hne h.1, h.2⟩
  | idle | xChar | tests | again | wakeup => exact h

theorem conserves_of_contents
    (hheld : s'.held = s.held) (hputs : (wire W).puts ev = [])
    (htakes : (wire W).takes ev = []) : (wire W).StepConserves s ev s' := by
  unfold Channel.StepConserves
  rw [hputs, htakes, List.append_nil, List.nil_append]
  exact hheld.symm

/-- A statement that leaves the ring and moves no character. -/
theorem conserves_of_idle (htx : s'.tx.removing = s.tx.removing)
    (hxmit : s'.port.xmit = s.port.xmit) (hputs : (wire W).puts ev = [])
    (htakes : (wire W).takes ev = []) : (wire W).StepConserves s ev s' := by
  refine conserves_of_contents ?_ hputs htakes
  unfold Line.held
  rw [htx, hxmit]

/-- The ring as a statement leaves it. -/
theorem Fits.with_ring (h : Fits fifosize s n) {xmit : CircBuf} {pc : TxPc}
    {l : W.Local} {m : Nat} {sent : UInt32} (hrange : InRange pageShift xmit)
    (htx : TxFits fifosize xmit m pc) (hsure : W.Sure xmit l) :
    Fits fifosize ⟨{ s.port with xmit := xmit, tx := sent }, s.stopped, pc, l⟩
      m :=
  ⟨hrange, h.fifo, htx, hsure⟩

/-- Characters go to the end of the ring. -/
theorem conserves_of_put {xmit : CircBuf} {l : W.Local} {cs : List UInt8}
    (hcontents : contents pageShift xmit = contents pageShift s.port.xmit ++ cs)
    (hfirst : s.tx.removing = true → contents pageShift s.port.xmit ≠ []) :
    (wire W).StepConserves s (cs.map .put)
      ⟨{ s.port with xmit := xmit }, s.stopped, s.tx, l⟩ := by
  unfold Channel.StepConserves
  rw [puts_put, takes_put]
  simp only [wire, Line.held, List.nil_append, hcontents]
  cases hremoving : s.tx.removing with
  | false => simp
  | true => simp [List.tail_append_of_ne_nil (hfirst hremoving)]

/-- The character that was written is removed. -/
theorem conserves_of_remove {xmit : CircBuf} {pc : TxPc} {c : UInt8}
    {sent : UInt32} (hbefore : s.tx.removing = true) (hafter : pc.removing = false)
    (hcontents : contents pageShift s.port.xmit = c :: contents pageShift xmit) :
    (wire W).StepConserves s []
      ⟨{ s.port with xmit := xmit, tx := sent }, s.stopped, pc, s.writer⟩ := by
  refine conserves_of_contents ?_ rfl rfl
  unfold Line.held
  simp only [hbefore, hafter, if_true, Bool.false_eq_true, if_false, hcontents,
    List.tail_cons]

theorem Fits.writer_step (h : Fits fifosize s n) {input : W.Input}
    (hstep : writerStep s input = some (s', ev)) :
    Fits fifosize s' (burstFrom n ev) ∧ (wire W).StepConserves s ev s' := by
  obtain ⟨⟨l, xmit, cs⟩, hwrites, heq⟩ := Option.map_eq_some_iff.mp hstep
  cases heq
  obtain ⟨hrange, hsure, hcontents⟩ :=
    W.appends _ _ _ _ _ _ h.range h.writer hwrites
  constructor
  · rw [burstFrom_put]
    refine h.with_ring hrange (h.tx.congr fun hne hempty => hne ?_) hsure
    -- what was there is still there
    rw [← contents_eq_nil_iff h.range]
    rw [← contents_eq_nil_iff hrange, hcontents] at hempty
    exact (List.append_eq_nil_iff.mp hempty).1
  · refine conserves_of_put hcontents fun hremoving => ?_
    exact mt (contents_eq_nil_iff h.range).mp (h.tx.not_empty hremoving)

theorem Fits.tx_step (h : Fits fifosize s n)
    (hstep : txStep s = some (s', ev)) :
    Fits fifosize s' (burstFrom n ev) ∧ (wire W).StepConserves s ev s' := by
  have hfits := h.tx
  have hrange := h.range
  unfold txStep at hstep
  cases hpc : s.tx with
  | idle =>
      simp only [hpc] at hstep
      cases hstep
  | xChar =>
      simp only [hpc] at hstep
      rw [hpc] at hfits
      obtain rfl : n = 0 := hfits
      split_ifs at hstep
      · cases hstep
        exact ⟨⟨hrange, h.fifo, Nat.zero_le _, h.writer⟩,
          conserves_of_idle (by rw [hpc]; rfl) rfl rfl rfl⟩
      · cases hstep
        exact ⟨⟨hrange, h.fifo, rfl, h.writer⟩,
          conserves_of_idle (by rw [hpc]; rfl) rfl rfl rfl⟩
  | tests =>
      simp only [hpc] at hstep
      rw [hpc] at hfits
      obtain rfl : n = 0 := hfits
      split_ifs at hstep with hidle
      · cases hstep
        exact ⟨⟨hrange, h.fifo, Nat.zero_le _, h.writer⟩,
          conserves_of_idle (by rw [hpc]; rfl) rfl rfl rfl⟩
      · cases hstep
        refine ⟨⟨hrange, h.fifo, ⟨fun hempty => hidle (Or.inl hempty), ?_⟩,
          h.writer⟩,
          conserves_of_idle (by rw [hpc]; rfl) rfl rfl rfl⟩
        show 0 + max 1 ((s.port.fifosize >>> 1).toNat : Int).toNat = budget fifosize
        rw [budget_eq, h.fifo, Nat.zero_add]
        rfl
  | write count =>
      simp only [hpc] at hstep
      rw [hpc] at hfits
      cases hstep
      obtain ⟨hne, hcount⟩ := hfits
      refine ⟨⟨hrange, h.fifo, ⟨hne, ?_⟩, h.writer⟩, ?_⟩
      · show n + 1 + max 1 count.toNat = budget fifosize + 1
        omega
      · unfold Channel.StepConserves
        rw [Channel.puts_singleton, Channel.takes_singleton]
        simp only [wire, Line.held, hpc, TxPc.removing, List.append_nil, if_true,
          Bool.false_eq_true, if_false, contents_eq_cons hrange hne,
          List.tail_cons, List.singleton_append]
  | advance count =>
      simp only [hpc] at hstep
      rw [hpc] at hfits
      cases hstep
      obtain ⟨hne, hcount⟩ := hfits
      constructor
      · exact h.with_ring (inRange_take hrange) hcount
          (W.sure_take _ _ hrange hne h.writer)
      · exact conserves_of_remove (by rw [hpc]; rfl) rfl
          (contents_eq_cons hrange hne)
  | again count =>
      simp only [hpc] at hstep
      rw [hpc] at hfits
      have hcount : n + max 1 count.toNat = budget fifosize + 1 := hfits
      have hagain : TxFits fifosize s.port.xmit n (.again count) := hfits
      have hdone : n ≤ budget fifosize := hagain.le_budget
      split_ifs at hstep with hempty hpositive
      · cases hstep
        exact ⟨⟨hrange, h.fifo, hdone, h.writer⟩,
          conserves_of_idle (by rw [hpc]; rfl) rfl rfl rfl⟩
      · cases hstep
        refine ⟨⟨hrange, h.fifo, ⟨hempty, ?_⟩, h.writer⟩,
          conserves_of_idle (by rw [hpc]; rfl) rfl rfl rfl⟩
        show n + max 1 (count - 1).toNat = budget fifosize
        omega
      · cases hstep
        exact ⟨⟨hrange, h.fifo, hdone, h.writer⟩,
          conserves_of_idle (by rw [hpc]; rfl) rfl rfl rfl⟩
  | wakeup =>
      simp only [hpc] at hstep
      rw [hpc] at hfits
      cases hstep
      refine ⟨⟨hrange, h.fifo, ?_, h.writer⟩,
        conserves_of_idle (by rw [hpc]; rfl) rfl ?_ ?_⟩
      · split_ifs <;> exact hfits
      · split_ifs <;> rfl
      · split_ifs <;> rfl

theorem Fits.step (h : Fits fifosize s n) {a : LineAct W}
    (hstep : s.step a = some (s', ev)) :
    Fits fifosize s' (burstFrom n ev) ∧ (wire W).StepConserves s ev s' := by
  cases a with
  | tx => exact h.tx_step hstep
  | writer input => exact h.writer_step hstep
  | timer =>
      simp only [Line.step] at hstep
      split_ifs at hstep with hidle
      cases hstep
      exact ⟨⟨h.range, h.fifo, rfl, h.writer⟩,
        conserves_of_idle (by rw [hidle]; rfl) rfl rfl rfl⟩
  | setXChar c =>
      cases hstep
      exact ⟨⟨h.range, h.fifo, h.tx, h.writer⟩,
        conserves_of_idle rfl rfl rfl rfl⟩
  | setStopped stopped =>
      cases hstep
      exact ⟨⟨h.range, h.fifo, h.tx, h.writer⟩,
        conserves_of_idle rfl rfl rfl rfl⟩

end Statements

/-- Whatever the writer does meanwhile, `test_tx_chars` writes the characters
in order and keeps to its budget. -/
theorem line_transmits (W : RingWriter pageShift) (fifosize : UInt32)
    (buf : Bytes) (acts : List (LineAct W)) :
    (line W fifosize buf).Always (Transmits fifosize) acts := by
  intro before s tr _ hrun
  have hlaw : Fits fifosize s (burst tr) ∧ (wire W).Conserved s tr := by
    refine (line W fifosize buf).run_induction
      (P := fun _ s tr => Fits fifosize s (burst tr) ∧
        (wire W).Conserved s tr) ?_ ?_ hrun
    · have hsize : (0 : Int) < uartXmitSize pageShift := by
        exact_mod_cast size_pos
      constructor
      · exact ⟨⟨le_refl 0, hsize, le_refl 0, hsize⟩, rfl, Nat.zero_le _,
          W.sure_start buf⟩
      · have hnone : pending pageShift ⟨buf, 0, 0⟩ = 0 := by simp [pending]
        simp [Channel.Conserved, wire, Line.held, line, contents, hnone,
          TxPc.removing]
    · rintro before s tr a s' ev - ⟨hfits, hconserved⟩ hstep
      obtain ⟨hfits', hstep'⟩ := hfits.step hstep
      rw [burst_append]
      exact ⟨hfits', ((wire W).conserved_append_iff hconserved).mpr hstep'⟩
  exact ⟨hlaw.2, hlaw.1.tx.le_budget⟩

/-! ## A writer that keeps to the protocol -/

/-- The next statement of a writer that puts in one character at a time. -/
inductive WriterPc where
  | idle
  | store (c : UInt8)
  /-- The update of `head`. -/
  | publish (c : UInt8)

variable (pageShift)

/-- `CIRC_SPACE`. -/
def CircBuf.space (xmit : CircBuf) : Nat :=
  sizeT (xmit.tail - (xmit.head + 1)) &&& (uartXmitSize pageShift - 1)

def CircBuf.store (xmit : CircBuf) (c : UInt8) : CircBuf :=
  { xmit with buf := Function.update xmit.buf xmit.head.toNat c }

def CircBuf.publish (xmit : CircBuf) : CircBuf :=
  { xmit with
    head := int32 (sizeT (xmit.head + 1) &&& (uartXmitSize pageShift - 1) : Nat) }

/-- It looks for room, stores at `head` and then moves `head` on.  A character
for which there is no room is dropped. -/
def WriterPc.step : WriterPc → CircBuf → UInt8 →
    Option (WriterPc × CircBuf × List UInt8)
  | .idle, xmit, c =>
      if xmit.space pageShift = 0 then some (.idle, xmit, [])
      else some (.store c, xmit, [])
  | .store c, xmit, _ => some (.publish c, xmit.store c, [])
  | .publish c, xmit, _ => some (.idle, xmit.publish pageShift, [c])

/-- Behind the test there is room for one character, and behind the store it is
the one at `head`. -/
def WriterPc.Sure (xmit : CircBuf) : WriterPc → Prop
  | .idle => True
  | .store _ => pending pageShift xmit + 1 < uartXmitSize pageShift
  | .publish c => pending pageShift xmit + 1 < uartXmitSize pageShift ∧
      xmit.buf xmit.head.toNat = c

variable {pageShift}

section Writer

variable {xmit : CircBuf}

@[simp] theorem publish_tail : (xmit.publish pageShift).tail = xmit.tail := by
  cases xmit
  rfl

@[simp] theorem publish_buf : (xmit.publish pageShift).buf = xmit.buf := by
  cases xmit
  rfl

theorem publish_head (h : InRange pageShift xmit) :
    (xmit.publish pageShift).head = (xmit.head + 1) % uartXmitSize pageShift := by
  have hsize : uartXmitSize pageShift ≤ 2 ^ 31 := size_le
  have hpos : 0 < uartXmitSize pageShift := size_pos
  obtain ⟨hnonneg, hlt, -, -⟩ := h
  show int32 (sizeT (xmit.head + 1) &&& (uartXmitSize pageShift - 1) : Nat) = _
  rw [mask_eq, sizeT_of_lt (by omega) (by omega), Int.natCast_mod,
    Int.toNat_of_nonneg (by omega)]
  have hlow := Int.emod_nonneg (xmit.head + 1)
    (b := (uartXmitSize pageShift : Int)) (by omega)
  have hhigh := Int.emod_lt_of_pos (xmit.head + 1)
    (b := (uartXmitSize pageShift : Int)) (by omega)
  exact int32_of_lt hlow (by omega)

theorem inRange_publish (h : InRange pageShift xmit) :
    InRange pageShift (xmit.publish pageShift) := by
  have hpos : 0 < (uartXmitSize pageShift : Int) := by exact_mod_cast size_pos
  constructor
  · rw [publish_head h]
    exact Int.emod_nonneg _ hpos.ne'
  · rw [publish_head h]
    exact Int.emod_lt_of_pos _ hpos
  · rw [publish_tail]
    exact h.tail_nonneg
  · rw [publish_tail]
    exact h.tail_lt

/-- `CIRC_SPACE` leaves one cell free. -/
theorem space_eq_zero_iff (h : InRange pageShift xmit) :
    xmit.space pageShift = 0 ↔
      pending pageShift xmit + 1 = uartXmitSize pageShift := by
  have hdvd : (uartXmitSize pageShift : Int) ∣ 2 ^ 64 := by
    exact_mod_cast Nat.pow_dvd_pow 2 (by omega)
  have hspace : (xmit.space pageShift : Int) =
      (xmit.tail - (xmit.head + 1)) % uartXmitSize pageShift := by
    unfold CircBuf.space sizeT
    rw [mask_eq, ← Int.emod_emod_of_dvd _ hdvd, Int.natCast_mod,
      Int.toNat_of_nonneg (Int.emod_nonneg _ (by decide))]
  have hcount := pending_eq h
  obtain ⟨h₁, h₂, h₃, h₄⟩ := h
  split_ifs at hcount
  · rw [← Int.add_emod_right, Int.emod_eq_of_lt (by omega) (by omega)] at hspace
    omega
  · rw [Int.emod_eq_of_lt (by omega) (by omega)] at hspace
    omega

/-- The cell behind the contents is the one at `head`. -/
theorem head_index (h : InRange pageShift xmit) :
    (xmit.tail.toNat + pending pageShift xmit) % uartXmitSize pageShift =
      xmit.head.toNat := by
  have hcount := pending_eq h
  obtain ⟨h₁, h₂, h₃, h₄⟩ := h
  split_ifs at hcount with hle
  · rw [Nat.mod_eq_of_lt (by omega)]
    omega
  · rw [Nat.mod_eq_sub_mod (by omega), Nat.mod_eq_of_lt (by omega)]
    omega

@[simp] theorem store_head (c : UInt8) : (xmit.store c).head = xmit.head := by
  cases xmit
  rfl

@[simp] theorem store_tail (c : UInt8) : (xmit.store c).tail = xmit.tail := by
  cases xmit
  rfl

theorem pending_store (c : UInt8) :
    pending pageShift (xmit.store c) = pending pageShift xmit := by
  unfold pending
  rw [store_head, store_tail]

theorem inRange_store (h : InRange pageShift xmit) (c : UInt8) :
    InRange pageShift (xmit.store c) := by
  constructor
  · rw [store_head]
    exact h.head_nonneg
  · rw [store_head]
    exact h.head_lt
  · rw [store_tail]
    exact h.tail_nonneg
  · rw [store_tail]
    exact h.tail_lt

theorem contents_store (h : InRange pageShift xmit) (c : UInt8) :
    contents pageShift (xmit.store c) = contents pageShift xmit := by
  unfold contents
  rw [pending_store, store_tail, CircBuf.store, ← head_index h]
  exact Ring.window_update_behind xmit.buf (pending_lt_size h) c

theorem pending_publish (h : InRange pageShift xmit)
    (hroom : pending pageShift xmit + 1 < uartXmitSize pageShift) :
    pending pageShift (xmit.publish pageShift) = pending pageShift xmit + 1 := by
  have hbefore := pending_eq h
  have hafter := pending_eq (inRange_publish h)
  rw [publish_head h, publish_tail] at hafter
  obtain ⟨h₁, h₂, h₃, h₄⟩ := h
  rcases (show xmit.head + 1 ≤ uartXmitSize pageShift by omega).lt_or_eq with hlt | hend
  · rw [Int.emod_eq_of_lt (by omega) hlt] at hafter
    split_ifs at hbefore hafter <;> omega
  · rw [hend, Int.emod_self] at hafter
    split_ifs at hbefore hafter <;> omega

/-- The character at `head` joins the queue. -/
theorem contents_publish (h : InRange pageShift xmit)
    (hroom : pending pageShift xmit + 1 < uartXmitSize pageShift) :
    contents pageShift (xmit.publish pageShift) =
      contents pageShift xmit ++ [xmit.buf xmit.head.toNat] := by
  unfold contents
  rw [pending_publish h hroom, publish_buf, publish_tail, Ring.window_succ,
    head_index h]

end Writer

/-- A character that is taken makes room. -/
theorem WriterPc.sure_take {xmit : CircBuf} {pc : WriterPc}
    (hrange : InRange pageShift xmit) (hne : ¬ xmit.Empty)
    (h : pc.Sure pageShift xmit) : pc.Sure pageShift (xmit.take pageShift) := by
  have htake := pending_take hrange hne
  cases pc with
  | idle => trivial
  | store c =>
      have hroom : pending pageShift xmit + 1 < uartXmitSize pageShift := h
      show pending pageShift (xmit.take pageShift) + 1 < _
      omega
  | publish c =>
      obtain ⟨hroom, hcell⟩ := h
      refine ⟨by omega, ?_⟩
      rw [take_buf, take_head]
      exact hcell

theorem WriterPc.appends {xmit xmit' : CircBuf} {pc pc' : WriterPc} {c : UInt8}
    {cs : List UInt8} (hrange : InRange pageShift xmit)
    (h : pc.Sure pageShift xmit)
    (hstep : pc.step pageShift xmit c = some (pc', xmit', cs)) :
    InRange pageShift xmit' ∧ pc'.Sure pageShift xmit' ∧
      contents pageShift xmit' = contents pageShift xmit ++ cs := by
  cases pc with
  | idle =>
      simp only [WriterPc.step] at hstep
      split_ifs at hstep with hfull <;> cases hstep
      · exact ⟨hrange, trivial, (List.append_nil _).symm⟩
      · refine ⟨hrange, ?_, (List.append_nil _).symm⟩
        have hlt := pending_lt_size hrange
        have hne := mt (space_eq_zero_iff hrange).mpr hfull
        show pending pageShift xmit + 1 < uartXmitSize pageShift
        omega
  | store c =>
      cases hstep
      have hroom : pending pageShift (xmit.store c) + 1 <
          uartXmitSize pageShift := by
        rw [pending_store]
        exact h
      refine ⟨inRange_store hrange c, ⟨hroom, Function.update_self ..⟩, ?_⟩
      rw [contents_store hrange c, List.append_nil]
  | publish c =>
      cases hstep
      obtain ⟨hroom, rfl⟩ := h
      exact ⟨inRange_publish hrange, trivial, contents_publish hrange hroom⟩

/-- The protocol of `struct circ_buf`. -/
def circWriter (pageShift : Fin 32) : RingWriter pageShift where
  Local := WriterPc
  Input := UInt8
  start := .idle
  step := WriterPc.step pageShift
  Sure xmit pc := pc.Sure pageShift xmit
  sure_start _ := trivial
  sure_take _ _ := WriterPc.sure_take
  appends _ _ _ _ _ _ := WriterPc.appends

/-- A character is put in, and another one between the two statements that
write the first one out and remove it. -/
def putMeanwhile : List (LineAct (circWriter 12)) :=
  List.replicate 3 (.writer (65 : UInt8)) ++
    [.timer, .tx, .tx, .tx] ++ List.replicate 3 (.writer (66 : UInt8)) ++
    [.tx, .tx, .tx, .timer] ++ List.replicate 5 .tx

theorem putMeanwhile_transmits :
    ∃ s tr, (line (circWriter 12) 2 fun _ => 0).run putMeanwhile =
        some (s, tr) ∧ Transmits 2 s tr ∧
      (wire (circWriter 12)).takes tr = [65, 66] :=
  ⟨_, _, rfl, line_transmits (circWriter 12) 2 (fun _ => 0) putMeanwhile _ _ _
    List.prefix_rfl rfl, rfl⟩

/-! ## The timer without a writer -/

/-- `n` calls by `test_timer`, with no new characters and no flow control. -/
def ticks (pageShift : Fin 32) : Nat → UartPort → Option (UartPort × List UInt8)
  | 0, port => some (port, [])
  | n + 1, port =>
      (testTxChars pageShift (uartXmitSize pageShift) port false).bind fun out =>
        (ticks pageShift n out.port).map fun (port, cs) => (port, out.wrote ++ cs)

theorem testTxChars_fifosize {fuel : Nat} {port : UartPort} {stopped : Bool}
    {out : Outcome} (h : testTxChars pageShift fuel port stopped = some out) :
    out.port.fifosize = port.fifosize := by
  unfold testTxChars at h
  split_ifs at h
  · cases h
    rfl
  · cases h
    rfl
  · obtain ⟨⟨xmit, tx, cs⟩, -, heq⟩ := Option.map_eq_some_iff.mp h
    cases heq
    rfl

/-- One call takes what is there, up to its budget. -/
theorem taken_eq (port : UartPort) (h : InRange pageShift port.xmit)
    (hxChar : port.xChar = 0) :
    taken pageShift port false =
      min (pending pageShift port.xmit) (budget port.fifosize) := by
  have hempty := empty_iff h
  unfold taken budget
  by_cases hidle : port.xmit.Empty
  · rw [if_pos (by simp [hidle]), hempty.mp hidle, Nat.zero_min]
  · rw [if_neg (by simp [hidle, hxChar])]

/-- Taking `B` elements at a time. -/
theorem take_rounds {l cs rest : List UInt8} {B : Nat} (hl : l = cs ++ rest)
    (hcs : cs.length = min l.length B) (n : Nat) :
    cs ++ rest.take (n * B) = l.take ((n + 1) * B) ∧
      rest.drop (n * B) = l.drop ((n + 1) * B) := by
  by_cases hle : l.length ≤ B
  · have hlen : l.length ≤ (n + 1) * B :=
      hle.trans (Nat.le_mul_of_pos_left B n.succ_pos)
    have hsum : l.length = cs.length + rest.length := by
      rw [hl, List.length_append]
    obtain rfl : rest = [] := List.length_eq_zero_iff.mp (by omega)
    rw [List.take_of_length_le hlen, List.drop_of_length_le hlen, hl]
    simp
  · obtain rfl : cs.length = B := by omega
    have hsum : (n + 1) * cs.length = cs.length + n * cs.length := by
      rw [Nat.succ_mul, Nat.add_comm]
    rw [hl, hsum, List.take_length_add_append, List.drop_length_add_append]
    exact ⟨rfl, rfl⟩

/-- What `n` calls have written, and what they leave. -/
theorem ticks_eq (n : Nat) (port : UartPort) (h : InRange pageShift port.xmit)
    (hxChar : port.xChar = 0) :
    ∃ port', ticks pageShift n port = some (port',
        (contents pageShift port.xmit).take (n * budget port.fifosize)) ∧
      InRange pageShift port'.xmit ∧ contents pageShift port'.xmit =
        (contents pageShift port.xmit).drop (n * budget port.fifosize) := by
  induction n generalizing port with
  | zero => exact ⟨port, by simp [ticks], h, by simp⟩
  | succ n ih =>
      have hlength : (contents pageShift port.xmit).length =
          pending pageShift port.xmit := Ring.length_window ..
      have htaken := taken_eq port h hxChar
      have hlt := pending_lt_size h
      obtain ⟨out, hcall, hdrained⟩ := testTxChars_drains port false h
        (uartXmitSize pageShift) (by omega)
      obtain ⟨cs, hcs, hfront, hwrote⟩ := hdrained.front
      rw [if_pos hxChar] at hwrote
      have hfifosize := testTxChars_fifosize hcall
      obtain ⟨port', hticks, hrange, hrest⟩ :=
        ih out.port hdrained.inRange hdrained.xChar
      rw [hfifosize] at hticks hrest
      obtain ⟨hwritten, hleft⟩ :=
        take_rounds hfront (by rw [hcs, htaken, hlength]) n
      refine ⟨port', ?_, hrange, hrest.trans hleft⟩
      simp only [ticks, hcall, Option.bind_some, hticks, Option.map_some, hwrote,
        hwritten]

/-- `n` calls write the first `n` budgets of characters in order, and with
enough of them the ring is empty. -/
theorem ticks_drain (n : Nat) (port : UartPort) (h : InRange pageShift port.xmit)
    (hxChar : port.xChar = 0) :
    ∃ port', ticks pageShift n port = some (port',
        (contents pageShift port.xmit).take (n * budget port.fifosize)) ∧
      contents pageShift port'.xmit =
        (contents pageShift port.xmit).drop (n * budget port.fifosize) ∧
      (pending pageShift port.xmit ≤ n * budget port.fifosize →
        port'.xmit.Empty) := by
  obtain ⟨port', hticks, hrange, hrest⟩ := ticks_eq n port h hxChar
  refine ⟨port', hticks, hrest, fun henough => ?_⟩
  have hlength : (contents pageShift port'.xmit).length =
      pending pageShift port'.xmit := Ring.length_window ..
  have hbefore : (contents pageShift port.xmit).length =
      pending pageShift port.xmit := Ring.length_window ..
  rw [empty_iff hrange, ← hlength, hrest, List.length_drop, hbefore]
  omega

/-- Two calls for the three characters. -/
theorem crossing_drains : ∃ port', ticks 12 2 crossing = some (port', [254, 255, 0]) ∧
    port'.xmit.Empty := by
  have hrange : InRange 12 crossing.xmit :=
    ⟨by decide, by decide, by decide, by decide⟩
  obtain ⟨port', hticks, -, hempty⟩ := ticks_drain 2 crossing hrange rfl
  have hcontents : (contents 12 crossing.xmit).take (2 * budget crossing.fifosize) =
      [254, 255, 0] := by decide
  rw [hcontents] at hticks
  exact ⟨port', hticks, hempty (by decide)⟩

end Transmit
end UartDriver
end KernelDrivers
