import KernelDrivers.Lib.Decimal
import KernelDrivers.Lib.Pool
import KernelDrivers.Lib.Register
import KernelDrivers.Lib.System

/-!
# The message of `char1.c`

`device_open` writes a text with the count of the earlier opens into `msg` and
points `msg_Ptr` to its start; `device_read` goes on from there.  There is one
`msg` and one `msg_Ptr` for all handles, and the test that would admit one
handle at a time is commented out.

In the sessions below the users' buffers can be written.  `deviceRead` also
says what happens where they cannot.
-/

namespace KernelDrivers
namespace ReadonlyCharacter

open Lib

/-- `BUF_LEN`. -/
def bufLen : Nat := 80

/-- What `device_open` formats. -/
def told (counter : Int32) : List UInt8 :=
  "I already told you ".toList.map Char.toUInt8 ++
    (Decimal.ofInt counter.toInt ++
      " times Hello world!\n".toList.map Char.toUInt8)

theorem length_told (counter : Int32) : (told counter).length < bufLen := by
  have hlow := counter.le_toInt
  have hhigh := counter.toInt_lt
  have hdigits : (Decimal.ofInt counter.toInt).length ≤ 11 :=
    (Decimal.length_ofInt_le_iff _ (by decide)).mpr ⟨by omega, by omega⟩
  unfold told
  rw [List.length_append, List.length_append]
  show 19 + ((Decimal.ofInt counter.toInt).length + 20) < 80
  omega

/-- The variables of the module. -/
structure Driver where
  deviceOpen : Int32
  msg : List UInt8
  /-- `msg_Ptr - msg`. -/
  msgPtr : Nat
  /-- The variable of `device_open`. -/
  counter : Int32
  length_msg : msg.length = bufLen

/-- `sprintf` into an array: the text, a NUL, and what was there before. -/
def sprintf (msg text : List UInt8) : List UInt8 :=
  text ++ 0 :: msg.drop (text.length + 1)

theorem length_sprintf {msg text : List UInt8} (h : text.length < msg.length) :
    (sprintf msg text).length = msg.length := by
  simp only [sprintf, List.length_append, List.length_cons, List.length_drop]
  omega

/-- `device_open`. -/
def deviceOpen (d : Driver) : Driver where
  deviceOpen := d.deviceOpen + 1
  msg := sprintf d.msg (told d.counter)
  msgPtr := 0
  counter := d.counter + 1
  length_msg := by
    rw [length_sprintf (by rw [d.length_msg]; exact length_told _), d.length_msg]

/-- `device_release`. -/
def deviceRelease (d : Driver) : Driver :=
  { d with deviceOpen := d.deviceOpen - 1 }

/-- The loop of `device_read`, with `msg_Ptr`, what is stored at each byte of
the buffer and `bytes_read` at its end.  What `put_user` returns is not looked
at. -/
def readLoop (msg : List UInt8) (fault : Nat → Bool) :
    (length ptr buffer : Nat) → Nat × List (Option UInt8) × Nat
  | 0, ptr, _ => (ptr, [], 0)
  | length + 1, ptr, buffer =>
      if msg.getD ptr 0 = 0 then (ptr, [], 0)
      else
        let stored := if fault buffer then none else some (msg.getD ptr 0)
        let rest := readLoop msg fault length (ptr + 1) (buffer + 1)
        (rest.1, stored :: rest.2.1, rest.2.2 + 1)

/-- `device_read`: what is stored in the buffer, and the return value. -/
def deviceRead (d : Driver) (length : Nat) (fault : Nat → Bool) :
    Driver × List (Option UInt8) × Nat :=
  if d.msg.getD d.msgPtr 0 = 0 then (d, [], 0)
  else
    let result := readLoop d.msg fault length d.msgPtr 0
    ({ d with msgPtr := result.1 }, result.2)

/-- The string at `msg_Ptr`. -/
def Driver.rest (d : Driver) : List UInt8 :=
  (d.msg.drop d.msgPtr).takeWhile (· ≠ 0)

/-- An open file, the message of its own open, and what its reads gave. -/
structure Handle where
  message : List UInt8
  received : List UInt8
  isOpen : Bool
  deriving DecidableEq

structure State where
  driver : Driver
  handles : List Handle

inductive Event where
  /-- A read of a handle, of `length` bytes, what it gave and what it
  returned. -/
  | read (h : Handle) (length : Nat) (given : List UInt8) (returned : Nat)

inductive Act where
  | open
  | read (i length : Nat)
  | release (i : Nat)

def step (s : State) : Act → Option (State × List Event)
  | .open =>
      some ({ driver := deviceOpen s.driver
              handles := s.handles ++ [⟨told s.driver.counter, [], true⟩] }, [])
  | .read i length =>
      match s.handles[i]? with
      | none => none
      | some h =>
          if h.isOpen then
            let result := deviceRead s.driver length fun _ => false
            let given := result.2.1.filterMap id
            some ({ driver := result.1
                    handles := s.handles.set i
                      { h with received := h.received ++ given } },
              [.read h length given result.2.2])
          else none
  | .release i =>
      match s.handles[i]? with
      | none => none
      | some h =>
          if h.isOpen then
            some ({ driver := deviceRelease s.driver
                    handles := s.handles.set i { h with isOpen := false } }, [])
          else none

/-- The module is loaded. -/
def driver : System State Act Event where
  init :=
    { driver :=
        { deviceOpen := 0, msg := List.replicate bufLen 0, msgPtr := 0, counter := 0
          length_msg := by simp }
      handles := [] }
  step := step

/-- A read gives the next bytes of the handle's own message, whatever others
do; all that was given is the start of that message, and a read returns 0 only
when it is the whole.  A read of no bytes returns 0 anywhere: `countEmpty` says
whether this is an end, too. -/
def Event.Own (countEmpty : Bool) : Event → Prop
  | .read h length given returned =>
      given = (h.message.drop h.received.length).take length ∧
        h.received ++ given <+: h.message ∧
        (returned = 0 → 0 < length ∨ countEmpty = true → h.received = h.message)

/-- Every handle reads its own message. -/
def ReadsOwn (countEmpty : Bool) (_ : State) (tr : List Event) : Prop :=
  ∀ e ∈ tr, e.Own countEmpty

/-- The string at `msg_Ptr` goes on like the message of the handle that is
read, as far as the read goes. -/
def FindsOwn (countEmpty : Bool) (s : State) : Act → Prop
  | .read i length => ∀ h ∈ s.handles[i]?, h.isOpen = true →
      s.driver.rest.take length = (h.message.drop h.received.length).take length ∧
        (length = 0 → countEmpty = true → h.received = h.message)
  | _ => True

variable {msg : List UInt8} {d : Driver} {s s' : State} {a : Act}
  {ev tr : List Event} {h : Handle} {i length ptr : Nat} {countEmpty : Bool}

/-! ## The read loop -/

theorem takeWhile_of_stop (hstop : msg.getD ptr 0 = 0) :
    (msg.drop ptr).takeWhile (· ≠ 0) = [] := by
  cases hdrop : msg.drop ptr with
  | nil => rfl
  | cons b rest =>
      have hb : msg[ptr]? = some b := by
        rw [← List.head?_drop, hdrop]
        rfl
      rw [List.getD_eq_getElem?_getD, hb, Option.getD_some] at hstop
      simp [hstop]

theorem takeWhile_of_go (hgo : msg.getD ptr 0 ≠ 0) :
    (msg.drop ptr).takeWhile (· ≠ 0) =
      msg.getD ptr 0 :: (msg.drop (ptr + 1)).takeWhile (· ≠ 0) := by
  cases hdrop : msg.drop ptr with
  | nil =>
      rw [List.getD_eq_getElem?_getD,
        List.getElem?_eq_none (List.drop_eq_nil_iff.mp hdrop)] at hgo
      exact absurd rfl hgo
  | cons b rest =>
      have hb : msg[ptr]? = some b := by
        rw [← List.head?_drop, hdrop]
        rfl
      have hrest : msg.drop (ptr + 1) = rest := by
        rw [← List.tail_drop, hdrop]
        rfl
      rw [List.getD_eq_getElem?_getD, hb, Option.getD_some] at hgo ⊢
      rw [hrest, List.takeWhile_cons_of_pos (by simpa using hgo)]

/-- What is stored of bytes that go into a buffer one after the other. -/
def stores (fault : Nat → Bool) : Nat → List UInt8 → List (Option UInt8)
  | _, [] => []
  | buffer, b :: bytes =>
      (if fault buffer then none else some b) :: stores fault (buffer + 1) bytes

/-- The loop moves the string at its pointer, as far as the length allows. -/
theorem readLoop_eq (msg : List UInt8) (fault : Nat → Bool)
    (length ptr buffer : Nat) :
    let moved := ((msg.drop ptr).takeWhile (· ≠ 0)).take length
    readLoop msg fault length ptr buffer =
      (ptr + moved.length, stores fault buffer moved, moved.length) := by
  induction length generalizing ptr buffer with
  | zero => simp [readLoop, stores]
  | succ length ih =>
      by_cases hstop : msg.getD ptr 0 = 0
      · rw [readLoop, if_pos hstop, takeWhile_of_stop hstop]
        rfl
      · rw [readLoop, if_neg hstop, takeWhile_of_go hstop, ih]
        simp only [List.take_succ_cons, List.length_cons, stores]
        rw [Nat.add_assoc, Nat.add_comm 1]

/-- `device_read`, wherever the buffer faults. -/
theorem deviceRead_stores (d : Driver) (length : Nat) (fault : Nat → Bool) :
    deviceRead d length fault =
      ({ d with msgPtr := d.msgPtr + (d.rest.take length).length },
        stores fault 0 (d.rest.take length), (d.rest.take length).length) := by
  by_cases hstop : d.msg.getD d.msgPtr 0 = 0
  · rw [deviceRead, if_pos hstop, Driver.rest, takeWhile_of_stop hstop]
    simp [stores]
  · rw [deviceRead, if_neg hstop]
    simp only [readLoop_eq]
    rfl

theorem stores_of_not_fault {fault : Nat → Bool} {buffer : Nat}
    {bytes : List UInt8} (h : ∀ i < bytes.length, fault (buffer + i) = false) :
    stores fault buffer bytes = bytes.map some := by
  induction bytes generalizing buffer with
  | nil => rfl
  | cons b bytes ih =>
      have hfirst : fault buffer = false := h 0 (Nat.succ_pos _)
      have hrest : stores fault (buffer + 1) bytes = bytes.map some := by
        apply ih
        intro i hi
        rw [Nat.add_assoc, Nat.add_comm 1]
        exact h (i + 1) (Nat.succ_lt_succ hi)
      rw [stores, hfirst, hrest]
      rfl

/-- `device_read` into a buffer that can be written. -/
theorem deviceRead_eq (d : Driver) (length : Nat) :
    deviceRead d length (fun _ => false) =
      ({ d with msgPtr := d.msgPtr + (d.rest.take length).length },
        (d.rest.take length).map some, (d.rest.take length).length) := by
  rw [deviceRead_stores, stores_of_not_fault fun _ _ => rfl]

/-- A read of an open handle. -/
theorem read_cases (hstep : step s (.read i length) = some (s', ev)) :
    ∃ h, s.handles[i]? = some h ∧ h.isOpen = true ∧
      s'.driver = { s.driver with
        msgPtr := s.driver.msgPtr + (s.driver.rest.take length).length } ∧
      s'.handles = s.handles.set i
        { h with received := h.received ++ s.driver.rest.take length } ∧
      ev = [.read h length (s.driver.rest.take length)
        (s.driver.rest.take length).length] := by
  cases hi : s.handles[i]? with
  | none => simp [step, hi] at hstep
  | some h =>
      simp only [step, hi, deviceRead_eq] at hstep
      split_ifs at hstep with hopen
      cases hstep
      refine ⟨h, rfl, hopen, rfl, ?_, ?_⟩ <;> simp

/-- A release of an open handle. -/
theorem release_cases (hstep : step s (.release i) = some (s', ev)) :
    ∃ h, s.handles[i]? = some h ∧
      s' = { driver := deviceRelease s.driver
             handles := s.handles.set i { h with isOpen := false } } ∧ ev = [] := by
  cases hi : s.handles[i]? with
  | none => simp [step, hi] at hstep
  | some h =>
      simp only [step, hi] at hstep
      split_ifs at hstep
      cases hstep
      exact ⟨h, rfl, rfl, rfl⟩

/-! ## One call -/

/-- What was given to a handle is the start of its message. -/
def Prefixed (s : State) (_ : List Event) : Prop :=
  ∀ h ∈ s.handles, h.received <+: h.message

/-- The read of a handle that was served so far is its own exactly when it
gives what the message goes on with. -/
theorem own_iff (countEmpty : Bool) (length : Nat) (given : List UInt8)
    (hserved : h.received <+: h.message) :
    (Event.read h length given given.length).Own countEmpty ↔
      given = (h.message.drop h.received.length).take length ∧
        (length = 0 → countEmpty = true → h.received = h.message) := by
  constructor
  · rintro ⟨hgiven, -, hend⟩
    refine ⟨hgiven, fun hempty hcount => hend ?_ (.inr hcount)⟩
    rw [hgiven, hempty]
    rfl
  · rintro ⟨hgiven, hempty⟩
    refine ⟨hgiven, ?_, fun hzero hcounts => ?_⟩
    · rw [hgiven]
      exact (Register.append_prefix_iff hserved).mpr (List.take_prefix ..)
    · rw [hgiven, List.length_eq_zero_iff, List.take_eq_nil_iff] at hzero
      rcases hzero with hlength | hnil
      · exact hempty hlength (hcounts.resolve_left (by omega))
      · exact hserved.eq_of_length_le (List.drop_eq_nil_iff.mp hnil)

theorem prefixed_step (hlaw : ReadsOwn countEmpty s' (tr ++ ev))
    (hserved : Prefixed s tr) (hstep : step s a = some (s', ev)) :
    Prefixed s' (tr ++ ev) := by
  cases a with
  | «open» =>
      cases hstep
      exact Pool.forall_concat hserved (List.nil_prefix)
  | read i length =>
      obtain ⟨h, hi, -, -, hhandles, rfl⟩ := read_cases hstep
      have hown := hlaw _ (List.mem_concat_self)
      unfold Prefixed
      rw [hhandles]
      exact Pool.forall_set hserved hown.2.1
  | release i =>
      obtain ⟨h, hi, rfl, -⟩ := release_cases hstep
      exact Pool.forall_set hserved (hserved h (List.mem_of_getElem? hi))

theorem readsOwn_step_iff (hlaw : ReadsOwn countEmpty s tr) (hserved : Prefixed s tr)
    (hstep : step s a = some (s', ev)) :
    ReadsOwn countEmpty s' (tr ++ ev) ↔ FindsOwn countEmpty s a := by
  cases a with
  | «open» =>
      cases hstep
      exact iff_of_true (by simpa [ReadsOwn] using hlaw) trivial
  | read i length =>
      obtain ⟨h, hi, hopen, -, -, rfl⟩ := read_cases hstep
      have hown := own_iff countEmpty length
        (s.driver.rest.take length) (hserved h (List.mem_of_getElem? hi))
      have hfinds : FindsOwn countEmpty s (.read i length) ↔
          s.driver.rest.take length =
            (h.message.drop h.received.length).take length ∧
          (length = 0 → countEmpty = true → h.received = h.message) := by
        simp [FindsOwn, hi, hopen]
      rw [hfinds, ← hown]
      constructor
      · exact fun hafter => hafter _ (by simp)
      · exact fun hevent => Pool.forall_concat hlaw hevent
  | release i =>
      obtain ⟨h, -, -, rfl⟩ := release_cases hstep
      rw [List.append_nil]
      exact iff_of_true hlaw trivial

/-! ## Sessions -/

/-- Every handle reads its own message exactly as long as every read finds the
string at `msg_Ptr` going on like the message of its handle. -/
theorem readsOwn_iff (countEmpty : Bool) (acts : List Act) :
    driver.Always (ReadsOwn countEmpty) acts ↔
      driver.Meets (FindsOwn countEmpty) acts :=
  System.always_iff_meets_of_invariant Prefixed
    (by simp [ReadsOwn]) (by simp [Prefixed, driver])
    (fun _ _ _ _ _ _ _ hserved hstep hlaw => prefixed_step hlaw hserved hstep)
    (fun _ _ _ _ _ _ hlaw hserved hstep => readsOwn_step_iff hlaw hserved hstep)
    acts

/-- A handle that was opened first is given the text of the second open. -/
theorem second_open :
    ¬ driver.Always (ReadsOwn false) [.open, .open, .read 0 100] := by
  intro h
  have hlaw := h _ _ _ List.prefix_rfl rfl
  have hown := hlaw _ (List.mem_singleton_self _)
  exact absurd hown.1 (by decide +kernel)

/-! ## One handle at a time -/

/-- What the test that is commented out would see to: the device is opened only
when no handle is open. -/
def OneAtATime (s : State) : Act → Prop
  | .open => ∀ h ∈ s.handles, h.isOpen = false
  | _ => True

/-- At most one handle is open, and the string at `msg_Ptr` is what it has
still to get. -/
structure Private (s : State) : Prop where
  one : s.handles.countP Handle.isOpen ≤ 1
  rest : ∀ h ∈ s.handles, h.isOpen = true →
    s.driver.rest = h.message.drop h.received.length

theorem told_ne_zero (counter : Int32) : ∀ b ∈ told counter, b ≠ 0 := by
  have hhead : ∀ b ∈ "I already told you ".toList.map Char.toUInt8, b ≠ 0 := by
    decide +kernel
  have htail : ∀ b ∈ " times Hello world!\n".toList.map Char.toUInt8, b ≠ 0 := by
    decide +kernel
  unfold told
  rw [List.forall_mem_append, List.forall_mem_append]
  exact ⟨hhead, Decimal.ofInt_ne_zero _, htail⟩

/-- The string that `device_open` leaves. -/
theorem rest_deviceOpen (d : Driver) : (deviceOpen d).rest = told d.counter := by
  unfold Driver.rest deviceOpen sprintf
  rw [List.drop_zero, List.takeWhile_append_of_pos
    (fun b hb => by simpa using told_ne_zero d.counter b hb)]
  simp

theorem takeWhile_drop_of_le {w : List UInt8} {p : UInt8 → Bool} {n : Nat}
    (hn : n ≤ (w.takeWhile p).length) :
    (w.drop n).takeWhile p = (w.takeWhile p).drop n := by
  induction w generalizing n with
  | nil => simp
  | cons b w ih =>
      cases n with
      | zero => rfl
      | succ n =>
          by_cases hb : p b
          · rw [List.takeWhile_cons_of_pos hb, List.length_cons] at hn
            rw [List.takeWhile_cons_of_pos hb, List.drop_succ_cons,
              List.drop_succ_cons]
            exact ih (Nat.le_of_succ_le_succ hn)
          · rw [List.takeWhile_cons_of_neg hb] at hn
            cases hn

theorem drop_length_take (l : List UInt8) (n : Nat) :
    l.drop (l.take n).length = l.drop n := by
  rw [List.length_take]
  rcases Nat.le_total n l.length with hle | hle
  · rw [Nat.min_eq_left hle]
  · rw [Nat.min_eq_right hle, List.drop_length, List.drop_eq_nil_of_le hle]

/-- The string after a read. -/
theorem rest_advance (d : Driver) (length : Nat) :
    Driver.rest { d with msgPtr := d.msgPtr + (d.rest.take length).length } =
      d.rest.drop length := by
  rw [← drop_length_take d.rest length]
  unfold Driver.rest
  rw [← List.drop_drop]
  exact takeWhile_drop_of_le (List.length_take_le' ..)

theorem private_step (hprivate : Private s) (hone : OneAtATime s a)
    (hstep : step s a = some (s', ev)) : Private s' := by
  cases a with
  | «open» =>
      cases hstep
      -- no other handle is open, and the message starts anew
      have hnone : s.handles.countP Handle.isOpen = 0 := by
        rw [List.countP_eq_zero]
        exact fun h hmem => by simp [hone h hmem]
      refine ⟨?_, fun h hmem hopen => ?_⟩
      · rw [Pool.countP_concat, hnone]
        rfl
      · rcases List.mem_append.mp hmem with hmem | hmem
        · rw [hone h hmem] at hopen
          cases hopen
        · cases List.mem_singleton.mp hmem
          exact rest_deviceOpen s.driver
  | read i length =>
      obtain ⟨h, hi, hopen, hdriver, hhandles, -⟩ := read_cases hstep
      -- a read leaves its handle open; the string moves on by what it gave
      have hsame : s'.handles.countP Handle.isOpen =
          s.handles.countP Handle.isOpen := by
        have hcount := Pool.countP_set Handle.isOpen
          { h with received := h.received ++ s.driver.rest.take length } hi
        rw [hhandles]
        exact Nat.add_right_cancel hcount
      refine ⟨hsame ▸ hprivate.one, fun h' hmem hopen' => ?_⟩
      rw [hhandles] at hmem
      obtain ⟨j, hj⟩ := List.mem_iff_getElem?.mp hmem
      rcases Pool.set_cases hj with ⟨-, rfl⟩ | ⟨hji, hj⟩
      · have hrest := hprivate.rest h (List.mem_of_getElem? hi) hopen
        rw [hdriver, rest_advance, List.length_append, ← List.drop_drop, ← hrest,
          drop_length_take]
      · exact absurd (Pool.eq_of_countP_le_one hprivate.one hi hopen hj hopen') hji
  | release i =>
      obtain ⟨h, hi, rfl, -⟩ := release_cases hstep
      have hcount := Pool.countP_set Handle.isOpen { h with isOpen := false } hi
      refine ⟨?_, fun h' hmem hopen' => ?_⟩
      · exact Nat.le_trans (Nat.le_of_add_right_le hcount.le) hprivate.one
      · obtain ⟨j, hj⟩ := List.mem_iff_getElem?.mp hmem
        rcases Pool.set_cases hj with ⟨-, rfl⟩ | ⟨-, hj⟩
        · cases hopen'
        · exact hprivate.rest h' (List.mem_of_getElem? hj) hopen'

/-- With the test, every handle reads its own message. -/
theorem readsOwn_of_oneAtATime (acts : List Act)
    (hok : driver.Meets OneAtATime acts) : driver.Always (ReadsOwn false) acts := by
  intro before s tr hpre hrun
  have hlaw := hok.run_induction
    (P := fun _ s tr => Private s ∧ Prefixed s tr ∧ ReadsOwn false s tr)
    ⟨⟨by simp [driver], by simp [driver]⟩, by simp [Prefixed, driver],
      by simp [ReadsOwn]⟩ ?_ before s tr hpre hrun
  · exact hlaw.2.2
  · rintro before s tr a s' ev - ⟨hprivate, hserved, hlaw⟩ hstep hone
    have hfinds : FindsOwn false s a := by
      cases a with
      | read i length =>
          intro h hi hopen
          rw [hprivate.rest h (List.mem_of_getElem? hi) hopen]
          exact ⟨rfl, fun _ hcount => absurd hcount (by simp)⟩
      | _ => trivial
    have hafter := (readsOwn_step_iff hlaw hserved hstep).mpr hfinds
    exact ⟨private_step hprivate hone hstep, prefixed_step hafter hserved hstep,
      hafter⟩

end ReadonlyCharacter
end KernelDrivers
