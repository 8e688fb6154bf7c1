import KernelDrivers.Lib.Pool
import KernelDrivers.Lib.Register
import KernelDrivers.Lib.System

/-!
# The `/proc` file of `procfs2.c`

`read_proc` copies the 20 bytes of `test_array` at every other call, whoever
calls it and with whatever length, and returns that length; in between it
returns 0.  `write_proc` copies what it is given over the array.  The toggle
`len` is one for all handles.

A transfer to or from user space may stop early: `copied`, or the length of
what the user has there, says after how many bytes.  The code prints a message
then and goes on.
-/

namespace KernelDrivers
namespace Procfs

open Lib Register

/-- `sizeof(test_array)`. -/
def arraySize : Nat := 20

/-- Which content the last write has left: the whole array, or the bytes that
were written. -/
inductive View where
  | array
  | written
  deriving DecidableEq

structure Procfs2 where
  testArray : Bytes
  /-- The toggle. -/
  len : Int
  /-- The bytes of the last write. -/
  written : List UInt8
  readers : List Reader

/-- `test_array` as it is initialised. -/
def initialArray : Bytes :=
  Bytes.storeList (fun _ => 0) "try_proc_array\n".toUTF8.toList

def Procfs2.initial : Procfs2 :=
  ⟨initialArray, 1, Bytes.slice initialArray 0 arraySize, []⟩

def Procfs2.content (s : Procfs2) : View → List UInt8
  | .array => Bytes.slice s.testArray 0 arraySize
  | .written => s.written

/-- `read_proc`: the toggle, what reaches the user and the transfer. -/
def readProc (s : Procfs2) (length copied : Nat) :
    Int × List UInt8 × Transfer :=
  if s.len ≠ 0 then
    let moved := Bytes.slice s.testArray 0 (min copied arraySize)
    (0, moved,
      { size := arraySize, memory := arraySize, user := arraySize
        count := length, moved := moved.length, returned := length })
  else
    (1, [],
      { size := arraySize, memory := 0, user := 0
        count := length, moved := 0, returned := 0 })

/-- `write_proc`: the array and the transfer. -/
def writeProc (s : Procfs2) (user : List UInt8) (len : Nat) :
    Bytes × Transfer :=
  (Bytes.storeList s.testArray (fetched user len),
    { size := arraySize, memory := len, user := len
      count := len, moved := min len user.length, returned := len })

/-- A transfer; for a read also the reader before it, the content and what the
reader was given. -/
inductive Event where
  | read (t : Transfer) (reader : Reader) (content moved : List UInt8)
  | write (t : Transfer)
  deriving DecidableEq

inductive Act where
  | open
  | read (h length copied : Nat)
  | write (h : Nat) (user : List UInt8) (len : Nat)
  deriving DecidableEq

def Procfs2.step (view : View) (s : Procfs2) :
    Act → Option (Procfs2 × List Event)
  | .open => some ({ s with readers := s.readers ++ [.opened] }, [])
  | .read h length copied =>
      s.readers[h]?.map fun reader =>
        let result := readProc s length copied
        ({ s with
          len := result.1
          readers := s.readers.set h (reader.afterRead length result.2.1) },
          [.read result.2.2 reader (s.content view) result.2.1])
  | .write h user len =>
      s.readers[h]?.map fun _ =>
        let result := writeProc s user len
        ({ s with
          testArray := result.1
          written := user.take len
          readers := s.readers.map Reader.afterWrite },
          [.write result.2])

def procfs2 (view : View) : System Procfs2 Act Event where
  init := Procfs2.initial
  step := Procfs2.step view

/-! ## The register -/

/-- What is asked of one transfer. -/
def Event.Ok : Event → Prop
  | .read t reader content moved =>
      t.Truthful ∧ reader.Served content t.count moved
  | .write t => t.Truthful

/-- The file is a register: every transfer is truthful and serves its reader,
the array holds the content, and what a followed reader has is the first part
of it. -/
structure IsRegister (view : View) (s : Procfs2) (tr : List Event) : Prop where
  events : ∀ e ∈ tr, e.Ok
  stored : (s.content view).length ≤ arraySize ∧
    Bytes.slice s.testArray 0 (s.content view).length = s.content view
  readers : ∀ r ∈ s.readers, r.Follows (s.content view)

/-- A read that gets the array asks for exactly its 20 bytes and is the first
of its handle; a read in between comes from a handle that has the content; a
write has at most 20 bytes.  No transfer stops early. -/
def Proper (view : View) (s : Procfs2) : Act → Prop
  | .open => True
  | .read h length copied => ∀ r ∈ s.readers[h]?,
      if s.len ≠ 0 then
        length = arraySize ∧ arraySize ≤ copied ∧
          (r.following = true →
            r.received = [] ∧ (s.content view).length = arraySize)
      else r.following = true → 0 < length → r.received = s.content view
  | .write h user len => s.readers[h]? ≠ none →
      len ≤ arraySize ∧ len ≤ user.length

variable {view : View} {s s' : Procfs2} {a : Act} {tr ev : List Event}

/-! ## One transfer -/

/-- A read that gets the array. -/
theorem readArray_iff (h : IsRegister view s tr) (r : Reader)
    (hlen : s.len ≠ 0) (length copied : Nat) :
    (Event.read (readProc s length copied).2.2 r (s.content view)
        (readProc s length copied).2.1).Ok ↔
      length = arraySize ∧ arraySize ≤ copied ∧
        (r.following = true →
          r.received = [] ∧ (s.content view).length = arraySize) := by
  obtain ⟨hsize, hstored⟩ := h.stored
  simp only [readProc, if_pos hlen, Event.Ok, Bytes.length_slice]
  constructor
  · rintro ⟨⟨-, huser, hreturned, -⟩, hserved⟩
    dsimp only at huser hreturned
    have hcopied : min copied arraySize = arraySize := by omega
    rw [hcopied] at hserved
    refine ⟨by omega, by omega, fun hfollowing => ?_⟩
    -- what this read gives must continue what the reader had
    have hmoved : Bytes.slice s.testArray 0 arraySize ≠ [] := by
      apply List.ne_nil_of_length_pos
      rw [Bytes.length_slice]
      decide
    have hle := ((hserved hfollowing).1 hmoved).length_le
    rw [List.length_append, Bytes.length_slice] at hle
    exact ⟨List.length_eq_zero_iff.mp (by omega), by omega⟩
  · rintro ⟨rfl, hcopied, hfirst⟩
    rw [Nat.min_eq_right hcopied]
    refine ⟨⟨le_refl _, le_refl _, rfl, le_refl _⟩, fun hfollowing => ?_⟩
    obtain ⟨hnone, hwhole⟩ := hfirst hfollowing
    rw [hwhole] at hstored
    rw [hnone, hstored, List.nil_append]
    refine ⟨fun _ => List.prefix_rfl, fun hnil => ?_⟩
    rw [hnil] at hwhole
    exact absurd hwhole (by decide)

/-- A read that returns 0. -/
theorem readEnd_iff (view : View) (r : Reader) (hlen : s.len = 0)
    (length copied : Nat) :
    (Event.read (readProc s length copied).2.2 r (s.content view)
        (readProc s length copied).2.1).Ok ↔
      (r.following = true → 0 < length → r.received = s.content view) := by
  rw [readProc, if_neg (not_not.mpr hlen)]
  show _ ∧ Reader.Served r (s.content view) length [] ↔ _
  rw [Reader.served_nil_iff]
  refine and_iff_right ⟨Nat.zero_le _, Nat.zero_le _, rfl, Nat.zero_le _⟩

theorem write_iff (s : Procfs2) (user : List UInt8) (len : Nat) :
    (Event.write (writeProc s user len).2).Ok ↔
      len ≤ arraySize ∧ len ≤ user.length := by
  constructor
  · rintro ⟨hmemory, -, hreturned, -⟩
    simp only [writeProc] at hmemory hreturned
    exact ⟨hmemory, by omega⟩
  · rintro ⟨hsize, hlength⟩
    refine ⟨hsize, le_refl _, ?_, le_refl _⟩
    show len = min len user.length
    omega

/-- What a write that is fetched in full leaves is the content. -/
theorem stored_write (view : View) {user : List UInt8} {len : Nat}
    (hsize : len ≤ arraySize) (hlength : len ≤ user.length)
    (readers : List Reader) :
    let s' : Procfs2 := { s with
      testArray := (writeProc s user len).1
      written := user.take len
      readers := readers }
    (s'.content view).length ≤ arraySize ∧
      Bytes.slice s'.testArray 0 (s'.content view).length =
        s'.content view := by
  intro s'
  cases view with
  | array =>
      refine ⟨Nat.le_of_eq (Bytes.length_slice _ _ _), ?_⟩
      show Bytes.slice _ 0 (Bytes.slice _ 0 arraySize).length = _
      rw [Bytes.length_slice]
      rfl
  | written =>
      have htake : (user.take len).length = len := List.length_take_of_le hlength
      show (user.take len).length ≤ arraySize ∧
        Bytes.slice (Bytes.storeList s.testArray (fetched user len)) 0
          (user.take len).length = user.take len
      rw [htake]
      refine ⟨hsize, ?_⟩
      rw [Bytes.slice_storeList_of_le _ (length_fetched user len).ge,
        fetched_of_le hlength]
      exact List.take_of_length_le htake.le

/-! ## Runs -/

theorem read_step_iff (h : IsRegister view s tr) {i length copied : Nat}
    (hstep : (procfs2 view).step s (.read i length copied) = some (s', ev)) :
    IsRegister view s' (tr ++ ev) ↔ Proper view s (.read i length copied) := by
  obtain ⟨r, hr, heq⟩ := Option.map_eq_some_iff.mp hstep
  cases heq
  have hcond : Proper view s (.read i length copied) ↔
      (Event.read (readProc s length copied).2.2 r (s.content view)
        (readProc s length copied).2.1).Ok := by
    simp only [Proper, hr, Option.mem_some_iff, forall_eq']
    by_cases hlen : s.len = 0
    · rw [if_neg (not_not.mpr hlen), readEnd_iff view r hlen]
    · rw [if_pos hlen, readArray_iff h r hlen]
  rw [hcond]
  constructor
  · exact fun hafter => hafter.events _ (by simp)
  · intro hok
    refine ⟨Pool.forall_concat h.events hok, h.stored, ?_⟩
    have hfollows := h.readers r (List.mem_of_getElem? hr)
    have hcount : (readProc s length copied).2.2.count = length := by
      unfold readProc
      split_ifs <;> rfl
    have hserved := hok.2
    rw [hcount] at hserved
    exact Pool.forall_set h.readers (hfollows.afterRead hserved)

theorem write_step_iff (h : IsRegister view s tr) {i : Nat}
    {user : List UInt8} {len : Nat}
    (hstep : (procfs2 view).step s (.write i user len) = some (s', ev)) :
    IsRegister view s' (tr ++ ev) ↔ Proper view s (.write i user len) := by
  obtain ⟨r, hr, heq⟩ := Option.map_eq_some_iff.mp hstep
  cases heq
  have hcond : Proper view s (.write i user len) ↔
      (Event.write (writeProc s user len).2).Ok := by
    rw [write_iff]
    simp only [Proper, hr]
    simp
  rw [hcond]
  constructor
  · exact fun hafter => hafter.events _ (by simp)
  · intro hok
    obtain ⟨hsize, hlength⟩ := (write_iff s user len).mp hok
    refine ⟨Pool.forall_concat h.events hok,
      stored_write view hsize hlength _, fun r' hr' => ?_⟩
    obtain ⟨r₀, -, rfl⟩ := List.mem_map.mp hr'
    exact Reader.follows_afterWrite _ r₀

theorem isRegister_step_iff (h : IsRegister view s tr)
    (hstep : (procfs2 view).step s a = some (s', ev)) :
    IsRegister view s' (tr ++ ev) ↔ Proper view s a := by
  cases a with
  | «open» =>
      cases hstep
      refine iff_of_true ⟨by simpa using h.events, h.stored, ?_⟩ trivial
      exact Pool.forall_concat h.readers Reader.follows_opened
  | read => exact read_step_iff h hstep
  | write => exact write_step_iff h hstep

/-- Under either view the file is a register at every point of a run, if and
only if every read and write of the run is a proper one. -/
theorem isRegister_iff_proper (view : View) (acts : List Act) :
    (procfs2 view).Always (IsRegister view) acts ↔
      (procfs2 view).Meets (Proper view) acts := by
  have hinit : IsRegister view (procfs2 view).init [] := by
    refine ⟨by simp, ?_, fun r hr => by cases hr⟩
    have hcontent : Procfs2.initial.content view =
        Bytes.slice initialArray 0 arraySize := by
      cases view <;> rfl
    show (Procfs2.initial.content view).length ≤ arraySize ∧
      Bytes.slice initialArray 0 (Procfs2.initial.content view).length =
        Procfs2.initial.content view
    rw [hcontent, Bytes.length_slice]
    exact ⟨le_refl _, rfl⟩
  refine (procfs2 view).always_iff_meets hinit ?_ acts
  intro s tr a s' ev _ hlaw hstep
  exact isRegister_step_iff hlaw hstep

/-- Two handles take turns. -/
def takeTurns : List Act := [.open, .open, .read 0 20 20, .read 1 20 20]

/-- The second handle gets the 0 that ends the first one's reading, before it
has got anything. -/
theorem takeTurns_not_register (view : View) :
    ∃ s tr, (procfs2 view).run takeTurns = some (s, tr) ∧
      ¬ IsRegister view s tr := by
  let content := Procfs2.initial.content view
  let whole : Event := .read ⟨20, 20, 20, 20, 20, 20⟩ .opened content
    (Bytes.slice initialArray 0 20)
  let nothing : Event := .read ⟨20, 0, 0, 20, 0, 0⟩ .opened content []
  refine ⟨_, [whole, nothing], by cases view <;> rfl, fun hlaw => ?_⟩
  have hserved := (hlaw.events nothing (by simp)).2
  have hempty : [] = content := (hserved rfl).2 rfl (by decide)
  have hlength : content.length = 20 := by cases view <;> rfl
  rw [← hempty] at hlength
  cases hlength

theorem second_reader_gets_nothing :
    (∃ s tr, (procfs2 .array).run takeTurns = some (s, tr) ∧
      ¬ IsRegister .array s tr) ∧
    ∃ s tr, (procfs2 .written).run takeTurns = some (s, tr) ∧
      ¬ IsRegister .written s tr :=
  ⟨takeTurns_not_register .array, takeTurns_not_register .written⟩

end Procfs
end KernelDrivers
