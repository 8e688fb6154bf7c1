import KernelDrivers.Lib.Decimal
import KernelDrivers.Lib.Register
import KernelDrivers.Lib.System
import Mathlib.Data.List.TakeWhile

/-!
# The chat of `tcpclient1.c` and `tcpserv1.c`

Each side types a line into a buffer of `MAX` bytes that it has cleared, writes
the whole buffer, and takes what one `read` gives for the message of the other
side.  TCP keeps the order of the bytes and nothing else: a `read` may return
any part of what has arrived, at least one byte, and 0 when nothing is left and
the other side has gone.

The client looks for "exit" in the buffer that it has read, the server in the
line that it has typed.
-/

namespace KernelDrivers
namespace SocketTCP

open Lib Decimal

/-- `MAX`. -/
def maxLen : Nat := 80

/-- A line as it is typed: with its newline it has at most 79 bytes. -/
structure Line where
  body : List UInt8
  noNewline : newline ∉ body
  short : body.length < maxLen - 1

/-- What `getchar` gives for a line. -/
def Line.bytes (l : Line) : List UInt8 := l.body ++ [newline]

/-- `bzero(buff, MAX)`. -/
def bzero : List UInt8 := List.replicate maxLen 0

/-- `while ((buff[n++] = getchar()) != '\n')`. -/
def getLine : (buff : List UInt8) → (n : Nat) → (typed : List UInt8) → List UInt8
  | buff, _, [] => buff
  | buff, n, c :: typed =>
      if c = newline then buff.set n c else getLine (buff.set n c) (n + 1) typed

/-- The buffer that is written for a line. -/
def Line.message (l : Line) : List UInt8 := getLine bzero 0 l.bytes

/-- `printf("%s", buff)`. -/
def printed (buff : List UInt8) : List UInt8 := buff.takeWhile (· ≠ 0)

/-- `strncmp(buff, "exit", 4) == 0`. -/
def saysExit (buff : List UInt8) : Bool :=
  buff.take 4 = "exit".toList.map Char.toUInt8

/-- One direction of the connection. -/
structure Link where
  /-- The lines whose buffers were written. -/
  lines : List Line
  /-- How many bytes were read. -/
  consumed : Nat
  /-- What was printed after each `read`. -/
  shown : List (List UInt8)

/-- The bytes that can be read. -/
def Link.unread (k : Link) : List UInt8 :=
  (k.lines.flatMap Line.message).drop k.consumed

def Link.write (k : Link) (l : Line) : Link :=
  { k with lines := k.lines ++ [l] }

/-- The cleared buffer after a `read` of `n` bytes. -/
def Link.buff (k : Link) (n : Nat) : List UInt8 :=
  k.unread.take n ++ bzero.drop n

/-- A `read` of `n` bytes, and the `printf` after it. -/
def Link.read (k : Link) (n : Nat) : Link :=
  { k with consumed := k.consumed + n, shown := k.shown ++ [printed (k.buff n)] }

/-- What `read` may return. -/
def Link.MayReturn (k : Link) (otherLeft : Bool) (n : Nat) : Prop :=
  (0 < n ∧ n ≤ maxLen ∧ n ≤ k.unread.length) ∨
    (n = 0 ∧ k.unread = [] ∧ otherLeft = true)

instance (k : Link) (otherLeft : Bool) (n : Nat) :
    Decidable (k.MayReturn otherLeft n) :=
  inferInstanceAs (Decidable (_ ∨ _))

/-- The next statement of `func` on either side. -/
inductive Pc where
  | line
  | read
  /-- The test for "exit", on the buffer. -/
  | test (buff : List UInt8)
  | left

/-- A side, and how its tests for "exit" came out. -/
structure Side where
  pc : Pc
  tests : List Bool

def Side.hasLeft (p : Side) : Bool :=
  match p.pc with
  | .left => true
  | _ => false

/-- The test at the end of a round; `again` is the first statement of the
next. -/
def Side.test (p : Side) (again : Pc) (buff : List UInt8) : Side where
  pc := if saysExit buff then .left else again
  tests := p.tests ++ [saysExit buff]

structure State where
  client : Side
  server : Side
  toServer : Link
  toClient : Link

inductive Act where
  | clientLine (l : Line)
  | clientRead (n : Nat)
  | clientTest
  | serverLine (l : Line)
  | serverRead (n : Nat)
  | serverTest

/-- One statement of one side. -/
def step (s : State) : Act → Option (State × List Unit)
  | .clientLine l =>
      match s.client.pc with
      | .line =>
          some ({ s with
            client := { s.client with pc := .read }
            toServer := s.toServer.write l }, [])
      | _ => none
  | .clientRead n =>
      match s.client.pc with
      | .read =>
          if s.toClient.MayReturn s.server.hasLeft n then
            some ({ s with
              client := { s.client with pc := .test (s.toClient.buff n) }
              toClient := s.toClient.read n }, [])
          else none
      | _ => none
  | .clientTest =>
      match s.client.pc with
      | .test buff => some ({ s with client := s.client.test .line buff }, [])
      | _ => none
  | .serverRead n =>
      match s.server.pc with
      | .read =>
          if s.toServer.MayReturn s.client.hasLeft n then
            some ({ s with
              server := { s.server with pc := .line }
              toServer := s.toServer.read n }, [])
          else none
      | _ => none
  | .serverLine l =>
      match s.server.pc with
      | .line =>
          some ({ s with
            server := { s.server with pc := .test l.message }
            toClient := s.toClient.write l }, [])
      | _ => none
  | .serverTest =>
      match s.server.pc with
      | .test buff => some ({ s with server := s.server.test .read buff }, [])
      | _ => none

/-- The connection is made. -/
def chat : System State Act Unit where
  init :=
    { client := ⟨.line, []⟩, server := ⟨.read, []⟩
      toServer := ⟨[], 0, []⟩, toClient := ⟨[], 0, []⟩ }
  step := step

/-- Each side prints the lines of the other one by one, and the two leave in
the same round. -/
structure Faithful (s : State) (_ : List Unit) : Prop where
  server : s.toServer.shown <+: s.toServer.lines.map Line.bytes
  client : s.toClient.shown <+: s.toClient.lines.map Line.bytes
  leave : ∀ (k : Nat) (c v : Bool), s.client.tests[k]? = some c →
    s.server.tests[k]? = some v → c = v

/-- A `read` of `n` bytes begins with a message and takes in its line, which
has no NUL in it. -/
def Link.Whole (k : Link) (n : Nat) : Prop :=
  k.consumed = maxLen * k.shown.length ∧
    ∃ l ∈ k.lines[k.shown.length]?, 0 ∉ l.bytes ∧ l.bytes.length ≤ n

/-- Every `read` takes in a whole line. -/
def ReadsWhole (s : State) : Act → Prop
  | .clientRead n => s.toClient.Whole n
  | .serverRead n => s.toServer.Whole n
  | _ => True

variable {k : Link} {l : Line} {n : Nat} {otherLeft : Bool} {s s' : State}
  {a : Act} {ev tr : List Unit}

/-! ## Messages -/

theorem getLine_eq (before : List UInt8) {body : List UInt8}
    (hbody : newline ∉ body) (m : Nat) :
    getLine (before ++ List.replicate (body.length + 1 + m) 0) before.length
      (body ++ [newline]) =
        before ++ (body ++ [newline]) ++ List.replicate m 0 := by
  induction body generalizing before with
  | nil =>
      rw [List.length_nil, Nat.zero_add, Nat.add_comm, List.replicate_succ]
      simp [getLine]
  | cons c body ih =>
      rw [List.mem_cons, not_or] at hbody
      have hsize : (c :: body).length + 1 + m = (body.length + 1 + m) + 1 := by
        rw [List.length_cons]
        omega
      rw [hsize, List.replicate_succ, List.cons_append, getLine,
        if_neg (Ne.symm hbody.1)]
      have hset : (before ++ 0 :: List.replicate (body.length + 1 + m) 0).set
          before.length c =
            (before ++ [c]) ++ List.replicate (body.length + 1 + m) 0 := by
        simp
      have hlength : before.length + 1 = (before ++ [c]).length := by simp
      rw [hset, hlength, ih _ hbody.2]
      simp

theorem length_bytes (l : Line) : 0 < l.bytes.length ∧ l.bytes.length < maxLen := by
  have hshort := l.short
  unfold Line.bytes maxLen at *
  rw [List.length_append, List.length_singleton]
  omega

/-- The line, and NULs behind it. -/
theorem message_eq (l : Line) :
    l.message = l.bytes ++ List.replicate (maxLen - l.bytes.length) 0 := by
  have hlength := length_bytes l
  have hsize : maxLen = l.body.length + 1 + (maxLen - l.bytes.length) := by
    unfold Line.bytes at *
    rw [List.length_append, List.length_singleton] at *
    omega
  have h := getLine_eq [] l.noNewline (maxLen - l.bytes.length)
  rw [← hsize] at h
  exact h

theorem length_message (l : Line) : l.message.length = maxLen := by
  have hlength := length_bytes l
  rw [message_eq, List.length_append, List.length_replicate]
  omega

theorem length_messages (lines : List Line) :
    (lines.flatMap Line.message).length = maxLen * lines.length := by
  induction lines with
  | nil => rfl
  | cons l lines ih =>
      rw [List.flatMap_cons, List.length_append, ih, length_message,
        List.length_cons, Nat.mul_succ, Nat.add_comm]

theorem drop_message_of_le (hline : l.bytes.length ≤ n) :
    l.message.drop n = List.replicate (maxLen - n) 0 := by
  rw [message_eq, List.drop_append, List.drop_eq_nil_of_le hline, List.nil_append,
    List.drop_replicate]
  congr 1
  omega

/-- What `read` left is the message, when it took in the line. -/
theorem take_append_drop_of_le (hline : l.bytes.length ≤ n) :
    l.message.take n ++ bzero.drop n = l.message := by
  rw [bzero, List.drop_replicate, ← drop_message_of_le hline, List.take_append_drop]

theorem length_takeWhile_append_le (xs : List UInt8) {ys : List UInt8}
    (hys : ys.head? = some 0) :
    ((xs ++ ys).takeWhile (· ≠ 0)).length ≤ xs.length := by
  obtain ⟨rest, rfl⟩ := List.head?_eq_some_iff.mp hys
  rw [List.takeWhile_append]
  split_ifs with hall
  · simp
  · exact (List.takeWhile_sublist _).length_le

/-- A cleared buffer that received the first `n` bytes of a message shows the
line exactly when these take it in and it has no NUL. -/
theorem printed_eq_bytes_iff (hn : n ≤ maxLen) :
    printed (l.message.take n ++ bzero.drop n) = l.bytes ↔
      0 ∉ l.bytes ∧ l.bytes.length ≤ n := by
  have hlength := length_bytes l
  constructor
  · intro h
    refine ⟨fun hzero => ?_, ?_⟩
    · rw [← h] at hzero
      exact absurd (List.mem_takeWhile_imp hzero) (by decide)
    · by_contra hlt
      have hcleared : (bzero.drop n).head? = some 0 := by
        rw [bzero, List.drop_replicate, List.head?_replicate, if_neg (by omega)]
      have hle := length_takeWhile_append_le (l.message.take n) hcleared
      unfold printed at h
      rw [h, List.length_take] at hle
      omega
  · rintro ⟨hzero, hline⟩
    have hall : ∀ b ∈ l.bytes, decide (b ≠ 0) = true := by
      intro b hb
      simpa using fun hb0 : b = 0 => hzero (hb0 ▸ hb)
    rw [take_append_drop_of_le hline, message_eq, printed,
      List.takeWhile_append_of_pos hall]
    simp

/-! ## One direction -/

theorem append_singleton_prefix_iff {α : Type*} {xs ys : List α} {x : α}
    (h : xs <+: ys) : xs ++ [x] <+: ys ↔ ys[xs.length]? = some x := by
  rw [Register.append_prefix_iff h, ← List.head?_drop]
  cases ys.drop xs.length with
  | nil => simp
  | cons y rest => simp [eq_comm]

/-- Every line shown was read up to the NULs behind it: what can still be read
are some of these, and then the buffers of the lines that are not shown. -/
structure Aligned (k : Link) : Prop where
  shown : k.shown <+: k.lines.map Line.bytes
  rest : ∃ nuls, k.consumed + nuls = maxLen * k.shown.length ∧
    k.unread = List.replicate nuls 0 ++
      (k.lines.drop k.shown.length).flatMap Line.message

theorem Aligned.length_le (h : Aligned k) : k.shown.length ≤ k.lines.length := by
  simpa using h.shown.length_le

theorem Aligned.write (h : Aligned k) (l : Line) : Aligned (k.write l) := by
  obtain ⟨nuls, hconsumed, hunread⟩ := h.rest
  have hle := h.length_le
  refine ⟨?_, nuls, hconsumed, ?_⟩
  · rw [Link.write, List.map_append]
    exact h.shown.trans (List.prefix_append _ _)
  · have hbefore : k.consumed ≤ (k.lines.flatMap Line.message).length := by
      rw [length_messages]
      have := Nat.mul_le_mul_left maxLen hle
      omega
    have hsplit : (k.write l).unread = k.unread ++ l.message := by
      unfold Link.unread Link.write
      rw [List.flatMap_append, List.drop_append_of_le_length hbefore]
      simp
    rw [hsplit, hunread, Link.write, List.drop_append_of_le_length hle,
      List.flatMap_append]
    simp

/-- At the start of a message its buffer comes first. -/
theorem Aligned.unread_eq (h : Aligned k)
    (hstart : k.consumed = maxLen * k.shown.length)
    (hl : k.lines[k.shown.length]? = some l) :
    k.unread =
      l.message ++ (k.lines.drop (k.shown.length + 1)).flatMap Line.message := by
  obtain ⟨nuls, hconsumed, hunread⟩ := h.rest
  obtain rfl : nuls = 0 := by omega
  obtain ⟨hlt, hget⟩ := List.getElem?_eq_some_iff.mp hl
  rw [hunread, List.drop_eq_getElem_cons hlt, hget, List.flatMap_cons]
  rfl

theorem Aligned.buff_eq (h : Aligned k)
    (hstart : k.consumed = maxLen * k.shown.length)
    (hl : k.lines[k.shown.length]? = some l) (hn : n ≤ maxLen) :
    k.buff n = l.message.take n ++ bzero.drop n := by
  rw [Link.buff, h.unread_eq hstart hl,
    List.take_append_of_le_length (by rw [length_message]; exact hn)]

/-- A read that begins with a NUL shows nothing. -/
theorem printed_buff_of_head (hhead : k.unread.head? = some 0) (hpos : 0 < n) :
    printed (k.buff n) = [] := by
  obtain ⟨rest, hrest⟩ := List.head?_eq_some_iff.mp hhead
  obtain ⟨m, rfl⟩ := Nat.exists_eq_add_of_lt hpos
  rw [printed, Link.buff, hrest, Nat.zero_add, List.take_succ_cons]
  rfl

theorem Link.MayReturn.le (h : k.MayReturn otherLeft n) : n ≤ maxLen := by
  rcases h with ⟨-, hle, -⟩ | ⟨rfl, -, -⟩
  · exact hle
  · exact Nat.zero_le _

/-- One more read shows the next line exactly when it begins with its message
and takes it in. -/
theorem Aligned.read_iff (h : Aligned k) (hmay : k.MayReturn otherLeft n) :
    (k.read n).shown <+: k.lines.map Line.bytes ↔ k.Whole n := by
  obtain ⟨nuls, hconsumed, hunread⟩ := h.rest
  rw [Link.read, append_singleton_prefix_iff h.shown, List.getElem?_map,
    Option.map_eq_some_iff]
  rcases Nat.eq_zero_or_pos nuls with hnuls | hnuls
  · have hstart : k.consumed = maxLen * k.shown.length := by omega
    constructor
    · rintro ⟨l, hl, hshown⟩
      rw [h.buff_eq hstart hl hmay.le, eq_comm] at hshown
      exact ⟨hstart, l, hl, (printed_eq_bytes_iff hmay.le).mp hshown⟩
    · rintro ⟨-, l, hl, hline⟩
      rw [h.buff_eq hstart hl hmay.le]
      exact ⟨l, hl, ((printed_eq_bytes_iff hmay.le).mpr hline).symm⟩
  · -- some NULs of the last message are still to be read
    have hhead : k.unread.head? = some 0 := by
      obtain ⟨m, rfl⟩ := Nat.exists_eq_add_of_lt hnuls
      rw [hunread, Nat.zero_add, List.replicate_succ]
      rfl
    have hpos : 0 < n := by
      rcases hmay with ⟨hpos, -, -⟩ | ⟨-, hnil, -⟩
      · exact hpos
      · rw [hnil] at hhead
        cases hhead
    refine iff_of_false ?_ ?_
    · rintro ⟨l, -, hshown⟩
      rw [printed_buff_of_head hhead hpos] at hshown
      have := (length_bytes l).1
      rw [hshown] at this
      cases this
    · rintro ⟨hstart, -⟩
      omega

/-- The message that a whole read leaves in the buffer. -/
theorem Aligned.whole_cases (h : Aligned k) (hmay : k.MayReturn otherLeft n)
    (hwhole : k.Whole n) :
    ∃ l, k.lines[k.shown.length]? = some l ∧ k.buff n = l.message ∧
      Aligned (k.read n) := by
  have hshown := (h.read_iff hmay).mpr hwhole
  obtain ⟨hstart, l, hl, -, hline⟩ := hwhole
  refine ⟨l, hl, ?_, hshown, maxLen - n, ?_, ?_⟩
  · rw [h.buff_eq hstart hl hmay.le, take_append_drop_of_le hline]
  · have := hmay.le
    show k.consumed + n + (maxLen - n) = maxLen * (k.shown ++ [_]).length
    rw [List.length_append, List.length_singleton, Nat.mul_succ, hstart]
    omega
  · have hdrop : (k.read n).unread = k.unread.drop n := by
      rw [Link.unread, Link.unread, List.drop_drop]
      rfl
    rw [hdrop, h.unread_eq hstart hl,
      List.drop_append_of_le_length (by rw [length_message]; exact hmay.le),
      drop_message_of_le hline, Link.read, List.length_append,
      List.length_singleton]

/-! ## The tests for "exit" -/

/-- The tests, and how the next one will come out. -/
def Side.decided (p : Side) : List Bool :=
  match p.pc with
  | .test buff => p.tests ++ [saysExit buff]
  | _ => p.tests

theorem Side.tests_prefix (p : Side) : p.tests <+: p.decided := by
  unfold Side.decided
  split
  · exact List.prefix_append _ _
  · exact List.prefix_rfl

/-- Each side decides by the lines of the server: the server by those it typed,
the client by those it showed. -/
structure Decided (s : State) (_ : List Unit) : Prop where
  toServer : Aligned s.toServer
  toClient : Aligned s.toClient
  server : s.server.decided = s.toClient.lines.map fun l => saysExit l.message
  client : s.client.decided =
    (s.toClient.lines.take s.toClient.shown.length).map fun l => saysExit l.message

theorem Decided.faithful (h : Decided s tr) : Faithful s tr := by
  have hserver := s.server.tests_prefix
  have hclient := s.client.tests_prefix
  rw [h.server] at hserver
  rw [h.client] at hclient
  replace hclient := hclient.trans ((List.take_prefix _ _).map _)
  refine ⟨h.toServer.shown, h.toClient.shown, fun k c v hc hv => ?_⟩
  obtain ⟨hck, rfl⟩ := List.getElem?_eq_some_iff.mp hc
  obtain ⟨hvk, rfl⟩ := List.getElem?_eq_some_iff.mp hv
  have hclient' := List.prefix_iff_getElem?.mp hclient k hck
  rw [List.prefix_iff_getElem?.mp hserver k hvk] at hclient'
  exact (Option.some.inj hclient').symm

/-- A test makes the decision that was due. -/
theorem Side.decided_test {p : Side} {again : Pc} {buff : List UInt8}
    (hpc : p.pc = .test buff) (hagain : ∀ buff, again ≠ .test buff) :
    (p.test again buff).decided = p.decided := by
  have hdue : p.decided = p.tests ++ [saysExit buff] := by rw [Side.decided, hpc]
  rw [hdue, Side.test]
  cases saysExit buff with
  | true => rfl
  | false =>
      cases again with
      | test buff => exact absurd rfl (hagain buff)
      | _ => rfl

/-! ## Rounds -/

theorem clientRead_cases (h : step s (.clientRead n) = some (s', ev)) :
    s.client.pc = .read ∧ s.toClient.MayReturn s.server.hasLeft n ∧
      s' = { s with
        client := { s.client with pc := .test (s.toClient.buff n) }
        toClient := s.toClient.read n } := by
  simp only [step] at h
  split at h
  · split_ifs at h with hmay
    cases h
    exact ⟨‹_›, hmay, rfl⟩
  · cases h

theorem serverRead_cases (h : step s (.serverRead n) = some (s', ev)) :
    s.server.pc = .read ∧ s.toServer.MayReturn s.client.hasLeft n ∧
      s' = { s with
        server := { s.server with pc := .line }
        toServer := s.toServer.read n } := by
  simp only [step] at h
  split at h
  · split_ifs at h with hmay
    cases h
    exact ⟨‹_›, hmay, rfl⟩
  · cases h

theorem decided_step (hinv : Decided s tr) (hstep : step s a = some (s', ev))
    (hok : ReadsWhole s a) : Decided s' (tr ++ ev) := by
  obtain ⟨htoServer, htoClient, hserver, hclient⟩ := hinv
  cases a with
  | clientLine l =>
      simp only [step] at hstep
      split at hstep <;> cases hstep
      rename_i hpc
      refine ⟨htoServer.write l, htoClient, hserver, ?_⟩
      rw [← hclient, Side.decided, Side.decided, hpc]
  | clientRead n =>
      obtain ⟨hpc, hmay, rfl⟩ := clientRead_cases hstep
      -- the client tests what it read, which the server has tested before
      obtain ⟨l, hl, hbuff, haligned⟩ := htoClient.whole_cases hmay hok
      refine ⟨htoServer, haligned, hserver, ?_⟩
      rw [Side.decided, hpc] at hclient
      show s.client.tests ++ [saysExit (s.toClient.buff n)] =
        (s.toClient.lines.take (s.toClient.shown ++ [_]).length).map _
      rw [List.length_append, List.length_singleton, List.take_add_one, hl,
        List.map_append, ← hclient, hbuff]
      rfl
  | clientTest =>
      simp only [step] at hstep
      split at hstep <;> cases hstep
      rename_i hpc
      refine ⟨htoServer, htoClient, hserver, ?_⟩
      rw [Side.decided_test hpc (by simp), hclient]
  | serverLine l =>
      simp only [step] at hstep
      split at hstep <;> cases hstep
      rename_i hpc
      rw [Side.decided, hpc] at hserver
      refine ⟨htoServer, htoClient.write l, ?_, ?_⟩
      · -- the server tests its own line, and so decides for both
        show s.server.tests ++ [saysExit l.message] =
          (s.toClient.lines ++ [l]).map _
        rw [List.map_append, ← hserver]
        rfl
      · rw [hclient, Link.write, List.take_append_of_le_length htoClient.length_le]
  | serverRead n =>
      obtain ⟨hpc, hmay, rfl⟩ := serverRead_cases hstep
      obtain ⟨-, -, -, haligned⟩ := htoServer.whole_cases hmay hok
      refine ⟨haligned, htoClient, ?_, hclient⟩
      rw [← hserver, Side.decided, Side.decided, hpc]
  | serverTest =>
      simp only [step] at hstep
      split at hstep <;> cases hstep
      rename_i hpc
      refine ⟨htoServer, htoClient, ?_, hclient⟩
      rw [Side.decided_test hpc (by simp), hserver]

/-- A side that printed the next line took it in with its `read`. -/
theorem readsWhole_of_faithful (hinv : Decided s tr)
    (hstep : step s a = some (s', ev)) (hfaithful : Faithful s' (tr ++ ev)) :
    ReadsWhole s a := by
  cases a with
  | clientRead n =>
      obtain ⟨-, hmay, rfl⟩ := clientRead_cases hstep
      exact (hinv.toClient.read_iff hmay).mp hfaithful.client
  | serverRead n =>
      obtain ⟨-, hmay, rfl⟩ := serverRead_cases hstep
      exact (hinv.toServer.read_iff hmay).mp hfaithful.server
  | _ => trivial

/-- The two sides print each other's lines and leave together exactly as long
as every `read` begins with a message and takes in its line. -/
theorem faithful_iff_readsWhole (acts : List Act) :
    chat.Always Faithful acts ↔ chat.Meets ReadsWhole acts := by
  have hinit : Decided chat.init [] := by
    have haligned : Aligned ⟨[], 0, []⟩ := ⟨List.nil_prefix, 0, rfl, rfl⟩
    exact ⟨haligned, haligned, rfl, rfl⟩
  refine System.always_iff_meets_of_invariant Decided hinit.faithful hinit ?_ ?_
    acts
  · intro s tr a s' ev _ _ hinv hstep hfaithful
    exact decided_step hinv hstep (readsWhole_of_faithful hinv hstep hfaithful)
  · intro s tr a s' ev _ _ hinv hstep
    exact ⟨readsWhole_of_faithful hinv hstep,
      fun hok => (decided_step hinv hstep hok).faithful⟩

/-- "hi". -/
def hi : Line where
  body := [104, 105]
  noNewline := by decide
  short := by decide

/-- The server's first `read` returns one byte, and "h" is printed. -/
theorem read_one_byte :
    ¬ chat.Always Faithful [.clientLine hi, .serverRead 1] := by
  intro h
  have hlaw := h _ _ _ List.prefix_rfl rfl
  exact absurd hlaw.server (by decide)

end SocketTCP
end KernelDrivers
