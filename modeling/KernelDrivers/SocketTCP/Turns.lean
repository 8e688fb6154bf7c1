import KernelDrivers.SocketTCP

/-!
# The turns of the chat

A `read` may return less than a message, and then a side goes on with a part of
a line and the two get out of step.  They still take turns: each side writes
exactly one buffer for every `read`, however short it was, and a `read` takes at
most one buffer away.  So the two never sit in `read` at once with nothing on
the way, and the chat goes on until both have left.
-/

namespace KernelDrivers
namespace SocketTCP

/-- The client sits in `read`, and owes one to the line it has written. -/
def Pc.reading : Pc → Nat
  | .read => 1
  | _ => 0

/-- The server sits in the loop around `getchar`, and owes a line to its last
`read`. -/
def Pc.typing : Pc → Nat
  | .line => 1
  | _ => 0

/-- Each side writes once for every `read`, and no `read` takes more than one
buffer. -/
structure Paired (s : State) : Prop where
  client : s.toServer.lines.length =
    s.toClient.shown.length + s.client.pc.reading
  server : s.toServer.shown.length =
    s.toClient.lines.length + s.server.pc.typing
  toServer : s.toServer.consumed ≤ maxLen * s.toServer.shown.length
  toClient : s.toClient.consumed ≤ maxLen * s.toClient.shown.length

/-- The client is never ahead of its own lines, the server never ahead of its
reads, and until both have left one of them can go on. -/
structure TakesTurns (s : State) (_ : List Unit) : Prop where
  client : s.toClient.shown.length ≤ s.toServer.lines.length ∧
    s.toServer.lines.length ≤ s.toClient.shown.length + 1
  server : s.toClient.lines.length ≤ s.toServer.shown.length ∧
    s.toServer.shown.length ≤ s.toClient.lines.length + 1
  goesOn : s.client.hasLeft = true ∧ s.server.hasLeft = true ∨
    ∃ a, (step s a).isSome = true

variable {k : Link} {l : Line} {n : Nat} {otherLeft : Bool} {s s' : State}
  {a : Act} {ev : List Unit}

@[simp] theorem Link.length_lines_write (k : Link) (l : Line) :
    (k.write l).lines.length = k.lines.length + 1 := by
  simp [Link.write]

@[simp] theorem Link.length_shown_read (k : Link) (n : Nat) :
    (k.read n).shown.length = k.shown.length + 1 := by
  simp [Link.read]

/-! ## One statement -/

/-- The test for "exit" leaves the turns alone. -/
theorem Side.test_pc (p : Side) (again : Pc) (buff : List UInt8) :
    (p.test again buff).pc = .left ∨ (p.test again buff).pc = again := by
  unfold Side.test
  cases saysExit buff with
  | true => exact Or.inl rfl
  | false => exact Or.inr rfl

/-- A `read` of at most one buffer. -/
theorem consumed_read_le (hmay : k.MayReturn otherLeft n)
    (hle : k.consumed ≤ maxLen * k.shown.length) :
    (k.read n).consumed ≤ maxLen * (k.read n).shown.length := by
  have hn := hmay.le
  rw [Link.length_shown_read, Nat.mul_succ]
  show k.consumed + n ≤ _
  omega

theorem paired_step (h : Paired s) (hstep : step s a = some (s', ev)) :
    Paired s' := by
  obtain ⟨hclient, hserver, htoServer, htoClient⟩ := h
  cases a with
  | clientLine l =>
      simp only [step] at hstep
      split at hstep <;> cases hstep
      rename_i hpc
      rw [hpc] at hclient
      refine ⟨?_, hserver, htoServer, htoClient⟩
      rw [Link.length_lines_write, hclient]
      rfl
  | clientRead n =>
      obtain ⟨hpc, hmay, rfl⟩ := clientRead_cases hstep
      rw [hpc] at hclient
      refine ⟨?_, hserver, htoServer, consumed_read_le hmay htoClient⟩
      rw [Link.length_shown_read, hclient]
      rfl
  | clientTest =>
      simp only [step] at hstep
      split at hstep <;> cases hstep
      rename_i buff hpc
      rw [hpc] at hclient
      refine ⟨hclient.trans ?_, hserver, htoServer, htoClient⟩
      rcases s.client.test_pc .line buff with hafter | hafter <;>
        simp only [hafter, Pc.reading]
  | serverLine l =>
      simp only [step] at hstep
      split at hstep <;> cases hstep
      rename_i hpc
      rw [hpc] at hserver
      refine ⟨hclient, ?_, htoServer, htoClient⟩
      rw [Link.length_lines_write, hserver]
      rfl
  | serverRead n =>
      obtain ⟨hpc, hmay, rfl⟩ := serverRead_cases hstep
      rw [hpc] at hserver
      refine ⟨hclient, ?_, consumed_read_le hmay htoServer, htoClient⟩
      rw [Link.length_shown_read, hserver]
      rfl
  | serverTest =>
      simp only [step] at hstep
      split at hstep <;> cases hstep
      rename_i buff hpc
      rw [hpc] at hserver
      refine ⟨hclient, hserver.trans ?_, htoServer, htoClient⟩
      rcases s.server.test_pc .read buff with hafter | hafter <;>
        simp only [hafter, Pc.typing]

theorem paired_of_reachable (h : chat.Reachable s) : Paired s := by
  refine chat.reachable_invariant (I := Paired) ?_ ?_ h
  · exact ⟨rfl, rfl, Nat.zero_le _, Nat.zero_le _⟩
  · exact fun s a s' ev hpaired hstep => paired_step hpaired hstep

/-! ## Somebody can go on -/

theorem length_unread (k : Link) :
    k.unread.length = maxLen * k.lines.length - k.consumed := by
  rw [Link.unread, List.length_drop, length_messages]

/-- A `read` returns when something has arrived, or when the other side has
left. -/
theorem exists_mayReturn (h : k.consumed < maxLen * k.lines.length ∨
      otherLeft = true) : ∃ n, k.MayReturn otherLeft n := by
  rcases Nat.eq_zero_or_pos k.unread.length with hnone | hsome
  · have hempty : otherLeft = true := by
      refine h.resolve_left fun hlt => ?_
      rw [length_unread] at hnone
      omega
    exact ⟨0, Or.inr ⟨rfl, List.length_eq_zero_iff.mp hnone, hempty⟩⟩
  · exact ⟨1, Or.inl ⟨Nat.one_pos, by decide, hsome⟩⟩

/-- An empty line. -/
def emptyLine : Line where
  body := []
  noNewline := List.not_mem_nil
  short := by decide

theorem clientRead_isSome (hpc : s.client.pc = .read)
    (hmay : s.toClient.MayReturn s.server.hasLeft n) :
    (step s (.clientRead n)).isSome = true := by
  simp [step, hpc, hmay]

theorem serverRead_isSome (hpc : s.server.pc = .read)
    (hmay : s.toServer.MayReturn s.client.hasLeft n) :
    (step s (.serverRead n)).isSome = true := by
  simp [step, hpc, hmay]

/-- Two sides that both wait would have written as often as they have read,
but the client has written once more. -/
theorem Paired.not_both_wait (h : Paired s) (hclient : s.client.pc = .read)
    (hserver : s.server.pc = .read) :
    s.toClient.consumed < maxLen * s.toClient.lines.length ∨
      s.toServer.consumed < maxLen * s.toServer.lines.length := by
  have hasked := h.client
  have hanswered := h.server
  simp only [hclient, Pc.reading] at hasked
  simp only [hserver, Pc.typing, Nat.add_zero] at hanswered
  have htoServer := h.toServer
  have htoClient := h.toClient
  unfold maxLen at *
  omega

/-- A side that is not in `read` can always go on. -/
theorem client_goesOn (hleft : s.client.hasLeft = false) (hpc : s.client.pc ≠ .read) :
    ∃ a, (step s a).isSome = true := by
  cases hclient : s.client.pc with
  | line => exact ⟨.clientLine emptyLine, by simp [step, hclient]⟩
  | read => exact absurd hclient hpc
  | test buff => exact ⟨.clientTest, by simp [step, hclient]⟩
  | left => simp [Side.hasLeft, hclient] at hleft

theorem server_goesOn (hleft : s.server.hasLeft = false) (hpc : s.server.pc ≠ .read) :
    ∃ a, (step s a).isSome = true := by
  cases hserver : s.server.pc with
  | line => exact ⟨.serverLine emptyLine, by simp [step, hserver]⟩
  | read => exact absurd hserver hpc
  | test buff => exact ⟨.serverTest, by simp [step, hserver]⟩
  | left => simp [Side.hasLeft, hserver] at hleft

theorem Paired.goesOn (h : Paired s)
    (hleft : ¬ (s.client.hasLeft = true ∧ s.server.hasLeft = true)) :
    ∃ a, (step s a).isSome = true := by
  by_contra hstuck
  have hclient : s.client.hasLeft = true ∨ s.client.pc = .read := by
    by_contra hno
    rw [not_or, Bool.not_eq_true] at hno
    exact hstuck (client_goesOn hno.1 hno.2)
  have hserver : s.server.hasLeft = true ∨ s.server.pc = .read := by
    by_contra hno
    rw [not_or, Bool.not_eq_true] at hno
    exact hstuck (server_goesOn hno.1 hno.2)
  have hclientWaits : s.client.pc = .read →
      ¬ (s.toClient.consumed < maxLen * s.toClient.lines.length ∨
        s.server.hasLeft = true) := fun hpc harrived => by
    obtain ⟨n, hmay⟩ := exists_mayReturn harrived
    exact hstuck ⟨_, clientRead_isSome hpc hmay⟩
  have hserverWaits : s.server.pc = .read →
      ¬ (s.toServer.consumed < maxLen * s.toServer.lines.length ∨
        s.client.hasLeft = true) := fun hpc harrived => by
    obtain ⟨n, hmay⟩ := exists_mayReturn harrived
    exact hstuck ⟨_, serverRead_isSome hpc hmay⟩
  rcases hclient with hclient | hclient
  · rcases hserver with hserver | hserver
    · exact hleft ⟨hclient, hserver⟩
    · exact hserverWaits hserver (Or.inr hclient)
  · rcases hserver with hserver | hserver
    · exact hclientWaits hclient (Or.inr hserver)
    · rcases h.not_both_wait hclient hserver with harrived | harrived
      · exact hclientWaits hclient (Or.inl harrived)
      · exact hserverWaits hserver (Or.inl harrived)

/-- However TCP cuts the messages up, the two sides take turns and never wait
for each other. -/
theorem chat_takes_turns (acts : List Act) : chat.Always TakesTurns acts := by
  intro before s tr _ hrun
  have hpaired := paired_of_reachable ⟨before, tr, hrun⟩
  have hasked := hpaired.client
  have hanswered := hpaired.server
  have hreading : s.client.pc.reading ≤ 1 := by
    cases s.client.pc <;> simp [Pc.reading]
  have htyping : s.server.pc.typing ≤ 1 := by
    cases s.server.pc <;> simp [Pc.typing]
  refine ⟨by omega, by omega, ?_⟩
  by_cases hleft : s.client.hasLeft = true ∧ s.server.hasLeft = true
  · exact Or.inl hleft
  · exact Or.inr (hpaired.goesOn hleft)

end SocketTCP
end KernelDrivers
