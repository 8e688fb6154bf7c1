import KernelDrivers.Lib.Bytes

/-!
# Readers of a byte register

A register holds some content, which a write replaces.  Every call moves bytes
between its memory and a user's buffer, and may stop early or reach too far.

A reader begins with nothing; what it is given must add up to the content, and
a read of at least one byte gives it nothing only when it has all of it.  A
write in the middle of a reader's session leaves it without a content of its
own, so it is no longer followed; a reader that has had its end is not followed
either.
-/

namespace KernelDrivers
namespace Lib
namespace Register

/-- One transfer: the size of the memory behind the register, how far the call
goes into it and into the user's buffer, the count it was given, the bytes it
really moved and what it returned. -/
structure Transfer where
  size : Nat
  memory : Nat
  user : Nat
  count : Nat
  moved : Nat
  returned : Nat
  deriving DecidableEq

/-- The transfer stays inside both buffers and returns what it moved. -/
structure Transfer.Truthful (t : Transfer) : Prop where
  memory : t.memory ≤ t.size
  user : t.user ≤ t.count
  returned : t.returned = t.moved
  bounded : t.returned ≤ t.count

/-- What `len` bytes of a user's buffer arrive as: what cannot be fetched is
filled with zeros. -/
def fetched (user : List UInt8) (len : Nat) : List UInt8 :=
  user.take len ++ List.replicate (len - user.length) 0

theorem length_fetched (user : List UInt8) (len : Nat) :
    (fetched user len).length = len := by
  simp only [fetched, List.length_append, List.length_take,
    List.length_replicate]
  omega

theorem fetched_of_le {user : List UInt8} {len : Nat}
    (h : len ≤ user.length) : fetched user len = user.take len := by
  rw [fetched, Nat.sub_eq_zero_of_le h, List.replicate_zero, List.append_nil]

/-- What a reader has received, and whether it is followed. -/
structure Reader where
  received : List UInt8
  following : Bool
  deriving DecidableEq

namespace Reader

def opened : Reader := ⟨[], true⟩

/-- After a write: only who has nothing yet can still get the new content. -/
def afterWrite (r : Reader) : Reader :=
  { r with following := r.following && r.received.isEmpty }

/-- After a read of `count` bytes that gave `moved`. -/
def afterRead (r : Reader) (count : Nat) (moved : List UInt8) : Reader :=
  if moved = [] ∧ 0 < count then { r with following := false }
  else { r with received := r.received ++ moved }

/-- The read gives a followed reader the next bytes of the content, or its end
when it has the whole. -/
def Served (r : Reader) (content : List UInt8) (count : Nat)
    (moved : List UInt8) : Prop :=
  r.following = true →
    (moved ≠ [] → r.received ++ moved <+: content) ∧
    (moved = [] → 0 < count → r.received = content)

/-- What a followed reader has is the first part of the content. -/
def Follows (content : List UInt8) (r : Reader) : Prop :=
  r.following = true → r.received <+: content

variable {r : Reader} {content : List UInt8} {count : Nat}
  {moved : List UInt8}

theorem follows_opened : Follows content opened :=
  fun _ => List.nil_prefix

theorem follows_afterWrite (content : List UInt8) (r : Reader) :
    Follows content r.afterWrite := by
  intro hfollowing
  have hempty : r.received.isEmpty = true := (Bool.and_eq_true_iff.mp hfollowing).2
  show r.received <+: content
  rw [List.isEmpty_iff.mp hempty]
  exact List.nil_prefix

theorem Follows.afterRead (h : Follows content r)
    (hserved : r.Served content count moved) :
    Follows content (r.afterRead count moved) := by
  unfold Reader.afterRead
  split_ifs with hend
  · intro hfollowing
    cases hfollowing
  · intro hfollowing
    by_cases hmoved : moved = []
    · rw [hmoved, List.append_nil]
      exact h hfollowing
    · exact (hserved hfollowing).1 hmoved

/-- A read that gives nothing. -/
theorem served_nil_iff : r.Served content count [] ↔
    (r.following = true → 0 < count → r.received = content) :=
  ⟨fun h hfollowing => (h hfollowing).2 rfl,
    fun h hfollowing => ⟨fun hne => absurd rfl hne, fun _ => h hfollowing⟩⟩

/-- A read that gives something. -/
theorem served_iff (hmoved : moved ≠ []) : r.Served content count moved ↔
    (r.following = true → r.received ++ moved <+: content) :=
  ⟨fun h hfollowing => (h hfollowing).1 hmoved,
    fun h hfollowing => ⟨fun _ => h hfollowing, fun hnil => absurd hnil hmoved⟩⟩

end Reader

/-- What may follow a first part of a list. -/
theorem append_prefix_iff {α : Type*} {received moved content : List α}
    (h : received <+: content) :
    received ++ moved <+: content ↔ moved <+: content.drop received.length := by
  obtain ⟨rest, rfl⟩ := h
  rw [List.prefix_append_right_inj, List.drop_left]

end Register
end Lib
end KernelDrivers
