import KernelDrivers.ReadonlyCharacter

/-!
# Reads of `char1.c` into a buffer that faults

`device_read` advances `msg_Ptr`, the pointer into the buffer and `bytes_read`
for every byte, whatever `put_user` says.  A read that meets a fault reports
bytes that it has not stored, and the next read goes on behind them.
-/

namespace KernelDrivers
namespace ReadonlyCharacter

/-- The number of leading bytes that were stored. -/
def leading (stored : List (Option UInt8)) : Nat :=
  (stored.takeWhile Option.isSome).length

/-- A read counts what it delivers: it returns the number of leading bytes that
it stored, or a negative number if there is none, and a later read goes on with
the first byte that was not stored. -/
structure Counted (d after : Driver) (stored : List (Option UInt8))
    (returned : Int) : Prop where
  count : returned = leading stored ∨ returned < 0 ∧ leading stored = 0
  bytes : stored.take (leading stored) = (d.rest.take (leading stored)).map some
  later : ∀ more, (deviceRead after more fun _ => false).2.1 =
    ((d.rest.drop (leading stored)).take more).map some

variable {fault : Nat → Bool} {buffer : Nat} {bytes : List UInt8}

theorem leading_map_some (bytes : List UInt8) :
    leading (bytes.map some) = bytes.length := by
  induction bytes with
  | nil => rfl
  | cons b bytes ih => exact congrArg Nat.succ ih

/-- All bytes are leading bytes exactly when none of them faults. -/
theorem leading_stores_iff :
    leading (stores fault buffer bytes) = bytes.length ↔
      ∀ i < bytes.length, fault (buffer + i) = false := by
  constructor
  · intro hall
    induction bytes generalizing buffer with
    | nil => simp
    | cons b bytes ih =>
        cases hfault : fault buffer with
        | true => simp [leading, stores, hfault] at hall
        | false =>
            have hrest : leading (stores fault (buffer + 1) bytes) = bytes.length := by
              simpa [leading, stores, hfault] using hall
            intro i hi
            cases i with
            | zero => exact hfault
            | succ i =>
                rw [Nat.add_comm i, ← Nat.add_assoc]
                exact ih hrest i (Nat.lt_of_succ_lt_succ hi)
  · intro hnone
    rw [stores_of_not_fault hnone, leading_map_some]

/-- A read that stores all the bytes it comes to. -/
theorem counted_of_stored (d : Driver) (length : Nat) :
    Counted d { d with msgPtr := d.msgPtr + (d.rest.take length).length }
      ((d.rest.take length).map some) (d.rest.take length).length where
  count := .inl (by rw [leading_map_some])
  bytes := by
    rw [leading_map_some, ← List.map_take, List.take_length, List.length_take,
      ← List.take_eq_take_min]
  later := fun more => by
    rw [deviceRead_eq, rest_advance, leading_map_some, drop_length_take]

/-- A read counts what it delivers exactly when no byte of the buffer faults
that it comes to. -/
theorem counted_iff (d : Driver) (length : Nat) (fault : Nat → Bool) :
    Counted d (deviceRead d length fault).1 (deviceRead d length fault).2.1
        (deviceRead d length fault).2.2 ↔
      ∀ i < min length d.rest.length, fault i = false := by
  have hiff := @leading_stores_iff fault 0 (d.rest.take length)
  simp only [List.length_take, Nat.zero_add] at hiff
  rw [deviceRead_stores, ← hiff]
  constructor
  · intro h
    have hcount : ((d.rest.take length).length : Int) =
        leading (stores fault 0 (d.rest.take length)) :=
      h.count.resolve_right fun hneg => by omega
    rw [List.length_take] at hcount
    exact_mod_cast hcount.symm
  · intro hall
    have hnone : ∀ i < (d.rest.take length).length, fault (0 + i) = false :=
      leading_stores_iff.mp (by rw [hall, List.length_take])
    rw [stores_of_not_fault hnone]
    exact counted_of_stored d length

/-- The device after its first `open`. -/
def opened : Driver := deviceOpen driver.init.driver

/-- The second byte faults: five bytes are counted, and the next read goes on
with the sixth. -/
theorem second_byte_faults :
    ¬ Counted opened (deviceRead opened 5 (· == 1)).1
      (deviceRead opened 5 (· == 1)).2.1 (deviceRead opened 5 (· == 1)).2.2 := by
  intro h
  exact absurd h.count (by decide +kernel)

end ReadonlyCharacter
end KernelDrivers
