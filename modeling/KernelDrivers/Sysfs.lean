import KernelDrivers.Lib.Decimal

/-!
# The attributes of `sysfs-poll.c`

`store` scans an `int` out of the bytes of one write and returns `sizeof(int)`,
whatever the length of the write was.  A user who writes a line and goes on
with what was not accepted therefore hands a line of more than four bytes to
`store` again from its fifth byte on, and the last rest that has a digit in it
is what stays.
-/

namespace KernelDrivers
namespace Sysfs

open Lib Decimal

/-- The two attributes. -/
inductive Attribute where
  | notify
  | trigger
  deriving DecidableEq

def Attribute.name : Attribute → String
  | .notify => "notify"
  | .trigger => "trigger"

def Attribute.other : Attribute → Attribute
  | .notify => .trigger
  | .trigger => .notify

/-- `notify.value` and `trigger.value`. -/
structure Values where
  notify : Int32
  trigger : Int32
  deriving DecidableEq

def Values.get (s : Values) : Attribute → Int32
  | .notify => s.notify
  | .trigger => s.trigger

def Values.set (s : Values) (a : Attribute) (value : Int32) : Values :=
  match a with
  | .notify => { s with notify := value }
  | .trigger => { s with trigger := value }

/-- `sizeof(int)`. -/
def sizeofInt : Nat := 4

/-- `show`: the text that a read of the attribute gives. -/
def showAttribute (s : Values) (a : Attribute) : List UInt8 :=
  a.name.toUTF8.toList ++ [58, 32] ++ ofInt (s.get a).toInt ++ [newline]

/-- `store`: the values, the attribute for which pollers are notified and the
number of bytes that it says it took. -/
def store (s : Values) (a : Attribute) (buf : List UInt8) :
    Values × Option Attribute × Nat :=
  let s :=
    match scan buf with
    | none => s
    | some value => s.set a value
  if a.name = "notify" then (s.set .notify (s.get a), some .notify, sizeofInt)
  else if a.name = "trigger" then
    (s.set .trigger (s.get a), some .trigger, sizeofInt)
  else (s, none, sizeofInt)

theorem store_returns (s : Values) (a : Attribute) (buf : List UInt8) :
    (store s a buf).2.2 = sizeofInt := by
  unfold store
  split_ifs <;> rfl

/-- The write-all loop of a user: write what is left, and go on after what was
accepted. -/
def writeAll (s : Values) (a : Attribute) (buf : List UInt8) : Values :=
  if buf = [] then s
  else writeAll (store s a buf).1 a (buf.drop (store s a buf).2.2)
termination_by buf.length
decreasing_by
  rename_i hne
  rw [store_returns, List.length_drop]
  have hpos := List.length_pos_iff.mpr hne
  unfold sizeofInt
  omega

variable {s : Values} {a : Attribute} {v : Int32} {ds : List UInt8}

@[simp] theorem get_set_self (s : Values) (a : Attribute) (v : Int32) :
    (s.set a v).get a = v := by
  cases a <;> rfl

@[simp] theorem get_set_other (s : Values) (a : Attribute) (v : Int32) :
    (s.set a v).get a.other = s.get a.other := by
  cases a <;> rfl

@[simp] theorem set_set (s : Values) (a : Attribute) (v w : Int32) :
    (s.set a v).set a w = s.set a w := by
  cases a <;> rfl

@[simp] theorem set_get (s : Values) (a : Attribute) :
    s.set a (s.get a) = s := by
  cases a <;> rfl

/-- What `store` leaves: its assignments by name change nothing. -/
theorem store_values (s : Values) (a : Attribute) (buf : List UInt8) :
    (store s a buf).1 =
      match scan buf with
      | none => s
      | some value => s.set a value := by
  cases a with
  | notify => exact set_get _ .notify
  | trigger => exact set_get _ .trigger

theorem writeAll_nil (s : Values) (a : Attribute) : writeAll s a [] = s := by
  rw [writeAll, if_pos rfl]

theorem writeAll_line (s : Values) (a : Attribute) (ds : List UInt8) :
    writeAll s a (ds ++ [newline]) =
      writeAll (store s a (ds ++ [newline])).1 a
        ((ds ++ [newline]).drop sizeofInt) := by
  rw [writeAll, if_neg (by simp), store_returns]

theorem writeAll_newline (s : Values) (a : Attribute) :
    writeAll s a [newline] = s := by
  have hline := writeAll_line s a []
  rw [List.nil_append, store_values, scan_newline] at hline
  rw [hline]
  exact writeAll_nil s a

/-- With at most four bytes in front of the newline, what remains after one
write has no digit. -/
theorem writeAll_rest (hle : ds.length ≤ sizeofInt) (s : Values) :
    writeAll s a ((ds ++ [newline]).drop sizeofInt) = s := by
  rw [List.drop_append, List.drop_of_length_le hle, List.nil_append]
  by_cases hfour : ds.length = sizeofInt
  · rw [hfour, Nat.sub_self]
    exact writeAll_newline s a
  · rw [List.drop_of_length_le (by rw [List.length_singleton]; omega)]
    exact writeAll_nil s a

/-- A line of digits leaves a value of at most four digits. -/
theorem writeAll_digits (hne : ds ≠ []) (hdigits : ∀ d ∈ ds, isDigit d = true)
    (s : Values) :
    ∃ r < 10 ^ 4, writeAll s a (ds ++ [newline]) =
      s.set a (Int32.ofInt (r : Nat)) := by
  induction hlen : ds.length using Nat.strong_induction_on generalizing ds s with
  | _ n ih =>
      rw [writeAll_line, store_values, scan_digits hdigits hne]
      by_cases hle : ds.length ≤ sizeofInt
      · refine ⟨value ds, ?_, writeAll_rest hle _⟩
        calc value ds < 10 ^ ds.length := value_lt hdigits
          _ ≤ 10 ^ 4 := Nat.pow_le_pow_right (by decide) hle
      · have hlong : sizeofInt < ds.length := Nat.lt_of_not_le hle
        have hdrop : (ds ++ [newline]).drop sizeofInt =
            ds.drop sizeofInt ++ [newline] := by
          rw [List.drop_append_of_le_length (Nat.le_of_lt hlong)]
        rw [hdrop]
        have hshort : (ds.drop sizeofInt).length < n := by
          rw [List.length_drop, hlen]
          unfold sizeofInt at *
          omega
        have hrest : ds.drop sizeofInt ≠ [] := by
          apply List.ne_nil_of_length_pos
          rw [List.length_drop]
          omega
        obtain ⟨r, hr, heq⟩ := ih _ hshort hrest
          (fun d hd => hdigits d (List.mem_of_mem_drop hd)) _ rfl
        exact ⟨r, hr, heq.trans (set_set s a _ _)⟩

/-! ## The write-back -/

/-- The line that a user writes for a value. -/
def line (v : Int32) : List UInt8 := ofInt v.toInt ++ [newline]

/-- The loop ends with the value in the attribute, and the other attribute as it
was. -/
def WrittenBack (s : Values) (a : Attribute) (v : Int32) : Prop :=
  (writeAll s a (line v)).get a = v ∧
    (writeAll s a (line v)).get a.other = s.get a.other

/-- Up to four characters the first write is the only one that counts; beyond,
a rest of at most four digits stays. -/
theorem writeAll_value (s : Values) (a : Attribute) (v : Int32) :
    ((ofInt v.toInt).length ≤ sizeofInt ∧ writeAll s a (line v) = s.set a v) ∨
      (sizeofInt < (ofInt v.toInt).length ∧ ∃ r < 10 ^ 4,
        writeAll s a (line v) = s.set a (Int32.ofInt (r : Nat))) := by
  unfold line
  rw [writeAll_line, store_values, scan_ofInt, Int32.ofInt_toInt]
  rcases Nat.lt_or_ge sizeofInt (ofInt v.toInt).length with hlong | hshort
  · refine Or.inr ⟨hlong, ?_⟩
    rw [List.drop_append_of_le_length (Nat.le_of_lt hlong)]
    have hrest : (ofInt v.toInt).drop sizeofInt ≠ [] := by
      apply List.ne_nil_of_length_pos
      rw [List.length_drop]
      omega
    obtain ⟨r, hr, heq⟩ := writeAll_digits (a := a) hrest
      (isDigit_of_mem_drop _ (by decide)) (s.set a v)
    exact ⟨r, hr, heq.trans (set_set s a _ _)⟩
  · exact Or.inl ⟨hshort, writeAll_rest hshort _⟩

theorem writtenBack_iff (s : Values) (a : Attribute) (v : Int32) :
    WrittenBack s a v ↔ -999 ≤ v.toInt ∧ v.toInt ≤ 9999 := by
  have hlength := length_ofInt_le_iff (k := sizeofInt) v.toInt (by decide)
  have hlow : -((10 ^ (sizeofInt - 1) : Nat) : Int) = -1000 := by decide
  have hhigh : ((10 ^ sizeofInt : Nat) : Int) = 10000 := by decide
  rw [hlow, hhigh] at hlength
  unfold WrittenBack
  rcases writeAll_value s a v with ⟨hshort, heq⟩ | ⟨hlong, r, hr, heq⟩
  · rw [heq]
    have hrange := hlength.mp hshort
    refine iff_of_true ⟨get_set_self s a v, get_set_other s a v⟩ ?_
    omega
  · have hrange : ¬ (-1000 < v.toInt ∧ v.toInt < 10000) := fun h =>
      Nat.not_le_of_lt hlong (hlength.mpr h)
    rw [heq]
    refine iff_of_false (fun hback => ?_) (by omega)
    have hv : Int32.ofInt (r : Nat) = v := (get_set_self s a _).symm.trans hback.1
    have hr' : v.toInt = r := by
      rw [← hv, Int32.toInt_ofInt_of_le (by omega) (by omega)]
    omega

/-- The write-back ends with the value exactly for the values whose text has at
most four characters, and `store` says no more than it was given exactly for
writes of at least four bytes. -/
theorem writeBack_iff (s : Values) (a : Attribute) (v : Int32)
    (buf : List UInt8) :
    (WrittenBack s a v ↔ -999 ≤ v.toInt ∧ v.toInt ≤ 9999) ∧
      ((store s a buf).2.2 ≤ buf.length ↔ sizeofInt ≤ buf.length) := by
  refine ⟨writtenBack_iff s a v, ?_⟩
  rw [store_returns]

/-- What a read of the attribute gives after a write-back that succeeds. -/
theorem WrittenBack.shown (h : WrittenBack s a v) :
    showAttribute (writeAll s a (line v)) a =
      a.name.toUTF8.toList ++ [58, 32] ++ line v := by
  unfold showAttribute
  rw [h.1, List.append_assoc]
  rfl

/-- The line of 12345 is written as "12345" and again as "5", and a line of two
bytes is taken as four. -/
theorem long_line_ends_in_rest :
    (writeAll ⟨0, 0⟩ .trigger (line 12345)).get .trigger = 5 ∧
      ¬ WrittenBack ⟨0, 0⟩ .trigger 12345 ∧
      ¬ (store ⟨0, 0⟩ .trigger (line 5)).2.2 ≤ (line 5).length := by
  refine ⟨by decide +kernel, ?_, by decide +kernel⟩
  unfold WrittenBack
  decide +kernel

end Sysfs
end KernelDrivers
