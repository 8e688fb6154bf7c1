import KernelDrivers.Lib.Holdings

/-!
# Pointers that a kernel function returned

A function that makes an object fails with `NULL` or with an error pointer,
each function in its own way.  An error pointer is not `NULL`, so a caller that
compares with `NULL` takes it for an object.
-/

namespace KernelDrivers

inductive Pointer where
  | null
  | error
  | valid
  deriving DecidableEq

namespace Pointer

/-- From a function that fails with `ERR_PTR`. -/
def orError (granted : Bool) : Pointer :=
  if granted then .valid else .error

/-- From a function that fails with `NULL`. -/
def orNull (granted : Bool) : Pointer :=
  if granted then .valid else .null

section Entries

open Lib

variable {R : Type*}

/-- What a call that returned the pointer acquired. -/
def made (p : Pointer) (r : R) : List (Entry R) :=
  if p = .valid then [.acquired r] else []

/-- What a call that takes the pointer, and looks at it, releases. -/
def destroyed (p : Pointer) (r : R) : List (Entry R) :=
  if p = .valid then [.released r] else []

end Entries

@[simp] theorem orError_ne_null (granted : Bool) : orError granted ≠ .null := by
  cases granted <;> simp [orError]

@[simp] theorem orError_eq_valid (granted : Bool) :
    orError granted = .valid ↔ granted = true := by
  cases granted <;> simp [orError]

theorem orNull_cases (granted : Bool) :
    orNull granted = .null ∨ orNull granted = .valid := by
  cases granted <;> simp [orNull]

@[simp] theorem orNull_eq_valid (granted : Bool) :
    orNull granted = .valid ↔ granted = true := by
  cases granted <;> simp [orNull]

end Pointer
end KernelDrivers
