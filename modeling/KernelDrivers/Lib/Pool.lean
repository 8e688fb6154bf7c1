import Mathlib.Algebra.GroupWithZero.Nat
import Mathlib.Data.List.Basic

/-!
# Pools of processes

A pool is a list of local states.  A step replaces the state of one process, a
new process goes to the end, and a finished item may be taken out.  The
lemmas say what these changes do to facts about every process and to the
number of processes with a property.
-/

namespace KernelDrivers
namespace Lib
namespace Pool

variable {α : Type*} {l : List α} {i j : Nat} {x y : α}

theorem set_cases (h : (l.set i y)[j]? = some x) :
    (j = i ∧ x = y) ∨ (j ≠ i ∧ l[j]? = some x) := by
  rw [List.getElem?_set] at h
  split_ifs at h with hij hlt
  · cases h
    exact Or.inl ⟨hij.symm, rfl⟩
  · exact Or.inr ⟨fun hji => hij hji.symm, h⟩

theorem concat_cases (h : (l ++ [y])[j]? = some x) :
    (j = l.length ∧ x = y) ∨ l[j]? = some x := by
  rcases Nat.lt_trichotomy j l.length with hlt | rfl | hgt
  · rw [List.getElem?_append_left hlt] at h
    exact Or.inr h
  · rw [List.getElem?_concat_length] at h
    exact Or.inl ⟨rfl, (Option.some.inj h).symm⟩
  · rw [List.getElem?_eq_none (by simp; omega)] at h
    cases h

/-- A new process leaves the others where they are. -/
theorem concat_kept (h : l[i]? = some x) (y : α) : (l ++ [y])[i]? = some x := by
  obtain ⟨hlt, -⟩ := List.getElem?_eq_some_iff.mp h
  rw [List.getElem?_append_left hlt]
  exact h

theorem set_self (h : l[i]? = some x) : (l.set i y)[i]? = some y := by
  obtain ⟨hlt, -⟩ := List.getElem?_eq_some_iff.mp h
  simp [hlt]

theorem set_other (hij : j ≠ i) : (l.set i y)[j]? = l[j]? := by
  rw [List.getElem?_set_ne (Ne.symm hij)]

theorem mem_set_self (h : l[i]? = some x) (y : α) : y ∈ l.set i y :=
  List.mem_iff_getElem?.mpr ⟨i, set_self h⟩

/-- Whoever differs from the process that takes the step stays. -/
theorem mem_set_of_ne {z : α} (h : l[i]? = some x) (hz : z ∈ l) (hne : z ≠ x)
    (y : α) : z ∈ l.set i y := by
  obtain ⟨j, hj⟩ := List.mem_iff_getElem?.mp hz
  have hij : j ≠ i := by
    rintro rfl
    exact hne (Option.some.inj (hj.symm.trans h))
  apply List.mem_iff_getElem?.mpr
  exact ⟨j, (set_other hij).trans hj⟩

/-- A fact about every process is kept by a step of one process that ends
in it. -/
theorem forall_set {P : α → Prop} (hl : ∀ x ∈ l, P x) (hy : P y) :
    ∀ x ∈ l.set i y, P x := by
  intro x hx
  rcases List.mem_or_eq_of_mem_set hx with hx | rfl
  · exact hl x hx
  · exact hy

/-- What holds of one process and of all others holds of all. -/
theorem forall_of_others {P : α → Prop} (h : l[i]? = some x) (hx : P x)
    (hothers : ∀ j z, j ≠ i → l[j]? = some z → P z) : ∀ z ∈ l, P z := by
  intro z hz
  obtain ⟨j, hj⟩ := List.mem_iff_getElem?.mp hz
  rcases eq_or_ne j i with rfl | hji
  · cases h.symm.trans hj
    exact hx
  · exact hothers j z hji hj

theorem forall_concat {P : α → Prop} (hl : ∀ x ∈ l, P x) (hy : P y) :
    ∀ x ∈ l ++ [y], P x := by
  intro x hx
  rcases List.mem_append.mp hx with hx | hx
  · exact hl x hx
  · cases List.mem_singleton.mp hx
    exact hy

/-- A step of one process moves the count by that process. -/
theorem countP_set (p : α → Bool) (y : α) (h : l[i]? = some x) :
    (l.set i y).countP p + (p x).toNat = l.countP p + (p y).toNat := by
  induction l generalizing i with
  | nil => simp at h
  | cons z l ih =>
      cases i with
      | zero =>
          cases h
          simp only [List.set_cons_zero, List.countP_cons]
          cases p x <;> cases p y <;> simp
      | succ i =>
          have := ih (by simpa using h)
          simp only [List.set_cons_succ, List.countP_cons]
          omega

/-- A step of one process moves a sum by that process, when the share of every
other process is the same after it. -/
theorem sum_set_of_others {f g : α → Nat} (y : α) (h : l[i]? = some x)
    (hothers : ∀ j z, j ≠ i → l[j]? = some z → g z = f z) :
    ((l.set i y).map g).sum + f x = (l.map f).sum + g y := by
  induction l generalizing i with
  | nil => simp at h
  | cons z l ih =>
      cases i with
      | zero =>
          cases h
          have hrest : l.map g = l.map f := by
            refine List.map_congr_left fun z hz => ?_
            obtain ⟨j, hj⟩ := List.mem_iff_getElem?.mp hz
            exact hothers (j + 1) z (Nat.succ_ne_zero j) (by simpa using hj)
          simp only [List.set_cons_zero, List.map_cons, List.sum_cons, hrest]
          omega
      | succ i =>
          have hz : g z = f z := hothers 0 z (Nat.succ_ne_zero i).symm rfl
          have := ih (by simpa using h) fun j z hji hj =>
            hothers (j + 1) z (by omega) (by simpa using hj)
          simp only [List.set_cons_succ, List.map_cons, List.sum_cons, hz]
          omega

/-- A step of one process moves a sum by that process. -/
theorem sum_set (f : α → Nat) (y : α) (h : l[i]? = some x) :
    ((l.set i y).map f).sum + f x = (l.map f).sum + f y :=
  sum_set_of_others y h fun _ _ _ _ => rfl

theorem countP_eraseIdx (p : α → Bool) (h : l[i]? = some x) :
    (l.eraseIdx i).countP p + (p x).toNat = l.countP p := by
  induction l generalizing i with
  | nil => simp at h
  | cons z l ih =>
      cases i with
      | zero =>
          cases h
          simp only [List.eraseIdx_cons_zero, List.countP_cons]
          cases p x <;> simp
      | succ i =>
          have := ih (by simpa using h)
          simp only [List.eraseIdx_cons_succ, List.countP_cons]
          omega

/-- Where at most one process has a property, two of them are the same. -/
theorem eq_of_countP_le_one {p : α → Bool} {z : α} (h : l.countP p ≤ 1)
    (hi : l[i]? = some x) (hx : p x = true) (hj : l[j]? = some z)
    (hz : p z = true) : j = i := by
  by_contra hij
  have hmem : z ∈ l.eraseIdx i :=
    List.mem_eraseIdx_iff_getElem?.mpr ⟨j, hij, hj⟩
  have hpos : 0 < (l.eraseIdx i).countP p :=
    List.countP_pos_iff.mpr ⟨z, hmem, hz⟩
  have hcount := countP_eraseIdx p hi
  rw [hx, Bool.toNat_true] at hcount
  omega

theorem countP_concat (p : α → Bool) (y : α) :
    (l ++ [y]).countP p = l.countP p + (p y).toNat := by
  rw [List.countP_append, List.countP_singleton]
  cases p y <;> rfl

/-- What the processes hold in all, when one of them changes and no other
holds anything. -/
theorem flatMap_of_others {β : Type*} {f : α → List β} (h : l[i]? = some x)
    (hothers : ∀ j z, j ≠ i → l[j]? = some z → f z = []) :
    l.flatMap f = f x := by
  induction l generalizing i with
  | nil => simp at h
  | cons z l ih =>
      cases i with
      | zero =>
          cases h
          have hnone : l.flatMap f = [] := by
            rw [List.flatMap_eq_nil_iff]
            intro z hz
            obtain ⟨j, hj⟩ := List.mem_iff_getElem?.mp hz
            exact hothers (j + 1) z (Nat.succ_ne_zero j) (by simpa using hj)
          rw [List.flatMap_cons, hnone, List.append_nil]
      | succ i =>
          have hz : f z = [] := hothers 0 z (Nat.succ_ne_zero i).symm rfl
          rw [List.flatMap_cons, hz, List.nil_append]
          refine ih (by simpa using h) fun j z hji hj => ?_
          exact hothers (j + 1) z (by omega) (by simpa using hj)

theorem flatMap_set_of_eq {β : Type*} {f : α → List β} (h : l[i]? = some x)
    (hxy : f y = f x) : (l.set i y).flatMap f = l.flatMap f := by
  induction l generalizing i with
  | nil => simp at h
  | cons z l ih =>
      cases i with
      | zero =>
          cases h
          rw [List.set_cons_zero, List.flatMap_cons, List.flatMap_cons, hxy]
      | succ i =>
          rw [List.set_cons_succ, List.flatMap_cons, List.flatMap_cons,
            ih (by simpa using h)]

end Pool
end Lib
end KernelDrivers
