import KernelDrivers.Lib.Pool

/-!
# Readers-writer locks

A lock that many may hold shared or one exclusively.  A lock that is only
taken exclusively is a mutex.

A lock tracks a pool of processes if it says how many of them hold it.  What
the processes do to it keeps that, and from it follows that the holders exclude
each other.
-/

namespace KernelDrivers
namespace Lib

/-- How a lock is taken. -/
inductive Mode where
  | shared
  | exclusive
  deriving DecidableEq

structure RwLock where
  writer : Bool
  readers : Nat
  deriving DecidableEq

namespace RwLock

def free : RwLock := ⟨false, 0⟩

def isHeld (l : RwLock) : Bool := l.writer || decide (0 < l.readers)

/-- `none` while the lock has to be waited for. -/
def acquire (l : RwLock) : Mode → Option RwLock
  | .shared => if l.writer then none else some { l with readers := l.readers + 1 }
  | .exclusive => if l.isHeld then none else some { l with writer := true }

def release (l : RwLock) : Mode → RwLock
  | .shared => { l with readers := l.readers - 1 }
  | .exclusive => { l with writer := false }

section Tracks

variable {τ : Type*} {holds : τ → Option Mode} {pool : List τ} {l l' : RwLock}
  {m : Mode} {i j : Nat} {x y : τ}

/-- How many processes hold the lock in a mode. -/
def holders (holds : τ → Option Mode) (m : Mode) (pool : List τ) : Nat :=
  pool.countP fun x => decide (holds x = some m)

/-- The lock is as its holders have it. -/
structure Tracks (holds : τ → Option Mode) (pool : List τ) (l : RwLock) :
    Prop where
  writer : holders holds .exclusive pool = l.writer.toNat
  readers : holders holds .shared pool = l.readers
  alone : l.writer = true → l.readers = 0

theorem holders_eq_zero (h : ∀ x ∈ pool, holds x = none) (m : Mode) :
    holders holds m pool = 0 :=
  List.countP_eq_zero.mpr fun x hx => by simp [h x hx]

theorem tracks_free (h : ∀ x ∈ pool, holds x = none) : free.Tracks holds pool :=
  ⟨holders_eq_zero h _, holders_eq_zero h _, fun hw => by cases hw⟩

/-- A lock that nobody holds is free. -/
theorem Tracks.eq_free (h : l.Tracks holds pool)
    (hnone : ∀ x ∈ pool, holds x = none) : l = free := by
  have hwriter := h.writer
  have hreaders := h.readers
  rw [holders_eq_zero hnone] at hwriter hreaders
  obtain ⟨writer, readers⟩ := l
  cases writer with
  | false =>
      obtain rfl : 0 = readers := hreaders
      rfl
  | true => cases hwriter

theorem holders_set (holds : τ → Option Mode) (hx : pool[i]? = some x) (y : τ)
    (m : Mode) :
    holders holds m (pool.set i y) + (decide (holds x = some m)).toNat =
      holders holds m pool + (decide (holds y = some m)).toNat :=
  Pool.countP_set (fun x => decide (holds x = some m)) y hx

theorem holders_pos (hx : pool[i]? = some x) (hm : holds x = some m) :
    0 < holders holds m pool :=
  List.countP_pos_iff.mpr ⟨x, List.mem_of_getElem? hx, by simpa using hm⟩

/-- A step that neither takes the lock nor gives it back. -/
theorem Tracks.stay (h : l.Tracks holds pool) (hx : pool[i]? = some x)
    (hy : holds y = holds x) : l.Tracks holds (pool.set i y) := by
  have hwriter := holders_set holds hx y .exclusive
  have hreaders := holders_set holds hx y .shared
  rw [hy] at hwriter hreaders
  refine ⟨?_, ?_, h.alone⟩
  · exact (Nat.add_right_cancel hwriter).trans h.writer
  · exact (Nat.add_right_cancel hreaders).trans h.readers

theorem Tracks.concat (h : l.Tracks holds pool) (hy : holds y = none) :
    l.Tracks holds (pool ++ [y]) := by
  have hcount : ∀ m, holders holds m (pool ++ [y]) = holders holds m pool := by
    intro m
    unfold holders
    rw [Pool.countP_concat, hy]
    rfl
  exact ⟨(hcount _).trans h.writer, (hcount _).trans h.readers, h.alone⟩

theorem Tracks.take (h : l.Tracks holds pool) (hx : pool[i]? = some x)
    (hnone : holds x = none) (hy : holds y = some m)
    (hacquire : l.acquire m = some l') : l'.Tracks holds (pool.set i y) := by
  have hwriter := holders_set holds hx y .exclusive
  have hreaders := holders_set holds hx y .shared
  rw [hnone, hy, h.writer] at hwriter
  rw [hnone, hy, h.readers] at hreaders
  cases m with
  | shared =>
      simp only [acquire] at hacquire
      split_ifs at hacquire with hw
      cases hacquire
      refine ⟨?_, ?_, fun hw' => absurd hw' hw⟩
      · simpa using hwriter
      · simpa using hreaders
  | exclusive =>
      simp only [acquire] at hacquire
      split_ifs at hacquire with hheld
      cases hacquire
      simp only [isHeld, Bool.or_eq_true, decide_eq_true_eq, not_or,
        Bool.not_eq_true, Nat.not_lt, Nat.le_zero] at hheld
      refine ⟨?_, ?_, fun _ => hheld.2⟩
      · simpa [hheld.1] using hwriter
      · simpa using hreaders

theorem Tracks.give (h : l.Tracks holds pool) (hx : pool[i]? = some x)
    (hm : holds x = some m) (hy : holds y = none) :
    (l.release m).Tracks holds (pool.set i y) := by
  have hwriter := holders_set holds hx y .exclusive
  have hreaders := holders_set holds hx y .shared
  rw [hm, hy, h.writer] at hwriter
  rw [hm, hy, h.readers] at hreaders
  cases m with
  | shared =>
      refine ⟨?_, ?_, fun hw => ?_⟩
      · simpa [release] using hwriter
      · simp only [release] at hreaders ⊢
        simp only [decide_true, Bool.toNat_true, reduceCtorEq, decide_false,
          Bool.toNat_false] at hreaders
        omega
      · have hnone := h.alone hw
        simp [release, hnone]
  | exclusive =>
      have hw : l.writer = true := by
        have hpos := holders_pos hx hm
        rw [h.writer] at hpos
        cases hwriter : l.writer with
        | true => rfl
        | false => simp [hwriter] at hpos
      refine ⟨?_, ?_, fun hw => by cases hw⟩
      · simpa [release, hw] using hwriter
      · simpa [release] using hreaders

/-- Who holds the lock exclusively holds it alone. -/
theorem Tracks.others_out (h : l.Tracks holds pool) (hx : pool[i]? = some x)
    (hm : holds x = some .exclusive) (hy : pool[j]? = some y) (hji : j ≠ i) :
    holds y = none := by
  have hpos := holders_pos hx hm
  have hone : holders holds .exclusive pool ≤ 1 := by
    rw [h.writer]
    exact Bool.toNat_le _
  have hw : l.writer = true := by
    rw [h.writer] at hpos
    cases hwriter : l.writer with
    | true => rfl
    | false => simp [hwriter] at hpos
  cases hheld : holds y with
  | none => rfl
  | some m =>
      cases m with
      | shared =>
          have hreader := holders_pos hy hheld
          rw [h.readers, h.alone hw] at hreader
          cases hreader
      | exclusive =>
          exact absurd (Pool.eq_of_countP_le_one hone hx (by simpa using hm) hy
            (by simpa using hheld)) hji

/-- Whoever has to wait waits for somebody. -/
theorem Tracks.exists_holder (h : l.Tracks holds pool)
    (hwait : l.acquire m = none) : ∃ y ∈ pool, ∃ m', holds y = some m' := by
  have hheld : l.writer = true ∨ 0 < l.readers := by
    cases m with
    | shared =>
        simp only [acquire] at hwait
        split_ifs at hwait with hw
        exact Or.inl hw
    | exclusive =>
        simp only [acquire] at hwait
        split_ifs at hwait with hw
        simpa [isHeld] using hw
  rcases hheld with hw | hr
  · have hpos : 0 < holders holds .exclusive pool := by
      rw [h.writer, hw]
      exact Nat.one_pos
    obtain ⟨y, hy, hm⟩ := List.countP_pos_iff.mp hpos
    exact ⟨y, hy, .exclusive, by simpa using hm⟩
  · rw [← h.readers] at hr
    obtain ⟨y, hy, hm⟩ := List.countP_pos_iff.mp hr
    exact ⟨y, hy, .shared, by simpa using hm⟩

theorem Tracks.isHeld (h : l.Tracks holds pool) (hx : pool[i]? = some x)
    (hm : holds x = some m) : l.isHeld = true := by
  have hpos := holders_pos hx hm
  cases m with
  | shared =>
      rw [h.readers] at hpos
      simp [RwLock.isHeld, hpos]
  | exclusive =>
      rw [h.writer] at hpos
      cases hw : l.writer with
      | true => simp [RwLock.isHeld, hw]
      | false => simp [hw] at hpos

end Tracks
end RwLock
end Lib
end KernelDrivers
