import KernelDrivers.Lib.RwLock
import KernelDrivers.Lib.System
import Mathlib.Logic.Relation

/-!
# Threads that go round a lock

Each thread goes round a list of statements until it is told to stop.  All of
them share one variable and one lock.

`Disciplined` is read off the statements: the variable is printed inside
a section and updated inside an exclusive one.  It is enough for the update,
which reads and then writes, to be atomic in every order of steps, and for
every thread that is told to stop to be able to return.
-/

namespace KernelDrivers
namespace Lib
namespace Rounds

/-- The updates of the variable are `α`, its values `V`, the messages `μ`. -/
inductive Stmt (α μ : Type*) where
  | lock (m : Mode)
  | unlock (m : Mode)
  /-- Reads the variable and then writes it, in two steps. -/
  | update (a : α)
  /-- A message with the value of the variable. -/
  | print (msg : μ)
  /-- Speaks if the lock is held, or if it is not. -/
  | probe (held : Bool) (msg : μ)
  | pause

structure Thread (α V μ : Type*) where
  /-- The body of the loop. -/
  body : List (Stmt α μ)
  /-- What is left of the round. -/
  todo : List (Stmt α μ)
  /-- What an update has read. -/
  loaded : Option V
  stop : Bool
  returned : Bool

/-- A thread before its first round. -/
def Thread.new {α V μ : Type*} (body : List (Stmt α μ)) : Thread α V μ :=
  ⟨body, [], none, false, false⟩

structure Config (α V μ : Type*) where
  lock : RwLock
  value : V
  threads : List (Thread α V μ)

inductive Event (α V μ : Type*) where
  | updated (a : α)
  | printed (msg : μ) (v : V)
  | said (msg : μ)

variable {α V μ : Type*}

/-- One statement of a thread. -/
def stmt (apply : α → V → V) (lock : RwLock) (v : V) (t : Thread α V μ) :
    Option (RwLock × V × Thread α V μ × List (Event α V μ)) :=
  match t.todo with
  | [] =>
      if t.returned then none
      else if t.stop then some (lock, v, { t with returned := true }, [])
      else some (lock, v, { t with todo := t.body }, [])
  | .lock m :: rest =>
      (lock.acquire m).map fun lock => (lock, v, { t with todo := rest }, [])
  | .unlock m :: rest => some (lock.release m, v, { t with todo := rest }, [])
  | .update a :: rest =>
      match t.loaded with
      | none => some (lock, v, { t with loaded := some v }, [])
      | some w =>
          some (lock, apply a w, { t with todo := rest, loaded := none },
            [.updated a])
  | .print msg :: rest => some (lock, v, { t with todo := rest }, [.printed msg v])
  | .probe held msg :: rest =>
      some (lock, v, { t with todo := rest },
        if lock.isHeld = held then [.said msg] else [])
  | .pause :: rest => some (lock, v, { t with todo := rest }, [])

/-- A step of thread `i`. -/
def Config.run (apply : α → V → V) (c : Config α V μ) (i : Nat) :
    Option (Config α V μ × List (Event α V μ)) :=
  match c.threads[i]? with
  | none => none
  | some t =>
      (stmt apply c.lock c.value t).map fun (lock, v, t', ev) =>
        (⟨lock, v, c.threads.set i t'⟩, ev)

def Config.start (c : Config α V μ) (body : List (Stmt α μ)) : Config α V μ :=
  { c with threads := c.threads ++ [.new body] }

/-- Tells thread `i` to stop. -/
def Config.stop (c : Config α V μ) (i : Nat) : Config α V μ :=
  match c.threads[i]? with
  | none => c
  | some t => { c with threads := c.threads.set i { t with stop := true } }

@[simp] theorem Config.stop_value (c : Config α V μ) (i : Nat) :
    (c.stop i).value = c.value := by
  unfold Config.stop
  split <;> rfl

@[simp] theorem Config.stop_length (c : Config α V μ) (i : Nat) :
    (c.stop i).threads.length = c.threads.length := by
  unfold Config.stop
  split
  · rfl
  · exact List.length_set

/-! ## Discipline -/

/-- How the lock is held before a list of statements: as its first `unlock`
gives it back. -/
def held : List (Stmt α μ) → Option Mode
  | [] => none
  | .lock _ :: _ => none
  | .unlock m :: _ => some m
  | .update _ :: rest | .print _ :: rest | .probe _ _ :: rest | .pause :: rest =>
      held rest

/-- The sections are closed, the variable is printed in one and updated in an
exclusive one. -/
def Disciplined : List (Stmt α μ) → Prop
  | [] => True
  | .lock m :: rest => held rest = some m ∧ Disciplined rest
  | .unlock _ :: rest => held rest = none ∧ Disciplined rest
  | .update _ :: rest => held rest = some .exclusive ∧ Disciplined rest
  | .print _ :: rest => held rest ≠ none ∧ Disciplined rest
  | .probe _ _ :: rest | .pause :: rest => Disciplined rest

/-- A body that can be gone round. -/
structure Closed (body : List (Stmt α μ)) : Prop where
  out : held body = none
  disciplined : Disciplined body

def Thread.held (t : Thread α V μ) : Option Mode := Rounds.held t.todo

structure Thread.Sound (v : V) (t : Thread α V μ) : Prop where
  body : Closed t.body
  todo : Disciplined t.todo
  /-- What was read is what is there. -/
  loaded : ∀ w, t.loaded = some w →
    w = v ∧ ∃ a rest, t.todo = .update a :: rest
  returned : t.returned = true → t.todo = []

structure Config.Sound (c : Config α V μ) : Prop where
  tracks : c.lock.Tracks Thread.held c.threads
  threads : ∀ t ∈ c.threads, t.Sound c.value

/-! ## What one statement can do -/

inductive Step (apply : α → V → V) (lock : RwLock) (v : V) (t : Thread α V μ) :
    RwLock → V → Thread α V μ → List (Event α V μ) → Prop
  | finish : t.todo = [] → t.returned = false → t.stop = true →
      Step apply lock v t lock v { t with returned := true } []
  | again : t.todo = [] → t.returned = false → t.stop = false →
      Step apply lock v t lock v { t with todo := t.body } []
  | lock {m : Mode} {rest : List (Stmt α μ)} {lock' : RwLock} :
      t.todo = .lock m :: rest → lock.acquire m = some lock' →
      Step apply lock v t lock' v { t with todo := rest } []
  | unlock {m : Mode} {rest : List (Stmt α μ)} : t.todo = .unlock m :: rest →
      Step apply lock v t (lock.release m) v { t with todo := rest } []
  | load {a : α} {rest : List (Stmt α μ)} :
      t.todo = .update a :: rest → t.loaded = none →
      Step apply lock v t lock v { t with loaded := some v } []
  | store {a : α} {rest : List (Stmt α μ)} {w : V} :
      t.todo = .update a :: rest → t.loaded = some w →
      Step apply lock v t lock (apply a w)
        { t with todo := rest, loaded := none } [.updated a]
  | print {msg : μ} {rest : List (Stmt α μ)} : t.todo = .print msg :: rest →
      Step apply lock v t lock v { t with todo := rest } [.printed msg v]
  | probe {h : Bool} {msg : μ} {rest : List (Stmt α μ)} :
      t.todo = .probe h msg :: rest →
      Step apply lock v t lock v { t with todo := rest }
        (if lock.isHeld = h then [.said msg] else [])
  | pause {rest : List (Stmt α μ)} : t.todo = .pause :: rest →
      Step apply lock v t lock v { t with todo := rest } []

/-- What a step does to the section of its thread. -/
inductive Moves (lock : RwLock) (t : Thread α V μ) :
    RwLock → Thread α V μ → Prop
  | stays {t' : Thread α V μ} : t'.held = t.held → Moves lock t lock t'
  | takes {m : Mode} {lock' : RwLock} {t' : Thread α V μ} :
      t.held = none → t'.held = some m →
      lock.acquire m = some lock' → Moves lock t lock' t'
  | gives {m : Mode} {t' : Thread α V μ} : t.held = some m → t'.held = none →
      Moves lock t (lock.release m) t'

section Step

variable {apply : α → V → V} {lock lock' : RwLock} {v v' : V}
  {t t' : Thread α V μ} {ev : List (Event α V μ)}

theorem stmt_cases (h : stmt apply lock v t = some (lock', v', t', ev)) :
    Step apply lock v t lock' v' t' ev := by
  obtain ⟨body, todo, loaded, stop, returned⟩ := t
  cases todo with
  | nil =>
      simp only [stmt] at h
      split_ifs at h with hreturned hstop
      · cases h
        exact .finish rfl (by simpa using hreturned) hstop
      · cases h
        exact .again rfl (by simpa using hreturned) (by simpa using hstop)
  | cons s rest =>
      cases s with
      | lock m =>
          obtain ⟨l, hacquire, heq⟩ := Option.map_eq_some_iff.mp h
          cases heq
          exact .lock rfl hacquire
      | update a =>
          cases loaded with
          | none =>
              cases h
              exact .load rfl rfl
          | some w =>
              cases h
              exact .store rfl rfl
      | unlock m =>
          cases h
          exact .unlock rfl
      | print msg =>
          cases h
          exact .print rfl
      | probe held msg =>
          cases h
          exact .probe rfl
      | pause =>
          cases h
          exact .pause rfl

theorem Step.moves (h : Step apply lock v t lock' v' t' ev) (hsound : t.Sound v) :
    Moves lock t lock' t' := by
  have htodo := hsound.todo
  cases h with
  | finish hnil => exact .stays rfl
  | again hnil =>
      refine .stays ?_
      show held t.body = held t.todo
      rw [hsound.body.out, hnil]
      rfl
  | lock heq hacquire =>
      rw [heq] at htodo
      exact .takes (by rw [Thread.held, heq]; rfl) htodo.1 hacquire
  | unlock heq =>
      rw [heq] at htodo
      exact .gives (by rw [Thread.held, heq]; rfl) htodo.1
  | load => exact .stays rfl
  | store heq | print heq | probe heq | pause heq =>
      refine .stays ?_
      rw [Thread.held, Thread.held, heq]
      rfl

/-- The thread that takes the step stays sound. -/
theorem Step.sound (h : Step apply lock v t lock' v' t' ev)
    (hsound : t.Sound v) : t'.Sound v' := by
  have htodo := hsound.todo
  cases h with
  | finish hnil =>
      exact ⟨hsound.body, htodo, hsound.loaded, fun _ => hnil⟩
  | again hnil hreturned =>
      refine ⟨hsound.body, hsound.body.disciplined, fun w hw => ?_, fun hr => ?_⟩
      · obtain ⟨-, a, rest, heq⟩ := hsound.loaded w hw
        simp [hnil] at heq
      · simp [hreturned] at hr
  | load heq =>
      refine ⟨hsound.body, htodo, fun w hw => ?_, hsound.returned⟩
      cases hw
      exact ⟨rfl, _, _, heq⟩
  | store heq =>
      rw [heq] at htodo
      refine ⟨hsound.body, htodo.2, fun w hw => (by cases hw), fun hr => ?_⟩
      simp [hsound.returned hr] at heq
  | lock heq | unlock heq | print heq =>
      rw [heq] at htodo
      refine ⟨hsound.body, htodo.2, fun w hw => ?_, fun hr => ?_⟩
      · obtain ⟨-, a, rest, hupdate⟩ := hsound.loaded w hw
        simp [heq] at hupdate
      · simp [hsound.returned hr] at heq
  | probe heq | pause heq =>
      rw [heq] at htodo
      refine ⟨hsound.body, htodo, fun w hw => ?_, fun hr => ?_⟩
      · obtain ⟨-, a, rest, hupdate⟩ := hsound.loaded w hw
        simp [heq] at hupdate
      · simp [hsound.returned hr] at heq

/-- The variable changes in an exclusive section only. -/
theorem Step.value (h : Step apply lock v t lock' v' t' ev)
    (hsound : t.Sound v) : v' = v ∨ t.held = some .exclusive := by
  have htodo := hsound.todo
  cases h with
  | store heq =>
      rw [heq] at htodo
      exact Or.inr (by rw [Thread.held, heq]; exact htodo.1)
  | _ => exact Or.inl rfl

theorem Step.keeps (h : Step apply lock v t lock' v' t' ev) :
    t'.stop = t.stop ∧ (t.returned = true → t'.returned = true) := by
  cases h with
  | finish => exact ⟨rfl, fun _ => rfl⟩
  | _ => exact ⟨rfl, id⟩

end Step

/-! ## The threads together -/

section Threads

variable {apply : α → V → V} {c c' : Config α V μ} {i j : Nat}
  {t u : Thread α V μ} {ev tr : List (Event α V μ)}

/-- What thread `i` does. -/
theorem run_cases (h : c.run apply i = some (c', ev)) :
    ∃ t t', c.threads[i]? = some t ∧ c'.threads = c.threads.set i t' ∧
      Step apply c.lock c.value t c'.lock c'.value t' ev := by
  unfold Config.run at h
  cases ht : c.threads[i]? with
  | none =>
      simp only [ht] at h
      cases h
  | some t =>
      simp only [ht] at h
      obtain ⟨⟨lock, v, t', ev'⟩, hstmt, heq⟩ := Option.map_eq_some_iff.mp h
      cases heq
      exact ⟨t, t', rfl, rfl, stmt_cases hstmt⟩

theorem run_of_stmt (ht : c.threads[i]? = some t)
    (h : (stmt apply c.lock c.value t).isSome) :
    ∃ c' ev, c.run apply i = some (c', ev) := by
  obtain ⟨⟨lock, v, t', ev⟩, hstmt⟩ := Option.isSome_iff_exists.mp h
  refine ⟨⟨lock, v, c.threads.set i t'⟩, ev, ?_⟩
  simp only [Config.run, ht, hstmt, Option.map_some]

/-- While a thread is in a section, no other changes the variable. -/
theorem Config.Sound.value_kept (hsound : c.Sound)
    (h : c.run apply i = some (c', ev)) (hj : c.threads[j]? = some u)
    (hheld : u.held ≠ none) (hji : j ≠ i) : c'.value = c.value := by
  obtain ⟨t, t', ht, -, hstep⟩ := run_cases h
  rcases hstep.value (hsound.threads t (List.mem_of_getElem? ht)) with heq | hex
  · exact heq
  · exact absurd (hsound.tracks.others_out ht hex hj hji) hheld

theorem Config.Sound.run (hsound : c.Sound) (h : c.run apply i = some (c', ev)) :
    c'.Sound := by
  obtain ⟨t, t', ht, hset, hstep⟩ := run_cases h
  have htsound := hsound.threads t (List.mem_of_getElem? ht)
  constructor
  · rw [hset]
    have hmoves := hstep.moves htsound
    generalize c'.lock = lock' at hmoves ⊢
    cases hmoves with
    | stays heq => exact hsound.tracks.stay ht heq
    | takes hnone htake hacquire => exact hsound.tracks.take ht hnone htake hacquire
    | gives hheld hgive => exact hsound.tracks.give ht hheld hgive
  · rw [hset]
    intro u hu
    obtain ⟨j, hj⟩ := List.mem_iff_getElem?.mp hu
    rcases Pool.set_cases hj with ⟨-, rfl⟩ | ⟨hji, hj⟩
    · exact hstep.sound htsound
    · have husound := hsound.threads u (List.mem_of_getElem? hj)
      refine ⟨husound.body, husound.todo, fun w hw => ?_, husound.returned⟩
      obtain ⟨rfl, a, rest, htodo⟩ := husound.loaded w hw
      -- between its read and its write a thread is in a section
      have hin := husound.todo
      rw [htodo] at hin
      have hkept := hsound.value_kept h hj
        (by rw [Thread.held, htodo]; simp [held, hin.1]) hji
      exact ⟨hkept.symm, a, rest, htodo⟩

theorem Config.Sound.start (hsound : c.Sound) {body : List (Stmt α μ)}
    (hbody : Closed body) : (c.start body).Sound := by
  constructor
  · exact hsound.tracks.concat rfl
  · refine Pool.forall_concat hsound.threads ⟨hbody, trivial, ?_, ?_⟩
    · intro w hw
      cases hw
    · intro hr
      rfl

theorem Config.Sound.stop (hsound : c.Sound) (i : Nat) : (c.stop i).Sound := by
  unfold Config.stop
  cases ht : c.threads[i]? with
  | none => exact hsound
  | some t =>
      have htsound := hsound.threads t (List.mem_of_getElem? ht)
      constructor
      · exact hsound.tracks.stay ht rfl
      · refine Pool.forall_set hsound.threads ?_
        exact ⟨htsound.body, htsound.todo, htsound.loaded, htsound.returned⟩

theorem sound_init (v : V) : (Config.mk .free v ([] : List (Thread α V μ))).Sound :=
  ⟨RwLock.tracks_free (by simp), by simp⟩

/-! ## Atomicity -/

/-- The updates of a trace, in order. -/
def updates (tr : List (Event α V μ)) : List α :=
  tr.filterMap fun
    | .updated a => some a
    | _ => none

/-- The variable after the updates of a trace, one after the other. -/
def valueAfter (apply : α → V → V) (v : V) (tr : List (Event α V μ)) : V :=
  (updates tr).foldl (fun v a => apply a v) v

/-- The variable has every update, and every message shows it as the updates
before have left it. -/
structure Atomic (apply : α → V → V) (v₀ : V) (v : V)
    (tr : List (Event α V μ)) : Prop where
  value : v = valueAfter apply v₀ tr
  printed : History (fun before e =>
    ∀ msg w, e = .printed msg w → w = valueAfter apply v₀ before) tr

theorem atomic_nil (v₀ : V) : Atomic (μ := μ) apply v₀ v₀ [] :=
  ⟨rfl, history_nil⟩

/-- Events that are no updates leave the value. -/
theorem valueAfter_append (v₀ : V) (tr ev : List (Event α V μ)) :
    valueAfter apply v₀ (tr ++ ev) =
      (updates ev).foldl (fun v a => apply a v) (valueAfter apply v₀ tr) := by
  simp only [valueAfter, updates, List.filterMap_append, List.foldl_append]

theorem Atomic.run {v₀ : V} (h : Atomic apply v₀ c.value tr)
    (hsound : c.Sound) (hrun : c.run apply i = some (c', ev)) :
    Atomic apply v₀ c'.value (tr ++ ev) := by
  obtain ⟨t, t', ht, -, hstep⟩ := run_cases hrun
  have htsound := hsound.threads t (List.mem_of_getElem? ht)
  constructor
  · rw [valueAfter_append, ← h.value]
    generalize c'.value = v' at hstep ⊢
    generalize c'.lock = lock' at hstep
    cases hstep with
    | store heq hloaded =>
        rw [(htsound.loaded _ hloaded).1]
        rfl
    | probe =>
        split_ifs <;> rfl
    | _ => rfl
  · generalize c'.value = v' at hstep
    generalize c'.lock = lock' at hstep
    cases hstep with
    | print heq =>
        refine history_concat.mpr ⟨h.printed, fun msg w hw => ?_⟩
        cases hw
        exact h.value
    | store =>
        refine history_concat.mpr ⟨h.printed, fun msg w hw => ?_⟩
        cases hw
    | probe =>
        refine h.printed.append fun before e he msg w hw => ?_
        subst hw
        split_ifs at he <;> simp at he
    | _ => simpa using h.printed

/-! ## Stopping -/

/-- What a thread still has to do before the test of its loop, and the test. -/
def Thread.weight (t : Thread α V μ) : Nat :=
  if t.returned then 0
  else 2 * t.todo.length + if t.loaded.isSome then 0 else 1

def Config.weight (c : Config α V μ) : Nat := (c.threads.map Thread.weight).sum

/-- A thread that need not go round again. -/
def Thread.Ends (t : Thread α V μ) : Prop :=
  t.returned = false ∧ (t.stop = true ∨ t.todo ≠ [])

theorem Step.weight {lock lock' : RwLock} {v v' : V} {t' : Thread α V μ}
    (h : Step apply lock v t lock' v' t' ev) (hsound : t.Sound v)
    (hends : t.Ends) : t'.weight < t.weight := by
  unfold Thread.weight
  cases h with
  | finish hnil =>
      have hnone : t.loaded = none := by
        cases hloaded : t.loaded with
        | none => rfl
        | some w =>
            obtain ⟨-, a, rest, heq⟩ := hsound.loaded w hloaded
            simp [hnil] at heq
      simp [hnil, hnone, hends.1]
  | again hnil _ hstop =>
      rcases hends.2 with hstop' | hne
      · simp [hstop] at hstop'
      · exact absurd hnil hne
  | load heq hloaded => simp [hends.1, heq, hloaded]
  | store heq hloaded =>
      simp only [hends.1, heq, hloaded, List.length_cons, Option.isSome_some,
        Option.isSome_none, Bool.false_eq_true, if_false, if_true]
      omega
  | lock heq | unlock heq | print heq | probe heq | pause heq =>
      simp only [hends.1, heq, List.length_cons]
      simp

/-- A thread that does not move has returned or waits for the lock. -/
theorem waits_of_stmt_eq_none {lock : RwLock} {v : V}
    (h : stmt apply lock v t = none) (hends : t.Ends) :
    ∃ m rest, t.todo = .lock m :: rest ∧ lock.acquire m = none := by
  obtain ⟨body, todo, loaded, stop, returned⟩ := t
  cases todo with
  | nil =>
      obtain ⟨hreturned, hstop | hne⟩ := hends
      · simp only at hreturned hstop
        simp [stmt, hreturned, hstop] at h
      · exact absurd rfl hne
  | cons s rest =>
      cases s with
      | lock m => exact ⟨m, rest, rfl, Option.map_eq_none_iff.mp h⟩
      | update a => cases loaded <;> cases h
      | unlock | print | probe | pause => cases h

/-- A thread in a section does not wait. -/
theorem stmt_of_held {lock : RwLock} {v : V} (hsound : t.Sound v)
    (hheld : t.held ≠ none) : t.Ends ∧ (stmt apply lock v t).isSome := by
  have hne : t.todo ≠ [] := by
    intro hnil
    rw [Thread.held, hnil] at hheld
    exact hheld rfl
  have hends : t.Ends := by
    refine ⟨?_, Or.inr hne⟩
    cases hreturned : t.returned with
    | false => rfl
    | true => exact absurd (hsound.returned hreturned) hne
  refine ⟨hends, ?_⟩
  by_contra hnone
  obtain ⟨m, rest, heq, -⟩ := waits_of_stmt_eq_none
    (Option.not_isSome_iff_eq_none.mp hnone) hends
  rw [Thread.held, heq] at hheld
  exact hheld rfl

variable (apply) in
/-- No deadlock: while one thread is on its way to the end of its round, some
thread gets on. -/
theorem Config.Sound.progress (hsound : c.Sound) (ht : c.threads[i]? = some t)
    (hends : t.Ends) :
    ∃ j c' ev, c.run apply j = some (c', ev) ∧ c'.weight < c.weight := by
  have hmove : ∃ (j : Nat) (u : Thread α V μ), c.threads[j]? = some u ∧ u.Ends ∧
      (stmt apply c.lock c.value u).isSome := by
    cases hstmt : stmt apply c.lock c.value t with
    | some r => exact ⟨i, t, ht, hends, by rw [hstmt]; rfl⟩
    | none =>
        -- the lock is held, and its holder moves
        obtain ⟨m, rest, -, hwait⟩ := waits_of_stmt_eq_none hstmt hends
        obtain ⟨u, hu, m', hheld⟩ := hsound.tracks.exists_holder hwait
        obtain ⟨j, hj⟩ := List.mem_iff_getElem?.mp hu
        exact ⟨j, u, hj, stmt_of_held (hsound.threads u hu) (by simp [hheld])⟩
  obtain ⟨j, u, hj, huends, hsome⟩ := hmove
  obtain ⟨c', ev, hrun⟩ := run_of_stmt hj hsome
  refine ⟨j, c', ev, hrun, ?_⟩
  obtain ⟨u₀, u', hj', hset, hstep⟩ := run_cases hrun
  obtain rfl : u = u₀ := Option.some.inj (hj.symm.trans hj')
  have hless := hstep.weight (hsound.threads u (List.mem_of_getElem? hj)) huends
  have hsum := Pool.sum_set Thread.weight u' hj
  unfold Config.weight
  rw [hset]
  omega

/-- One thread of them takes a step. -/
def Steps (apply : α → V → V) (c c' : Config α V μ) : Prop :=
  ∃ i ev, c.run apply i = some (c', ev)

/-- The threads are the same, with the same orders to stop, and none comes
back that has returned. -/
def Kept (c c' : Config α V μ) : Prop :=
  ∀ (j : Nat) (u : Thread α V μ), c.threads[j]? = some u →
    ∃ u', c'.threads[j]? = some u' ∧ u'.stop = u.stop ∧
      (u.returned = true → u'.returned = true)

theorem Kept.refl (c : Config α V μ) : Kept c c :=
  fun _ u hu => ⟨u, hu, rfl, id⟩

theorem Kept.trans {c'' : Config α V μ} (h : Kept c c') (h' : Kept c' c'') :
    Kept c c'' := by
  intro j u hu
  obtain ⟨u', hu', hstop, hreturned⟩ := h j u hu
  obtain ⟨u'', hu'', hstop', hreturned'⟩ := h' j u' hu'
  exact ⟨u'', hu'', hstop'.trans hstop, hreturned' ∘ hreturned⟩

theorem kept_of_run (h : c.run apply i = some (c', ev)) : Kept c c' := by
  obtain ⟨t, t', ht, hset, hstep⟩ := run_cases h
  intro j u hu
  rw [hset]
  rcases eq_or_ne j i with rfl | hji
  · obtain rfl : t = u := Option.some.inj (ht.symm.trans hu)
    exact ⟨t', Pool.set_self ht, hstep.keeps⟩
  · exact ⟨u, (Pool.set_other hji).trans hu, rfl, id⟩

variable (apply) in
/-- Whatever the threads are doing, one that was told to stop can return. -/
theorem Config.Sound.returns (hsound : c.Sound) (ht : c.threads[i]? = some t)
    (hstop : t.stop = true) :
    ∃ c', Relation.ReflTransGen (Steps apply) c c' ∧ c'.Sound ∧ Kept c c' ∧
      ∃ t', c'.threads[i]? = some t' ∧ t'.returned = true := by
  induction hw : c.weight using Nat.strongRecOn generalizing c t with
  | ind w ih =>
      cases hreturned : t.returned with
      | true => exact ⟨c, .refl, hsound, .refl c, t, ht, hreturned⟩
      | false =>
          obtain ⟨j, c₁, ev, hrun, hless⟩ :=
            hsound.progress apply ht ⟨hreturned, Or.inl hstop⟩
          have hkept := kept_of_run hrun
          obtain ⟨t₁, ht₁, hstop₁, -⟩ := hkept i t ht
          obtain ⟨c', hsteps, hsound', hkept', hdone⟩ :=
            ih c₁.weight (hw ▸ hless) (hsound.run hrun) ht₁
              (hstop₁.trans hstop) rfl
          exact ⟨c', .head ⟨j, ev, hrun⟩ hsteps, hsound', hkept.trans hkept', hdone⟩

end Threads

end Rounds
end Lib
end KernelDrivers
