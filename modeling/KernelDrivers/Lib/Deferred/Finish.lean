import KernelDrivers.Lib.Deferred
import KernelDrivers.Lib.Progress
import Mathlib.Algebra.BigOperators.Fin
import Mathlib.Data.Fintype.BigOperators

/-!
# Deferred work comes to an end

A statement that schedules an item costs as much as a run of its handler.  If
a handler costs less than its item, as it does when no handler schedules itself
by any way round, then every step lowers what is still to be done, and a run
is bounded by it.

A module whose handlers never wait, and which waits in its exit routine for
nothing but its handlers, can then always go on until it is unloaded.
-/

namespace KernelDrivers
namespace Lib
namespace Deferred

/-! ## What is still to be done -/

section Work

variable {ι : Type*}

/-- What a statement may lead to, where a run of the handler of `j` costs
`runs j`. -/
def Op.cost (runs : ι → Nat) : Op ι → Nat
  | .schedule j => runs j + 1
  | _ => 1

def cost (runs : ι → Nat) (ops : List (Op ι)) : Nat :=
  (ops.map (Op.cost runs)).sum

@[simp] theorem cost_cons (runs : ι → Nat) (op : Op ι) (ops : List (Op ι)) :
    cost runs (op :: ops) = op.cost runs + cost runs ops :=
  List.sum_cons

theorem Op.cost_pos (runs : ι → Nat) (op : Op ι) : 0 < op.cost runs := by
  cases op <;> simp [Op.cost]

def Item.work (runs : ι → Nat) (j : ι) (it : Item ι) : Nat :=
  (if it.pending then runs j else 0) +
    match it.running with
    | none => 0
    | some rest => cost runs rest + 1

/-- Besides its statements the process has three steps: the module is loaded,
`rmmod` and the module is unloaded. -/
def Main.work (P : Module ι) (runs : ι → Nat) : Main ι → Nat
  | .init rest => cost runs rest + cost runs P.exit + 3
  | .loaded => cost runs P.exit + 2
  | .exit _ rest => cost runs rest + 1
  | .unloaded => 0

variable [Fintype ι]

def State.itemsWork (runs : ι → Nat) (s : State ι) : Nat :=
  ∑ j, (s.items j).work runs j

def State.work (P : Module ι) (runs : ι → Nat) (s : State ι) : Nat :=
  s.main.work P runs + s.itemsWork runs

/-- A run of a handler is started and comes to its end. -/
def Module.Bounded (P : Module ι) (runs : ι → Nat) : Prop :=
  ∀ j, cost runs (P.handler j) + 2 ≤ runs j

instance (P : Module ι) (runs : ι → Nat) : Decidable (P.Bounded runs) :=
  inferInstanceAs (Decidable (∀ _, _ ≤ _))

end Work

section Lower

variable {ι : Type*} [DecidableEq ι] [Fintype ι] {P : Module ι} {runs : ι → Nat}
  {s s' : State ι} {op : Op ι} {a : Act ι} {ev tr : List (Event ι)}

theorem itemsWork_setItem (runs : ι → Nat) (s : State ι) (j : ι) (it : Item ι) :
    (s.setItem j it).itemsWork runs + (s.items j).work runs j =
      s.itemsWork runs + it.work runs j := by
  have hothers : ∑ k ∈ Finset.univ.erase j,
      ((s.setItem j it).items k).work runs k =
        ∑ k ∈ Finset.univ.erase j, (s.items k).work runs k := by
    refine Finset.sum_congr rfl fun k hk => ?_
    rw [State.setItem_items, if_neg (Finset.ne_of_mem_erase hk)]
  unfold State.itemsWork
  rw [← Finset.sum_erase_add _ _ (Finset.mem_univ j), hothers,
    ← Finset.sum_erase_add (a := j) _ (fun k => (s.items k).work runs k)
      (Finset.mem_univ j), State.setItem_items, if_pos rfl]
  omega

/-- A statement adds to the items no more than it may lead to. -/
theorem exec_itemsWork (runs : ι → Nat) (h : exec s op = some s') :
    s'.itemsWork runs < s.itemsWork runs + op.cost runs := by
  rcases exec_cases h with ⟨-, hitems⟩ | ⟨j, it, rfl, hchanges⟩
  · have hsame : s'.itemsWork runs = s.itemsWork runs := by
      unfold State.itemsWork
      rw [hitems]
    rw [hsame]
    exact Nat.lt_add_of_pos_right (op.cost_pos runs)
  · have hset := itemsWork_setItem runs s j it
    have hitem : it.work runs j < (s.items j).work runs j + op.cost runs := by
      have hpos := op.cost_pos runs
      simp only [Item.work, hchanges.running]
      split_ifs with hafter hbefore
      · omega
      · rcases hchanges.queued hafter with hwas | ⟨rfl, -⟩
        · exact absurd hwas hbefore
        · simp only [Op.cost]
          omega
      · omega
      · omega
    omega

theorem work_main (h : State.step P s .main = some (s', ev)) :
    s'.work P runs < s.work P runs := by
  rcases main_cases h with ⟨hmain, rfl⟩ | ⟨op, rest, t, hmain, hexec, rfl⟩ |
      ⟨done, hmain, rfl⟩ | ⟨done, op, rest, t, hmain, hexec, rfl⟩
  · simp only [State.work, hmain, Main.work, State.itemsWork]
    omega
  · have hitems := exec_itemsWork runs hexec
    simp only [State.work, hmain, Main.work, cost_cons, State.itemsWork] at *
    omega
  · simp only [State.work, hmain, Main.work, State.itemsWork]
    omega
  · have hitems := exec_itemsWork runs hexec
    simp only [State.work, hmain, Main.work, cost_cons, State.itemsWork] at *
    omega

/-- Every step lowers what is still to be done. -/
theorem work_lt_of_step (hbounded : P.Bounded runs)
    (h : State.step P s a = some (s', ev)) : s'.work P runs < s.work P runs := by
  cases a with
  | main => exact work_main h
  | signal =>
      simp only [State.step] at h
      split at h <;> cases h
      rename_i hmain
      have hwait := (Op.wait : Op ι).cost_pos runs
      simp only [State.work, hmain, Main.work, cost_cons, State.itemsWork]
      omega
  | rmmod =>
      simp only [State.step] at h
      split at h <;> cases h
      rename_i hmain
      simp only [State.work, hmain, Main.work, State.itemsWork]
      omega
  | start j =>
      simp only [State.step] at h
      split_ifs at h with hguard
      cases h
      obtain ⟨hpending, hidle, -⟩ := hguard
      have hset := itemsWork_setItem runs s j
        { s.items j with pending := false, running := some (P.handler j) }
      have hrun := hbounded j
      rw [Option.isNone_iff_eq_none] at hidle
      simp only [Item.work, hpending, hidle, if_true, Bool.false_eq_true,
        if_false] at hset
      simp only [State.work, State.setItem_main]
      omega
  | handler j =>
      simp only [State.step] at h
      split at h
      · cases h
      · rename_i hrunning
        cases h
        have hset := itemsWork_setItem runs s j
          { s.items j with running := none }
        simp only [Item.work, hrunning] at hset
        simp only [State.work, State.setItem_main]
        omega
      · rename_i op rest hrunning
        obtain ⟨t, hexec, heq⟩ := Option.map_eq_some_iff.mp h
        cases heq
        have hitems := exec_itemsWork runs hexec
        have hset := itemsWork_setItem runs t j
          { t.items j with running := some rest }
        have hrunning' := (exec_running hexec j).trans hrunning
        have hpos := op.cost_pos runs
        simp only [Item.work, hrunning', cost_cons] at hset
        simp only [State.work, State.setItem_main, exec_main hexec]
        omega

theorem init_work (P : Module ι) (runs : ι → Nat) :
    (system P).init.work P runs = cost runs P.init + cost runs P.exit + 3 := by
  simp [system, State.work, Main.work, State.itemsWork, Item.work]

/-- A run of the module is no longer than what there is to be done. -/
theorem length_le_work (hbounded : P.Bounded runs) {acts : List (Act ι)}
    (hrun : (system P).run acts = some (s, tr)) :
    acts.length ≤ cost runs P.init + cost runs P.exit + 3 := by
  have hless : ∀ s a s' ev, (system P).step s a = some (s', ev) →
      s'.work P runs < s.work P runs :=
    fun _ _ _ _ hstep => work_lt_of_step hbounded hstep
  have hall := System.length_add_work_le hless hrun
  rw [init_work] at hall
  omega

end Lower

/-! ## No dead end -/

/-- A statement of an init routine that only starts things. -/
def Op.inInit {ι : Type*} : Op ι → Bool
  | .print _ | .schedule _ | .wait => true
  | _ => false

/-- A statement that never waits. -/
def Op.straight {ι : Type*} : Op ι → Bool
  | .print _ | .call _ | .schedule _ | .setCondition => true
  | _ => false

/-- A statement of an exit routine, which waits for handlers only. -/
def Op.inExit {ι : Type*} : Op ι → Bool
  | .print _ | .cancel _ _ | .cancelSync _ _ | .claim _ | .unlock _ => true
  | _ => false

/-- The handlers never wait, and no tasklet is killed twice. -/
structure Module.Flows {ι : Type*} [DecidableEq ι] (P : Module ι) : Prop where
  init : ∀ op ∈ P.init, op.inInit = true
  handler : ∀ j, ∀ op ∈ P.handler j, op.straight = true
  exit : ∀ op ∈ P.exit, op.inExit = true
  once : ∀ j, P.exit.count (.claim j) ≤ 1

theorem Module.Flows.plain {ι : Type*} [DecidableEq ι] {P : Module ι}
    (h : P.Flows) : P.Plain := by
  intro j op hop
  have hstraight := h.handler j op hop
  cases op <;> first | rfl | cases hstraight

section Flow

variable {ι : Type*} {s t : State ι} {it : Item ι} {op : Op ι} {j : ι}

theorem not_claim_of_inHandler (h : op.inHandler = true) : op ≠ .claim j := by
  rintro rfl
  cases h

theorem not_claim_of_inInit (h : op.inInit = true) : op ≠ .claim j := by
  rintro rfl
  cases h

/-- Only a `tasklet_kill` of the exit routine has a scheduled bit. -/
def Claims (s : State ι) : Prop :=
  ∀ j, (s.items j).claimed = true →
    (∃ done rest, s.main = .exit done rest ∧ .claim j ∈ done) ∨
      s.main = .unloaded

theorem claims_of_free (h : ∀ j, (s.items j).claimed = false) : Claims s :=
  fun j hj => absurd ((h j).symm.trans hj) Bool.false_ne_true

theorem Claims.free (h : Claims s) (hexit : ∀ done rest, s.main ≠ .exit done rest)
    (hgone : s.main ≠ .unloaded) (j : ι) : (s.items j).claimed = false := by
  by_contra hne
  rcases h j (by simpa using hne) with ⟨done, rest, hmain, -⟩ | hmain
  · exact hexit done rest hmain
  · exact hgone hmain

/-- The work is to be scheduled by the init routine, or it is under way. -/
def Due (j : ι) (s : State ι) : Prop :=
  (∃ rest, s.main = .init rest ∧ .schedule j ∈ rest) ∨ ¬ (s.items j).Idle

theorem Item.not_idle_of_pending (h : it.pending = true) :
    ¬ it.Idle := by
  rintro ⟨hno, -⟩
  exact absurd (hno.symm.trans h) Bool.false_ne_true

theorem Item.not_idle_of_running {rest : List (Op ι)}
    (h : it.running = some rest) : ¬ it.Idle := by
  rintro ⟨-, hno⟩
  cases hno.symm.trans h

/-- The exit routine does not take the item off its queue. -/
def Module.Keeps (P : Module ι) (j : ι) : Prop :=
  ∀ busy, .cancel j busy ∉ P.exit ∧ .cancelSync j busy ∉ P.exit

/-- A statement that takes nothing off a queue does not bring an item to
rest. -/
theorem exec_not_idle [DecidableEq ι] (h : exec s op = some t)
    (hcancel : ∀ busy, op ≠ .cancel j busy)
    (hcancelSync : ∀ busy, op ≠ .cancelSync j busy)
    (hj : ¬ (s.items j).Idle) : ¬ (t.items j).Idle := by
  rintro ⟨hno, hnone⟩
  refine hj ⟨?_, (exec_running h j).symm.trans hnone⟩
  by_contra hne
  have hpending := (exec_changes h j).unqueued hcancel hcancelSync (by simpa using hne)
  exact absurd (hno.symm.trans hpending) Bool.false_ne_true

end Flow

section FlowSteps

variable {ι : Type*} [DecidableEq ι] [Fintype ι] {P : Module ι}
  {s s' t : State ι} {op : Op ι} {a : Act ι} {ev : List (Event ι)} {j : ι}

theorem Claims.main (hinit : ∀ op ∈ P.init, op.inInit = true) (ht : Tracked P s)
    (h : Claims s) (hstep : State.step P s .main = some (s', ev)) :
    Claims s' := by
  rcases main_cases hstep with ⟨hmain, rfl⟩ | ⟨op, rest, t, hmain, hexec, rfl⟩ |
      ⟨done, -, rfl⟩ | ⟨done, op, rest, t, hmain, hexec, rfl⟩
  · exact claims_of_free (h.free (by simp [hmain]) (by simp [hmain]))
  · have hop : op.inInit = true :=
      hinit op ((ht.loading _ hmain).mem List.mem_cons_self)
    refine claims_of_free fun j => ?_
    by_contra hne
    have hwas := ((exec_changes hexec j).taken (by simpa using hne)).resolve_right
      (not_claim_of_inInit hop)
    have hfree := h.free (by simp [hmain]) (by simp [hmain]) j
    exact absurd (hfree.symm.trans hwas) Bool.false_ne_true
  · exact fun j _ => Or.inr rfl
  · intro j hj
    refine Or.inl ⟨_, _, rfl, ?_⟩
    rw [List.mem_append]
    rcases (exec_changes hexec j).taken hj with hwas | rfl
    · rcases h j hwas with ⟨done', rest', hexit, hmem⟩ | hgone
      · cases hmain.symm.trans hexit
        exact Or.inl hmem
      · simp [hmain] at hgone
    · exact Or.inr (by simp)

theorem Claims.step (hP : P.Plain) (hinit : ∀ op ∈ P.init, op.inInit = true)
    (ht : Tracked P s) (h : Claims s)
    (hstep : State.step P s a = some (s', ev)) : Claims s' := by
  cases a with
  | main => exact h.main hinit ht hstep
  | signal | rmmod =>
      simp only [State.step] at hstep
      split at hstep <;> cases hstep
      rename_i hmain
      exact claims_of_free (h.free (by simp [hmain]) (by simp [hmain]))
  | start i =>
      simp only [State.step] at hstep
      split_ifs at hstep
      cases hstep
      intro j hj
      rw [State.setItem_items] at hj
      split_ifs at hj with hji
      · subst hji
        exact h j hj
      · exact h j hj
  | handler i =>
      simp only [State.step] at hstep
      split at hstep
      · cases hstep
      · cases hstep
        intro j hj
        rw [setRunning_claimed] at hj
        exact h j hj
      · rename_i op rest hrunning
        obtain ⟨t, hexec, heq⟩ := Option.map_eq_some_iff.mp hstep
        cases heq
        have hop : op.inHandler = true :=
          hP i op (ht.running i _ hrunning op List.mem_cons_self)
        intro j hj
        rw [setRunning_claimed] at hj
        have hwas := ((exec_changes hexec j).taken hj).resolve_right
          (not_claim_of_inHandler hop)
        rw [State.setItem_main, exec_main hexec]
        exact h j hwas

theorem Due.main (hinit : ∀ op ∈ P.init, op.inInit = true) (hkeeps : P.Keeps j)
    (ht : Tracked P s) (hc : Claims s) (h : Due j s)
    (hstep : State.step P s .main = some (s', ev)) : Due j s' := by
  rcases main_cases hstep with ⟨hmain, rfl⟩ | ⟨op, rest, t, hmain, hexec, rfl⟩ |
      ⟨done, hmain, rfl⟩ | ⟨done, op, rest, t, hmain, hexec, rfl⟩
  · rcases h with ⟨rest, hloading, hmem⟩ | hbusy
    · cases hmain.symm.trans hloading
      cases hmem
    · exact Or.inr hbusy
  · have hop : op.inInit = true :=
      hinit op ((ht.loading _ hmain).mem List.mem_cons_self)
    rcases h with ⟨rest', hloading, hmem⟩ | hbusy
    · cases hmain.symm.trans hloading
      rcases List.mem_cons.mp hmem with rfl | hmem
      · -- the bit is free, so the item gets on its queue
        have hfree := hc.free (by simp [hmain]) (by simp [hmain]) j
        refine Or.inr (Item.not_idle_of_pending ?_)
        simp only [exec, hfree, Bool.or_false] at hexec
        split_ifs at hexec with hpending <;> cases hexec
        · exact hpending
        · simp
      · exact Or.inl ⟨rest, rfl, hmem⟩
    · refine Or.inr (exec_not_idle (t := t) hexec ?_ ?_ hbusy)
      · rintro busy rfl
        cases hop
      · rintro busy rfl
        cases hop
  · rcases h with ⟨rest, hloading, -⟩ | hbusy
    · cases hmain.symm.trans hloading
    · exact Or.inr hbusy
  · have hop : op ∈ P.exit := by
      rw [← (ht.exiting _ _ hmain).1]
      simp
    rcases h with ⟨rest, hloading, -⟩ | hbusy
    · cases hmain.symm.trans hloading
    · refine Or.inr (exec_not_idle (t := t) hexec ?_ ?_ hbusy)
      · rintro busy rfl
        exact (hkeeps busy).1 hop
      · rintro busy rfl
        exact (hkeeps busy).2 hop

/-- Work that is due stays so until its handler is through. -/
theorem Due.step (hP : P.Plain) (hinit : ∀ op ∈ P.init, op.inInit = true)
    (hkeeps : P.Keeps j) (ht : Tracked P s) (hc : Claims s) (h : Due j s)
    (hruns : a = .handler j → (s.items j).running ≠ some [])
    (hstep : State.step P s a = some (s', ev)) : Due j s' := by
  cases a with
  | main => exact h.main hinit hkeeps ht hc hstep
  | signal =>
      simp only [State.step] at hstep
      split at hstep <;> cases hstep
      rename_i rest hmain
      rcases h with ⟨rest', hloading, hmem⟩ | hbusy
      · cases hmain.symm.trans hloading
        exact Or.inl ⟨rest, rfl, by simpa using hmem⟩
      · exact Or.inr hbusy
  | rmmod =>
      simp only [State.step] at hstep
      split at hstep <;> cases hstep
      rename_i hmain
      rcases h with ⟨rest, hloading, -⟩ | hbusy
      · cases hmain.symm.trans hloading
      · exact Or.inr hbusy
  | start i =>
      simp only [State.step] at hstep
      split_ifs at hstep
      cases hstep
      refine h.imp_right fun hbusy => ?_
      rw [State.setItem_items]
      split_ifs with hji
      · exact Item.not_idle_of_running rfl
      · exact hbusy
  | handler i =>
      simp only [State.step] at hstep
      split at hstep
      · cases hstep
      · rename_i hrunning
        cases hstep
        have hji : j ≠ i := by
          rintro rfl
          exact hruns rfl hrunning
        refine h.imp_right fun hbusy => ?_
        rw [State.setItem_items, if_neg hji]
        exact hbusy
      · rename_i op rest hrunning
        obtain ⟨t, hexec, heq⟩ := Option.map_eq_some_iff.mp hstep
        cases heq
        have hop : op.inHandler = true :=
          hP i op (ht.running i _ hrunning op List.mem_cons_self)
        rw [Due, State.setItem_main, exec_main hexec]
        refine h.imp_right fun hbusy => ?_
        rw [State.setItem_items]
        split_ifs with hji
        · exact Item.not_idle_of_running rfl
        · refine exec_not_idle hexec ?_ ?_ hbusy
          · rintro busy rfl
            cases hop
          · rintro busy rfl
            cases hop

end FlowSteps

/-! ## The unload is reached -/

/-- Somebody can go on, without a signal, as long as the module is there. -/
def GoesOn {ι : Type*} [DecidableEq ι] (P : Module ι) (s : State ι)
    (_ : List (Event ι)) : Prop :=
  s.main = .unloaded ∨ ∃ a, a ≠ .signal ∧ (State.step P s a).isSome = true

/-- No tasklet is disabled. -/
def Enabled {ι : Type*} (s : State ι) : Prop :=
  ∀ j, (s.items j).disabled = 0

/-- The init routine waits only for what a handler will bring about. -/
def Awaits {ι : Type*} (s : State ι) : Prop :=
  ∀ rest, s.main = .init (.wait :: rest) →
    s.condition = true ∨ ∃ j, ¬ (s.items j).Idle

section Statement

variable {ι : Type*} [DecidableEq ι] {P : Module ι} {s s' t : State ι}
  {op : Op ι} {a : Act ι} {ev : List (Event ι)} {j : ι}

/-- Only `tasklet_disable` disables. -/
theorem Enabled.exec (h : Enabled s) (hop : op.inInit ∨ op.straight ∨ op.inExit)
    (hexec : Deferred.exec s op = some t) : Enabled t := by
  intro j
  have hdisable : op ≠ .disable j := by
    rintro rfl
    rcases hop with hop | hop | hop <;> cases hop
  have hle := (exec_changes hexec j).disabled hdisable
  have hzero := h j
  omega

theorem Enabled.setItem (h : Enabled s) {it : Item ι} (hit : it.disabled = 0)
    (j : ι) : Enabled (s.setItem j it) := by
  intro k
  rw [State.setItem_items]
  split_ifs
  · exact hit
  · exact h k

/-- A handler never waits. -/
theorem exec_straight (h : op.straight = true) :
    (Deferred.exec s op).isSome = true := by
  cases op with
  | print | call | setCondition => rfl
  | schedule j =>
      simp only [exec]
      split_ifs <;> rfl
  | _ => cases h

/-- When no item runs or waits to be run, the exit routine goes on. -/
theorem exec_inExit (h : op.inExit = true) (hidle : ∀ j, (s.items j).Idle)
    (hclaim : ∀ j, op = .claim j → (s.items j).claimed = false) :
    (Deferred.exec s op).isSome = true := by
  cases op with
  | print | cancel => rfl
  | cancelSync j | unlock j => simp [exec, (hidle j).2]
  | claim j => simp [exec, (hidle j).1, hclaim j rfl]
  | _ => cases h

/-- Nobody takes the condition back. -/
theorem exec_condition (h : exec s op = some t)
    (hcondition : s.condition = true ∨ op = .setCondition) :
    t.condition = true := by
  rcases hcondition with hcondition | rfl
  · cases op with
    | print | call | cancel | disable | enable => cases h; exact hcondition
    | setCondition => cases h; rfl
    | schedule | cancelSync | claim | unlock | unlockWait | wait =>
        simp only [exec] at h
        split_ifs at h <;> cases h <;> exact hcondition
  · cases h
    rfl

/-- What a handler has to do comes from the module, or from what it had to do
before. -/
theorem running_of_step {rest : List (Op ι)}
    (hstep : State.step P s a = some (s', ev))
    (hrest : (s'.items j).running = some rest) :
    (s.items j).running = some rest ∨ rest = P.handler j ∨
      ∃ op t, (s.items j).running = some (op :: rest) ∧
        Deferred.exec s op = some t ∧ s'.condition = t.condition := by
  cases a with
  | main =>
      left
      rcases main_cases hstep with ⟨-, rfl⟩ | ⟨op, rest', t, -, hexec, rfl⟩ |
          ⟨done, -, rfl⟩ | ⟨done, op, rest', t, -, hexec, rfl⟩
      · exact hrest
      · exact (exec_running hexec j).symm.trans hrest
      · exact hrest
      · exact (exec_running hexec j).symm.trans hrest
  | signal | rmmod =>
      simp only [State.step] at hstep
      split at hstep <;> cases hstep
      exact Or.inl hrest
  | start i =>
      simp only [State.step] at hstep
      split_ifs at hstep
      cases hstep
      rw [State.setItem_items] at hrest
      split_ifs at hrest with hji
      · cases hrest
        exact Or.inr (Or.inl (by rw [hji]))
      · exact Or.inl hrest
  | handler i =>
      simp only [State.step] at hstep
      split at hstep
      · cases hstep
      · cases hstep
        rw [State.setItem_items] at hrest
        split_ifs at hrest
        exact Or.inl hrest
      · rename_i op rest' hrunning
        obtain ⟨t, hexec, heq⟩ := Option.map_eq_some_iff.mp hstep
        cases heq
        rw [State.setItem_items] at hrest
        split_ifs at hrest with hji
        · cases hrest
          subst hji
          exact Or.inr (Or.inr ⟨op, t, hrunning, hexec, rfl⟩)
        · exact Or.inl ((exec_running hexec j).symm.trans hrest)

theorem condition_of_step (hstep : State.step P s a = some (s', ev))
    (hcondition : s.condition = true) : s'.condition = true := by
  cases a with
  | main =>
      rcases main_cases hstep with ⟨-, rfl⟩ | ⟨op, rest, t, -, hexec, rfl⟩ |
          ⟨done, -, rfl⟩ | ⟨done, op, rest, t, -, hexec, rfl⟩
      · exact hcondition
      · have hafter := exec_condition hexec (Or.inl hcondition)
        exact hafter
      · exact hcondition
      · have hafter := exec_condition hexec (Or.inl hcondition)
        exact hafter
  | signal | rmmod =>
      simp only [State.step] at hstep
      split at hstep <;> cases hstep
      exact hcondition
  | start i =>
      simp only [State.step] at hstep
      split_ifs at hstep
      cases hstep
      exact hcondition
  | handler i =>
      simp only [State.step] at hstep
      split at hstep
      · cases hstep
      · cases hstep
        exact hcondition
      · obtain ⟨t, hexec, heq⟩ := Option.map_eq_some_iff.mp hstep
        cases heq
        exact exec_condition (t := t) hexec (Or.inl hcondition)

end Statement

section Finish

variable {ι : Type*} [DecidableEq ι] [Fintype ι] {P : Module ι} {runs : ι → Nat}
  {s s' : State ι} {a : Act ι} {ev : List (Event ι)} {j : ι}

theorem claims_of_reachable (hP : P.Plain)
    (hinit : ∀ op ∈ P.init, op.inInit = true) (h : (system P).Reachable s) :
    Claims s := by
  refine (system P).reachable_induction (I := Claims) nofun ?_ h
  intro s a s' ev hreach ih hstep
  exact ih.step hP hinit (tracked_of_reachable hP hreach) hstep

theorem Enabled.step (hP : P.Flows) (ht : Tracked P s) (h : Enabled s)
    (hstep : State.step P s a = some (s', ev)) : Enabled s' := by
  cases a with
  | main =>
      rcases main_cases hstep with ⟨-, rfl⟩ | ⟨op, rest, t, hmain, hexec, rfl⟩ |
          ⟨done, -, rfl⟩ | ⟨done, op, rest, t, hmain, hexec, rfl⟩
      · exact h
      · have hop : op.inInit = true :=
          hP.init op ((ht.loading _ hmain).mem List.mem_cons_self)
        exact h.exec (t := t) (Or.inl hop) hexec
      · exact h
      · have hop : op ∈ P.exit := by
          rw [← (ht.exiting _ _ hmain).1]
          simp
        exact h.exec (t := t) (Or.inr (Or.inr (hP.exit op hop))) hexec
  | signal | rmmod =>
      simp only [State.step] at hstep
      split at hstep <;> cases hstep
      exact h
  | start i =>
      simp only [State.step] at hstep
      split_ifs at hstep
      cases hstep
      refine h.setItem ?_ i
      exact h i
  | handler i =>
      simp only [State.step] at hstep
      split at hstep
      · cases hstep
      · cases hstep
        refine h.setItem ?_ i
        exact h i
      · rename_i op rest hrunning
        obtain ⟨t, hexec, heq⟩ := Option.map_eq_some_iff.mp hstep
        cases heq
        have hop : op.straight = true :=
          hP.handler i op (ht.running i _ hrunning op List.mem_cons_self)
        have hafter : Enabled t := h.exec (Or.inr (Or.inl hop)) hexec
        refine hafter.setItem ?_ i
        exact hafter i

theorem enabled_of_reachable (hP : P.Flows) (h : (system P).Reachable s) :
    Enabled s := by
  refine (system P).reachable_induction (I := Enabled) (fun _ => rfl) ?_ h
  intro s a s' ev hreach ih hstep
  exact ih.step hP (tracked_of_reachable hP.plain hreach) hstep

/-- An item that is not at rest goes on. -/
theorem item_goesOn (hP : P.Flows) (ht : Tracked P s) (henabled : Enabled s)
    (hj : ¬ (s.items j).Idle) :
    ∃ a, a ≠ .signal ∧ (State.step P s a).isSome = true := by
  cases hrunning : (s.items j).running with
  | none =>
      have hpending : (s.items j).pending = true := by
        by_contra hno
        exact hj ⟨by simpa using hno, hrunning⟩
      refine ⟨.start j, by simp, ?_⟩
      simp [State.step, hpending, hrunning, henabled j]
  | some ops =>
      refine ⟨.handler j, by simp, ?_⟩
      cases ops with
      | nil => simp [State.step, hrunning]
      | cons op rest =>
          have hop : op.straight = true :=
            hP.handler j op (ht.running j _ hrunning op List.mem_cons_self)
          simp [State.step, hrunning, exec_straight hop]

/-- A tasklet that is killed for the first time has its bit free. -/
theorem Claims.claim_free (hc : Claims s)
    (honce : ∀ j, P.exit.count (.claim j) ≤ 1) (ht : Tracked P s)
    {done rest : List (Op ι)} (hmain : s.main = .exit done (.claim j :: rest)) :
    (s.items j).claimed = false := by
  by_contra hne
  rcases hc j (by simpa using hne) with ⟨done', rest', hexit, hmem⟩ | hgone
  · cases hmain.symm.trans hexit
    have hone := honce j
    rw [← (ht.exiting _ _ hmain).1, List.count_append, List.count_cons_self] at hone
    have hpos := List.count_pos_iff.mpr hmem
    omega
  · cases hmain.symm.trans hgone

/-- When all items are at rest, the process goes on. -/
theorem main_goesOn (hP : P.Flows) (ht : Tracked P s) (hc : Claims s)
    (hawaits : Awaits s) (hidle : ∀ j, (s.items j).Idle) :
    s.main = .unloaded ∨
      ∃ a, a ≠ .signal ∧ (State.step P s a).isSome = true := by
  cases hmain : s.main with
  | unloaded => exact Or.inl rfl
  | loaded => exact Or.inr ⟨.rmmod, by simp, by simp [State.step, hmain]⟩
  | init ops =>
      refine Or.inr ⟨.main, by simp, ?_⟩
      cases ops with
      | nil => simp [State.step, hmain]
      | cons op rest =>
          have hop : op.inInit = true :=
            hP.init op ((ht.loading _ hmain).mem List.mem_cons_self)
          have hexec : (exec s op).isSome = true := by
            cases op with
            | print | schedule => exact exec_straight rfl
            | wait =>
                rcases hawaits rest hmain with hcondition | ⟨j, hj⟩
                · simp [exec, hcondition]
                · exact absurd (hidle j) hj
            | _ => cases hop
          simp [State.step, hmain, hexec]
  | exit done ops =>
      refine Or.inr ⟨.main, by simp, ?_⟩
      cases ops with
      | nil => simp [State.step, hmain]
      | cons op rest =>
          have hall := (ht.exiting _ _ hmain).1
          have hop : op ∈ P.exit := by
            rw [← hall]
            simp
          have hclaim : ∀ j, op = .claim j → (s.items j).claimed = false := by
            rintro j rfl
            exact hc.claim_free hP.once ht hmain
          simp [State.step, hmain, exec_inExit (hP.exit op hop) hidle hclaim]

/-- A module comes to its unload: no run is longer than a bound, and none ends
earlier for want of a step. -/
structure Finishes (P : Module ι) (bound : Nat) (acts : List (Act ι)) : Prop where
  short : ∀ s tr, (system P).run acts = some (s, tr) → acts.length ≤ bound
  goesOn : (system P).Always (GoesOn P) acts

theorem finishes (hP : P.Flows) (hbounded : P.Bounded runs)
    (hawaits : ∀ s, (system P).Reachable s → Awaits s) (acts : List (Act ι)) :
    Finishes P (cost runs P.init + cost runs P.exit + 3) acts := by
  refine ⟨fun s tr hrun => length_le_work hbounded hrun, ?_⟩
  intro before s tr _ hrun
  have hreach : (system P).Reachable s := ⟨before, tr, hrun⟩
  have ht := tracked_of_reachable hP.plain hreach
  by_cases hidle : ∀ j, (s.items j).Idle
  · exact main_goesOn hP ht (claims_of_reachable hP.plain hP.init hreach)
      (hawaits s hreach) hidle
  · obtain ⟨j, hj⟩ := not_forall.mp hidle
    exact Or.inr (item_goesOn hP ht (enabled_of_reachable hP hreach) hj)

/-- An init routine that does not wait. -/
theorem awaits_of_no_wait (hP : P.Plain) (hinit : .wait ∉ P.init)
    (h : (system P).Reachable s) : Awaits s := fun _ hmain =>
  absurd (((tracked_of_reachable hP h).loading _ hmain).mem List.mem_cons_self)
    hinit

/-! ## An init routine that waits for its item -/

/-- While the condition is not set, the item is due, and its handler has still
to set it. -/
structure Wakes (j : ι) (s : State ι) : Prop where
  running : ∀ rest, (s.items j).running = some rest →
    s.condition = true ∨ .setCondition ∈ rest
  due : s.condition = true ∨ Due j s

theorem Wakes.step (hP : P.Flows) (hkeeps : P.Keeps j)
    (hwakes : .setCondition ∈ P.handler j) (ht : Tracked P s) (hc : Claims s)
    (h : Wakes j s) (hstep : State.step P s a = some (s', ev)) :
    Wakes j s' := by
  refine ⟨fun rest hrest => ?_, ?_⟩
  · rcases running_of_step hstep hrest with hsame | rfl | ⟨op, t, hop, hexec, hcond⟩
    · exact (h.running rest hsame).imp_left (condition_of_step hstep)
    · exact Or.inr hwakes
    · rcases h.running _ hop with hcondition | hmem
      · exact Or.inl (condition_of_step hstep hcondition)
      · rcases List.mem_cons.mp hmem with hset | hmem
        · rw [hcond]
          exact Or.inl (exec_condition hexec (Or.inr hset.symm))
        · exact Or.inr hmem
  · rcases h.due with hcondition | hdue
    · exact Or.inl (condition_of_step hstep hcondition)
    · by_cases hcondition : s.condition = true
      · exact Or.inl (condition_of_step hstep hcondition)
      · -- so the handler does not return yet
        refine Or.inr (hdue.step hP.plain hP.init hkeeps ht hc ?_ hstep)
        rintro - hrunning
        rcases h.running [] hrunning with hset | hmem
        · exact hcondition hset
        · cases hmem

/-- The init routine schedules the item before it waits, and the handler of the
item sets the condition. -/
theorem awaits_of_wakes (hP : P.Flows) (hkeeps : P.Keeps j)
    (hwakes : .setCondition ∈ P.handler j) (hdue : .schedule j ∈ P.init)
    (hbefore : ∀ rest, .wait :: rest <:+ P.init → .schedule j ∉ rest)
    (h : (system P).Reachable s) : Awaits s := by
  have hall : Wakes j s := by
    refine (system P).reachable_induction (I := Wakes j)
      ⟨nofun, Or.inr (Or.inl ⟨P.init, rfl, hdue⟩)⟩ ?_ h
    intro s a s' ev hreach ih hstep
    exact ih.step hP hkeeps hwakes (tracked_of_reachable hP.plain hreach)
      (claims_of_reachable hP.plain hP.init hreach) hstep
  intro rest hmain
  refine hall.due.imp_right fun hdue => ?_
  rcases hdue with ⟨rest', hloading, hmem⟩ | hbusy
  · cases hmain.symm.trans hloading
    have hlater : .schedule j ∈ rest := by simpa using hmem
    have hsuffix := (tracked_of_reachable hP.plain h).loading _ hmain
    exact absurd hlater (hbefore rest hsuffix)
  · exact ⟨j, hbusy⟩

end Finish

end Deferred
end Lib
end KernelDrivers
