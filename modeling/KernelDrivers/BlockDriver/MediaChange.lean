import KernelDrivers.BlockDriver.Device
import KernelDrivers.Lib.System
import Mathlib.Tactic.SplitIfs

/-!
# Simulated media change

`blk1_release` starts a timer when the last user is gone, the timer's handler
`blk1_invalidate` sets `media_change`, and the first open after it zeroes the
device through `check_disk_change`.  Opens and releases are serialised by their
caller and every release matches an earlier open; the number of opens
outstanding is kept next to the driver's own `users`, which is a `short`.

An expiry takes the timer off the queue first and runs the handler later.
`del_timer_sync` leaves the timer neither pending nor running, so an open is
enabled once the handler is through.
-/

namespace KernelDrivers
namespace BlockDriver

open Lib

/-- The device, the state of its timer and the opens outstanding. -/
structure Media where
  dev : Blk1Dev
  timerPending : Bool
  handlerRunning : Bool
  opens : Nat

/-- What the callbacks do that others can see. -/
inductive MediaEvent where
  /-- an open, the opens outstanding before it, and whether it zeroed the
  device -/
  | opened (others : Nat) (zeroed : Bool)
  | released
  /-- `add_timer`, and whether the timer was pending -/
  | timerAdded (pending : Bool)
  | expired
  /-- `media_change` was set, with this many opens outstanding -/
  | mediaChanged (opens : Nat)
  deriving DecidableEq

/-- `blk1_media_changed`. -/
def blk1MediaChanged (dev : Blk1Dev) : Int16 :=
  dev.mediaChange

/-- `blk1_revalidate`, and whether it cleared the data. -/
def blk1Revalidate (dev : Blk1Dev) : Blk1Dev × Bool :=
  if dev.mediaChange ≠ 0 then
    ({ dev with
        mediaChange := 0
        data := fun i => if i < dev.ulongSize.toNat then 0 else dev.data i },
      true)
  else
    (dev, false)

/-- `check_disk_change` of the block layer. -/
def checkDiskChange (dev : Blk1Dev) : Blk1Dev × Bool :=
  if blk1MediaChanged dev ≠ 0 then blk1Revalidate dev else (dev, false)

/-- `blk1_open`. -/
def blk1Open (m : Media) : Option (Media × List MediaEvent) :=
  if m.handlerRunning then
    none
  else
    let (dev, zeroed) :=
      if m.dev.users = 0 then checkDiskChange m.dev else (m.dev, false)
    some ({ dev := { dev with users := dev.users + 1 }
            timerPending := false
            handlerRunning := false
            opens := m.opens + 1 },
      [.opened m.opens zeroed])

/-- `blk1_release`, for one of the opens outstanding. -/
def blk1Release (m : Media) : Option (Media × List MediaEvent) :=
  if m.opens = 0 then
    none
  else
    let dev := { m.dev with users := m.dev.users - 1 }
    if dev.users = 0 then
      some ({ m with dev := dev, timerPending := true, opens := m.opens - 1 },
        [.released, .timerAdded m.timerPending])
    else
      some ({ m with dev := dev, opens := m.opens - 1 }, [.released])

/-- The pending timer expires. -/
def expire (m : Media) : Option (Media × List MediaEvent) :=
  if m.timerPending then
    some ({ m with timerPending := false, handlerRunning := true }, [.expired])
  else
    none

/-- `blk1_invalidate`, the handler of an expired timer. -/
def blk1Invalidate (m : Media) : Option (Media × List MediaEvent) :=
  if m.handlerRunning then
    if m.dev.users ≠ 0 ∨ m.dev.allocated = false then
      -- "timer sanity check failed"
      some ({ m with handlerRunning := false }, [])
    else
      some ({ m with
          dev := { m.dev with mediaChange := 1 }, handlerRunning := false },
        [.mediaChanged m.opens])
  else
    none

/-- The callbacks that take turns on the device. -/
inductive MediaAct where
  | openDisk
  | releaseDisk
  | expire
  | invalidate
  deriving DecidableEq

/-- The device from the end of `setup_device` on. -/
def media (size : Int32) (data : Bytes) : System Media MediaAct MediaEvent where
  init :=
    { dev :=
        { size := size, data := data, allocated := true,
          users := 0, mediaChange := 0 }
      timerPending := false
      handlerRunning := false
      opens := 0 }
  step := fun m act =>
    match act with
    | .openDisk => blk1Open m
    | .releaseDisk => blk1Release m
    | .expire => expire m
    | .invalidate => blk1Invalidate m

/-- There was an expiry since the last release. -/
def expiredSinceRelease (tr : List MediaEvent) : Bool :=
  tr.foldl (fun since e =>
    match e with
    | .expired => true
    | .released => false
    | _ => since) false

/-- What an event may be, given the events before it: `add_timer` finds the
timer not pending, `media_change` is set while no open is outstanding, and the
data are zeroed only by an open that finds no other and follows an expiry
since the last release. -/
def SafeEvent (before : List MediaEvent) : MediaEvent → Prop
  | .timerAdded pending => pending = false
  | .mediaChanged opens => opens = 0
  | .opened others true => others = 0 ∧ expiredSinceRelease before = true
  | _ => True

/-- A simulated media change never strikes a device in use. -/
structure SafeChange (data : Bytes) (m : Media) (tr : List MediaEvent) :
    Prop where
  pending : m.timerPending = true → m.opens = 0
  events : History SafeEvent tr
  kept : (∀ n, .opened n true ∉ tr) → m.dev.data = data

/-- The step is not a release that brings the opens outstanding down to a
positive multiple of `2 ^ 16`. -/
def NoWrap (m : Media) : MediaAct → Prop
  | .releaseDisk => ∀ k, m.opens ≠ 65536 * (k + 1) + 1
  | _ => True

section Steps

variable {size : Int32} {data : Bytes} {m m' : Media} {ev : List MediaEvent}

/-- What an open does: it takes the timer off and counts itself, and zeroes
the device exactly when the count read zero and the media had changed. -/
theorem open_cases (h : (media size data).step m .openDisk = some (m', ev)) :
    m.handlerRunning = false ∧ m'.timerPending = false ∧
      m'.handlerRunning = false ∧ m'.opens = m.opens + 1 ∧
      m'.dev.users = m.dev.users + 1 ∧
      ((ev = [.opened m.opens true] ∧ m.dev.users = 0 ∧
          m.dev.mediaChange ≠ 0 ∧ m'.dev.mediaChange = 0) ∨
        (ev = [.opened m.opens false] ∧ m'.dev.data = m.dev.data ∧
          (m.dev.users = 0 → m.dev.mediaChange = 0) ∧
          m'.dev.mediaChange = m.dev.mediaChange)) := by
  change blk1Open m = _ at h
  unfold blk1Open at h
  split_ifs at h with hrunning husers
  · by_cases hchange : m.dev.mediaChange = 0
    · simp only [checkDiskChange, blk1MediaChanged, hchange, ne_eq,
        not_true_eq_false, if_false, Option.some.injEq, Prod.mk.injEq] at h
      obtain ⟨rfl, rfl⟩ := h
      simp [hrunning, hchange]
    · simp only [checkDiskChange, blk1MediaChanged, blk1Revalidate, hchange,
        ne_eq, not_false_eq_true, if_true, Option.some.injEq,
        Prod.mk.injEq] at h
      obtain ⟨rfl, rfl⟩ := h
      simp [hrunning, husers, hchange]
  · simp only [Option.some.injEq, Prod.mk.injEq] at h
    obtain ⟨rfl, rfl⟩ := h
    simp [hrunning, husers]

/-- What a release does: it counts itself off, and starts the timer exactly
when the count reads zero. -/
theorem release_cases
    (h : (media size data).step m .releaseDisk = some (m', ev)) :
    m.opens ≠ 0 ∧ m'.opens = m.opens - 1 ∧
      m'.dev = { m.dev with users := m.dev.users - 1 } ∧
      m'.handlerRunning = m.handlerRunning ∧
      ((m.dev.users - 1 = 0 ∧ m'.timerPending = true ∧
          ev = [.released, .timerAdded m.timerPending]) ∨
        (m.dev.users - 1 ≠ 0 ∧ m'.timerPending = m.timerPending ∧
          ev = [.released])) := by
  change blk1Release m = _ at h
  unfold blk1Release at h
  simp only at h
  split_ifs at h with hopens husers <;>
  · simp only [Option.some.injEq, Prod.mk.injEq] at h
    obtain ⟨rfl, rfl⟩ := h
    simp [hopens, husers]

theorem expire_cases (h : (media size data).step m .expire = some (m', ev)) :
    m.timerPending = true ∧ ev = [.expired] ∧
      m' = { m with timerPending := false, handlerRunning := true } := by
  change expire m = _ at h
  unfold expire at h
  split_ifs at h with hpending
  simp only [Option.some.injEq, Prod.mk.injEq] at h
  exact ⟨hpending, h.2.symm, h.1.symm⟩

/-- What the handler does: it sets `media_change` unless the device is in
use. -/
theorem invalidate_cases
    (h : (media size data).step m .invalidate = some (m', ev)) :
    m.handlerRunning = true ∧ m'.handlerRunning = false ∧
      m'.timerPending = m.timerPending ∧ m'.opens = m.opens ∧
      m'.dev.users = m.dev.users ∧ m'.dev.data = m.dev.data ∧
      ((ev = [] ∧ m'.dev.mediaChange = m.dev.mediaChange) ∨
        ev = [.mediaChanged m.opens]) := by
  change blk1Invalidate m = _ at h
  unfold blk1Invalidate at h
  split_ifs at h with hrunning hcheck <;>
  · simp only [Option.some.injEq, Prod.mk.injEq] at h
    obtain ⟨rfl, rfl⟩ := h
    simp [hrunning]

/-- `users` counts the opens outstanding modulo `2 ^ 16`. -/
theorem users_of_reachable (h : (media size data).Reachable m) :
    m.dev.users = Int16.ofNat m.opens := by
  refine (media size data).reachable_invariant
    (I := fun m => m.dev.users = Int16.ofNat m.opens) rfl ?_ h
  intro m act m' ev hm hstep
  cases act with
  | openDisk =>
      obtain ⟨-, -, -, hopens, husers, -⟩ := open_cases hstep
      rw [husers, hopens, hm, short_succ]
  | releaseDisk =>
      obtain ⟨hne, hopens, hdev, -⟩ := release_cases hstep
      obtain ⟨n, hn⟩ := Nat.exists_eq_succ_of_ne_zero hne
      simp only [hdev, hopens, hm, hn, Nat.succ_eq_add_one, short_pred,
        Nat.add_sub_cancel]
  | expire =>
      obtain ⟨-, -, rfl⟩ := expire_cases hstep
      exact hm
  | invalidate =>
      obtain ⟨-, -, -, hopens, husers, -⟩ := invalidate_cases hstep
      rw [husers, hopens, hm]

@[simp] theorem expiredSinceRelease_concat (tr : List MediaEvent)
    (e : MediaEvent) :
    expiredSinceRelease (tr ++ [e]) =
      match e with
      | .expired => true
      | .released => false
      | _ => expiredSinceRelease tr := by
  simp [expiredSinceRelease, List.foldl_append]

/-- While an open is outstanding no handler is running and no change is
flagged; either of them follows an expiry since the last release. -/
structure Quiet (m : Media) (tr : List MediaEvent) : Prop where
  running : m.handlerRunning = true →
    m.opens = 0 ∧ expiredSinceRelease tr = true
  flagged : m.dev.mediaChange ≠ 0 →
    m.opens = 0 ∧ expiredSinceRelease tr = true

theorem openDisk_safe {tr : List MediaEvent} (hsafe : SafeChange data m tr)
    (hquiet : Quiet m tr) (husers : m.dev.users = Int16.ofNat m.opens)
    (h : (media size data).step m .openDisk = some (m', ev)) :
    SafeChange data m' (tr ++ ev) ∧ Quiet m' (tr ++ ev) := by
  obtain ⟨-, hpending, hrunning, -, -, hzero | hkeep⟩ := open_cases h
  · -- the flag was set, so that no other open is outstanding
    obtain ⟨rfl, -, hflag, hcleared⟩ := hzero
    refine ⟨⟨?_, ?_, ?_⟩, ⟨?_, ?_⟩⟩
    · simp [hpending]
    · exact history_concat.mpr ⟨hsafe.events, hquiet.flagged hflag⟩
    · intro hnone
      exact absurd (List.mem_append_right tr (List.mem_singleton_self _))
        (hnone m.opens)
    · simp [hrunning]
    · simp [hcleared]
  · obtain ⟨rfl, hdata, hnochange, hsame⟩ := hkeep
    refine ⟨⟨?_, ?_, ?_⟩, ⟨?_, ?_⟩⟩
    · simp [hpending]
    · exact history_concat.mpr ⟨hsafe.events, trivial⟩
    · intro hnone
      rw [hdata]
      exact hsafe.kept fun n hn => hnone n (List.mem_append_left _ hn)
    · simp [hrunning]
    · -- an open of the idle device has seen the flag cleared
      intro hflag
      rw [hsame] at hflag
      have hidle : m.dev.users = 0 := by
        rw [husers, (hquiet.flagged hflag).1]
        rfl
      exact absurd (hnochange hidle) hflag

theorem releaseDisk_safe {tr : List MediaEvent} (hsafe : SafeChange data m tr)
    (hquiet : Quiet m tr) (husers : m.dev.users = Int16.ofNat m.opens)
    (hno : NoWrap m .releaseDisk)
    (h : (media size data).step m .releaseDisk = some (m', ev)) :
    SafeChange data m' (tr ++ ev) ∧ Quiet m' (tr ++ ev) := by
  obtain ⟨hne, hopens, hdev, hrunning, hcount⟩ := release_cases h
  obtain ⟨n, hn⟩ := Nat.exists_eq_succ_of_ne_zero hne
  -- an open is outstanding, so neither the handler nor the flag is up
  have hidle : m.handlerRunning = false := by
    by_contra hrun
    exact hne (hquiet.running (by simpa using hrun)).1
  have hclear : m.dev.mediaChange = 0 := by
    by_contra hflag
    exact hne (hquiet.flagged hflag).1
  have hquiet' : Quiet m' (tr ++ ev) := by
    constructor
    · simp [hrunning, hidle]
    · simp [hdev, hclear]
  have hkept : (∀ k, .opened k true ∉ tr ++ ev) → m'.dev.data = data := by
    intro hnone
    rw [hdev]
    exact hsafe.kept fun k hk => hnone k (List.mem_append_left _ hk)
  refine ⟨⟨?_, ?_, hkept⟩, hquiet'⟩
  · -- the count reads zero only when the last open is gone
    intro hpending'
    rcases hcount with ⟨hzero, -, -⟩ | ⟨-, hsame, -⟩
    · rw [husers, hn, Nat.succ_eq_add_one, short_pred,
        short_eq_zero_iff] at hzero
      have := hno (n / 65536 - 1)
      omega
    · have := hsafe.pending (hsame ▸ hpending')
      omega
  · have hreleased : History SafeEvent (tr ++ [.released]) :=
      history_concat.mpr ⟨hsafe.events, trivial⟩
    rcases hcount with ⟨-, -, rfl⟩ | ⟨-, -, rfl⟩
    · have hoff : m.timerPending = false := by
        by_contra hon
        exact hne (hsafe.pending (by simpa using hon))
      rw [show tr ++ [.released, .timerAdded m.timerPending] =
        (tr ++ [.released]) ++ [.timerAdded m.timerPending] by simp]
      exact history_concat.mpr ⟨hreleased, hoff⟩
    · exact hreleased

theorem expire_safe {tr : List MediaEvent} (hsafe : SafeChange data m tr)
    (hquiet : Quiet m tr)
    (h : (media size data).step m .expire = some (m', ev)) :
    SafeChange data m' (tr ++ ev) ∧ Quiet m' (tr ++ ev) := by
  obtain ⟨hpending, rfl, rfl⟩ := expire_cases h
  have hidle : m.opens = 0 := hsafe.pending hpending
  refine ⟨⟨by simp, ?_, ?_⟩, ⟨fun _ => ⟨hidle, by simp⟩, fun hflag => ?_⟩⟩
  · exact history_concat.mpr ⟨hsafe.events, trivial⟩
  · intro hnone
    exact hsafe.kept fun n hn => hnone n (List.mem_append_left _ hn)
  · exact ⟨(hquiet.flagged hflag).1, by simp⟩

theorem invalidate_safe {tr : List MediaEvent} (hsafe : SafeChange data m tr)
    (hquiet : Quiet m tr)
    (h : (media size data).step m .invalidate = some (m', ev)) :
    SafeChange data m' (tr ++ ev) ∧ Quiet m' (tr ++ ev) := by
  obtain ⟨hrunning, hstopped, hpending, hopens, -, hdata, hflag⟩ :=
    invalidate_cases h
  obtain ⟨hidle, hexpired⟩ := hquiet.running hrunning
  have hkept : (∀ n, .opened n true ∉ tr ++ ev) → m'.dev.data = data := by
    intro hnone
    rw [hdata]
    exact hsafe.kept fun n hn => hnone n (List.mem_append_left _ hn)
  have hevents : History SafeEvent (tr ++ ev) := by
    rcases hflag with ⟨rfl, -⟩ | rfl
    · simpa using hsafe.events
    · exact history_concat.mpr ⟨hsafe.events, hidle⟩
  have hexpired' : expiredSinceRelease (tr ++ ev) = true := by
    rcases hflag with ⟨rfl, -⟩ | rfl <;> simp [hexpired]
  refine ⟨⟨?_, hevents, hkept⟩, ⟨?_, ?_⟩⟩
  · intro _
    rw [hopens, hidle]
  · simp [hstopped]
  · intro _
    exact ⟨hopens.trans hidle, hexpired'⟩

/-- A release that brings the opens outstanding down to a positive multiple of
`2 ^ 16` leaves the timer pending over them. -/
theorem releaseDisk_unsafe {tr : List MediaEvent}
    (husers : m.dev.users = Int16.ofNat m.opens)
    (hwrap : ¬ NoWrap m .releaseDisk)
    (h : (media size data).step m .releaseDisk = some (m', ev)) :
    ¬ SafeChange data m' (tr ++ ev) := by
  obtain ⟨-, hopens, -, -, hcount⟩ := release_cases h
  simp only [NoWrap, not_forall, ne_eq, not_not] at hwrap
  obtain ⟨k, hk⟩ := hwrap
  have hzero : m.dev.users - 1 = 0 := by
    rw [husers, hk, short_pred, short_eq_zero_iff]
    omega
  intro hsafe
  -- the count reads zero, so the timer is started under the other opens
  rcases hcount with ⟨-, hpending, -⟩ | ⟨hne, -, -⟩
  · have := hsafe.pending hpending
    omega
  · exact hne hzero

end Steps

/-- At every point of a run the simulated media change leaves a device in use
alone, exactly when no release of the run brings the opens outstanding down to
a positive multiple of `2 ^ 16`. -/
theorem safeChange_iff_noWrap (size : Int32) (data : Bytes)
    (acts : List MediaAct) :
    (media size data).Always (SafeChange data) acts ↔
      (media size data).Meets NoWrap acts := by
  constructor
  · intro halways
    refine halways.meets ?_
    intro m tr act m' ev hreach _ hstep hwrap
    cases act with
    | releaseDisk =>
        exact releaseDisk_unsafe (users_of_reachable hreach) hwrap hstep
    | openDisk => exact absurd trivial hwrap
    | expire => exact absurd trivial hwrap
    | invalidate => exact absurd trivial hwrap
  · intro hmeets
    have hboth : (media size data).Always
        (fun m tr => SafeChange data m tr ∧ Quiet m tr) acts := by
      refine hmeets.always ?_ ?_
      · exact ⟨⟨by simp [media], history_nil, fun _ => rfl⟩,
          ⟨by simp [media], by simp [media]⟩⟩
      · rintro m tr act m' ev hreach ⟨hsafe, hquiet⟩ hstep hno
        have husers := users_of_reachable hreach
        cases act with
        | openDisk => exact openDisk_safe hsafe hquiet husers hstep
        | releaseDisk => exact releaseDisk_safe hsafe hquiet husers hno hstep
        | expire => exact expire_safe hsafe hquiet hstep
        | invalidate => exact invalidate_safe hsafe hquiet hstep
    exact fun before m tr hpre hrun => (hboth before m tr hpre hrun).1

/-- Opens of the idle device are all let through and change no data. -/
theorem run_opens (size : Int32) (data : Bytes) (n : Nat) :
    ∃ m tr, (media size data).run (List.replicate n .openDisk) = some (m, tr) ∧
      m.handlerRunning = false ∧ m.opens = n := by
  induction n with
  | zero => exact ⟨_, [], rfl, rfl, rfl⟩
  | succ n ih =>
      obtain ⟨m, tr, hrun, hidle, hopens⟩ := ih
      obtain ⟨⟨m', ev⟩, hstep⟩ : ∃ next, (media size data).step m .openDisk =
          some next := by
        show ∃ next, blk1Open m = some next
        unfold blk1Open
        rw [hidle]
        exact ⟨_, rfl⟩
      obtain ⟨-, -, hidle', hopens', -⟩ := open_cases hstep
      refine ⟨m', tr ++ ev, ?_, hidle', hopens'.trans (by rw [hopens])⟩
      rw [List.replicate_succ']
      exact (media size data).run_concat_of_step hrun hstep

/-- With 65537 opens outstanding one release starts the timer under the other
65536. -/
theorem wrapped_count_arms_timer :
    ∃ m tr, (media 512 fun _ => 1).run
        (List.replicate 65537 .openDisk ++ [.releaseDisk]) = some (m, tr) ∧
      ¬ SafeChange (fun _ => 1) m tr := by
  obtain ⟨m, tr, hrun, -, hopens⟩ := run_opens 512 (fun _ => 1) 65537
  have husers := users_of_reachable ⟨_, tr, hrun⟩
  obtain ⟨⟨m', ev⟩, hstep⟩ : ∃ next,
      (media 512 fun _ => 1).step m .releaseDisk = some next := by
    show ∃ next, blk1Release m = some next
    unfold blk1Release
    rw [if_neg (by omega)]
    simp only
    split_ifs
    · exact ⟨_, rfl⟩
    · exact ⟨_, rfl⟩
  refine ⟨m', tr ++ ev, ?_, ?_⟩
  · exact (media 512 fun _ => 1).run_concat_of_step hrun hstep
  · refine releaseDisk_unsafe husers ?_ hstep
    intro hno
    exact hno 0 hopens

end BlockDriver
end KernelDrivers
