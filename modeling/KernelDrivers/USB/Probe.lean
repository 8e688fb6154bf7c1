import KernelDrivers.Errno
import KernelDrivers.Lib.Holdings
import Mathlib.Logic.Function.Basic

/-!
# The probe of `usbdrv4.c`

`test_usb1_probe` looks at every endpoint of the interface and allocates a
buffer for each that has one of two addresses, in the place of what an earlier
one may have left there.  All failures meet at one label, which frees what the
device structure points to.

`kmalloc` of 0 bytes gives a pointer behind which nothing is allocated.
-/

namespace KernelDrivers
namespace USB
namespace Probe

open Lib

/-- `struct usb_endpoint_descriptor`, as far as it is read. -/
structure EndpointDescriptor where
  bEndpointAddress : UInt8
  bmAttributes : UInt8
  wMaxPacketSize : UInt16
  deriving DecidableEq

/-- Which half of the device structure: `in_ep`, `in_buf_size` and `in_buf`, or
`out_ep`, `out_buf_size` and `out_buf`. -/
inductive Direction where
  | epIn
  | epOut
  deriving DecidableEq

/-- `EP_IN` and `EP_OUT`. -/
def EndpointDescriptor.direction (e : EndpointDescriptor) : Option Direction :=
  if e.bEndpointAddress = 0x81 then some .epIn
  else if e.bEndpointAddress = 0x01 then some .epOut
  else none

/-- `bEndpointAddress & USB_ENDPOINT_NUMBER_MASK`. -/
def EndpointDescriptor.number (e : EndpointDescriptor) : UInt8 :=
  e.bEndpointAddress &&& 0x0f

/-- The transfer type in `bmAttributes`, which the probe does not look at. -/
def EndpointDescriptor.Bulk (e : EndpointDescriptor) : Prop :=
  e.bmAttributes &&& 0x03 = 0x02

instance (e : EndpointDescriptor) : Decidable e.Bulk :=
  inferInstanceAs (Decidable ((_ : UInt8) = _))

/-- A buffer, named by the round of the loop that allocated it. -/
structure Buffer where
  round : Nat
  size : UInt16
  deriving DecidableEq

inductive Resource where
  /-- `struct test_usb1_device`. -/
  | dev
  | buffer (b : Buffer)
  deriving DecidableEq

/-- One half of `struct test_usb1_device`. -/
structure Slot where
  ep : UInt8
  bufSize : UInt16
  buf : Option Buffer
  deriving DecidableEq

/-- `struct test_usb1_device`. -/
abbrev TestUsb1Device := Direction → Slot

/-- What `kzalloc` gives. -/
def zeroed : TestUsb1Device := fun _ => ⟨0, 0, none⟩

/-- `kmalloc`. -/
def kmalloc (round : Nat) (size : UInt16) (granted : Bool) : Option Buffer :=
  if granted ∨ size = 0 then some ⟨round, size⟩ else none

/-- What is allocated behind a pointer. -/
def behind : Option Buffer → List Resource
  | none => []
  | some b => if b.size = 0 then [] else [.buffer b]

/-- The loop of `test_usb1_probe`, each endpoint with the answer of its
`kmalloc`: the device, whether it goes on behind the loop, and what it
allocated.  No endpoint has both addresses. -/
def setUp : TestUsb1Device → Nat → List (EndpointDescriptor × Bool) →
    TestUsb1Device × Bool × List Resource
  | dev, _, [] => (dev, true, [])
  | dev, i, (e, granted) :: endpoints =>
      match e.direction with
      | none => setUp dev (i + 1) endpoints
      | some dir =>
          let buf := kmalloc i e.wMaxPacketSize granted
          let dev := Function.update dev dir ⟨e.number, e.wMaxPacketSize, buf⟩
          if buf = none then (dev, false, [])
          else
            let rest := setUp dev (i + 1) endpoints
            (rest.1, rest.2.1, behind buf ++ rest.2.2)

/-- How the other calls of a probe come out. -/
structure ProbeCalls where
  kzalloc : Bool
  usbRegisterDev : Int

/-- What a probe leaves. -/
structure Probed where
  /-- The interface data. -/
  intfdata : Option TestUsb1Device
  /-- Nothing is returned when `NULL` is dereferenced. -/
  returned : Option Int
  entries : List (Entry Resource)

/-- What is allocated behind the two pointers. -/
def buffers (dev : TestUsb1Device) : List Resource :=
  behind (dev .epOut).buf ++ behind (dev .epIn).buf

/-- The device structure and what is allocated behind its pointers. -/
def owned (dev : TestUsb1Device) : List Resource :=
  buffers dev ++ [.dev]

/-- `probe_err`, with the pointer to the device.  It reads `out_buf` before it
tests the pointer. -/
def probeErr (dev : Option TestUsb1Device) (retval : Int)
    (entries : List (Entry Resource)) : Probed :=
  match dev with
  | none => ⟨none, none, entries⟩
  | some dev => ⟨none, some retval, entries ++ (owned dev).map .released⟩

/-- `test_usb1_probe`. -/
def testUsb1Probe (endpoints : List (EndpointDescriptor × Bool))
    (calls : ProbeCalls) : Probed :=
  if ¬ calls.kzalloc then probeErr none (-ENOMEM) []
  else
    let loop := setUp zeroed 0 endpoints
    let entries := (.dev :: loop.2.2).map .acquired
    if ¬ loop.2.1 then probeErr (some loop.1) (-ENOMEM) entries
    else if calls.usbRegisterDev ≠ 0 then
      probeErr (some loop.1) calls.usbRegisterDev entries
    else ⟨some loop.1, some 0, entries⟩

/-! ## What a probe should do -/

/-- The last descriptor with an address: the one whose buffer stays. -/
def lastOf (endpoints : List (EndpointDescriptor × Bool)) (dir : Direction) :
    Option EndpointDescriptor :=
  ((endpoints.map Prod.fst).filter fun e => e.direction = some dir).getLast?

/-- One half of the device has a bulk endpoint and a buffer of its size. -/
def Found (endpoints : List (EndpointDescriptor × Bool)) (dev : TestUsb1Device)
    (dir : Direction) : Prop :=
  ∃ e b, lastOf endpoints dir = some e ∧ e.Bulk ∧
    dev dir = ⟨e.number, e.wMaxPacketSize, some b⟩ ∧ b.size = e.wMaxPacketSize

/-- No `NULL` is dereferenced, nothing is freed that is not allocated; a probe
that fails leaves nothing allocated, and one that succeeds has both endpoints
and leaves what its device structure holds. -/
structure Sound (endpoints : List (EndpointDescriptor × Bool)) (out : Probed) :
    Prop where
  returns : out.returned ≠ none
  covered : Holdings.Covered [] out.entries
  failed : ∀ rv, out.returned = some rv → rv ≠ 0 →
    Holdings.settle [] out.entries = []
  bound : out.returned = some 0 → ∃ dev, out.intfdata = some dev ∧
    (Holdings.settle [] out.entries).Perm (owned dev) ∧
    ∀ dir, Found endpoints dev dir

/-- The allocation for an endpoint is refused. -/
def Refused (e : EndpointDescriptor × Bool) : Prop :=
  e.1.direction ≠ none ∧ e.2 = false ∧ e.1.wMaxPacketSize ≠ 0

instance (e : EndpointDescriptor × Bool) : Decidable (Refused e) :=
  inferInstanceAs (Decidable (_ ∧ _ ∧ _))

/-- The endpoints up to the first whose allocation is refused. -/
def reached :
    List (EndpointDescriptor × Bool) → List (EndpointDescriptor × Bool)
  | [] => []
  | e :: endpoints => if Refused e then [e] else e :: reached endpoints

/-- A later endpoint does not take the place of the buffer of an earlier
one. -/
def Apart (e later : EndpointDescriptor × Bool) : Prop :=
  e.1.direction ≠ none → later.1.direction = e.1.direction →
    e.1.wMaxPacketSize = 0

instance (e later : EndpointDescriptor × Bool) : Decidable (Apart e later) :=
  inferInstanceAs (Decidable (_ → _ → _))

/-! ## The loop -/

def Direction.other : Direction → Direction
  | .epIn => .epOut
  | .epOut => .epIn

theorem count_buffers (dev : TestUsb1Device) (dir : Direction) (r : Resource) :
    (buffers dev).count r =
      (behind (dev dir).buf).count r + (behind (dev dir.other).buf).count r := by
  cases dir <;> simp [buffers, Direction.other, Nat.add_comm]

/-- A pointer that is overwritten. -/
theorem count_buffers_update (dev : TestUsb1Device) (dir : Direction)
    (slot : Slot) (r : Resource) :
    (buffers dev).count r + (behind slot.buf).count r =
      (buffers (Function.update dev dir slot)).count r +
        (behind (dev dir).buf).count r := by
  have hother : dir.other ≠ dir := by cases dir <;> decide
  rw [count_buffers dev dir, count_buffers _ dir, Function.update_self,
    Function.update_of_ne hother]
  omega

theorem kmalloc_eq_some {round : Nat} {size : UInt16} {granted : Bool}
    (h : kmalloc round size granted ≠ none) :
    kmalloc round size granted = some ⟨round, size⟩ := by
  unfold kmalloc at h ⊢
  split_ifs at h ⊢
  · rfl
  · exact absurd rfl h

theorem behind_kmalloc_eq_nil {round : Nat} {size : UInt16} {granted : Bool}
    (h : kmalloc round size granted ≠ none) :
    behind (kmalloc round size granted) = [] ↔ size = 0 := by
  rw [kmalloc_eq_some h]
  simp [behind]

/-- No endpoint that is reached takes the place of a buffer that the device
has. -/
def Undisturbed (dev : TestUsb1Device)
    (endpoints : List (EndpointDescriptor × Bool)) : Prop :=
  ∀ dir, behind (dev dir).buf ≠ [] →
    ∀ e ∈ reached endpoints, e.1.direction ≠ some dir

variable {dev : TestUsb1Device} {e : EndpointDescriptor} {granted : Bool}
  {endpoints : List (EndpointDescriptor × Bool)} {dir : Direction} {slot : Slot}

theorem refused_iff (hdir : e.direction = some dir) (i : Nat) :
    Refused (e, granted) ↔ kmalloc i e.wMaxPacketSize granted = none := by
  simp [Refused, kmalloc, hdir]

/-- An endpoint with another address. -/
theorem setUp_none (hdir : e.direction = none) (i : Nat) :
    setUp dev i ((e, granted) :: endpoints) = setUp dev (i + 1) endpoints := by
  simp only [setUp, hdir]

/-- An endpoint whose buffer is refused. -/
theorem setUp_refused {i : Nat} (hdir : e.direction = some dir)
    (hnull : kmalloc i e.wMaxPacketSize granted = none) :
    setUp dev i ((e, granted) :: endpoints) =
      (Function.update dev dir ⟨e.number, e.wMaxPacketSize, none⟩, false, []) := by
  simp only [setUp, hdir, hnull, if_true]

/-- An endpoint that is given a buffer, and the device behind its round. -/
theorem setUp_granted {i : Nat} (hdir : e.direction = some dir)
    (hbuf : kmalloc i e.wMaxPacketSize granted ≠ none)
    {rest : TestUsb1Device × Bool × List Resource}
    (hrest : setUp (Function.update dev dir
      ⟨e.number, e.wMaxPacketSize, kmalloc i e.wMaxPacketSize granted⟩) (i + 1)
        endpoints = rest) :
    setUp dev i ((e, granted) :: endpoints) =
      (rest.1, rest.2.1,
        behind (kmalloc i e.wMaxPacketSize granted) ++ rest.2.2) := by
  simp only [setUp, hdir, hbuf, if_false, hrest]

/-- The pointers of the other direction are not disturbed. -/
def OthersKept (dev : TestUsb1Device) (dir : Direction)
    (endpoints : List (EndpointDescriptor × Bool)) : Prop :=
  ∀ d, d ≠ dir → behind (dev d).buf ≠ [] →
    ∀ e ∈ reached endpoints, e.1.direction ≠ some d

theorem undisturbed_refused (hdir : e.direction = some dir)
    (hrefused : Refused (e, granted)) :
    Undisturbed dev ((e, granted) :: endpoints) ↔ behind (dev dir).buf = [] := by
  unfold Undisturbed
  simp only [reached, hrefused, if_true, List.forall_mem_singleton, hdir]
  constructor
  · intro h
    by_contra hbuf
    exact h dir hbuf rfl
  · rintro hbuf d hd heq
    cases heq
    exact hd hbuf

theorem undisturbed_cons (hdir : e.direction = some dir)
    (hgo : ¬ Refused (e, granted)) :
    Undisturbed dev ((e, granted) :: endpoints) ↔
      behind (dev dir).buf = [] ∧ OthersKept dev dir endpoints := by
  unfold Undisturbed OthersKept
  simp only [reached, hgo, if_false, List.forall_mem_cons, hdir]
  constructor
  · intro h
    refine ⟨?_, fun d _ hbuf => (h d hbuf).2⟩
    by_contra hbuf
    exact (h dir hbuf).1 rfl
  · rintro ⟨hbuf, hothers⟩ d hd
    have hne : d ≠ dir := fun heq => hd (heq ▸ hbuf)
    exact ⟨fun heq => hne (Option.some.inj heq).symm, hothers d hne hd⟩

theorem undisturbed_update :
    Undisturbed (Function.update dev dir slot) endpoints ↔
      (behind slot.buf ≠ [] →
        ∀ e ∈ reached endpoints, e.1.direction ≠ some dir) ∧
      OthersKept dev dir endpoints := by
  unfold Undisturbed OthersKept
  constructor
  · intro h
    refine ⟨fun hslot => h dir ?_, fun d hne hbuf => h d ?_⟩
    · rwa [Function.update_self]
    · rwa [Function.update_of_ne hne]
  · rintro ⟨hself, hothers⟩ d hbuf
    by_cases hd : d = dir
    · subst hd
      rw [Function.update_self] at hbuf
      exact hself hbuf
    · rw [Function.update_of_ne hd] at hbuf
      exact hothers d hd hbuf

theorem apart_all (hdir : e.direction = some dir) :
    (∀ later ∈ reached endpoints, Apart (e, granted) later) ↔
      (e.wMaxPacketSize ≠ 0 →
        ∀ later ∈ reached endpoints, later.1.direction ≠ some dir) := by
  simp only [Apart, hdir]
  constructor
  · exact fun h hsize later hmem heq => hsize (h later hmem (by simp) heq)
  · intro h later hmem _ heq
    by_contra hsize
    exact h hsize later hmem heq

/-- What the loop allocates is behind the pointers at the end, or lost.
Nothing is lost exactly when no pointer is overwritten that has a buffer. -/
theorem setUp_perm (dev : TestUsb1Device) (i : Nat)
    (endpoints : List (EndpointDescriptor × Bool)) :
    ∃ lost, ((setUp dev i endpoints).2.2 ++ buffers dev).Perm
        (buffers (setUp dev i endpoints).1 ++ lost) ∧
      (lost = [] ↔
        Undisturbed dev endpoints ∧ (reached endpoints).Pairwise Apart) := by
  induction endpoints generalizing dev i with
  | nil => exact ⟨[], by simp [setUp], by simp [Undisturbed, reached]⟩
  | cons head endpoints ih =>
      obtain ⟨e, granted⟩ := head
      cases hdir : e.direction with
      | none =>
          -- no bulk endpoint: the device is left as it is
          obtain ⟨lost, hperm, hlost⟩ := ih dev (i + 1)
          have hgo : ¬ Refused (e, granted) := fun h => h.1 hdir
          rw [setUp_none hdir]
          refine ⟨lost, hperm, ?_⟩
          rw [hlost]
          simp [Undisturbed, reached, hgo, hdir, Apart]
      | some dir =>
          have hcount := count_buffers_update dev dir
            ⟨e.number, e.wMaxPacketSize, kmalloc i e.wMaxPacketSize granted⟩
          dsimp only at hcount
          by_cases hrefused : Refused (e, granted)
          · -- the refused pointer overwrites the one that was there, and the loop ends
            have hnull := (refused_iff hdir i).mp hrefused
            rw [setUp_refused hdir hnull]
            refine ⟨behind (dev dir).buf, ?_, ?_⟩
            · rw [List.perm_iff_count]
              intro r
              have hslot := hcount r
              rw [hnull] at hslot
              rw [List.nil_append, List.count_append]
              exact hslot
            · rw [undisturbed_refused hdir hrefused]
              simp [reached, hrefused]
          · -- the buffer that was behind the pointer is lost, and the loop goes on
            have hbuf := mt (refused_iff hdir i).mpr hrefused
            obtain ⟨lost, hperm, hlost⟩ := ih (Function.update dev dir
              ⟨e.number, e.wMaxPacketSize, kmalloc i e.wMaxPacketSize granted⟩)
              (i + 1)
            rw [setUp_granted hdir hbuf rfl]
            refine ⟨lost ++ behind (dev dir).buf, ?_, ?_⟩
            · rw [List.perm_iff_count] at hperm ⊢
              intro r
              have hrest := hperm r
              have hslot := hcount r
              simp only [List.count_append] at hrest ⊢
              omega
            · rw [List.append_eq_nil_iff, hlost, undisturbed_cons hdir hrefused,
                undisturbed_update, ne_eq, behind_kmalloc_eq_nil hbuf, reached,
                if_neg hrefused, List.pairwise_cons, apart_all hdir]
              tauto

/-- The loop is left early exactly when an allocation is refused. -/
theorem setUp_completes_iff (dev : TestUsb1Device) (i : Nat)
    (endpoints : List (EndpointDescriptor × Bool)) :
    (setUp dev i endpoints).2.1 = true ↔ ∀ e ∈ endpoints, ¬ Refused e := by
  induction endpoints generalizing dev i with
  | nil => simp [setUp]
  | cons head endpoints ih =>
      obtain ⟨e, granted⟩ := head
      rw [List.forall_mem_cons]
      cases hdir : e.direction with
      | none =>
          have hgo : ¬ Refused (e, granted) := fun h => h.1 hdir
          rw [setUp_none hdir, ih]
          exact (and_iff_right hgo).symm
      | some dir =>
          rw [refused_iff hdir i]
          by_cases hnull : kmalloc i e.wMaxPacketSize granted = none
          · rw [setUp_refused hdir hnull]
            simp [hnull]
          · rw [setUp_granted hdir hnull rfl]
            exact (ih _ (i + 1)).trans (and_iff_right hnull).symm

theorem lastOf_cons_self (hdir : e.direction = some dir) :
    lastOf ((e, granted) :: endpoints) dir =
      some ((lastOf endpoints dir).getD e) := by
  unfold lastOf
  rw [List.map_cons, List.filter_cons_of_pos (by simpa using hdir),
    List.getLast?_cons]

theorem lastOf_cons_of_ne (hdir : e.direction ≠ some dir) :
    lastOf ((e, granted) :: endpoints) dir = lastOf endpoints dir := by
  unfold lastOf
  rw [List.map_cons, List.filter_cons_of_neg (by simpa using hdir)]

/-- What a loop that completes leaves in one half of the device: the endpoint
that was the last, or what was there. -/
theorem setUp_slot (dev : TestUsb1Device) (i : Nat)
    (endpoints : List (EndpointDescriptor × Bool)) (dir : Direction)
    (hcompletes : (setUp dev i endpoints).2.1 = true) :
    (lastOf endpoints dir = none ∧
      (setUp dev i endpoints).1 dir = dev dir) ∨
    ∃ e b, lastOf endpoints dir = some e ∧
      (setUp dev i endpoints).1 dir = ⟨e.number, e.wMaxPacketSize, some b⟩ ∧
      b.size = e.wMaxPacketSize := by
  induction endpoints generalizing dev i with
  | nil => exact .inl ⟨rfl, rfl⟩
  | cons head endpoints ih =>
      obtain ⟨e, granted⟩ := head
      cases hany : e.direction with
      | none =>
          rw [setUp_none hany] at hcompletes ⊢
          rw [lastOf_cons_of_ne (by simp [hany])]
          exact ih dev (i + 1) hcompletes
      | some d =>
          by_cases hnull : kmalloc i e.wMaxPacketSize granted = none
          · rw [setUp_refused hany hnull] at hcompletes
            cases hcompletes
          · rw [setUp_granted hany hnull rfl] at hcompletes ⊢
            rcases ih _ (i + 1) hcompletes with ⟨hlast, hslot⟩ | ⟨e', b, hlast, hslot⟩
            · -- no later endpoint has the direction, so this one decides
              rw [hslot]
              by_cases hd : d = dir
              · subst hd
                refine .inr ⟨e, ⟨i, e.wMaxPacketSize⟩, ?_, ?_, rfl⟩
                · rw [lastOf_cons_self hany, hlast]
                  rfl
                · rw [Function.update_self, kmalloc_eq_some hnull]
              · refine .inl ⟨?_, Function.update_of_ne (Ne.symm hd) ..⟩
                rw [lastOf_cons_of_ne (by simpa [hany] using hd), hlast]
            · refine .inr ⟨e', b, ?_, hslot⟩
              by_cases hd : d = dir
              · subst hd
                rw [lastOf_cons_self hany, hlast]
                rfl
              · rw [lastOf_cons_of_ne (by simpa [hany] using hd), hlast]

/-! ## The probe -/

/-- The endpoints of an interface, each with the answer of its `kmalloc`, and
the other answers, with which a probe is sound: the device structure is
granted, no buffer is overwritten, and an interface that is accepted has both
endpoints, the last ones of which are bulk endpoints. -/
structure Proper (endpoints : List (EndpointDescriptor × Bool))
    (calls : ProbeCalls) : Prop where
  kzalloc : calls.kzalloc = true
  apart : (reached endpoints).Pairwise Apart
  both : (∀ e ∈ endpoints, ¬ Refused e) → calls.usbRegisterDev = 0 →
    ∀ dir, ∃ e ∈ lastOf endpoints dir, e.Bulk

variable {calls : ProbeCalls}

/-- What is allocated after the loop is what the device owns exactly when no
buffer is overwritten. -/
theorem owned_iff (endpoints : List (EndpointDescriptor × Bool)) :
    (Holdings.settle [] ((.dev :: (setUp zeroed 0 endpoints).2.2).map
        .acquired)).Perm (owned (setUp zeroed 0 endpoints).1) ↔
      (reached endpoints).Pairwise Apart := by
  obtain ⟨lost, hperm, hlost⟩ := setUp_perm zeroed 0 endpoints
  have hzeroed : Undisturbed zeroed endpoints := fun _ hbuf => absurd rfl hbuf
  have hnone : (reached endpoints).Pairwise Apart ↔ lost = [] := by
    rw [hlost]
    exact (and_iff_right hzeroed).symm
  have hbuffers : (setUp zeroed 0 endpoints).2.2.Perm
      (buffers (setUp zeroed 0 endpoints).1 ++ lost) := by
    simpa [buffers, zeroed, behind] using hperm
  have hheld : (Holdings.settle [] ((.dev :: (setUp zeroed 0 endpoints).2.2).map
      .acquired)).Perm (.dev :: (setUp zeroed 0 endpoints).2.2) := by
    simpa using @Holdings.settle_acquired _ _ []
      (.dev :: (setUp zeroed 0 endpoints).2.2)
  have howned := List.perm_append_singleton Resource.dev
    (buffers (setUp zeroed 0 endpoints).1)
  rw [hheld.congr_left, owned, howned.congr_right, List.perm_cons, hnone,
    hbuffers.congr_left]
  constructor
  · intro h
    have hlength := h.length_eq
    rw [List.length_append] at hlength
    exact List.length_eq_zero_iff.mp (by omega)
  · rintro rfl
    rw [List.append_nil]

/-- A probe that fails behind the loop frees what is allocated exactly when no
buffer is overwritten. -/
theorem sound_probeErr_iff (endpoints : List (EndpointDescriptor × Bool))
    {retval : Int} (hretval : retval ≠ 0) :
    Sound endpoints (probeErr (some (setUp zeroed 0 endpoints).1) retval
        ((.dev :: (setUp zeroed 0 endpoints).2.2).map .acquired)) ↔
      (reached endpoints).Pairwise Apart := by
  rw [← owned_iff, ← Holdings.released_all_iff]
  constructor
  · intro h
    have hcovered := h.covered
    have hfailed := h.failed retval rfl hretval
    simp only [probeErr] at hcovered hfailed
    rw [Holdings.covered_append] at hcovered
    rw [Holdings.settle_append] at hfailed
    exact ⟨hcovered.2, hfailed⟩
  · rintro ⟨hcovered, hnothing⟩
    refine ⟨by simp [probeErr], ?_, fun _ _ _ => ?_, fun hzero => ?_⟩
    · exact Holdings.covered_append.mpr
        ⟨Holdings.covered_acquired _, hcovered⟩
    · exact Holdings.settle_append.trans hnothing
    · exact absurd (Option.some.inj hzero) hretval

/-- A device that is bound owns what is allocated, and has its endpoints. -/
theorem sound_bound_iff (endpoints : List (EndpointDescriptor × Bool))
    (hcompletes : (setUp zeroed 0 endpoints).2.1 = true) :
    Sound endpoints ⟨some (setUp zeroed 0 endpoints).1, some 0,
        (.dev :: (setUp zeroed 0 endpoints).2.2).map .acquired⟩ ↔
      (reached endpoints).Pairwise Apart ∧
        ∀ dir, ∃ e ∈ lastOf endpoints dir, e.Bulk := by
  rw [← owned_iff]
  constructor
  · intro h
    obtain ⟨dev, hdev, hheld, hfound⟩ := h.bound rfl
    cases hdev
    refine ⟨hheld, fun dir => ?_⟩
    obtain ⟨e, b, hlast, hbulk, -, -⟩ := hfound dir
    exact ⟨e, hlast, hbulk⟩
  · rintro ⟨hheld, hboth⟩
    refine ⟨by simp, Holdings.covered_acquired _, fun rv hrv hne => ?_,
      fun _ => ⟨_, rfl, hheld, fun dir => ?_⟩⟩
    · exact absurd (Option.some.inj hrv).symm hne
    · obtain ⟨e, hlast, hbulk⟩ := hboth dir
      rcases setUp_slot zeroed 0 endpoints dir hcompletes with
          ⟨hnone, -⟩ | ⟨e', b, hlast', hslot, hsize⟩
      · rw [hnone] at hlast
        cases hlast
      · cases hlast.symm.trans hlast'
        exact ⟨e, b, hlast, hbulk, hslot, hsize⟩

/-- How a probe ends: at `NULL`, behind its error label, or with a device. -/
theorem testUsb1Probe_cases (endpoints : List (EndpointDescriptor × Bool))
    (calls : ProbeCalls) :
    (calls.kzalloc = false ∧ testUsb1Probe endpoints calls = ⟨none, none, []⟩) ∨
    (calls.kzalloc = true ∧
      ¬ ((setUp zeroed 0 endpoints).2.1 = true ∧ calls.usbRegisterDev = 0) ∧
      ∃ retval, retval ≠ 0 ∧ testUsb1Probe endpoints calls =
        probeErr (some (setUp zeroed 0 endpoints).1) retval
          ((.dev :: (setUp zeroed 0 endpoints).2.2).map .acquired)) ∨
    (calls.kzalloc = true ∧ (setUp zeroed 0 endpoints).2.1 = true ∧
      calls.usbRegisterDev = 0 ∧ testUsb1Probe endpoints calls =
        ⟨some (setUp zeroed 0 endpoints).1, some 0,
          (.dev :: (setUp zeroed 0 endpoints).2.2).map .acquired⟩) := by
  unfold testUsb1Probe
  cases hkzalloc : calls.kzalloc with
  | false => exact .inl ⟨rfl, rfl⟩
  | true =>
      by_cases hcompletes : (setUp zeroed 0 endpoints).2.1 = true
      · by_cases hregister : calls.usbRegisterDev = 0
        · exact .inr (.inr ⟨rfl, hcompletes, hregister, by
            simp [hcompletes, hregister]⟩)
        · exact .inr (.inl ⟨rfl, fun h => hregister h.2, calls.usbRegisterDev,
            hregister, by simp [hcompletes, hregister]⟩)
      · exact .inr (.inl ⟨rfl, fun h => hcompletes h.1, -ENOMEM, by decide, by
          simp [hcompletes]⟩)

/-- The probe is sound exactly with the endpoints and the answers that `Proper`
names. -/
theorem probe_sound_iff (endpoints : List (EndpointDescriptor × Bool))
    (calls : ProbeCalls) :
    Sound endpoints (testUsb1Probe endpoints calls) ↔ Proper endpoints calls := by
  have hiff := setUp_completes_iff zeroed 0 endpoints
  rcases testUsb1Probe_cases endpoints calls with ⟨hkzalloc, hprobe⟩ |
      ⟨hkzalloc, hfails, retval, hretval, hprobe⟩ |
      ⟨hkzalloc, hcompletes, hregister, hprobe⟩
  · rw [hprobe]
    refine iff_of_false (fun h => h.returns rfl) fun h => ?_
    exact absurd h.kzalloc (by simp [hkzalloc])
  · rw [hprobe, sound_probeErr_iff endpoints hretval]
    refine ⟨fun hapart => ⟨hkzalloc, hapart, fun hnone hzero => ?_⟩, Proper.apart⟩
    exact absurd ⟨hiff.mpr hnone, hzero⟩ hfails
  · rw [hprobe, sound_bound_iff endpoints hcompletes]
    exact ⟨fun h => ⟨hkzalloc, h.1, fun _ _ => h.2⟩,
      fun h => ⟨h.apart, h.both (hiff.mp hcompletes) hregister⟩⟩

/-- `kzalloc` fails, and `probe_err` reads `out_buf` through `NULL`. -/
theorem kzalloc_fails : ¬ Sound [] (testUsb1Probe [] ⟨false, 0⟩) :=
  fun h => h.returns rfl

/-- The size of the buffer in a device that was accepted. -/
theorem bufSize_ne_zero_iff {dev : TestUsb1Device}
    (haccepted : (testUsb1Probe endpoints calls).intfdata = some dev)
    (dir : Direction) :
    (dev dir).bufSize ≠ 0 ↔ ∃ e ∈ lastOf endpoints dir, e.wMaxPacketSize ≠ 0 := by
  rcases testUsb1Probe_cases endpoints calls with ⟨-, hprobe⟩ |
      ⟨-, -, retval, -, hprobe⟩ | ⟨-, hcompletes, -, hprobe⟩
  · rw [hprobe] at haccepted
    cases haccepted
  · rw [hprobe] at haccepted
    cases haccepted
  · rw [hprobe] at haccepted
    cases haccepted
    rcases setUp_slot zeroed 0 endpoints dir hcompletes with
        ⟨hnone, hslot⟩ | ⟨e, b, hlast, hslot, -⟩
    · rw [hslot, hnone]
      simp [zeroed]
    · rw [hslot, hlast]
      simp

end Probe
end USB
end KernelDrivers
