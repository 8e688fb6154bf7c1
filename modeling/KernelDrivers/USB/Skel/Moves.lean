import KernelDrivers.USB.Skel.Driver

/-!
# What one step can do

Every step of a call, of the thread of the USB core and of the whole system,
case by case, with the condition under which it is taken.  All later proofs
about steps go through these relations.
-/

namespace KernelDrivers
namespace USB
namespace Skel

open Lib

/-! ## Steps of the calls -/

section Calls

variable (d : UsbSkel) (me : Owner) (nonblock : Bool) (count : Nat)

/-- The steps of `skel_read`. -/
inductive ReadMove : ReadPc → Outcome → UsbSkel → ReadPc → List Event → Prop
  | zeroCount {o} : count = 0 → ReadMove .start o d .done [.returned 0 []]
  | lockInterrupted {err} :
      ReadMove .start (.fails err) d .done [.returned (-EINTR) []]
  | lock : d.ioMutex = none →
      ReadMove .start .ok { d with ioMutex := some me } .locked []
  | gone {o} : d.disconnected = true →
      ReadMove .locked o d (.exit (-ENODEV) []) []
  | present {o} : d.disconnected = false → ReadMove .locked o d .retry []
  | wouldBlock {o} : d.ongoingRead = true → nonblock = true →
      ReadMove .retry o d (.exit (-EAGAIN) []) []
  | wait {o} : d.ongoingRead = true → ReadMove .retry o d .waiting []
  | idle {o} : d.ongoingRead = false → ReadMove .retry o d .checkErrors []
  | woken {o} : d.ongoingRead = false → ReadMove .waiting o d .checkErrors []
  | interrupted {err} : d.ongoingRead = true →
      ReadMove .waiting (.fails err) d (.exit (-ERESTARTSYS) []) []
  | tanked {o} : d.errors < 0 →
      ReadMove .checkErrors o d (.clearErrors d.errors) []
  | noError {o} : 0 ≤ d.errors → ReadMove .checkErrors o d .inspect []
  | clear {o rv} :
      ReadMove (.clearErrors rv) o { d with errors := 0 }
        (.exit (reported rv) []) []
  | drained {o} : d.bulkInFilled - d.bulkInCopied = 0 →
      ReadMove .inspect o d (.markOngoing count .retry) []
  | filled {o} : 0 < d.bulkInFilled - d.bulkInCopied →
      ReadMove .inspect o d (.copy (d.bulkInFilled - d.bulkInCopied)) []
  | copyShort {o available} : available < count →
      ReadMove (.copy available) o
        { d with bulkInCopied := d.bulkInCopied + min available count }
        (.markOngoing (count - min available count)
          (.exit (copyToUser d (min available count) o).1
            (copyToUser d (min available count) o).2)) []
  | copyAll {o available} : count ≤ available →
      ReadMove (.copy available) o
        { d with bulkInCopied := d.bulkInCopied + min available count }
        (.exit (copyToUser d (min available count) o).1
          (copyToUser d (min available count) o).2) []
  | markOngoing {o n next} : d.errLock = false →
      ReadMove (.markOngoing n next) o { d with ongoingRead := true }
        (.emptyBuffer (min d.bulkInSize n) next) []
  | emptyBuffer {o length next} :
      ReadMove (.emptyBuffer length next) o
        { d with bulkInFilled := 0, bulkInCopied := 0 }
        (.submit length next) []
  | submit {length next} : d.bulkInUrb = none →
      ReadMove (.submit length next) .ok
        { d with bulkInUrb := some length } next.succeeded
        [.readSubmitted length]
  | submitFails {length next err} : err < 0 →
      ReadMove (.submit length next) (.fails err) d
        (.submitFailed (submitError err) next) []
  | unmarkOngoing {o rv next} : d.errLock = false →
      ReadMove (.submitFailed rv next) o { d with ongoingRead := false }
        (next.failed rv) []
  | exit {o rv user} :
      ReadMove (.exit rv user) o { d with ioMutex := none } .done
        [.returned rv user]

/-- The steps of `skel_write`. -/
inductive WriteMove :
    WritePc → Outcome → UsbSkel → WritePc → List Event → Prop
  | zeroCount {o} : count = 0 → WriteMove .start o d .done [.returned 0 []]
  | busy {o} : d.limitSem = 0 → nonblock = true →
      WriteMove .start o d .done [.returned (-EAGAIN) []]
  | interrupted {err} : d.limitSem = 0 →
      WriteMove .start (.fails err) d .done [.returned (-ERESTARTSYS) []]
  | down {o} : 0 < d.limitSem →
      WriteMove .start o { d with limitSem := d.limitSem - 1 } .checkErrors []
  | tanked {o} : d.errLock = false → d.errors < 0 →
      WriteMove .checkErrors o { d with errLock := true }
        (.clearErrors d.errors) []
  | noError {o} : d.errLock = false → 0 ≤ d.errors →
      WriteMove .checkErrors o d .allocUrb []
  | clear {o retval} :
      WriteMove (.clearErrors retval) o
        { d with errors := 0, errLock := false }
        (.error (reported retval) none) []
  | allocUrb : WriteMove .allocUrb .ok d .allocCoherent []
  | noUrb {err} :
      WriteMove .allocUrb (.fails err) d (.error (-ENOMEM) none) []
  | allocCoherent :
      WriteMove .allocCoherent .ok { d with buffers := d.buffers + 1 }
        (.copyFromUser d.buffers) [.coherentAllocated d.buffers]
  | noBuffer {err} :
      WriteMove .allocCoherent (.fails err) d (.error (-ENOMEM) none) []
  | copyFromUser {buf} :
      WriteMove (.copyFromUser buf) .ok d (.lockIo buf) []
  | fault {buf err} :
      WriteMove (.copyFromUser buf) (.fails err) d
        (.error (-EFAULT) (some buf)) []
  | lock {o buf} : d.ioMutex = none →
      WriteMove (.lockIo buf) o { d with ioMutex := some me } (.locked buf) []
  | gone {o buf} : d.disconnected = true →
      WriteMove (.locked buf) o { d with ioMutex := none }
        (.error (-ENODEV) (some buf)) []
  | present {o buf} : d.disconnected = false →
      WriteMove (.locked buf) o d (.submit buf) []
  | submit {buf} :
      WriteMove (.submit buf) .ok
        { d with submitted := d.submitted ++
            [⟨buf, min count maxTransfer, .inFlight⟩] }
        .submitted [.writeSubmitted buf]
  | submitFails {buf err} : err < 0 →
      WriteMove (.submit buf) (.fails err) d (.submitFailed err buf) []
  | written {o} :
      WriteMove .submitted o { d with ioMutex := none } .done
        [.returned (min count maxTransfer : Nat) []]
  | unanchor {o retval buf} :
      WriteMove (.submitFailed retval buf) o { d with ioMutex := none }
        (.error retval (some buf)) []
  | freeCoherent {o retval buf} :
      WriteMove (.error retval buf) o d (.up retval)
        (buf.toList.map fun buf => .coherentFreed buf .writer)
  | up {o retval} :
      WriteMove (.up retval) o { d with limitSem := d.limitSem + 1 } .done
        [.returned retval []]

/-- The steps of `skel_flush`. -/
inductive FlushMove :
    FlushPc → Outcome → UsbSkel → FlushPc → List Event → Prop
  | lock {o} : d.ioMutex = none →
      FlushMove .start o { d with ioMutex := some me }
        (.drawDown .waitAnchor) []
  | drawDown {o pc pc'} : drawDown d pc o = some (some pc') →
      FlushMove (.drawDown pc) o d (.drawDown pc') []
  | drawnDown {o pc} : drawDown d pc o = some none →
      FlushMove (.drawDown pc) o d .collect []
  | collect {o} : d.errLock = false →
      FlushMove .collect o { d with errors := 0 }
        (.exit (flushed d.errors)) []
  | exit {o res} :
      FlushMove (.exit res) o { d with ioMutex := none } .done
        [.returned res []]

/-- The steps of a call. -/
inductive OpMove : Op → Outcome → UsbSkel → Op → List Event → Prop
  | read {nonblock count pc o d' pc' ev} :
      ReadMove d me nonblock count pc o d' pc' ev →
      OpMove (.read nonblock count pc) o d' (.read nonblock count pc') ev
  | write {nonblock count pc o d' pc' ev} :
      WriteMove d me nonblock count pc o d' pc' ev →
      OpMove (.write nonblock count pc) o d' (.write nonblock count pc') ev
  | flush {pc o d' pc' ev} : FlushMove d me pc o d' pc' ev →
      OpMove (.flush pc) o d' (.flush pc') ev

end Calls

section CallCases

variable {d d' : UsbSkel} {me : Owner} {nonblock : Bool} {count : Nat}
  {o : Outcome} {ev : List Event}

theorem readStep_cases {pc pc' : ReadPc}
    (h : readStep d me nonblock count pc o = some (d', pc', ev)) :
    ReadMove d me nonblock count pc o d' pc' ev := by
  unfold readStep at h
  split at h
  all_goals try dsimp only at h
  all_goals repeat' split at h
  -- every branch that steps is one constructor; its guards are left
  all_goals cases h
  all_goals constructor
  all_goals first
    | assumption
    | omega
    | simp_all

theorem writeStep_cases {pc pc' : WritePc}
    (h : writeStep d me nonblock count pc o = some (d', pc', ev)) :
    WriteMove d me nonblock count pc o d' pc' ev := by
  unfold writeStep at h
  split at h
  all_goals repeat' split at h
  all_goals cases h
  all_goals constructor
  all_goals first
    | assumption
    | omega
    | simp_all

theorem flushStep_cases {pc pc' : FlushPc}
    (h : flushStep d me pc o = some (d', pc', ev)) :
    FlushMove d me pc o d' pc' ev := by
  unfold flushStep at h
  split at h
  all_goals repeat' split at h
  all_goals cases h
  all_goals constructor
  all_goals first
    | assumption
    | simp_all

theorem Op.step_cases {op op' : Op}
    (h : op.step d me o = some (d', op', ev)) : OpMove d me op o d' op' ev := by
  cases op with
  | read nonblock count pc =>
      obtain ⟨⟨d₁, pc₁, ev₁⟩, hstep, heq⟩ := Option.map_eq_some_iff.mp h
      cases heq
      exact .read (readStep_cases hstep)
  | write nonblock count pc =>
      obtain ⟨⟨d₁, pc₁, ev₁⟩, hstep, heq⟩ := Option.map_eq_some_iff.mp h
      cases heq
      exact .write (writeStep_cases hstep)
  | flush pc =>
      obtain ⟨⟨d₁, pc₁, ev₁⟩, hstep, heq⟩ := Option.map_eq_some_iff.mp h
      cases heq
      exact .flush (flushStep_cases hstep)

end CallCases

/-! ## Steps of the files, of the USB core and of the whole -/

/-- The steps of `skel_open` and `skel_release`. -/
inductive FileMove (d : UsbSkel) (intfdata : Bool) :
    File → Outcome → UsbSkel → File → List Event → Prop
  | found : FileMove d intfdata .findInterface .ok d .getIntfdata []
  | notFound {err} :
      FileMove d intfdata .findInterface (.fails err) d .closed []
  | device {o} : intfdata = true →
      FileMove d intfdata .getIntfdata o d .autopmGet []
  | noDevice {o} : intfdata = false →
      FileMove d intfdata .getIntfdata o d .closed []
  | autopmGet : FileMove d intfdata .autopmGet .ok d .krefGet []
  | noAutopm {err} :
      FileMove d intfdata .autopmGet (.fails err) d .closed []
  | krefGet {o} :
      FileMove d intfdata .krefGet o { d with kref := d.kref + 1 } .opened []
  | autopmPut {o} : FileMove d intfdata .autopmPut o d .krefPut []
  | dropRef {o} :
      FileMove d intfdata .krefPut o (krefPut d).1 .closed (krefPut d).2

theorem fileStep_cases {d d' : UsbSkel} {intfdata : Bool} {file file' : File}
    {o : Outcome} {ev : List Event}
    (h : fileStep d intfdata file o = some (d', file', ev)) :
    FileMove d intfdata file o d' file' ev := by
  unfold fileStep at h
  split at h
  all_goals repeat' split at h
  all_goals cases h
  all_goals constructor
  all_goals first
    | assumption
    | simp_all

/-- `kref_put` changes nothing but the count and the number of deletions. -/
theorem krefPut_frame (d : UsbSkel) :
    ∃ k n, (krefPut d).1 = { d with kref := k, deleted := n } := by
  unfold krefPut
  split_ifs
  · exact ⟨_, _, rfl⟩
  · exact ⟨_, d.deleted, rfl⟩

theorem krefPut_events (d : UsbSkel) :
    (krefPut d).2 = [] ∨ (krefPut d).2 = [.deleted] := by
  unfold krefPut
  split_ifs
  · exact Or.inr rfl
  · exact Or.inl rfl

theorem FileMove.frame {d d' : UsbSkel} {intfdata : Bool} {file file' : File}
    {o : Outcome} {ev : List Event}
    (h : FileMove d intfdata file o d' file' ev) :
    ∃ k n, d' = { d with kref := k, deleted := n } := by
  cases h with
  | dropRef => exact krefPut_frame d
  | krefGet => exact ⟨_, d.deleted, rfl⟩
  | _ => exact ⟨d.kref, d.deleted, rfl⟩

theorem FileMove.events {d d' : UsbSkel} {intfdata : Bool}
    {file file' : File} {o : Outcome} {ev : List Event}
    (h : FileMove d intfdata file o d' file' ev) :
    ev = [] ∨ ev = [.deleted] := by
  cases h with
  | dropRef => exact krefPut_events d
  | _ => exact Or.inl rfl

/-- The steps of the thread of the USB core. -/
inductive CoreMove (s : State) :
    Core → Outcome → State → List Event → Prop
  | kzalloc :
      CoreMove s .unbound .ok
        { s with dev := UsbSkel.fresh, core := .findEndpoints } []
  | noMemory {err} :
      CoreMove s .unbound (.fails err) { s with core := .gone } []
  | endpoints (maxp : UInt16) :
      CoreMove s .findEndpoints .ok
        { s with
          dev := { s.dev with bulkInSize := usbEndpointMaxp maxp }
          core := .allocBuffer } []
  | noEndpoints {err} :
      CoreMove s .findEndpoints (.fails err) { s with core := .probeError } []
  | allocBuffer :
      CoreMove s .allocBuffer .ok { s with core := .allocUrb } []
  | noBuffer {err} :
      CoreMove s .allocBuffer (.fails err) { s with core := .probeError } []
  | allocUrb : CoreMove s .allocUrb .ok { s with core := .setIntfdata } []
  | noUrb {err} :
      CoreMove s .allocUrb (.fails err) { s with core := .probeError } []
  | setIntfdata {o} :
      CoreMove s .setIntfdata o
        { s with intfdata := true, core := .registerDev } []
  | registerDev :
      CoreMove s .registerDev .ok
        { s with registered := true, core := .bound } []
  | noMinor {err} :
      CoreMove s .registerDev (.fails err)
        { s with core := .clearIntfdata } []
  | clearIntfdata {o} :
      CoreMove s .clearIntfdata o
        { s with intfdata := false, core := .probeError } []
  | probeFails {o} :
      CoreMove s .probeError o
        { s with dev := (krefPut s.dev).1, core := .gone } (krefPut s.dev).2
  | suspend {o pc pc'} : drawDown s.dev pc o = some (some pc') →
      CoreMove s (.suspend pc) o { s with core := .suspend pc' } []
  | suspended {o pc} : drawDown s.dev pc o = some none →
      CoreMove s (.suspend pc) o { s with core := .bound } []
  | preReset {o} : s.dev.ioMutex = none →
      CoreMove s .preReset o
        { s with
          dev := { s.dev with ioMutex := some .core }
          core := .preResetLocked .waitAnchor } []
  | preResetLocked {o pc pc'} : drawDown s.dev pc o = some (some pc') →
      CoreMove s (.preResetLocked pc) o
        { s with core := .preResetLocked pc' } []
  | drawnDown {o pc} : drawDown s.dev pc o = some none →
      CoreMove s (.preResetLocked pc) o { s with core := .inReset } []
  | postReset {o} :
      CoreMove s .inReset o
        { s with
          dev := { s.dev with errors := -EPIPE }
          core := .postResetUnlock } [.resetRecorded]
  | postResetUnlock {o} :
      CoreMove s .postResetUnlock o
        { s with dev := { s.dev with ioMutex := none }, core := .bound } []
  | disconnect {o} :
      CoreMove s .disconnect o
        { s with intfdata := false, core := .deregisterDev } []
  | deregisterDev {o} : s.files.any File.opening = false →
      CoreMove s .deregisterDev o
        { s with registered := false, core := .lockIo } []
  | lockIo {o} : s.dev.ioMutex = none →
      CoreMove s .lockIo o
        { s with
          dev := { s.dev with ioMutex := some .core }
          core := .setDisconnected } []
  | setDisconnected {o} :
      CoreMove s .setDisconnected o
        { s with
          dev := { s.dev with disconnected := true, ioMutex := none }
          core := .killRead } []
  | killRead {o} : s.dev.bulkInUrb = none → s.dev.readCallbacks = 0 →
      CoreMove s .killRead o { s with core := .killAnchored } []
  | killAnchored {o} : s.dev.submitted = [] →
      CoreMove s .killAnchored o { s with core := .krefPut } []
  | dropRef {o} :
      CoreMove s .krefPut o
        { s with dev := (krefPut s.dev).1, core := .gone } (krefPut s.dev).2

theorem coreStep_cases {s s' : State} {maxp : UInt16} {pc : Core}
    {o : Outcome} {ev : List Event}
    (h : coreStep s maxp pc o = some (s', ev)) : CoreMove s pc o s' ev := by
  unfold coreStep at h
  split at h
  all_goals repeat' split at h
  all_goals cases h
  all_goals constructor
  all_goals first
    | assumption
    | simp_all

theorem CoreMove.calls_eq {s s' : State} {pc : Core} {o : Outcome}
    {ev : List Event} (h : CoreMove s pc o s' ev) : s'.calls = s.calls := by
  cases h <;> rfl

theorem CoreMove.files_eq {s s' : State} {pc : Core} {o : Outcome}
    {ev : List Event} (h : CoreMove s pc o s' ev) : s'.files = s.files := by
  cases h <;> rfl

theorem CoreMove.events {s s' : State} {pc : Core} {o : Outcome}
    {ev : List Event} (h : CoreMove s pc o s' ev) :
    ev = [] ∨ ev = [.deleted] ∨ ev = [.resetRecorded] := by
  cases h with
  | probeFails | dropRef =>
      exact (krefPut_events s.dev).imp_right Or.inl
  | postReset => exact Or.inr (Or.inr rfl)
  | _ => exact Or.inl rfl

/-- The steps of the whole. -/
inductive Move (s : State) : Act → State → List Event → Prop
  | core {o maxp s' ev} : CoreMove s s.core o s' ev →
      Move s (.core o maxp) s' ev
  | suspend : s.core = .bound →
      Move s .suspend { s with core := .suspend .waitAnchor } []
  | reset : s.core = .bound → Move s .reset { s with core := .preReset } []
  | disconnect : s.core = .bound →
      Move s .disconnect { s with core := .disconnect } []
  | openFile : s.registered = true →
      Move s .openFile { s with files := s.files ++ [.findInterface] } []
  | release {f} : s.files[f]? = some .opened →
      (∀ c ∈ s.calls, c.1 = f → c.2.active = false) →
      Move s (.release f) { s with files := s.files.set f .autopmPut } []
  | file {f o file d' file' ev} : s.files[f]? = some file →
      FileMove s.dev s.intfdata file o d' file' ev →
      Move s (.file f o) { s with dev := d', files := s.files.set f file' } ev
  | enterRead {f nonblock count} : s.files[f]? = some .opened →
      Move s (.enterRead f nonblock count)
        { s with calls := s.calls ++ [(f, .read nonblock count .start)] } []
  | enterWrite {f nonblock count} : s.files[f]? = some .opened →
      Move s (.enterWrite f nonblock count)
        { s with calls := s.calls ++ [(f, .write nonblock count .start)] } []
  | enterFlush {f} : s.files[f]? = some .opened →
      Move s (.enterFlush f)
        { s with calls := s.calls ++ [(f, .flush .start)] } []
  | call {i o f op d' op' ev} : s.calls[i]? = some (f, op) →
      OpMove s.dev (.call i) op o d' op' ev →
      Move s (.call i o)
        { s with dev := d', calls := s.calls.set i (f, op') } ev
  | readCompletes {status payload length} :
      s.dev.bulkInUrb = some length → s.dev.errLock = false → status ≤ 0 →
      Move s (.readCompletes status payload)
        { s with dev := s.dev.readDone status payload }
        [.readCompleted status payload]
  | readWakesUp : 0 < s.dev.readCallbacks →
      Move s .readWakesUp
        { s with
          dev := { s.dev with readCallbacks := s.dev.readCallbacks - 1 } } []
  | writeCompletes {k status buf length} :
      s.dev.submitted[k]? = some ⟨buf, length, .inFlight⟩ → status ≤ 0 →
      (status ≠ 0 → s.dev.errLock = false) →
      Move s (.writeCompletes k status)
        { s with
          dev := { s.dev with
            errors := errorsAfter s.dev.errors status
            submitted := s.dev.submitted.set k ⟨buf, length, .freeCoherent⟩ } }
        [.writeCompleted status]
  | writeFrees {k buf length} :
      s.dev.submitted[k]? = some ⟨buf, length, .freeCoherent⟩ →
      Move s (.writeCallback k)
        { s with
          dev := { s.dev with
            submitted := s.dev.submitted.set k ⟨buf, length, .up⟩ } }
        [.coherentFreed buf .callback]
  | writeUps {k buf length} :
      s.dev.submitted[k]? = some ⟨buf, length, .up⟩ →
      Move s (.writeCallback k)
        { s with
          dev := { s.dev with
            submitted := s.dev.submitted.eraseIdx k
            limitSem := s.dev.limitSem + 1 } } []

theorem callDriver_cases {s s' : State} {core : Core} {ev : List Event}
    (h : s.callDriver core = some (s', ev)) :
    s.core = .bound ∧ s' = { s with core := core } ∧ ev = [] := by
  unfold State.callDriver at h
  split_ifs at h with hbound
  cases h
  exact ⟨hbound, rfl, rfl⟩

theorem enter_cases {s s' : State} {f : Nat} {op : Op} {ev : List Event}
    (h : s.enter f op = some (s', ev)) :
    s.files[f]? = some .opened ∧
      s' = { s with calls := s.calls ++ [(f, op)] } ∧ ev = [] := by
  unfold State.enter at h
  split_ifs at h with hopened
  cases h
  exact ⟨hopened, rfl, rfl⟩

/-- The step of a call, as the function computes it. -/
theorem call_step {s s' : State} {i : Nat} {o : Outcome} {ev : List Event}
    (h : skelDriver.step s (.call i o) = some (s', ev)) :
    ∃ f op d' op', s.calls[i]? = some (f, op) ∧
      op.step s.dev (.call i) o = some (d', op', ev) ∧
      s' = { s with dev := d', calls := s.calls.set i (f, op') } := by
  change s.step (.call i o) = some (s', ev) at h
  simp only [State.step] at h
  cases hcall : s.calls[i]? with
  | none => simp [hcall] at h
  | some c =>
      obtain ⟨f, op⟩ := c
      simp only [hcall] at h
      obtain ⟨⟨d', op', ev'⟩, hstep, heq⟩ := Option.map_eq_some_iff.mp h
      cases heq
      exact ⟨f, op, d', op', rfl, hstep, rfl⟩

theorem step_cases {s s' : State} {a : Act} {ev : List Event}
    (h : skelDriver.step s a = some (s', ev)) : Move s a s' ev := by
  change s.step a = some (s', ev) at h
  cases a with
  | core o maxp => exact .core (coreStep_cases h)
  | suspend =>
      obtain ⟨hbound, rfl, rfl⟩ := callDriver_cases h
      exact .suspend hbound
  | reset =>
      obtain ⟨hbound, rfl, rfl⟩ := callDriver_cases h
      exact .reset hbound
  | disconnect =>
      obtain ⟨hbound, rfl, rfl⟩ := callDriver_cases h
      exact .disconnect hbound
  | openFile =>
      simp only [State.step] at h
      split_ifs at h with hreg
      cases h
      exact .openFile hreg
  | release f =>
      simp only [State.step] at h
      split at h
      · rename_i hopened
        cases h
        refine .release hopened.1 fun c hc hf => ?_
        have := List.all_eq_true.mp hopened.2 c hc
        simpa [hf] using this
      · cases h
  | file f o =>
      simp only [State.step] at h
      cases hfile : s.files[f]? with
      | none => simp [hfile] at h
      | some file =>
          simp only [hfile] at h
          obtain ⟨⟨d', file', ev'⟩, hstep, heq⟩ := Option.map_eq_some_iff.mp h
          cases heq
          exact .file hfile (fileStep_cases hstep)
  | enterRead f nonblock count =>
      obtain ⟨hopened, rfl, rfl⟩ := enter_cases h
      exact .enterRead hopened
  | enterWrite f nonblock count =>
      obtain ⟨hopened, rfl, rfl⟩ := enter_cases h
      exact .enterWrite hopened
  | enterFlush f =>
      obtain ⟨hopened, rfl, rfl⟩ := enter_cases h
      exact .enterFlush hopened
  | call i o =>
      obtain ⟨f, op, d', op', hcall, hstep, rfl⟩ := call_step h
      exact .call hcall (Op.step_cases hstep)
  | readCompletes status payload =>
      obtain ⟨⟨d', ev'⟩, hstep, heq⟩ := Option.map_eq_some_iff.mp h
      cases heq
      unfold readCallback at hstep
      split_ifs at hstep with hguard
      cases hstep
      push Not at hguard
      obtain ⟨length, hurb⟩ := Option.ne_none_iff_exists'.mp hguard.1
      exact .readCompletes hurb (by simpa using hguard.2.1) hguard.2.2
  | readWakesUp =>
      obtain ⟨⟨d', ev'⟩, hstep, heq⟩ := Option.map_eq_some_iff.mp h
      cases heq
      unfold readWakeUp at hstep
      split_ifs at hstep with hguard
      cases hstep
      exact .readWakesUp (Nat.pos_of_ne_zero hguard)
  | writeCompletes k status =>
      obtain ⟨⟨d', ev'⟩, hstep, heq⟩ := Option.map_eq_some_iff.mp h
      cases heq
      unfold writeCallback at hstep
      split at hstep
      · rename_i buf length hurb
        split_ifs at hstep with hguard
        cases hstep
        push Not at hguard
        exact .writeCompletes hurb hguard.1
          fun hne => by simpa using hguard.2 hne
      · cases hstep
  | writeCallback k =>
      obtain ⟨⟨d', ev'⟩, hstep, heq⟩ := Option.map_eq_some_iff.mp h
      cases heq
      unfold writeCallbackTail at hstep
      split at hstep
      · rename_i buf length hurb
        cases hstep
        exact .writeFrees hurb
      · rename_i buf length hurb
        cases hstep
        exact .writeUps hurb
      · cases hstep

end Skel
end USB
end KernelDrivers
