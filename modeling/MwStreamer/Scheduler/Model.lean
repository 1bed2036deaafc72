import MwStreamer.Library.Transition
import MwStreamer.Syncer.Timing

/-!
# The realtime scheduler

One driver thread, two processing workers and the threads outside: `Scheduler::Impl` between `Start` and
`Stop` as a transition system.  A step is a section under the mutex, one access to a signal or to the clock,
or one call of another component; between two steps any other thread may run.  Program counters carry the
local variables of a thread.

The source, the realtime decision, the business filters and the syncer answer arbitrarily, and each call may
throw.  A converter is any implementation of `Converter`.  `WaitSignal` and `WriteSignal` are their revision
counters, as natural numbers: 2^64 notifications between two looks, where the `uint64_t` wraps, are left out.
Waiting on a condition variable is a step that needs its predicate.
-/

namespace MwStreamer

/-- What a worker needs of `ForceFps` or `AudioResampler`; `none` is a call that throws or does not return. -/
class Converter (κ : Type) where
  tryPushFrame : κ → AvDecoderReadResult → Option (Bool × κ)
  tryReadFrame : κ → Option (AvDecoderReadResult × κ)

export Converter (tryPushFrame tryReadFrame)

namespace Scheduler

def kNoWake : ℤ := int64Max

def kDiscardBatch : ℕ := 8

def kOutputRetryUs : ℤ := 20000

/-- `InputPts`. -/
def inputPts [Libav] (input : AvDecoderReadResult) : Except Exception ℤ :=
  match input.frame with
  | none => .error (.invalidArgument "Scheduler 输入需要有效的帧和时间戳")
  | some frame =>
    if ¬input.timeBase.Positive ∨ frame.pts = avNoptsValue then
      .error (.invalidArgument "Scheduler 输入需要有效的帧和时间戳")
    else rescaleChecked "Scheduler 输入时间戳溢出" frame.pts input.timeBase ⟨1, 1000000⟩

/-- `RealtimeTiming::Decision`. -/
structure RealtimeDecision where
  ready : Bool := false
  discard : Bool := false
  wakeUs : ℤ := 0
  deriving DecidableEq, Repr

/-- `Scheduler::Impl::Track`. -/
structure Track where
  enabled : Bool := false
  busy : Bool := false
  requested : Bool := false
  completed : Bool := false
  task : AvDecoderReadResult := {}
  result : AvDecoderReadResult := {}
  needsInput : Bool := true
  sourceHead : AvDecoderReadResult := {}
  head : AvDecoderReadResult := {}
  syncerWakeUs : ℤ := 0
  outputBlocked : Bool := false
  blockedRevision : ℕ := 0
  outputRetryUs : ℤ := 0
  deriving DecidableEq, Repr

namespace Track

/-- `Complete`. -/
def complete (track : Track) (now : ℤ) : Track :=
  if track.completed then
    { track with
      head := track.result
      result := {}
      completed := false
      -- A fresh head ends the source wait.
      syncerWakeUs := if track.result.status ≠ .null then now else track.syncerWakeUs }
  else track

/-- `Dispatch`, unless the scheduler is stopping. -/
def dispatch (track : Track) (input : AvDecoderReadResult) : Track :=
  { track with task := input, busy := true, requested := true }

/-- Whether `Deliver` returns before it calls the syncer. -/
def skipsDelivery (track : Track) (observedSpace : ℕ) (now : ℤ) : Bool :=
  (track.outputBlocked && observedSpace == track.blockedRevision && decide (now < track.outputRetryUs)) ||
    (!track.outputBlocked && decide (now < track.syncerWakeUs))

/-- The head `Deliver` hands to the syncer. -/
def stepHead (track : Track) : Option AvDecoderReadResult :=
  if track.head.status = .null then none else some track.head

/-- The end of `Deliver`, after the syncer returned. -/
def deliver (track : Track) (observedSpace : ℕ) (step : SyncerStep) (now : ℤ) : Track :=
  let track := if step.consumed then { track with head := {} } else track
  let track := { track with syncerWakeUs := step.wakeUs }
  if step.blocked then
    { track with
      outputBlocked := true
      blockedRevision := observedSpace
      outputRetryUs := now + kOutputRetryUs }
  else track

/-- The last section of `Process`. -/
def publish (track : Track) (pending output : AvDecoderReadResult) : Track :=
  { track with
    needsInput := decide (pending.status = .null) && decide (output.status = .null)
    result := output
    busy := false
    completed := true }

end Track

/-! ### Threads -/

/-- Where the driver is, with the values it read on the way. -/
inductive DriverPc where
  | top
  | observe
  | checkSource
  | complete
  | deliver
  | look (now : ℤ)
  | stepping (now : ℤ) (observedSpace : ℕ)
  | drain (count : ℕ)
  | delivered
  | prepare
  | prepareLocked (now : ℤ)
  | prepareHead (now : ℤ)
  | prepareReady (now : ℤ)
  | dispatching (input : AvDecoderReadResult)
  | wakeRevision
  | wakeDeadline (blocked : Bool)
  | prepared
  | checkStop
  | waiting
  | stopped
  deriving DecidableEq, Repr

/-- The driver; `video` is the index of its loops, and the video track comes first. -/
structure Driver where
  pc : DriverPc := .top
  video : Bool := true
  observed : ℕ := 0
  wake : ℤ := kNoWake
  deriving DecidableEq, Repr

inductive WorkerPc where
  | waiting
  | filtering (input : AvDecoderReadResult)
  | pushing
  | reading
  | filteringOutput (output : AvDecoderReadResult)
  | publishing (output : AvDecoderReadResult)
  | notifying
  | stopped
  deriving DecidableEq, Repr

structure Worker where
  pc : WorkerPc := .waiting
  pending : AvDecoderReadResult := {}
  deriving DecidableEq, Repr

/-- What is recorded of a track. -/
inductive TrackEvent where
  /-- The driver read an item from the source. -/
  | read (item : AvDecoderReadResult)
  /-- The realtime decision discarded the item. -/
  | discarded (item : AvDecoderReadResult)
  /-- The driver stored a source item as the task of the worker. -/
  | dispatched (item : AvDecoderReadResult)
  /-- The worker handed an item to the filter; audio goes on to the converter as it is. -/
  | received (item : AvDecoderReadResult)
  /-- The filter left an item for the converter. -/
  | filtered (item : AvDecoderReadResult)
  /-- The converter accepted the item. -/
  | pushed (item : AvDecoderReadResult)
  /-- The audio filter returned nothing for a converted frame; `left` tells that the converter has more. -/
  | swallowed (left : Bool)
  /-- The worker published an item. -/
  | returned (item : AvDecoderReadResult)
  /-- `Deliver` read the revision of the output signal and goes on to the syncer. -/
  | looked (observedSpace : ℕ)
  /-- The syncer returned. -/
  | stepped (head : Option AvDecoderReadResult) (consumed blocked : Bool)
  /-- `WriteSignal::Notify` advanced the revision of the track. -/
  | notified
  deriving DecidableEq, Repr

inductive Event where
  | at (video : Bool) (event : TrackEvent)
  /-- The driver read the revision of its signal. -/
  | observed
  /-- `WaitSignal::Notify` advanced the revision of the driver's signal. -/
  | signalled
  deriving DecidableEq, Repr

/-- What a driver step reads besides its own variables and the current track. -/
structure Shared where
  stopping : Bool := false
  signal : ℕ := 0
  /-- The revision of the current track's output signal. -/
  space : ℕ := 0
  now : ℤ := 0
  deriving DecidableEq, Repr

/-- The item as an event, when it is one. -/
def itemEvent (video : Bool) (event : AvDecoderReadResult → TrackEvent) (item : AvDecoderReadResult) :
    List Event :=
  if item.status = .null then [] else [.at video (event item)]

/-! ### The driver -/

section

variable [Libav]

/-- One step of `RunDriver` that does not throw. -/
inductive DriverStep (shared : Shared) : Driver → Track → List Event → Driver → Track → Prop where
  | topStop (d t) (hpc : d.pc = .top) (hstop : shared.stopping = true) :
      DriverStep shared d t [] { d with pc := .stopped } t
  | top (d t) (hpc : d.pc = .top) (hgo : shared.stopping = false) :
      DriverStep shared d t [] { d with pc := .observe } t
  | observe (d t) (hpc : d.pc = .observe) :
      DriverStep shared d t [.observed] { d with pc := .checkSource, observed := shared.signal } t
  | checkSource (d t) (hpc : d.pc = .checkSource) :
      DriverStep shared d t [] { d with pc := .complete, video := true, wake := kNoWake } t
  | complete (d t) (hpc : d.pc = .complete) (henabled : t.enabled = true) :
      DriverStep shared d t [] { d with pc := .deliver } (t.complete shared.now)
  | completeDisabled (d t) (hpc : d.pc = .complete) (henabled : t.enabled = false) :
      DriverStep shared d t [] { d with pc := .drain 0 } t
  -- `DrainDisabled`: reads until nothing is left or the batch is full.
  | drainEmpty (d t count) (hpc : d.pc = .drain count) (hmore : count < kDiscardBatch) :
      DriverStep shared d t [] { d with pc := .delivered } t
  | drainItem (d t count) (hpc : d.pc = .drain count) (hmore : count < kDiscardBatch) :
      DriverStep shared d t [] { d with pc := .drain (count + 1) } t
  | drainFull (d t count) (hpc : d.pc = .drain count) (hfull : kDiscardBatch ≤ count) :
      DriverStep shared d t [] { d with pc := .delivered, wake := shared.now } t
  -- `Deliver`: the clock is read by the caller, then the output signal, then the syncer runs.
  | deliver (d t) (hpc : d.pc = .deliver) :
      DriverStep shared d t [] { d with pc := .look shared.now } t
  | lookSkip (d t now) (hpc : d.pc = .look now) (hskip : t.skipsDelivery shared.space now = true) :
      DriverStep shared d t [] { d with pc := .delivered } t
  | look (d t now) (hpc : d.pc = .look now) (hskip : t.skipsDelivery shared.space now = false) :
      DriverStep shared d t [.at d.video (.looked shared.space)]
        { d with pc := .stepping now shared.space } { t with outputBlocked := false }
  | stepping (d t now observedSpace) (step : SyncerStep) (hpc : d.pc = .stepping now observedSpace) :
      DriverStep shared d t [.at d.video (.stepped t.stepHead step.consumed step.blocked)]
        { d with pc := .delivered } (t.deliver observedSpace step shared.now)
  | deliveredStop (d t) (hpc : d.pc = .delivered) (hstop : shared.stopping = true) :
      DriverStep shared d t [] { d with pc := .stopped } t
  | deliveredNext (d t) (hpc : d.pc = .delivered) (hgo : shared.stopping = false)
      (hvideo : d.video = true) :
      DriverStep shared d t [] { d with pc := .complete, video := false } t
  | deliveredLast (d t) (hpc : d.pc = .delivered) (hgo : shared.stopping = false)
      (hvideo : d.video = false) :
      DriverStep shared d t [] { d with pc := .prepare, video := true } t
  | prepare (d t) (hpc : d.pc = .prepare) (henabled : t.enabled = true) :
      DriverStep shared d t [] { d with pc := .prepareLocked shared.now } t
  | prepareDisabled (d t) (hpc : d.pc = .prepare) (henabled : t.enabled = false) :
      DriverStep shared d t [] { d with pc := .prepared } t
  | prepareBusy (d t now) (hpc : d.pc = .prepareLocked now)
      (hbusy : t.busy = true ∨ t.completed = true) :
      DriverStep shared d t [] { d with pc := .wakeRevision } t
  | prepareIdle (d t now) (hpc : d.pc = .prepareLocked now) (hbusy : t.busy = false)
      (hcompleted : t.completed = false) :
      DriverStep shared d t [] { d with pc := .prepareHead now } t
  | prepareHeld (d t now) (hpc : d.pc = .prepareHead now) (hhead : t.head.status ≠ .null) :
      DriverStep shared d t [] { d with pc := .wakeRevision } t
  -- The converter is asked for more without new input.
  | prepareDrain (d t now) (hpc : d.pc = .prepareHead now) (hhead : t.head.status = .null)
      (hneeds : t.needsInput = false) :
      DriverStep shared d t [] { d with pc := .dispatching {} } t
  | prepareKept (d t now) (hpc : d.pc = .prepareHead now) (hhead : t.head.status = .null)
      (hneeds : t.needsInput = true) (hsource : t.sourceHead.status ≠ .null) :
      DriverStep shared d t [] { d with pc := .prepareReady now } t
  | prepareEmpty (d t now) (hpc : d.pc = .prepareHead now) (hhead : t.head.status = .null)
      (hneeds : t.needsInput = true) (hsource : t.sourceHead.status = .null)
      (item : AvDecoderReadResult) (hitem : item.status = .null) :
      DriverStep shared d t [] { d with pc := .wakeRevision } { t with sourceHead := item }
  | prepareRead (d t now) (hpc : d.pc = .prepareHead now) (hhead : t.head.status = .null)
      (hneeds : t.needsInput = true) (hsource : t.sourceHead.status = .null)
      (item : AvDecoderReadResult) (hitem : item.status ≠ .null) :
      DriverStep shared d t [.at d.video (.read item)] { d with pc := .prepareReady now }
        { t with sourceHead := item }
  -- The realtime decision on a frame; an end of file is dispatched at once.
  | prepareDiscard (d t now pts) (decision : RealtimeDecision) (hpc : d.pc = .prepareReady now)
      (hframe : t.sourceHead.status = .frame) (hpts : inputPts t.sourceHead = .ok pts)
      (hdiscard : decision.discard = true) :
      DriverStep shared d t [.at d.video (.discarded t.sourceHead)]
        { d with pc := .wakeRevision, wake := min d.wake now } { t with sourceHead := {} }
  | prepareWait (d t now pts) (decision : RealtimeDecision) (hpc : d.pc = .prepareReady now)
      (hframe : t.sourceHead.status = .frame) (hpts : inputPts t.sourceHead = .ok pts)
      (hdiscard : decision.discard = false) (hready : decision.ready = false) :
      DriverStep shared d t [] { d with pc := .wakeRevision, wake := min d.wake decision.wakeUs } t
  | prepareReady (d t now pts) (decision : RealtimeDecision) (hpc : d.pc = .prepareReady now)
      (hframe : t.sourceHead.status = .frame) (hpts : inputPts t.sourceHead = .ok pts)
      (hdiscard : decision.discard = false) (hready : decision.ready = true) :
      DriverStep shared d t [] { d with pc := .dispatching t.sourceHead } { t with sourceHead := {} }
  | prepareEof (d t now) (hpc : d.pc = .prepareReady now) (hframe : t.sourceHead.status ≠ .frame) :
      DriverStep shared d t [] { d with pc := .dispatching t.sourceHead } { t with sourceHead := {} }
  | dispatchStopped (d t input) (hpc : d.pc = .dispatching input) (hstop : shared.stopping = true) :
      DriverStep shared d t [] { d with pc := .wakeRevision } t
  | dispatch (d t input) (hpc : d.pc = .dispatching input) (hgo : shared.stopping = false) :
      DriverStep shared d t (itemEvent d.video .dispatched input) { d with pc := .wakeRevision }
        (t.dispatch input)
  -- The deadline of the track: first the output signal is read again, then the clock.
  | wakeRevision (d t) (hpc : d.pc = .wakeRevision) :
      DriverStep shared d t []
        { d with pc := .wakeDeadline (t.outputBlocked && t.blockedRevision == shared.space) } t
  | wakeDeadline (d t blocked) (hpc : d.pc = .wakeDeadline blocked) :
      DriverStep shared d t []
        { d with
          pc := .prepared
          wake := min d.wake
            (if t.outputBlocked then (if blocked then t.outputRetryUs else shared.now)
              else t.syncerWakeUs) } t
  | preparedNext (d t) (hpc : d.pc = .prepared) (hvideo : d.video = true) :
      DriverStep shared d t [] { d with pc := .prepare, video := false } t
  | preparedLast (d t) (hpc : d.pc = .prepared) (hvideo : d.video = false) :
      DriverStep shared d t [] { d with pc := .checkStop } t
  | checkStopStop (d t) (hpc : d.pc = .checkStop) (hstop : shared.stopping = true) :
      DriverStep shared d t [] { d with pc := .stopped } t
  | checkStop (d t) (hpc : d.pc = .checkStop) (hgo : shared.stopping = false) :
      DriverStep shared d t [] { d with pc := .waiting } t
  -- `Wait` or `WaitUntil`: the revision changed or the deadline has come.
  | awake (d t) (hpc : d.pc = .waiting)
      (hawake : shared.signal ≠ d.observed ∨ (d.wake ≠ kNoWake ∧ d.wake ≤ shared.now)) :
      DriverStep shared d t [] { d with pc := .top } t

end

/-- The calls of the driver that may throw. -/
def DriverPc.Throws : DriverPc → Prop
  | .checkSource | .stepping _ _ | .drain _ | .prepareHead _ | .prepareReady _ => True
  | _ => False

/-! ### The workers -/

section

variable {κ : Type} [Converter κ]

/-- Whether a read returns an item. -/
def Drained (converter : κ) : Prop :=
  ∀ item converter', tryReadFrame converter = some (item, converter') → item.status = .null

instance (converter : κ) : Decidable (Drained converter) :=
  match h : tryReadFrame converter with
  | none => .isTrue fun item converter' heq => by rw [h] at heq; cases heq
  | some (item, converter') =>
    decidable_of_iff (item.status = .null)
      ⟨fun hitem i c heq => by rw [h] at heq; cases heq; exact hitem, fun hall => hall _ _ h⟩

/-- One step of `Process` that does not throw. -/
inductive WorkerStep (video stopping : Bool) :
    Worker → Track → κ → List Event → Worker → Track → κ → Prop where
  | stop (w t c) (hpc : w.pc = .waiting) (hstop : stopping = true) :
      WorkerStep video stopping w t c [] { w with pc := .stopped } t c
  | fetch (w t c) (hpc : w.pc = .waiting) (hgo : stopping = false) (hrequested : t.requested = true) :
      WorkerStep video stopping w t c [] { w with pc := .filtering t.task }
        { t with task := {}, requested := false } c
  | filterNothing (w t c input) (hpc : w.pc = .filtering input) (hinput : input.status = .null) :
      WorkerStep video stopping w t c [] { w with pc := .pushing } t c
  -- `ProcessVideo` returns any item.
  | filterVideo (w t c input) (pending : AvDecoderReadResult) (hpc : w.pc = .filtering input)
      (hinput : input.status ≠ .null) (hvideo : video = true) :
      WorkerStep video stopping w t c (.at video (.received input) :: itemEvent video .filtered pending)
        ⟨.pushing, pending⟩ t c
  | filterAudio (w t c input) (hpc : w.pc = .filtering input) (hinput : input.status ≠ .null)
      (hvideo : video = false) :
      WorkerStep video stopping w t c [.at video (.received input), .at video (.filtered input)]
        ⟨.pushing, input⟩ t c
  | pushNothing (w t c) (hpc : w.pc = .pushing) (hpending : w.pending.status = .null) :
      WorkerStep video stopping w t c [] { w with pc := .reading } t c
  | pushRefused (w t c c') (hpc : w.pc = .pushing) (hpending : w.pending.status ≠ .null)
      (hpush : tryPushFrame c w.pending = some (false, c')) :
      WorkerStep video stopping w t c [] { w with pc := .reading } t c'
  | push (w t c c') (hpc : w.pc = .pushing) (hpending : w.pending.status ≠ .null)
      (hpush : tryPushFrame c w.pending = some (true, c')) :
      WorkerStep video stopping w t c [.at video (.pushed w.pending)] ⟨.reading, {}⟩ t c'
  | read (w t c c') (output : AvDecoderReadResult) (hpc : w.pc = .reading)
      (hread : tryReadFrame c = some (output, c')) :
      WorkerStep video stopping w t c [] { w with pc := .filteringOutput output } t c'
  | outputKept (w t c output) (hpc : w.pc = .filteringOutput output)
      (hkept : video = true ∨ output.status = .null) :
      WorkerStep video stopping w t c [] { w with pc := .publishing output } t c
  -- `ProcessAudio` returns any item.
  | outputFiltered (w t c output) (result : AvDecoderReadResult) (hpc : w.pc = .filteringOutput output)
      (hvideo : video = false) (houtput : output.status ≠ .null) :
      WorkerStep video stopping w t c
        (if result.status = .null then [.at video (.swallowed !(decide (Drained c)))] else [])
        { w with pc := .publishing result } t c
  | publish (w t c output) (hpc : w.pc = .publishing output) :
      WorkerStep video stopping w t c (itemEvent video .returned output) { w with pc := .notifying }
        (t.publish w.pending output) c
  | notify (w t c) (hpc : w.pc = .notifying) :
      WorkerStep video stopping w t c [.signalled] { w with pc := .waiting } t c

end

/-- The calls of a worker that may throw. -/
def WorkerPc.Throws : WorkerPc → Prop
  | .filtering _ | .pushing | .reading | .filteringOutput _ => True
  | _ => False

/-! ### The system -/

/-- `Scheduler::Impl` between `Start` and `Stop`. -/
structure State (κ : Type) where
  track : Bool → Track
  converter : Bool → κ
  worker : Bool → Worker
  driver : Driver
  stopping : Bool
  error : Option Exception
  signal : ℕ
  space : Bool → ℕ
  /-- Calls of `WriteSignal::Notify` that have not yet woken the driver. -/
  notifying : Bool → ℕ
  /-- Calls of `WakeAll` that have not yet woken the driver. -/
  waking : ℕ
  now : ℤ

namespace State

variable {κ : Type}

def shared (s : State κ) : Shared :=
  { stopping := s.stopping, signal := s.signal, space := s.space s.driver.video, now := s.now }

/-- The first section of `Fail`: the first error is kept, and only it wakes the threads. -/
def fail (s : State κ) (e : Exception) : State κ :=
  match s.error with
  | some _ => s
  | none => { s with error := some e, stopping := true, waking := s.waking + 1 }

end State

section

variable {κ : Type} [Converter κ]

/-- One step of the scheduler or of a thread outside. -/
inductive Step [Libav] : State κ → List Event → State κ → Prop where
  | driver (s : State κ) (es d t) (h : DriverStep s.shared s.driver (s.track s.driver.video) es d t) :
      Step s es { s with driver := d, track := Function.update s.track s.driver.video t }
  | driverThrows (s : State κ) (e : Exception) (hpc : s.driver.pc.Throws) :
      Step s [] { s.fail e with driver := { s.driver with pc := .stopped } }
  | worker (s : State κ) (video : Bool) (es w t c)
      (h : WorkerStep video s.stopping (s.worker video) (s.track video) (s.converter video) es w t c) :
      Step s es
        { s with
          worker := Function.update s.worker video w
          track := Function.update s.track video t
          converter := Function.update s.converter video c
          signal := if .signalled ∈ es then s.signal + 1 else s.signal }
  | workerThrows (s : State κ) (video : Bool) (e : Exception) (hpc : (s.worker video).pc.Throws) :
      Step s []
        { s.fail e with worker := Function.update s.worker video { s.worker video with pc := .stopped } }
  /-- `RequestStop`, from any thread. -/
  | requestStop (s : State κ) : Step s [] { s with stopping := true, waking := s.waking + 1 }
  | wakeAll (s : State κ) (h : 0 < s.waking) :
      Step s [.signalled] { s with signal := s.signal + 1, waking := s.waking - 1 }
  /-- The source has something to read. -/
  | sourceReady (s : State κ) : Step s [.signalled] { s with signal := s.signal + 1 }
  /-- `WriteSignal::Notify`, from any thread and also inside an output callback: first the revision of the
  track, then the driver's signal. -/
  | notify (s : State κ) (video : Bool) :
      Step s [.at video .notified]
        { s with
          space := Function.update s.space video (s.space video + 1)
          notifying := Function.update s.notifying video (s.notifying video + 1) }
  | notifyWake (s : State κ) (video : Bool) (h : 0 < s.notifying video) :
      Step s [.signalled]
        { s with
          signal := s.signal + 1
          notifying := Function.update s.notifying video (s.notifying video - 1) }
  /-- The clock is steady. -/
  | time (s : State κ) (now : ℤ) (h : s.now ≤ now) : Step s [] { s with now := now }

/-- Right after `Start`. -/
structure Started (s : State κ) : Prop where
  track : ∀ video, s.track video = { enabled := (s.track video).enabled }
  worker : ∀ video, s.worker video = {}
  driver : s.driver = {}
  stopping : s.stopping = false
  error : s.error = none

/-- The scheduler after `Start`, with converters that satisfy `Fresh`. -/
def system [Libav] (Fresh : (Bool → κ) → Prop) : Transition (State κ) Event where
  init s := Started s ∧ Fresh s.converter
  step := Step

end

end Scheduler

end MwStreamer
