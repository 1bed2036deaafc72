import MwStreamer.Library.StateExcept
import MwStreamer.Media.Frame

/-!
# The syncer's timing state and one step of it

`SyncerTiming::Impl` keeps one shared clock and one record per track.  A step works on the clock and a
single track, so every method here runs on a `StepState` holding just these two and the peer track is out
of reach by construction.  The state also records each frame shown to `on_output` with the answer it got.

Arithmetic is the checked 64-bit arithmetic of the source: an overflow throws and leaves the state as the
source leaves it, with the assignments made before the failing one in place.
-/

namespace MwStreamer

open StateExcept

/-- `SyncerOptions`, durations in microseconds. -/
structure SyncerOptions where
  initialTimeout : ℤ := 4000000
  timeout : ℤ := 1000000
  freeze : ℤ := 5000000
  maxStreamsDiff : ℤ := 1000
  startTs : ℤ := 0
  forwardStartShift : Bool := false
  deriving DecidableEq, Repr

/-- `SyncerConfig`. -/
structure SyncerConfig where
  encoder : AvEncoderConfig := {}
  backupVideo : Option Frame := none
  options : SyncerOptions := {}
  deriving DecidableEq, Repr

/-- `SyncerStep`. -/
structure SyncerStep where
  consumed : Bool := false
  frame : Option Frame := none
  wakeUs : ℤ := 0
  blocked : Bool := false
  deriving DecidableEq, Repr

/-- What a call of `on_output` does with the frame it is shown. -/
inductive Answer where
  | accept
  | reject
  | throw
  deriving DecidableEq, Repr

/-- `Syncer::OnOutput`; empty means that the caller accepts the returned frame. -/
abbrev OnOutput := Option (Frame → Answer)

/-- Where an output frame comes from, as `ObserveSource` names it. -/
inductive OutputSource where
  | input
  | freeze
  | backup
  | silence
  deriving DecidableEq, Repr

/-- One frame put up for admission and its answer. -/
structure Offer where
  frame : Frame
  source : OutputSource
  answer : Answer
  deriving DecidableEq, Repr

def kMicroseconds : AVRational := ⟨1, 1000000⟩
def kPollUs : ℤ := 22000

/-- `ContinuityClock`. -/
structure ContinuityClock where
  start : ℤ
  shift : Option ℤ := none
  pts : Option ℤ := none
  wall : ℤ := 0
  deriving DecidableEq, Repr

/-- `ContinuityClock::Update`: only an advancing timestamp re-anchors the clock. -/
def ContinuityClock.update (clock : ContinuityClock) (pts now : ℤ) : ContinuityClock :=
  match clock.pts with
  | none => { clock with pts := some pts, wall := now }
  | some held => if held < pts then { clock with pts := some pts, wall := now } else clock

/-- `Track`. -/
structure Track where
  timeBase : AVRational := ⟨0, 1⟩
  next : Option ℤ := none
  shift : Option ℤ := none
  lastReal : Option Frame := none
  lastRealPts : ℤ := 0
  lastSuccess : Bool := true
  hasOutput : Bool := false
  waitUntil : ℤ := 0
  tryWithoutFilling : Bool := false
  fillUntil : Option ℤ := none
  forwardFill : Bool := false
  filled : ℤ := 0
  filledUs : ℤ := 0
  pendingRealPts : Option ℤ := none
  suspendedUntil : ℤ := 0
  deriving DecidableEq, Repr

/-- What one step reads and writes. -/
structure StepState where
  clock : ContinuityClock
  track : Track
  offered : List Offer := []
  deriving DecidableEq, Repr

abbrev SyncerM := EStateM Exception StepState

namespace SyncerTiming

/-! ### Checked arithmetic -/

def add (a b : ℤ) : Except Exception ℤ :=
  if (0 < b ∧ int64Max - b < a) ∨ (b < 0 ∧ a < int64Min - b) then
    .error (.overflowError "Syncer 时间计算溢出")
  else .ok (a + b)

def subtract (a b : ℤ) : Except Exception ℤ :=
  if b = int64Min then .error (.overflowError "Syncer 时间计算溢出") else add a (-b)

def rescale [Libav] (value : ℤ) (bq cq : AVRational) : Except Exception ℤ :=
  rescaleChecked "Syncer 时间戳换算溢出" value bq cq

/-- A difference equal to the tolerance counts as a discontinuity. -/
def apart (a b tolerance : ℤ) : Except Exception Bool := do
  let difference ← subtract a b
  return decide (tolerance ≤ difference ∨ difference ≤ -tolerance)

/-! ### Access to the state -/

def getTrack : SyncerM Track := do return (← get).track
def getClock : SyncerM ContinuityClock := do return (← get).clock
def modifyTrack (f : Track → Track) : SyncerM Unit := modify fun s => { s with track := f s.track }
def modifyClock (f : ContinuityClock → ContinuityClock) : SyncerM Unit :=
  modify fun s => { s with clock := f s.clock }

/-- `*value`; on an empty optional the source has undefined behaviour. -/
def deref {α : Type} (value : Option α) : SyncerM α :=
  match value with
  | some a => pure a
  | none => throw .badOptional

def answerOf (onOutput : OnOutput) (frame : Frame) : Answer :=
  match onOutput with
  | none => .accept
  | some callback => callback frame

/-- The call of `on_output`, recorded. -/
def offer (onOutput : OnOutput) (frame : Frame) (source : OutputSource) : SyncerM Bool := do
  modify fun s => { s with offered := s.offered ++ [⟨frame, source, answerOf onOutput frame⟩] }
  match answerOf onOutput frame with
  | .accept => pure true
  | .reject => pure false
  | .throw => throw .callback

variable [Libav]

def toUs (value : ℤ) : SyncerM ℤ := do
  attempt (rescale value (← getTrack).timeBase kMicroseconds)

def fromUs (value : ℤ) : SyncerM ℤ := do
  attempt (rescale value kMicroseconds (← getTrack).timeBase)

/-- `ContinuityClock::Now`: the held timestamp for two seconds, extrapolated afterwards. -/
def clockNow (now : ℤ) : SyncerM ℤ := do
  if (← getClock).pts.isNone then
    modifyClock fun clock => clock.update clock.start now
  let clock ← getClock
  let pts ← deref clock.pts
  let elapsed ← attempt (subtract now clock.wall)
  if elapsed < 2000000 then pure pts else attempt (add pts elapsed)

/-! ### The methods of `SyncerTiming::Impl` -/

/-- One conversion inside `ChangeTimeBase`. -/
def convert (value : Option ℤ) (bq cq : AVRational) : SyncerM (Option ℤ) := do
  match value with
  | none => pure none
  | some value =>
    let converted ← attempt (rescale value bq cq)
    pure (some converted)

def changeTimeBase (timeBase : AVRational) : SyncerM Unit := do
  let track ← getTrack
  let next ← convert track.next track.timeBase timeBase
  modifyTrack fun t => { t with next := next }
  let shift ← convert track.shift track.timeBase timeBase
  modifyTrack fun t => { t with shift := shift }
  let fillUntil ← convert track.fillUntil track.timeBase timeBase
  modifyTrack fun t => { t with fillUntil := fillUntil }
  let pendingRealPts ← convert track.pendingRealPts track.timeBase timeBase
  modifyTrack fun t => { t with pendingRealPts := pendingRealPts }
  if track.lastReal.isSome then
    let lastRealPts ← attempt (rescale track.lastRealPts track.timeBase timeBase)
    modifyTrack fun t => { t with lastRealPts := lastRealPts }
  modifyTrack fun t => { t with timeBase := timeBase }

variable (config : SyncerConfig) (video : Bool)

def videoDuration : SyncerM ℤ := do
  let duration ← attempt (rescale 1 (avInvQ config.encoder.fps) (← getTrack).timeBase)
  if duration ≤ 0 then
    throw (.invalidArgument "Syncer 视频 time base 无法表示帧周期")
  else pure duration

/-- Re-anchors the track so that `original` maps to its expected timestamp, and publishes the shift. -/
def adjust (original : ℤ) : SyncerM Unit := do
  let next ← deref (← getTrack).next
  let shift ← attempt (subtract next original)
  modifyTrack fun t => { t with shift := some shift }
  let shared ← toUs shift
  modifyClock fun c => { c with shift := some shared }

def beginFill (target : ℤ) (forward : Bool) : SyncerM Unit :=
  modifyTrack fun t =>
    { t with fillUntil := some target, forwardFill := forward, filled := 0, filledUs := 0 }

/-- The silent frame `Backup` allocates. -/
def silence (count : ℤ) : Frame :=
  { media := some .silence
    format := config.encoder.audioSampleFormat
    sampleRate := config.encoder.audioSampleRate
    nbSamples := min 1024 count
    chLayout := config.encoder.audioChannelLayout }

/-- Whether `Backup` still freezes on the last real picture. -/
def freezing : SyncerM Bool := do
  let track ← getTrack
  if track.lastReal.isNone then pure false
  else
    let nextUs ← toUs (← deref track.next)
    let lastUs ← toUs track.lastRealPts
    let elapsed ← attempt (subtract nextUs lastUs)
    pure (decide (elapsed < config.options.freeze))

def backup (count : ℤ) : SyncerM (Frame × OutputSource) := do
  if video then
    if ← freezing config then
      let lastReal ← deref (← getTrack).lastReal
      pure (lastReal, .freeze)
    else
      let picture ← deref config.backupVideo
      pure (picture, .backup)
  else
    let spare := silence config count
    -- `av_frame_get_buffer` has no buffer for an empty frame.
    if spare.nbSamples ≤ 0 then throw (.runtimeError "Syncer 创建静音帧失败")
    else pure (spare, .silence)

/-- `Stamp`. -/
def stamp (frame : Frame) (track : Track) (pts duration : ℤ) : Frame :=
  { frame with
    pts := pts
    bestEffortTimestamp := pts
    pktDts := avNoptsValue
    timeBase := track.timeBase
    duration := duration }

def real (input : AvDecoderReadResult) (pts now : ℤ) (onOutput : OnOutput) : SyncerM SyncerStep := do
  let source ← deref input.frame
  let duration ← if video then videoDuration config else pure source.nbSamples
  let frame := stamp source (← getTrack) pts duration
  -- The shared clock is anchored before admission; a rejection keeps the anchor.
  let ptsUs ← toUs pts
  modifyClock fun c => c.update ptsUs now
  if !(← offer onOutput frame .input) then
    pure { wakeUs := now, blocked := true }
  else
    let next ← attempt (add pts duration)
    modifyTrack fun t =>
      { t with
        next := some next
        hasOutput := true
        lastReal := if video then some frame else t.lastReal
        lastRealPts := pts
        lastSuccess := true }
    let waitUntil ← attempt (add now config.options.timeout)
    modifyTrack fun t => { t with waitUntil := waitUntil, pendingRealPts := none }
    pure { consumed := true, frame := some frame, wakeUs := now }

/-- A full or rejected batch re-anchors the shared clock at its last filler. -/
def anchorFill (lastPts now : ℤ) (blocked : Bool) : SyncerM Unit := do
  if (← getTrack).filled = 5 ∨ blocked then
    let lastUs ← toUs lastPts
    modifyClock fun c => c.update lastUs now

/-- `FinishFill` for a forward jump: the pending real frame moves to the next output timestamp, and a
full batch waits half its duration. -/
def finishForward (input : Option AvDecoderReadResult) (lastPts now : ℤ) (blocked : Bool) :
    SyncerM ℤ := do
  anchorFill lastPts now blocked
  let source ← deref input
  let frame ← deref source.frame
  let original ← attempt (rescale frame.pts source.timeBase (← getTrack).timeBase)
  adjust original
  modifyTrack fun t => { t with tryWithoutFilling := true, pendingRealPts := t.next }
  let track ← getTrack
  if track.filled = 5 ∧ ¬blocked then
    let suspendedUntil ← attempt (add now (max 1000 (track.filledUs / 2)))
    modifyTrack fun t => { t with suspendedUntil := suspendedUntil }
    pure suspendedUntil
  else
    modifyTrack fun t => { t with suspendedUntil := now }
    pure now

/-- `FinishFill` for a timeout: an input that arrived meanwhile is ready at once. -/
def finishTimeout (input : Option AvDecoderReadResult) (now : ℤ) (blocked : Bool) : SyncerM ℤ := do
  if blocked then
    modifyTrack fun t => { t with waitUntil := now }
  if input.isSome then pure now else pure (← getTrack).waitUntil

def finishFill (input : Option AvDecoderReadResult) (lastPts now : ℤ) (blocked : Bool) :
    SyncerM ℤ := do
  if (← getTrack).forwardFill then
    let wake ← finishForward input lastPts now blocked
    modifyTrack fun t => { t with fillUntil := none }
    pure wake
  else
    let wake ← finishTimeout input now blocked
    modifyTrack fun t => { t with fillUntil := none }
    pure wake

def fill (input : Option AvDecoderReadResult) (now : ℤ) (onOutput : OnOutput) :
    SyncerM SyncerStep := do
  let track ← getTrack
  let pts ← deref track.next
  let fillUntil ← deref track.fillUntil
  let count ← attempt (subtract fillUntil pts)
  let (spare, source) ← backup config video count
  let duration ← if video then videoDuration config else pure spare.nbSamples
  let frame := stamp spare (← getTrack) pts duration
  if !(← offer onOutput frame source) then
    let wake ← finishFill input pts now true
    pure { wakeUs := wake, blocked := true }
  else
    let next ← attempt (add pts duration)
    modifyTrack fun t => { t with next := some next, hasOutput := true, filled := t.filled + 1 }
    let filledUs ← attempt (add (← getTrack).filledUs (← toUs duration))
    modifyTrack fun t => { t with filledUs := filledUs }
    if fillUntil ≤ next ∨ (← getTrack).filled = 5 then
      let wake ← finishFill input pts now false
      pure { frame := some frame, wakeUs := wake }
    else pure { frame := some frame, wakeUs := now }

/-- Whether the mapped timestamp is a discontinuity against the expected one. -/
def jumps (pts : ℤ) : SyncerM Bool := do
  match (← getTrack).next with
  | none => pure false
  | some next =>
    if pts = next then pure false
    else
      let ptsUs ← toUs pts
      let nextUs ← toUs next
      attempt (apart ptsUs nextUs config.options.maxStreamsDiff)

/-- Whether the local shift has left the tolerance around the shared one. -/
def desynced (shared : ℤ) : SyncerM Bool := do
  match (← getTrack).shift with
  | none => pure false
  | some shift =>
    let shiftUs ← toUs shift
    let tolerance ← attempt (add config.options.maxStreamsDiff 1)
    attempt (apart shiftUs shared tolerance)

/-- The first branch of `Correct`: no shared shift yet, so this frame anchors the timeline. -/
def bootstrap (input : AvDecoderReadResult) (original now : ℤ) (onOutput : OnOutput) :
    SyncerM SyncerStep := do
  let mapped ← fromUs (← clockNow now)
  let track ← getTrack
  -- A bootstrap backup can extend beyond the held shared clock.
  let pts ← if track.hasOutput then do
      let next ← deref track.next
      pure (max mapped next)
    else pure mapped
  let shift ← attempt (subtract pts original)
  modifyTrack fun t => { t with shift := some shift }
  let shared ← toUs shift
  modifyClock fun c => { c with shift := some shared }
  real config video input pts now onOutput

/-- The second branch of `Correct`: follow the shared shift, fill a forward jump, cut a backward one. -/
def follow (input : AvDecoderReadResult) (original shared now : ℤ) (onOutput : OnOutput) :
    SyncerM SyncerStep := do
  let desync ← desynced config shared
  if (← getTrack).shift.isNone ∨ desync then
    let adopted ← fromUs shared
    modifyTrack fun t => { t with shift := some adopted }
  let track ← getTrack
  let shift ← deref track.shift
  let pts ← attempt (add original shift)
  if ← jumps config pts then
    let next ← deref track.next
    if next < pts then
      if !track.tryWithoutFilling then
        beginFill pts true
        fill config video (some input) now onOutput
      else
        modifyTrack fun t => { t with tryWithoutFilling := false }
        adjust original
        modifyTrack fun t => { t with pendingRealPts := t.next }
        let suspendedUntil ← attempt (add now 1000)
        modifyTrack fun t => { t with suspendedUntil := suspendedUntil }
        pure { wakeUs := suspendedUntil }
    else
      adjust original
      real config video input next now onOutput
  else
    if desync then
      -- The adopted shift may be rounded by the time base; peers must see the representable value.
      let representable ← toUs shift
      modifyClock fun c => { c with shift := some representable }
    real config video input pts now onOutput

def correct (input : AvDecoderReadResult) (now : ℤ) (onOutput : OnOutput) : SyncerM SyncerStep := do
  if video ∧ avCmpQ (← getTrack).timeBase input.timeBase ≠ 0 then
    changeTimeBase input.timeBase
  let frame ← deref input.frame
  let original ← attempt (rescale frame.pts input.timeBase (← getTrack).timeBase)
  match (← getClock).shift with
  | none => bootstrap config video input original now onOutput
  | some shared => follow config video input original shared now onOutput

/-- The last part of `Step`: no input within the deadline. -/
def timeoutStep (head : Option AvDecoderReadResult) (now : ℤ) (onOutput : OnOutput) :
    SyncerM SyncerStep := do
  let rtc ← clockNow now
  if (← getTrack).next.isNone then
    let start ← fromUs config.options.startTs
    modifyTrack fun t => { t with next := some start }
  let track ← getTrack
  let next ← deref track.next
  let late ←
    if !track.lastSuccess then pure true
    else do
      let nextUs ← toUs next
      let behind ← attempt (subtract rtc nextUs)
      pure (decide (config.options.timeout < behind))
  modifyTrack fun t => { t with lastSuccess := false }
  let waitUntil ← attempt (add now kPollUs)
  modifyTrack fun t => { t with waitUntil := waitUntil }
  let target ← fromUs rtc
  if late ∧ next < target then
    beginFill target false
    fill config video head now onOutput
  else pure { wakeUs := waitUntil }

def step (head : Option AvDecoderReadResult) (now : ℤ) (onOutput : OnOutput) :
    SyncerM SyncerStep := do
  let track ← getTrack
  if track.fillUntil.isSome then
    fill config video head now onOutput
  else if track.pendingRealPts.isSome then
    if now < track.suspendedUntil then
      pure { wakeUs := track.suspendedUntil }
    else
      modifyTrack fun t => { t with pendingRealPts := none }
      -- The peer may have corrected the shared shift during this suspension.
      let input ← deref head
      correct config video input now onOutput
  else
    match head with
    | some input =>
      if input.status = .eof then pure { consumed := true, wakeUs := now }
      else correct config video input now onOutput
    | none =>
      if now < track.waitUntil then pure { wakeUs := track.waitUntil }
      else timeoutStep config video head now onOutput

end SyncerTiming

end MwStreamer
