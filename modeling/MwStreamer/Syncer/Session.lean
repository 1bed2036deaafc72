import MwStreamer.Library.Transition
import MwStreamer.Syncer.Timing

/-!
# The syncer and its runs

`Syncer` validates its configuration once and every input, and forwards each step to `SyncerTiming`.
A session is a syncer together with what its caller owes it: the clock of the calls never goes back, and
the head of a track is passed again unchanged until a step consumes it.
-/

namespace MwStreamer

open StateExcept

section Validation

variable [Libav]

def validVideoFrame (frame : Frame) : Bool :=
  frame.media.isSome && decide (0 < frame.width) && decide (0 < frame.height)
    && frame.nbSamples == 0 && (avPixFmtDescGet frame.format).isSome

/-- `ValidateConfig`: the first failing check decides the text. -/
def validateConfig (config : SyncerConfig) : Except Exception Unit := do
  let encoder := config.encoder
  let options := config.options
  let video := encoder.enabled true
  let audio := encoder.enabled false
  if (!video ∧ !audio) ∨ options.initialTimeout ≤ 0 ∨ options.timeout ≤ 0 ∨ options.freeze < 0
      ∨ options.maxStreamsDiff ≤ 0 then
    throw (.invalidArgument "Syncer 轨道或时间阈值无效")
  if video then
    if encoder.fps.num ≤ 0 ∨ encoder.fps.den ≤ 0
        ∨ avRescaleQ 1 (avInvQ encoder.fps) kMicroseconds ≤ 0 then
      throw (.invalidArgument "Syncer 视频帧率无效")
    match config.backupVideo with
    | some frame =>
      if !validVideoFrame frame then
        throw (.invalidArgument "Syncer 备播图不是有效的视频帧")
    | none =>
      if encoder.width ≤ 0 ∨ encoder.height ≤ 0
          ∨ (avPixFmtDescGet encoder.videoPixelFormat).all (·.hwaccel) then
        throw (.invalidArgument "Syncer 默认 CPU 黑帧需要有效的尺寸和软件像素格式")
  if audio then
    if encoder.audioSampleRate ≤ 0 ∨ (avGetSampleFmtName encoder.audioSampleFormat).isNone
        ∨ !avChannelLayoutCheck encoder.audioChannelLayout then
      throw (.invalidArgument "Syncer 音频格式无效")

/-- `ValidateInput`. -/
def validateInput (input : AvDecoderReadResult) (video : Bool) (config : SyncerConfig) :
    Except Exception Unit := do
  if !config.encoder.enabled video then
    throw (.invalidArgument "Syncer 输入轨道未启用")
  if input.status = .eof then
    if input.frame.isSome then throw (.invalidArgument "Syncer EOF 不应包含帧")
  else
    let invalid := Exception.invalidArgument "Syncer 需要有效的帧和时间戳"
    if input.status ≠ .frame then throw invalid
    match input.frame with
    | none => throw invalid
    | some frame =>
      if frame.media.isNone ∨ input.timeBase.num ≤ 0 ∨ input.timeBase.den ≤ 0
          ∨ frame.pts = avNoptsValue then
        throw invalid
      let ptsUs := avRescaleQ frame.pts input.timeBase kMicroseconds
      if ptsUs = avNoptsValue ∨ ptsUs = int64Max then
        throw (.overflowError "Syncer 输入时间戳超出可表示范围")
      if video then
        if !validVideoFrame frame
            ∨ avRescaleQ 1 (avInvQ config.encoder.fps) input.timeBase ≤ 0 then
          throw (.invalidArgument "Syncer 视频帧或帧周期无效")
      else
        if frame.nbSamples ≤ 0 ∨ frame.format ≠ config.encoder.audioSampleFormat
            ∨ frame.sampleRate ≠ config.encoder.audioSampleRate
            ∨ avChannelLayoutCompare frame.chLayout config.encoder.audioChannelLayout ≠ 0 then
          throw (.invalidArgument "Syncer 音频帧与配置格式不符")

end Validation

/-- `SyncerTiming::Impl`. -/
structure SyncerTiming where
  config : SyncerConfig
  clock : ContinuityClock
  video : Track
  audio : Track
  deriving DecidableEq, Repr

/-- How a step ends, and the frames it put up for admission. -/
structure StepOutcome where
  result : Except Exception SyncerStep
  offered : List Offer
  deriving DecidableEq, Repr

namespace SyncerTiming

def track (timing : SyncerTiming) (video : Bool) : Track :=
  if video then timing.video else timing.audio

def setTrack (timing : SyncerTiming) (video : Bool) (track : Track) : SyncerTiming :=
  if video then { timing with video := track } else { timing with audio := track }

/-- The part of the state a step on one track can reach. -/
def view (timing : SyncerTiming) (video : Bool) : StepState :=
  { clock := timing.clock, track := timing.track video }

/-- The state after a step that left `final`. -/
def commit (timing : SyncerTiming) (video : Bool) (final : StepState) : SyncerTiming :=
  { timing.setTrack video final.track with clock := final.clock }

@[simp] theorem commit_track (timing : SyncerTiming) (video : Bool) (final : StepState) :
    (timing.commit video final).track video = final.track := by
  cases video <;> rfl

/-- The peer track is out of reach. -/
@[simp] theorem commit_peer (timing : SyncerTiming) (video : Bool) (final : StepState) :
    (timing.commit video final).track (!video) = timing.track (!video) := by
  cases video <;> rfl

@[simp] theorem commit_clock (timing : SyncerTiming) (video : Bool) (final : StepState) :
    (timing.commit video final).clock = final.clock := rfl

@[simp] theorem commit_config (timing : SyncerTiming) (video : Bool) (final : StepState) :
    (timing.commit video final).config = timing.config := by
  cases video <;> rfl

variable [Libav]

/-- `BlackFrame`, up to its pixels. -/
def blackFrame (encoder : AvEncoderConfig) : Frame :=
  { media := some .black
    width := encoder.width
    height := encoder.height
    format := encoder.videoPixelFormat }

/-- The time base a track starts with. -/
def initialTimeBase (encoder : AvEncoderConfig) (video : Bool) : AVRational :=
  if encoder.enabled video then
    if video then avInvQ encoder.fps else ⟨1, encoder.audioSampleRate⟩
  else kMicroseconds

/-- The constructor's loop body: one track of a fresh timeline. -/
def initialTrack (config : SyncerConfig) (video : Bool) : Except Exception Track := do
  let timeBase := initialTimeBase config.encoder video
  let next ←
    if config.options.forwardStartShift then pure none
    else some <$> rescale config.options.startTs kMicroseconds timeBase
  return { timeBase := timeBase, waitUntil := config.options.initialTimeout, next := next }

/-- The constructor of `SyncerTiming::Impl`. -/
def create (config : SyncerConfig) : Except Exception SyncerTiming := do
  let backupVideo :=
    if config.encoder.enabled true ∧ config.backupVideo.isNone then
      some (blackFrame config.encoder)
    else config.backupVideo
  let video ← initialTrack config true
  let audio ← initialTrack config false
  return {
    config := { config with backupVideo := backupVideo }
    clock := { start := config.options.startTs }
    video := video
    audio := audio }

/-- `SyncerTiming::Step`. -/
def stepOn (timing : SyncerTiming) (video : Bool) (head : Option AvDecoderReadResult) (now : ℤ)
    (onOutput : OnOutput) : StepOutcome × SyncerTiming :=
  match step timing.config video head now onOutput (timing.view video) with
  | .ok result final => (⟨.ok result, final.offered⟩, timing.commit video final)
  | .error e final => (⟨.error e, final.offered⟩, timing.commit video final)

end SyncerTiming

/-- `Syncer::Impl`. -/
structure Syncer where
  config : SyncerConfig
  timing : SyncerTiming
  deriving DecidableEq, Repr

/-- One call of `Syncer::Step`. -/
structure StepCall where
  video : Bool
  head : Option AvDecoderReadResult
  now : ℤ
  onOutput : OnOutput

namespace Syncer

variable [Libav]

/-- The constructor. -/
def create (config : SyncerConfig) : Except Exception Syncer := do
  validateConfig config
  let timing ← SyncerTiming.create config
  return { config := config, timing := timing }

/-- The checks `Syncer::Step` makes before it touches the timing state. -/
def validateCall (syncer : Syncer) (call : StepCall) : Except Exception Unit := do
  if !syncer.config.encoder.enabled call.video then
    throw (.invalidArgument "Syncer 输入轨道未启用")
  if call.now < 0 then throw (.invalidArgument "Syncer 时间不得为负数")
  match call.head with
  | none => pure ()
  | some input => validateInput input call.video syncer.config

/-- `Syncer::Step`. -/
def step (syncer : Syncer) (call : StepCall) : StepOutcome × Syncer :=
  match syncer.validateCall call with
  | .error e => (⟨.error e, []⟩, syncer)
  | .ok () =>
    let (outcome, timing) := syncer.timing.stepOn call.video call.head call.now call.onOutput
    (outcome, { syncer with timing := timing })

end Syncer

/-- A syncer, the head each track still has to be given again, and the time of the last call. -/
structure Session where
  syncer : Syncer
  held : Bool → Option AvDecoderReadResult
  now : ℤ

namespace Session

variable [Libav]

/-- What the caller owes a step: valid arguments, a clock that does not go back and a retained head. -/
structure Admissible (session : Session) (call : StepCall) : Prop where
  valid : session.syncer.validateCall call = .ok ()
  clock : session.now ≤ call.now
  retained : ∀ input, session.held call.video = some input → call.head = some input

/-- Whether the step consumed its head. -/
def consumed (outcome : StepOutcome) : Bool :=
  match outcome.result with
  | .ok result => result.consumed
  | .error _ => false

/-- The session after a call. -/
def after (session : Session) (call : StepCall) : Session :=
  let (outcome, syncer) := session.syncer.step call
  { syncer := syncer
    held := fun video =>
      if video = call.video then (if consumed outcome then none else call.head)
      else session.held video
    now := call.now }

/-- What a call returns. -/
def outcome (session : Session) (call : StepCall) : StepOutcome := (session.syncer.step call).1

/-- A session right after construction or `Reset`. -/
def Fresh (config : SyncerConfig) (session : Session) : Prop :=
  Syncer.create config = .ok session.syncer ∧ (∀ video, session.held video = none) ∧
    0 ≤ session.now

/-- The frames a call puts up for admission, with the track. -/
def emitted (session : Session) (call : StepCall) : List (Bool × Offer) :=
  (session.outcome call).offered.map (call.video, ·)

/-- Steps on the two tracks in any order.  `Promise` is what the caller guarantees beyond its contract. -/
def system (config : SyncerConfig) (Promise : StepCall → Prop) :
    Transition Session (Bool × Offer) where
  init := Fresh config
  step session es session' := ∃ call, session.Admissible call ∧ Promise call ∧
    es = session.emitted call ∧ session' = session.after call

/-! ### Replaying calls -/

def replay (session : Session) (calls : List StepCall) : Session := calls.foldl after session

/-- Whether every call of the list is admissible when its turn comes. -/
def Keeps (Promise : StepCall → Prop) (session : Session) : List StepCall → Prop
  | [] => True
  | call :: calls => session.Admissible call ∧ Promise call ∧ Keeps Promise (session.after call) calls

instance decidableAdmissible (session : Session) (call : StepCall) :
    Decidable (session.Admissible call) :=
  decidable_of_iff (session.syncer.validateCall call = .ok () ∧ session.now ≤ call.now ∧
      ∀ input ∈ session.held call.video, call.head = some input)
    ⟨fun ⟨h₁, h₂, h₃⟩ => ⟨h₁, h₂, h₃⟩, fun ⟨h₁, h₂, h₃⟩ => ⟨h₁, h₂, h₃⟩⟩

instance decidableKeeps (Promise : StepCall → Prop) [DecidablePred Promise] :
    ∀ (session : Session) (calls : List StepCall), Decidable (session.Keeps Promise calls)
  | _, [] => .isTrue trivial
  | session, call :: calls =>
    haveI := decidableKeeps Promise (session.after call) calls
    inferInstanceAs (Decidable (_ ∧ _ ∧ _))

theorem replay_reachable {config : SyncerConfig} {Promise : StepCall → Prop} {session : Session}
    {calls : List StepCall} (h : (system config Promise).Reachable session)
    (hkeeps : session.Keeps Promise calls) :
    (system config Promise).Reachable (session.replay calls) := by
  induction calls generalizing session with
  | nil => exact h
  | cons call calls ih =>
    obtain ⟨hadmissible, hpromise, hrest⟩ := hkeeps
    exact ih (.step h ⟨call, hadmissible, hpromise, rfl, rfl⟩) hrest

/-- A block of `samples` samples at `pts`, in the default sample format. -/
def audioInput (rate samples pts : ℤ) : AvDecoderReadResult :=
  { status := .frame
    timeBase := ⟨1, rate⟩
    frame := some
      { media := some (.stored 0)
        pts := pts
        nbSamples := samples
        format := 8
        sampleRate := rate
        chLayout := ⟨2, 3⟩ } }

/-- The picture of slot `pts` of a frame rate. -/
def videoInput (fps : AVRational) (pts : ℤ) : AvDecoderReadResult :=
  { status := .frame
    timeBase := avInvQ fps
    frame := some { media := some (.stored 1), pts := pts, width := 2, height := 2, format := 0 } }

/-- A fresh session after these calls, if the configuration and every call are accepted. -/
def playback (config : SyncerConfig) (Promise : StepCall → Prop) [DecidablePred Promise]
    (calls : List StepCall) : Option Session :=
  match Syncer.create config with
  | .error _ => none
  | .ok syncer =>
    let fresh : Session := { syncer := syncer, held := fun _ => none, now := 0 }
    if fresh.Keeps Promise calls then some (fresh.replay calls) else none

theorem playback_reachable {config : SyncerConfig} {Promise : StepCall → Prop}
    [DecidablePred Promise] {calls : List StepCall} {session : Session}
    (h : session ∈ playback config Promise calls) : (system config Promise).Reachable session := by
  unfold playback at h
  split at h
  · cases h
  · rename_i syncer hcreate
    simp only at h
    split at h
    · rename_i hkeeps
      cases h
      exact replay_reachable (.init ⟨hcreate, fun _ => rfl, Int.le_refl 0⟩) hkeeps
    · cases h

end Session

end MwStreamer
