import MwStreamer.Syncer.Plan
import MwStreamer.Syncer.Session

/-!
# What a call does to a session

The inversion lemma of `Session.after`: an admissible call is one step of `SyncerTiming` on one track, and
that step ends as one of its plans.  The invariants every result about runs starts from follow: the
configuration never changes, and every time base stays a positive ratio.
-/

namespace MwStreamer

open StateExcept

variable [Libav]

/-! ### Accepted arguments -/

/-- What `ValidateConfig` guarantees about the numbers the timing works with. -/
structure ValidConfig (config : SyncerConfig) : Prop where
  initialTimeout : 0 < config.options.initialTimeout
  timeout : 0 < config.options.timeout
  freeze : 0 ≤ config.options.freeze
  maxStreamsDiff : 0 < config.options.maxStreamsDiff
  fps : config.encoder.enabled true = true → config.encoder.fps.Positive
  rate : config.encoder.enabled false = true → 0 < config.encoder.audioSampleRate

theorem validateConfig_ok {config : SyncerConfig} (h : validateConfig config = .ok ()) :
    ValidConfig config := by
  simp only [validateConfig] at h
  split at h
  · cases h
  rename_i hthresholds
  simp only [not_or, not_le, not_lt] at hthresholds
  obtain ⟨-, hinitial, htimeout, hfreeze, hdiff⟩ := hthresholds
  have hfps : config.encoder.enabled true = true → config.encoder.fps.Positive := by
    intro hvideo
    by_contra hneg
    have hbad : config.encoder.fps.num ≤ 0 ∨ config.encoder.fps.den ≤ 0
        ∨ avRescaleQ 1 (avInvQ config.encoder.fps) kMicroseconds ≤ 0 := by
      rw [AVRational.Positive] at hneg
      omega
    simp only [hvideo, if_true, if_pos hbad] at h
    cases h
  have hrate : config.encoder.enabled false = true → 0 < config.encoder.audioSampleRate := by
    intro haudio
    by_contra hneg
    have hbad : config.encoder.audioSampleRate ≤ 0
        ∨ (avGetSampleFmtName config.encoder.audioSampleFormat).isNone = true
        ∨ (!avChannelLayoutCheck config.encoder.audioChannelLayout) = true := .inl (not_lt.mp hneg)
    simp only [haudio, if_true, if_pos hbad] at h
    -- Whatever the video checks say, the audio check is reached or an earlier one threw.
    repeat' split at h
    all_goals cases h
  exact ⟨hinitial, htimeout, hfreeze, hdiff, hfps, hrate⟩

/-- What `ValidateInput` guarantees about an input that is not an end of file. -/
structure ValidFrame (config : SyncerConfig) (video : Bool) (input : AvDecoderReadResult)
    (frame : Frame) : Prop where
  frame_eq : input.frame = some frame
  status : input.status = .frame
  timeBase : input.timeBase.Positive
  samples : video = false → 0 < frame.nbSamples
  rate : video = false → frame.sampleRate = config.encoder.audioSampleRate

theorem validateInput_ok {input : AvDecoderReadResult} {video : Bool} {config : SyncerConfig}
    (h : validateInput input video config = .ok ()) (hframe : input.status ≠ .eof) :
    ∃ frame, ValidFrame config video input frame := by
  simp only [validateInput, if_neg hframe] at h
  split at h
  · cases h
  split at h
  · cases h
  rename_i hstatus
  rw [not_not] at hstatus
  cases hinput : input.frame with
  | none => rw [hinput] at h; cases h
  | some frame =>
    rw [hinput] at h
    simp only at h
    split at h
    · cases h
    rename_i hbase
    simp only [not_or, not_le] at hbase
    split at h
    · cases h
    refine ⟨frame, hinput, hstatus, ⟨hbase.2.1, hbase.2.2.1⟩, ?_, ?_⟩ <;> rintro rfl <;>
      simp only [Bool.false_eq_true, if_false] at h <;> split at h
    · cases h
    · rename_i haudio
      simp only [not_or, not_le] at haudio
      exact haudio.1
    · cases h
    · rename_i haudio
      simp only [not_or, not_not] at haudio
      exact haudio.2.2.1

theorem validateInput_eof {input : AvDecoderReadResult} {video : Bool} {config : SyncerConfig}
    (h : validateInput input video config = .ok ()) (heof : input.status = .eof) :
    input.frame = none := by
  simp only [validateInput, if_pos heof] at h
  split at h
  · cases h
  split at h
  · cases h
  · rename_i hframe
    rwa [Bool.not_eq_true, Option.isSome_eq_false_iff, Option.isNone_iff_eq_none] at hframe

/-! ### One call -/

namespace SyncerTiming

/-- `stepOn` is the end of a plan, committed to its track. -/
theorem stepOn_ends (timing : SyncerTiming) (video : Bool) (head : Option AvDecoderReadResult)
    (now : ℤ) (onOutput : OnOutput) :
    ∃ final, StepEnd timing.config video head now (timing.view video)
        (timing.stepOn video head now onOutput).1.result final ∧
      (timing.stepOn video head now onOutput).1.offered = final.offered ∧
      (timing.stepOn video head now onOutput).2 = timing.commit video final := by
  have hends := step_ends timing.config video head now onOutput (timing.view video)
  unfold stepOn
  cases hrun : step timing.config video head now onOutput (timing.view video) with
  | ok result final => exact ⟨final, hends.ok hrun, rfl, rfl⟩
  | error e final => exact ⟨final, hends.error hrun, rfl, rfl⟩

end SyncerTiming

namespace Session

def track (session : Session) (video : Bool) : Track := session.syncer.timing.track video
def clock (session : Session) : ContinuityClock := session.syncer.timing.clock
def config (session : Session) : SyncerConfig := session.syncer.timing.config

/-- The track of a call, after it. -/
abbrev trackAfter (session : Session) (call : StepCall) : Track := (session.after call).track call.video

/-- What a step on a track of the session starts from. -/
def view (session : Session) (video : Bool) : StepState := session.syncer.timing.view video

omit [Libav] in
@[simp] theorem view_track (session : Session) (video : Bool) :
    (session.view video).track = session.track video := rfl

omit [Libav] in
@[simp] theorem view_clock (session : Session) (video : Bool) :
    (session.view video).clock = session.clock := rfl

omit [Libav] in
@[simp] theorem view_offered (session : Session) (video : Bool) :
    (session.view video).offered = [] := rfl

/-- What an admissible call leaves: the step on its track ended in `final`, and nothing else moved. -/
structure Calls (session : Session) (call : StepCall) (final : StepState) : Prop where
  ends : SyncerTiming.StepEnd session.config call.video call.head call.now (session.view call.video)
    (session.outcome call).result final
  offered : (session.outcome call).offered = final.offered
  track : (session.after call).track call.video = final.track
  peer : (session.after call).track (!call.video) = session.track (!call.video)
  clock : (session.after call).clock = final.clock
  config : (session.after call).config = session.config
  syncerConfig : (session.after call).syncer.config = session.syncer.config

/-- **The inversion lemma of a call.** -/
theorem calls {session : Session} {call : StepCall} (h : session.Admissible call) :
    ∃ final, session.Calls call final := by
  obtain ⟨final, hends, hoffered, hcommit⟩ :=
    session.syncer.timing.stepOn_ends call.video call.head call.now call.onOutput
  have hstep : session.syncer.step call =
      ((session.syncer.timing.stepOn call.video call.head call.now call.onOutput).1,
        { session.syncer with timing := session.syncer.timing.commit call.video final }) := by
    rw [Syncer.step, h.valid, ← hcommit]
  have houtcome : session.outcome call =
      (session.syncer.timing.stepOn call.video call.head call.now call.onOutput).1 := by
    rw [outcome, hstep]
  have hafter : (session.after call).syncer =
      { session.syncer with timing := session.syncer.timing.commit call.video final } := by
    rw [after, hstep]
  refine ⟨final, by rw [houtcome]; exact hends, by rw [houtcome]; exact hoffered, ?_, ?_, ?_, ?_, ?_⟩
  all_goals simp only [track, clock, config, hafter, SyncerTiming.commit_track,
    SyncerTiming.commit_peer, SyncerTiming.commit_clock, SyncerTiming.commit_config]

theorem Calls.track_of_ne {session : Session} {call : StepCall} {final : StepState}
    (h : session.Calls call final) {video : Bool} (hne : video ≠ call.video) :
    (session.after call).track video = session.track video := by
  rw [Bool.eq_not.mpr hne]
  exact h.peer

/-- The head stays with its track until it is consumed. -/
theorem after_held (session : Session) (call : StepCall) (video : Bool) :
    (session.after call).held video =
      if video = call.video then
        (if consumed (session.outcome call) then none else call.head)
      else session.held video := rfl

/-- The input of an admissible call passed `ValidateInput`. -/
theorem Admissible.input {session : Session} {call : StepCall} (h : session.Admissible call)
    {input : AvDecoderReadResult} (hhead : call.head = some input) :
    validateInput input call.video session.syncer.config = .ok () := by
  have hvalid := h.valid
  simp only [Syncer.validateCall, hhead] at hvalid
  split at hvalid
  · cases hvalid
  split at hvalid
  · cases hvalid
  exact hvalid

theorem Admissible.enabled {session : Session} {call : StepCall} (h : session.Admissible call) :
    session.syncer.config.encoder.enabled call.video = true := by
  have hvalid := h.valid
  simp only [Syncer.validateCall] at hvalid
  split at hvalid
  · cases hvalid
  · rename_i henabled
    simpa using henabled

end Session

end MwStreamer
