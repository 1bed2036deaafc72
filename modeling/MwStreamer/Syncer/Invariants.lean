import MwStreamer.Syncer.Calls

/-!
# Invariants of a session

Facts that hold in every reachable session and need no assumption on the callbacks: the configuration is
the one `ValidateConfig` accepted, a track waiting for its real frame still has that frame as its head, and
every time base is a positive ratio.  Under the promise of `ForceFps` the time bases never change at all.
-/

namespace MwStreamer

open StateExcept

variable [Libav]

/-! ### The initial session -/

theorem initialTrack_ok {config : SyncerConfig} {video : Bool} {track : Track}
    (h : SyncerTiming.initialTrack config video = .ok track) :
    ∃ next, track = { timeBase := SyncerTiming.initialTimeBase config.encoder video,
                      waitUntil := config.options.initialTimeout, next := next } := by
  simp only [SyncerTiming.initialTrack] at h
  split at h
  · exact ⟨none, (Except.ok.inj h).symm⟩
  · cases hstart : SyncerTiming.rescale config.options.startTs kMicroseconds
        (SyncerTiming.initialTimeBase config.encoder video) with
    | error e => rw [hstart] at h; cases h
    | ok start =>
      rw [hstart] at h
      exact ⟨some start, (Except.ok.inj h).symm⟩

/-- The parts a constructed syncer is made of. -/
structure Created (config : SyncerConfig) (syncer : Syncer) : Prop where
  valid : validateConfig config = .ok ()
  config_eq : syncer.config = config
  encoder : syncer.timing.config.encoder = config.encoder
  options : syncer.timing.config.options = config.options
  clock : syncer.timing.clock = { start := config.options.startTs }
  tracks : ∀ video, SyncerTiming.initialTrack config video = .ok (syncer.timing.track video)

theorem create_ok {config : SyncerConfig} {syncer : Syncer} (h : Syncer.create config = .ok syncer) :
    Created config syncer := by
  simp only [Syncer.create] at h
  cases hvalid : validateConfig config with
  | error e => rw [hvalid] at h; cases h
  | ok =>
    rw [hvalid] at h
    cases hvideo : SyncerTiming.initialTrack config true with
    | error e => simp only [SyncerTiming.create, hvideo, bind, Except.bind] at h; cases h
    | ok video =>
      cases haudio : SyncerTiming.initialTrack config false with
      | error e => simp only [SyncerTiming.create, hvideo, haudio, bind, Except.bind] at h; cases h
      | ok audio =>
        simp only [SyncerTiming.create, hvideo, haudio, bind, Except.bind] at h
        cases h
        refine ⟨hvalid, rfl, rfl, rfl, rfl, fun v => ?_⟩
        cases v
        · exact haudio
        · exact hvideo

theorem Created.timeBase {config : SyncerConfig} {syncer : Syncer} (h : Created config syncer)
    (video : Bool) : (syncer.timing.track video).timeBase
      = SyncerTiming.initialTimeBase config.encoder video := by
  obtain ⟨next, htrack⟩ := initialTrack_ok (h.tracks video)
  rw [htrack]

omit [Libav] in
theorem initialTimeBase_positive {config : SyncerConfig} (h : ValidConfig config) (video : Bool) :
    (SyncerTiming.initialTimeBase config.encoder video).Positive := by
  unfold SyncerTiming.initialTimeBase
  split
  · rename_i henabled
    cases video with
    | true => exact avInvQ_positive (h.fps henabled)
    | false => exact ⟨Int.one_pos, h.rate henabled⟩
  · decide

/-! ### The configuration -/

namespace Session

/-- The session runs under this configuration. -/
structure Configured (config : SyncerConfig) (session : Session) : Prop where
  syncer : session.syncer.config = config
  encoder : session.config.encoder = config.encoder
  options : session.config.options = config.options

variable {config : SyncerConfig} {Promise : StepCall → Prop} {session : Session}

theorem valid (h : (system config Promise).Reachable session) : ValidConfig config := by
  induction h with
  | init hfresh => exact validateConfig_ok (create_ok hfresh.1).valid
  | step _ _ ih => exact ih

theorem configured (h : (system config Promise).Reachable session) : session.Configured config := by
  apply h.invariant
  · intro session hfresh
    have hcreated := create_ok hfresh.1
    exact ⟨hcreated.config_eq, hcreated.encoder, hcreated.options⟩
  · rintro session _ _ - hconfigured ⟨call, hadmissible, -, -, rfl⟩
    obtain ⟨final, hcalls⟩ := session.calls hadmissible
    exact ⟨hcalls.syncerConfig.trans hconfigured.syncer,
      (congrArg SyncerConfig.encoder hcalls.config).trans hconfigured.encoder,
      (congrArg SyncerConfig.options hcalls.config).trans hconfigured.options⟩

end Session

/-! ### The head of a waiting track -/

namespace SyncerTiming

/-- The track works on a real frame it has not put up yet. -/
def Pending (track : Track) : Prop :=
  track.pendingRealPts ≠ none ∨ (track.fillUntil ≠ none ∧ track.forwardFill = true)

/-- A head that is a frame. -/
def IsFrame (head : Option AvDecoderReadResult) : Prop :=
  ∃ input frame, head = some input ∧ input.frame = some frame

variable {config : SyncerConfig} {video : Bool} {head : Option AvDecoderReadResult} {now : ℤ}
  {s s' : StepState} {r : Except Exception SyncerStep}

theorem FillEnd.pending {input : Option AvDecoderReadResult}
    (h : FillEnd config video input now s r s') (hopen : s.track.fillUntil ≠ none)
    (hpending : Pending s'.track) : Pending s.track := by
  have finish : ∀ {lastPts blocked t r}, FinishEnd input lastPts now blocked t r s' →
      t.track.fillUntil = s.track.fillUntil → t.track.forwardFill = s.track.forwardFill →
      t.track.pendingRealPts = s.track.pendingRealPts → Pending s.track := by
    intro lastPts blocked t r hfinish huntil hforward hreal
    cases hfinish with
    | failed _ hfwd => exact .inr ⟨hopen, hforward ▸ hfwd⟩
    | forward hfwd => exact .inr ⟨hopen, hforward ▸ hfwd⟩
    | timeout =>
      rcases hpending with hp | ⟨hnone, -⟩
      · exact .inl (hreal ▸ hp)
      · exact absurd rfl hnone
  cases h with
  | failed => exact hpending
  | threw => exact hpending
  | rejected _ hfinish => exact finish hfinish rfl rfl rfl
  | overflowed e track _ htrack =>
    rcases htrack with ⟨rfl, -⟩ | ⟨next, -, rfl⟩
    · exact hpending
    · exact hpending
  | accepted => exact hpending
  | finished _ _ _ hfinish => exact finish hfinish rfl rfl rfl

/-- Only a real frame is consumed. -/
theorem FillEnd.unconsumed {input : Option AvDecoderReadResult}
    (h : FillEnd config video input now s r s') {result : SyncerStep} (hr : r = .ok result) :
    result.consumed = false := by
  cases h with
  | failed => cases hr
  | threw => cases hr
  | overflowed => cases hr
  | accepted => cases hr; rfl
  | rejected _ hfinish => cases hfinish <;> cases hr <;> rfl
  | finished _ _ _ hfinish => cases hfinish <;> cases hr <;> rfl

theorem Rebase.fillUntil {timeBase : AVRational} (h : Rebase video timeBase s s')
    (hnone : s.track.fillUntil = none) : s'.track.fillUntil = none := by
  cases h with
  | same => exact hnone
  | changed _ _ _ hfill _ =>
    rcases hfill with ⟨-, hfill⟩ | ⟨v, r, hv, -⟩
    · exact hfill
    · rw [hnone] at hv; cases hv

theorem CorrectPlan.real_fillUntil {input offered : AvDecoderReadResult} {pts : ℤ}
    (h : CorrectPlan config video input now s (.real offered pts s'))
    (hnone : s.track.fillUntil = none) : s'.track.fillUntil = none := by
  cases h with
  | bootstrap hrebase _ _ _ hplan => cases hplan; exact hrebase.fillUntil hnone
  | follow hrebase _ _ _ hplan => cases hplan <;> exact hrebase.fillUntil hnone

/-- **A waiting track keeps its head.**  After a step that leaves a real frame waiting, the head was a
frame and was not consumed. -/
theorem StepEnd.pending (h : StepEnd config video head now s r s')
    (hheld : Pending s.track → IsFrame head)
    (hvalid : ∀ input, head = some input → input.status ≠ .eof → IsFrame head)
    (hpending : Pending s'.track) :
    IsFrame head ∧ ∀ result, r = .ok result → result.consumed = false := by
  obtain ⟨d, hplan, hend⟩ := h
  have idle : ∀ {t : StepState}, t.track.pendingRealPts = none → t.track.fillUntil = none →
      ¬Pending t.track := by
    rintro t hreal hfill (hp | ⟨hf, -⟩)
    · exact hp hreal
    · exact hf hfill
  constructor
  · cases hplan with
    | filling hfill =>
      cases hend with
      | fill hend => exact hheld (hend.pending (by rw [hfill]; exact Option.some_ne_none _) hpending)
    | suspended => cases hend; exact hheld hpending
    | lostHead _ hreal => exact hheld (.inl (by rw [hreal]; exact Option.some_ne_none _))
    | resume _ hreal => exact hheld (.inl (by rw [hreal]; exact Option.some_ne_none _))
    | eof => cases hend; exact hheld hpending
    | correct _ _ hhead hframe => exact hvalid _ hhead hframe
    | waiting => cases hend; exact hheld hpending
    | timeout hfill hreal _ _ htimeout =>
      cases htimeout with
      | failed e _ _ _ _ _ hfill' hreal' =>
        cases hend
        exact absurd hpending (idle (hreal'.trans hreal) (hfill'.trans hfill))
      | idle => cases hend; exact absurd hpending (idle hreal hfill)
      | fill =>
        cases hend with
        | fill hend =>
          rcases hend.pending (Option.some_ne_none _) hpending with hp | ⟨-, hforward⟩
          · exact absurd hreal hp
          · cases hforward
  · rintro result rfl
    cases hend with
    | fill hend => exact hend.unconsumed rfl
    | done result s' =>
      cases hplan with
      | eof hfill hreal => exact absurd hpending (idle hreal hfill)
      | suspended => rfl
      | waiting => rfl
      | timeout _ _ _ _ htimeout => cases htimeout; rfl
      | resume _ _ _ _ hcorrect =>
        cases hcorrect with
        | bootstrap _ _ _ _ h => cases h
        | follow _ _ _ _ h => cases h; rfl
      | correct _ _ _ _ hcorrect =>
        cases hcorrect with
        | bootstrap _ _ _ _ h => cases h
        | follow _ _ _ _ h => cases h; rfl
    | real hreal =>
      obtain ⟨hfill, -, hcorrect⟩ := hplan.real_corrects
      have hnone := hcorrect.real_fillUntil hfill
      cases hreal with
      | rejected => rfl
      | accepted => exact absurd hpending (idle rfl hnone)

/-! ### The time base -/

theorem RealEnd.timeBase {input : AvDecoderReadResult} {pts : ℤ}
    (h : RealEnd config video input pts now s r s') : s'.track.timeBase = s.track.timeBase := by
  cases h with
  | overflowed e track _ _ _ htrack =>
    rcases htrack with ⟨rfl, -⟩ | ⟨next, -, rfl⟩ <;> rfl
  | _ => rfl

omit [Libav] in
theorem FinishEnd.timeBase [Libav] {input : Option AvDecoderReadResult} {lastPts : ℤ} {blocked : Bool}
    {r : Except Exception ℤ} (h : FinishEnd input lastPts now blocked s r s') :
    s'.track.timeBase = s.track.timeBase := by
  cases h with
  | failed e _ hline => exact hline.timeBase
  | _ => rfl

theorem FillEnd.timeBase {input : Option AvDecoderReadResult}
    (h : FillEnd config video input now s r s') : s'.track.timeBase = s.track.timeBase := by
  cases h with
  | rejected _ hfinish => exact hfinish.timeBase
  | finished _ _ _ hfinish => exact hfinish.timeBase
  | overflowed e track _ htrack =>
    rcases htrack with ⟨rfl, -⟩ | ⟨next, -, rfl⟩ <;> rfl
  | _ => rfl

theorem Decision.End.timeBase {d : Decision} (h : d.End config video now r s') :
    s'.track.timeBase = d.state.track.timeBase := by
  cases h with
  | real h => exact h.timeBase
  | fill h => exact h.timeBase
  | _ => rfl

theorem FollowPlan.timeBase {input : AvDecoderReadResult} {original shared : ℤ} {d : Decision}
    (h : FollowPlan config input original shared now s d) :
    d.state.track.timeBase = s.track.timeBase := by
  cases h with
  | failedJump e _ _ _ hline => exact hline.timeBase
  | _ => rfl

theorem BootstrapPlan.timeBase {input : AvDecoderReadResult} {original : ℤ} {d : Decision}
    (h : BootstrapPlan input original now s d) : d.state.track.timeBase = s.track.timeBase := by
  cases h with
  | failed e hline => exact hline.timeBase
  | anchored => rfl

theorem CorrectPlan.timeBase {input : AvDecoderReadResult} {d : Decision}
    (h : CorrectPlan config video input now s d) :
    d.state.track.timeBase = s.track.timeBase ∨
      (video = true ∧ avCmpQ s.track.timeBase input.timeBase ≠ 0 ∧
        d.state.track.timeBase = input.timeBase) := by
  have rebased : ∀ {s₁}, Rebase video input.timeBase s s₁ →
      d.state.track.timeBase = s₁.track.timeBase →
      d.state.track.timeBase = s.track.timeBase ∨
        (video = true ∧ avCmpQ s.track.timeBase input.timeBase ≠ 0 ∧
          d.state.track.timeBase = input.timeBase) := by
    intro s₁ hrebase hd
    rw [hd]
    cases hrebase with
    | same => exact .inl rfl
    | changed hbase => exact .inr ⟨hbase.1, hbase.2, rfl⟩
  cases h with
  | failedBase e _ hhalf => exact .inl hhalf.timeBase
  | failedInput e hrebase => exact rebased hrebase rfl
  | bootstrap hrebase _ _ _ hplan => exact rebased hrebase hplan.timeBase
  | follow hrebase _ _ _ hplan => exact rebased hrebase hplan.timeBase

/-- The head is measured in the unit of the track, as for audio or for video from `ForceFps`. -/
def SameBase (video : Bool) (head : Option AvDecoderReadResult) (track : Track) : Prop :=
  video = true → ∀ input, head = some input → input.frame ≠ none →
    avCmpQ track.timeBase input.timeBase = 0

theorem Rebase.eq_of_same {video : Bool} {input : AvDecoderReadResult} {frame : Frame}
    {s s' : StepState} (h : Rebase video input.timeBase s s') (hframe : input.frame = some frame)
    (hsame : SameBase video (some input) s.track) : s' = s := by
  cases h with
  | same => rfl
  | changed hbase =>
    exact absurd (hsame hbase.1 input rfl (by rw [hframe]; exact Option.some_ne_none frame)) hbase.2

/-- Only a video head in another time base moves the track to that one. -/
theorem StepEnd.timeBase (h : StepEnd config video head now s r s') :
    s'.track.timeBase = s.track.timeBase ∨
      ∃ input, video = true ∧ head = some input ∧
        (s.track.pendingRealPts ≠ none ∨ input.status ≠ .eof) ∧
        avCmpQ s.track.timeBase input.timeBase ≠ 0 ∧ s'.track.timeBase = input.timeBase := by
  obtain ⟨d, hplan, hend⟩ := h
  rw [hend.timeBase]
  cases hplan with
  | resume _ hreal _ hhead hcorrect =>
    rcases hcorrect.timeBase with h | ⟨hvideo, hbase, h⟩
    · exact .inl h
    · exact .inr ⟨_, hvideo, hhead, .inl (by rw [hreal]; exact Option.some_ne_none _), hbase, h⟩
  | correct _ _ hhead hframe hcorrect =>
    rcases hcorrect.timeBase with h | ⟨hvideo, hbase, h⟩
    · exact .inl h
    · exact .inr ⟨_, hvideo, hhead, .inr hframe, hbase, h⟩
  | timeout _ _ _ _ htimeout =>
    cases htimeout with
    | failed e _ _ _ _ hbase => exact .inl hbase
    | _ => exact .inl rfl
  | _ => exact .inl rfl

end SyncerTiming

namespace Session

open SyncerTiming

variable {config : SyncerConfig} {Promise : StepCall → Prop} {session : Session}

/-- The invariant behind `held`: a waiting track still has its frame. -/
def HoldsFrames (session : Session) : Prop :=
  ∀ video, Pending (session.track video) → IsFrame (session.held video)

theorem Admissible.isFrame {call : StepCall} (h : session.Admissible call) {input : AvDecoderReadResult}
    (hhead : call.head = some input) (hframe : input.status ≠ .eof) : IsFrame call.head := by
  obtain ⟨frame, hvalid⟩ := validateInput_ok (h.input hhead) hframe
  exact ⟨input, frame, hhead, hvalid.frame_eq⟩

theorem IsFrame.retained {call : StepCall} (h : session.Admissible call)
    (hheld : IsFrame (session.held call.video)) : IsFrame call.head := by
  obtain ⟨input, frame, hinput, hframe⟩ := hheld
  exact ⟨input, frame, h.retained input hinput, hframe⟩

theorem holdsFrames (h : (system config Promise).Reachable session) : session.HoldsFrames := by
  apply h.invariant
  · intro session hfresh video hpending
    have hcreated := create_ok hfresh.1
    obtain ⟨next, htrack⟩ := initialTrack_ok (hcreated.tracks video)
    rw [track, htrack] at hpending
    rcases hpending with hp | ⟨hf, -⟩
    · exact absurd rfl hp
    · exact absurd rfl hf
  · rintro session _ _ - hholds ⟨call, hadmissible, -, -, rfl⟩ video hpending
    obtain ⟨final, hcalls⟩ := session.calls hadmissible
    by_cases hvideo : video = call.video
    · subst hvideo
      rw [hcalls.track] at hpending
      obtain ⟨hframe, hunconsumed⟩ := hcalls.ends.pending
        (fun hp => IsFrame.retained hadmissible (hholds _ hp))
        (fun input hhead hstatus => hadmissible.isFrame hhead hstatus) hpending
      have hnot : consumed (session.outcome call) = false := by
        unfold consumed
        split
        · rename_i result hresult
          exact hunconsumed result hresult
        · rfl
      rw [after_held, if_pos rfl, hnot]
      exact hframe
    · rw [hcalls.track_of_ne hvideo] at hpending
      rw [after_held, if_neg hvideo]
      exact hholds _ hpending

/-- The head of a suspended track is no end of file. -/
theorem Admissible.status {call : StepCall} (h : session.Admissible call) (hholds : session.HoldsFrames)
    {input : AvDecoderReadResult} (hhead : call.head = some input)
    (hreal : Pending (session.track call.video) ∨ input.status ≠ .eof) : input.status ≠ .eof := by
  rcases hreal with hpending | hstatus
  · obtain ⟨input', frame, hhead', hframe⟩ := IsFrame.retained h (hholds _ hpending)
    rw [hhead] at hhead'
    cases hhead'
    intro heof
    rw [validateInput_eof (h.input hhead) heof] at hframe
    cases hframe
  · exact hstatus

/-- **Every time base is a positive ratio.** -/
theorem timeBase_positive (h : (system config Promise).Reachable session) (video : Bool) :
    (session.track video).timeBase.Positive := by
  induction h generalizing video with
  | init hfresh =>
    rw [track, (create_ok hfresh.1).timeBase]
    exact initialTimeBase_positive (validateConfig_ok (create_ok hfresh.1).valid) video
  | @step session _ _ hreach hstep ih =>
    obtain ⟨call, hadmissible, -, -, rfl⟩ := hstep
    obtain ⟨final, hcalls⟩ := session.calls hadmissible
    by_cases hvideo : video = call.video
    · subst hvideo
      rw [hcalls.track]
      rcases hcalls.ends.timeBase with hsame | ⟨input, -, hhead, hreal, -, hbase⟩
      · rw [hsame]; exact ih _
      · rw [hbase]
        have hstatus := hadmissible.status (holdsFrames hreach) hhead (hreal.imp_left .inl)
        obtain ⟨frame, hvalid⟩ := validateInput_ok (hadmissible.input hhead) hstatus
        exact hvalid.timeBase
    · rw [hcalls.track_of_ne hvideo]
      exact ih _

/-! ### Inputs as `ForceFps` delivers them -/

/-- Every video frame has one frame period as its time base. -/
def ForcedRate (config : SyncerConfig) (call : StepCall) : Prop :=
  call.video = true → ∀ input, call.head = some input → input.frame ≠ none →
    input.timeBase.num * config.encoder.fps.num = config.encoder.fps.den * input.timeBase.den

omit [Libav] in
instance decidableForcedRate (config : SyncerConfig) : DecidablePred (ForcedRate config) := fun call =>
  decidable_of_iff (call.video = true → ∀ input ∈ call.head, input.frame ≠ none →
    input.timeBase.num * config.encoder.fps.num = config.encoder.fps.den * input.timeBase.den) Iff.rfl

theorem Admissible.sameBase {call : StepCall} (h : session.Admissible call)
    (hconfig : session.syncer.config = config) (hvalid : ValidConfig config)
    (hbase : (session.track call.video).timeBase = initialTimeBase config.encoder call.video)
    (hforced : ForcedRate config call) :
    SameBase call.video call.head (session.track call.video) := by
  intro hvideo input hhead hframe
  have henabled := h.enabled
  rw [hconfig, hvideo] at henabled
  have hstatus : input.status ≠ .eof := fun heof => hframe (validateInput_eof (h.input hhead) heof)
  obtain ⟨frame, hinput⟩ := validateInput_ok (h.input hhead) hstatus
  have hratio := hforced hvideo input hhead hframe
  rw [hbase, hvideo, initialTimeBase, if_pos henabled, if_pos rfl,
    Libav.avCmpQ_eq_zero _ _ (avInvQ_positive (hvalid.fps henabled)) hinput.timeBase]
  exact hratio.symm

/-- **Under that promise no time base ever changes.** -/
theorem timeBase_forced (h : (system config Promise).Reachable session)
    (hpromise : ∀ call, Promise call → ForcedRate config call) (video : Bool) :
    (session.track video).timeBase = initialTimeBase config.encoder video := by
  induction h generalizing video with
  | init hfresh => exact (create_ok hfresh.1).timeBase video
  | @step session _ _ hreach hstep ih =>
    obtain ⟨call, hadmissible, hcall, -, rfl⟩ := hstep
    obtain ⟨final, hcalls⟩ := session.calls hadmissible
    by_cases hvideo : video = call.video
    · subst hvideo
      rw [hcalls.track]
      rcases hcalls.ends.timeBase with hsame | ⟨input, hv, hhead, hreal, hbase, -⟩
      · exact hsame.trans (ih _)
      · have hstatus := hadmissible.status (holdsFrames hreach) hhead (hreal.imp_left .inl)
        obtain ⟨frame, hinput⟩ := validateInput_ok (hadmissible.input hhead) hstatus
        have hsame := hadmissible.sameBase (configured hreach).syncer (valid hreach) (ih _)
          (hpromise call hcall)
        exact absurd (hsame hv input hhead (by rw [hinput.frame_eq]; exact Option.some_ne_none _)) hbase
    · rw [hcalls.track_of_ne hvideo]
      exact ih _

theorem sameBase {call : StepCall} (h : (system config Promise).Reachable session)
    (hpromise : ∀ call, Promise call → ForcedRate config call) (hadmissible : session.Admissible call)
    (hforced : ForcedRate config call) :
    SameBase call.video call.head (session.track call.video) :=
  hadmissible.sameBase (configured h).syncer (valid h) (timeBase_forced h hpromise _) hforced

end Session

end MwStreamer
