import MwStreamer.Syncer.Faults

/-!
# Filler batches

A batch is open while `fill_until` is set.  Its next filler is due before that target, it has accepted fewer than
five, and a batch for a forward jump belongs to a real frame that is still the head of its track.  All this holds
in every session whose steps did not overflow, whatever the callbacks answered or threw.
-/

namespace MwStreamer

open StateExcept

variable [Libav]

namespace SyncerTiming

variable {config : SyncerConfig} {video : Bool} {head : Option AvDecoderReadResult} {now : ℤ}
  {s s' : StepState} {r : Except Exception SyncerStep}

/-- An orderly track whose batch is not full. -/
structure Batched (config : SyncerConfig) (video : Bool) (track : Track) : Prop extends
    Orderly config video track where
  counted : 0 ≤ track.filled ∧ track.filled ≤ 5
  short : track.fillUntil ≠ none → track.filled < 5

/-- The step did not overflow. -/
def Fits (r : Except Exception SyncerStep) : Prop := ∀ what, r ≠ .error (.overflowError what)

omit [Libav] in
/-- Without an overflow, an exception comes from a callback. -/
theorem Thrown.threw {e : Exception} {offered : List Offer} (h : Thrown e offered)
    (hfits : Fits (.error e)) : e = .callback ∧ ∃ o ∈ offered, o.answer = .throw := by
  rcases h with h | ⟨what, rfl⟩
  · exact h
  · exact absurd rfl (hfits what)

theorem Rebase.batched {timeBase : AVRational} (h : Rebase video timeBase s s') (hb : Batched config video s.track)
    (hclosed : s.track.fillUntil = none) (hperiod : Period config video timeBase) : Batched config video s'.track := by
  have hclosed' := h.fillUntil hclosed
  cases h with
  | same => exact hb
  | changed _ hnext =>
    refine ⟨⟨fun target htarget => ?_, fun hout => ?_, hperiod⟩, hb.counted, fun hopen => absurd hclosed' hopen⟩
    · rw [hclosed'] at htarget
      cases htarget
    · rcases hnext with ⟨hnone, -⟩ | ⟨v, r, -, hsome, -⟩
      · exact absurd hnone (hb.output hout)
      · show _ ≠ none
        rw [hsome]
        exact Option.some_ne_none r

/-- Closed tracks differ in nothing that a batch is about. -/
theorem Batched.of_closed {track track' : Track} (hb : Batched config video track)
    (hclosed : track'.fillUntil = none) (hoptional : track'.hasOutput = true → track'.next ≠ none)
    (hbase : track'.timeBase = track.timeBase) (hfilled : track'.filled = track.filled) :
    Batched config video track' := by
  refine ⟨⟨fun target htarget => ?_, hoptional, ?_⟩, ?_, fun hopen => absurd hclosed hopen⟩
  · rw [hclosed] at htarget
    cases htarget
  · rw [hbase]
    exact hb.period
  · rw [hfilled]
    exact hb.counted

/-- A batch that was just begun. -/
theorem Batched.begun {track track' : Track} (hb : Batched config video track) {next target : ℤ}
    (hnext : track'.next = some next) (htarget : track'.fillUntil = some target) (hlt : next < target)
    (hbase : track'.timeBase = track.timeBase) (hfilled : track'.filled = 0) : Batched config video track' := by
  refine ⟨⟨fun target' htarget' => ?_, fun _ => ?_, ?_⟩, ?_, fun _ => ?_⟩
  · rw [htarget] at htarget'
    obtain rfl := Option.some.inj htarget'
    exact ⟨next, hnext, hlt⟩
  · rw [hnext]
    exact Option.some_ne_none next
  · rw [hbase]
    exact hb.period
  · rw [hfilled]
    decide
  · rw [hfilled]
    decide

theorem FollowPlan.batched {input : AvDecoderReadResult} {original shared : ℤ} {d : Decision}
    (h : FollowPlan config input original shared now s d) (hb : Batched config video s.track)
    (hclosed : s.track.fillUntil = none) (hlive : ∀ e s', d ≠ .failed e s') : Batched config video d.state.track := by
  cases h with
  | failed e => exact absurd rfl (hlive _ _)
  | failedMapped e => exact absurd rfl (hlive _ _)
  | failedJump e => exact absurd rfl (hlive _ _)
  | forward _ _ _ hnext hahead => exact hb.begun hnext rfl hahead rfl rfl
  | _ => exact hb.of_closed hclosed hb.output rfl rfl

theorem BootstrapPlan.batched {input : AvDecoderReadResult} {original : ℤ} {d : Decision}
    (h : BootstrapPlan input original now s d) (hb : Batched config video s.track)
    (hclosed : s.track.fillUntil = none) (hlive : ∀ e s', d ≠ .failed e s') : Batched config video d.state.track := by
  cases h with
  | failed e => exact absurd rfl (hlive _ _)
  | anchored => exact hb.of_closed hclosed hb.output rfl rfl

theorem CorrectPlan.batched {input : AvDecoderReadResult} {d : Decision}
    (h : CorrectPlan config video input now s d) (hb : Batched config video s.track)
    (hclosed : s.track.fillUntil = none) (hperiod : Period config video input.timeBase)
    (hlive : ∀ e s', d ≠ .failed e s') : Batched config video d.state.track := by
  cases h with
  | failedBase e => exact absurd rfl (hlive _ _)
  | failedInput e => exact absurd rfl (hlive _ _)
  | bootstrap hrebase _ _ _ hplan =>
    exact hplan.batched (hrebase.batched hb hclosed hperiod) (hrebase.fillUntil hclosed) hlive
  | follow hrebase _ _ _ hplan =>
    exact hplan.batched (hrebase.batched hb hclosed hperiod) (hrebase.fillUntil hclosed) hlive

theorem TimeoutPlan.batched {d : Decision} (h : TimeoutPlan config now s d) (hb : Batched config video s.track)
    (hclosed : s.track.fillUntil = none) (hlive : ∀ e s', d ≠ .failed e s') : Batched config video d.state.track := by
  cases h with
  | failed e => exact absurd rfl (hlive _ _)
  | @idle _ next => exact hb.of_closed hclosed (fun _ => Option.some_ne_none next) rfl rfl
  | fill _ _ _ _ hbefore => exact hb.begun rfl rfl hbefore rfl rfl

/-- The head is measured in a unit that can represent a frame period. -/
def HeadPeriod (config : SyncerConfig) (video : Bool) (head : Option AvDecoderReadResult) : Prop :=
  ∀ input, head = some input → IsFrame head → Period config video input.timeBase

/-- What a step decides, it decides on an orderly track. -/
theorem StepPlan.batched {d : Decision} (h : StepPlan config video head now s d) (hb : Batched config video s.track)
    (hheld : Pending s.track → IsFrame head)
    (hvalid : ∀ input, head = some input → input.status ≠ .eof → IsFrame head)
    (hperiod : HeadPeriod config video head) (hlive : ∀ e s', d ≠ .failed e s') :
    Batched config video d.state.track := by
  cases h with
  | filling => exact hb
  | suspended => exact hb
  | lostHead => exact absurd rfl (hlive _ _)
  | resume hfill hpending _ hhead hplan =>
    have hframe := hheld (.inl (by rw [hpending]; exact Option.some_ne_none _))
    exact hplan.batched (hb.of_closed hfill hb.output rfl rfl) hfill (hperiod _ hhead hframe) hlive
  | eof => exact hb
  | correct hfill _ hhead hframe hplan =>
    exact hplan.batched hb hfill (hperiod _ hhead (hvalid _ hhead hframe)) hlive
  | waiting => exact hb
  | timeout hfill _ _ _ hplan => exact hplan.batched hb hfill hlive

/-! ### Admissions -/

theorem FinishEnd.batched {input : Option AvDecoderReadResult} {lastPts : ℤ} {blocked : Bool} {wake : ℤ}
    (h : FinishEnd input lastPts now blocked s (.ok wake) s') (horderly : Orderly config video s.track)
    (hcounted : 0 ≤ s.track.filled ∧ s.track.filled ≤ 5) : Batched config video s'.track := by
  have closed : ∀ track : Track, track.fillUntil = none → track.next = s.track.next →
      track.hasOutput = s.track.hasOutput → track.timeBase = s.track.timeBase → track.filled = s.track.filled →
      Batched config video track := by
    intro track hnone hnext hout hbase hfilled
    refine ⟨⟨fun target htarget => ?_, fun h => ?_, ?_⟩, ?_, fun hopen => absurd hnone hopen⟩
    · rw [hnone] at htarget
      cases htarget
    · rw [hnext]
      rw [hout] at h
      exact horderly.output h
    · rw [hbase]
      exact horderly.period
    · rw [hfilled]
      exact hcounted
  cases h with
  | timeout => exact closed _ rfl rfl rfl rfl rfl
  | forward => exact closed _ rfl rfl rfl rfl rfl

theorem FillEnd.batched {input : Option AvDecoderReadResult} (h : FillEnd config video input now s r s')
    (hs : s.offered = []) (hb : Batched config video s.track) (hthrown : ∀ e, r = .error e → Thrown e s'.offered)
    (hfits : Fits r) : Batched config video s'.track := by
  -- An exception without a throwing callback is an overflow.
  have calm : ∀ e, r = .error e → (∀ o ∈ s'.offered, o.answer ≠ .throw) → False := by
    intro e he hanswers
    rw [he] at hfits
    obtain ⟨-, o, ho, hthrow⟩ := (hthrown e he).threw hfits
    exact hanswers o ho hthrow
  cases h with
  | failed e => exact hb
  | threw => exact hb
  | @rejected _ _ _ _ _ r' _ hfiller hfinish =>
    cases r' with
    | error e =>
      refine (calm e rfl fun o ho hthrow => ?_).elim
      rw [hfinish.next.2.2, hs, List.nil_append, List.mem_singleton] at ho
      subst ho
      cases hthrow
    | ok wake => exact hfinish.batched hb.toOrderly hb.counted
  | overflowed e track hfiller htrack =>
    refine (calm e rfl fun o ho hthrow => ?_).elim
    rw [hs, List.nil_append, List.mem_singleton] at ho
    subst ho
    cases hthrow
  | @accepted pts target duration next filledUs _ _ hfiller hnext hmore =>
    have hopen : s.track.fillUntil ≠ none := by rw [hfiller.until_target]; exact Option.some_ne_none _
    have hshort := hb.short hopen
    have hpos := hb.counted.1
    refine ⟨⟨fun target' htarget => ?_, fun _ => Option.some_ne_none next, hb.period⟩, ?_, fun _ => ?_⟩
    · rw [show (extend s.track next filledUs).fillUntil = s.track.fillUntil from rfl, hfiller.until_target] at htarget
      obtain rfl := Option.some.inj htarget
      exact ⟨next, rfl, hmore.1⟩
    · show 0 ≤ s.track.filled + 1 ∧ s.track.filled + 1 ≤ 5
      omega
    · show s.track.filled + 1 < 5
      omega
  | @finished pts target duration next filledUs _ _ r' _ hfiller hnext hdone hfinish =>
    have hopen : s.track.fillUntil ≠ none := by rw [hfiller.until_target]; exact Option.some_ne_none _
    have hshort := hb.short hopen
    have hpos := hb.counted.1
    cases r' with
    | error e =>
      refine (calm e rfl fun o ho hthrow => ?_).elim
      rw [hfinish.next.2.2, hs, List.nil_append, List.mem_singleton] at ho
      subst ho
      cases hthrow
    | ok wake =>
      have hcounted : 0 ≤ s.track.filled + 1 ∧ s.track.filled + 1 ≤ 5 := by omega
      cases hfinish with
      | timeout =>
        exact ⟨⟨fun _ h => by (cases h), fun _ => Option.some_ne_none next, hb.period⟩, hcounted,
          fun h => absurd rfl h⟩
      | forward =>
        exact ⟨⟨fun _ h => by (cases h), fun _ => Option.some_ne_none next, hb.period⟩, hcounted,
          fun h => absurd rfl h⟩

theorem RealEnd.batched {input : AvDecoderReadResult} {pts : ℤ} (h : RealEnd config video input pts now s r s')
    (hb : Batched config video s.track) (hclosed : s.track.fillUntil = none) : Batched config video s'.track := by
  cases h with
  | failed => exact hb
  | threw => exact hb
  | rejected => exact hb
  | @accepted _ _ _ next => exact hb.of_closed hclosed (fun _ => Option.some_ne_none next) rfl rfl
  | overflowed e track _ _ _ htrack =>
    rcases htrack with ⟨rfl, -⟩ | ⟨next, -, rfl⟩
    · exact hb
    · exact hb.of_closed hclosed (fun _ => Option.some_ne_none next) rfl rfl

/-- **A step keeps the track in order**, unless it overflows. -/
theorem StepEnd.batched (h : StepEnd config video head now s r s') (hs : s.offered = [])
    (hb : Batched config video s.track) (hheld : Pending s.track → IsFrame head)
    (hvalid : ∀ input, head = some input → input.status ≠ .eof → IsFrame head)
    (hperiod : HeadPeriod config video head) (hthrown : ∀ e, r = .error e → Thrown e s'.offered)
    (hfits : Fits r) : Batched config video s'.track := by
  obtain ⟨d, hplan, hend⟩ := h
  have hoffered := hplan.unoffered.offered.trans hs
  have hlive := hplan.batched hb hheld hvalid hperiod
  cases hend with
  | done => exact hlive fun _ _ h => by cases h
  | real hreal =>
    obtain ⟨hfill, -, hcorrect⟩ := hplan.real_corrects
    exact hreal.batched (hlive fun _ _ h => by cases h) (hcorrect.real_fillUntil hfill)
  | fill hfill => exact hfill.batched hoffered (hlive fun _ _ h => by cases h) hthrown hfits
  | failed e =>
    obtain ⟨-, o, ho, -⟩ := (hthrown e rfl).threw hfits
    rw [show s'.offered = [] from hoffered] at ho
    cases ho

/-- What `stepOn` throws. -/
theorem stepOn_thrown {timing : SyncerTiming} {onOutput : OnOutput}
    (h : Sound (step timing.config video head now onOutput) (timing.view video) fun _ _ => True) {e : Exception}
    (he : (timing.stepOn video head now onOutput).1.result = .error e) :
    Thrown e (timing.stepOn video head now onOutput).1.offered := by
  unfold stepOn at he ⊢
  cases hrun : step timing.config video head now onOutput (timing.view video) with
  | ok result final =>
    rw [hrun] at he
    cases he
  | error e' final =>
    rw [hrun] at he
    obtain rfl := Except.error.inj he
    exact h.error hrun

end SyncerTiming

/-! ### Accepted configurations and inputs -/

/-- The period of an accepted input. -/
theorem validateInput_period {input : AvDecoderReadResult} {video : Bool} {config : SyncerConfig}
    (h : validateInput input video config = .ok ()) (hframe : input.status ≠ .eof) :
    SyncerTiming.Period config video input.timeBase := by
  rintro rfl
  simp only [validateInput, if_neg hframe] at h
  split at h
  · cases h
  split at h
  · cases h
  cases hinput : input.frame with
  | none =>
    rw [hinput] at h
    cases h
  | some frame =>
    rw [hinput] at h
    simp only at h
    split at h
    · cases h
    split at h
    · cases h
    simp only [if_true] at h
    split at h
    · cases h
    · rename_i hvideo
      rw [not_or, not_le] at hvideo
      exact hvideo.2

/-- The frame period in its own unit is one tick. -/
theorem period_initial {config : SyncerConfig} (h : ValidConfig config) {video : Bool}
    (henabled : config.encoder.enabled video = true) :
    SyncerTiming.Period config video (SyncerTiming.initialTimeBase config.encoder video) := by
  rintro rfl
  have hbase := avInvQ_positive (h.fps henabled)
  have hone : scaled 1 (avInvQ config.encoder.fps) (avInvQ config.encoder.fps) = 1 := by
    have hpos : 0 < (avInvQ config.encoder.fps).den * (avInvQ config.encoder.fps).num := Int.mul_pos hbase.2 hbase.1
    rw [scaled, Int.mul_comm (avInvQ config.encoder.fps).num]
    exact Rounding.roundNear_mul_self hpos
  rw [SyncerTiming.initialTimeBase, if_pos henabled, if_pos rfl,
    Libav.avRescaleQ_exact _ _ _ hbase hbase (by rw [hone]; decide) (by rw [hone]; decide), hone]
  decide

theorem create_backup {config : SyncerConfig} {syncer : Syncer} (h : Syncer.create config = .ok syncer)
    (henabled : config.encoder.enabled true = true) : syncer.timing.config.backupVideo ≠ none := by
  obtain ⟨_, -, h⟩ := bind_ok h
  obtain ⟨timing, htiming, h⟩ := bind_ok h
  obtain ⟨video, -, htiming⟩ := bind_ok htiming
  obtain ⟨audio, -, htiming⟩ := bind_ok htiming
  rw [← Except.ok.inj h, ← Except.ok.inj htiming]
  dsimp only
  by_cases hnone : config.backupVideo.isNone
  · rw [if_pos ⟨henabled, hnone⟩]
    exact Option.some_ne_none _
  · rw [if_neg fun h => hnone h.2]
    exact fun h => hnone (by rw [h]; rfl)

namespace Session

open SyncerTiming

variable {config : SyncerConfig} {Promise : StepCall → Prop} {session : Session} {call : StepCall}

theorem backup_ready (h : (system config Promise).Reachable session) (henabled : config.encoder.enabled true = true) :
    session.config.backupVideo ≠ none := by
  induction h with
  | init hfresh => exact create_backup hfresh.1 henabled
  | @step session _ _ _ hstep ih =>
    obtain ⟨call, hadmissible, -, -, rfl⟩ := hstep
    obtain ⟨final, hcalls⟩ := session.calls hadmissible
    rw [hcalls.config]
    exact ih

/-- The runs in which no step overflows. -/
def fitting (config : SyncerConfig) : Transition Session (Bool × Offer) where
  init := Fresh config
  step session es session' := ∃ call, session.Admissible call ∧ Fits (session.outcome call).result ∧
    es = session.emitted call ∧ session' = session.after call

theorem fitting_reachable (h : (fitting config).Reachable session) :
    (system config fun _ => True).Reachable session := by
  refine h.mono (fun _ h => h) ?_
  rintro session es session' ⟨call, hadmissible, -, hes, hafter⟩
  exact ⟨call, hadmissible, trivial, hes, hafter⟩

theorem Admissible.headPeriod (h : session.Admissible call) (hconfig : session.syncer.config = config) :
    HeadPeriod config call.video call.head := by
  rintro input hhead ⟨input', frame, hhead', hframe⟩
  rw [hhead] at hhead'
  obtain rfl := Option.some.inj hhead'
  have hinput := h.input hhead
  rw [hconfig] at hinput
  refine validateInput_period hinput fun heof => ?_
  rw [validateInput_eof hinput heof] at hframe
  cases hframe

/-- The period depends on the encoder settings only. -/
theorem Configured.period (h : session.Configured config) {video : Bool} {timeBase : AVRational} :
    Period session.config video timeBase ↔ Period config video timeBase := by
  rw [Period, Period, h.encoder]

theorem Configured.batched (h : session.Configured config) {video : Bool} {track : Track} :
    Batched session.config video track ↔ Batched config video track := by
  constructor
  · intro hb
    exact ⟨⟨hb.batch, hb.output, h.period.mp hb.period⟩, hb.counted, hb.short⟩
  · intro hb
    exact ⟨⟨hb.batch, hb.output, h.period.mpr hb.period⟩, hb.counted, hb.short⟩

/-- **Only the callback and checked arithmetic throw.** -/
theorem outcome_thrown (hreach : (system config Promise).Reachable session)
    (hb : Batched config call.video (session.track call.video)) (hadmissible : session.Admissible call) {e : Exception}
    (he : (session.outcome call).result = .error e) : Thrown e (session.outcome call).offered := by
  have hconfig := configured hreach
  have henabled := hadmissible.enabled
  rw [hconfig.syncer] at henabled
  have houtcome : session.outcome call =
      (session.syncer.timing.stepOn call.video call.head call.now call.onOutput).1 := by
    rw [outcome, Syncer.step, hadmissible.valid]
  rw [houtcome] at he ⊢
  refine stepOn_thrown (sound_step (hconfig.batched.mpr hb).toOrderly ?_ ?_ ?_ ?_) he
  · intro hvideo
    rw [hvideo] at henabled
    exact backup_ready hreach henabled
  · exact fun hpending => IsFrame.retained hadmissible (holdsFrames hreach _ hpending)
  · exact fun input hhead hstatus => hadmissible.isFrame hhead hstatus
  · exact fun input hhead hframe => hconfig.period.mpr (hadmissible.headPeriod hconfig.syncer input hhead hframe)

/-- **Every enabled track stays in order.** -/
theorem batched (h : (fitting config).Reachable session) {video : Bool}
    (henabled : config.encoder.enabled video = true) : Batched config video (session.track video) := by
  induction h generalizing video with
  | init hfresh =>
    have hcreated := create_ok hfresh.1
    obtain ⟨next, htrack⟩ := initialTrack_ok (hcreated.tracks video)
    rw [track, htrack]
    refine ⟨⟨fun _ h => by (cases h), fun h => by (cases h), ?_⟩, ⟨le_refl 0, ?_⟩, fun h => absurd rfl h⟩
    · exact period_initial (validateConfig_ok hcreated.valid) henabled
    · show (0 : ℤ) ≤ 5
      decide
  | @step session _ _ hreach hstep ih =>
    obtain ⟨call, hadmissible, hfits, -, rfl⟩ := hstep
    have hreach' := fitting_reachable hreach
    have hconfig := configured hreach'
    obtain ⟨final, hcalls⟩ := session.calls hadmissible
    by_cases hvideo : video = call.video
    · subst hvideo
      have hb := ih henabled
      rw [hcalls.track, ← hconfig.batched]
      refine hcalls.ends.batched rfl (hconfig.batched.mpr hb) ?_ ?_ ?_ ?_ hfits
      · exact fun hpending => IsFrame.retained hadmissible (holdsFrames hreach' _ hpending)
      · exact fun input hhead hstatus => hadmissible.isFrame hhead hstatus
      · exact fun input hhead hframe =>
          hconfig.period.mpr (hadmissible.headPeriod hconfig.syncer input hhead hframe)
      · intro e he
        rw [← hcalls.offered]
        exact outcome_thrown hreach' hb hadmissible he
    · rw [hcalls.track_of_ne hvideo]
      exact ih henabled

/-! ### What a batch puts up -/

/-- The batch that the call puts a filler of up, with the fillers accepted before: the open batch, or the one that
the call begins. -/
def FillsIn (session : Session) (call : StepCall) (target filled : ℤ) : Prop :=
  ∃ input s, StepPlan session.config call.video call.head call.now (session.view call.video) (.fill input s) ∧
    s.track.fillUntil = some target ∧ s.track.filled = filled

theorem FillsIn.count {target filled : ℤ} (h : FillsIn session call target filled) :
    ((session.track call.video).fillUntil ≠ none →
      (session.track call.video).fillUntil = some target ∧ (session.track call.video).filled = filled) ∧
    ((session.track call.video).fillUntil = none → filled = 0) := by
  obtain ⟨input, s, hplan, htarget, hfilled⟩ := h
  rcases hplan.fill_cases with ⟨rfl, -, hopen⟩ | ⟨real, -, -, hclosed, hcorrect⟩ | ⟨-, -, hclosed, -, -, htimeout⟩
  · refine ⟨fun _ => ⟨htarget, hfilled⟩, fun hclosed => ?_⟩
    rw [view_track, hclosed] at hopen
    cases hopen
  · refine ⟨fun hopen => absurd hclosed hopen, fun _ => ?_⟩
    cases hcorrect with
    | bootstrap _ _ _ _ hplan => cases hplan
    | follow _ _ _ _ hplan =>
      cases hplan
      exact hfilled.symm
  · refine ⟨fun hopen => absurd hclosed hopen, fun _ => ?_⟩
    cases htimeout
    exact hfilled.symm

end Session

namespace SyncerTiming

variable {config : SyncerConfig} {video : Bool} {head : Option AvDecoderReadResult} {now : ℤ}
  {s s' : StepState} {r : Except Exception SyncerStep}

/-- A filler inside its batch. -/
structure Inside (video : Bool) (o : Offer) (target : ℤ) : Prop where
  before : o.frame.pts < target
  silence : video = false → o.source = .silence ∧ 1 ≤ o.frame.nbSamples ∧ o.frame.nbSamples ≤ 1024 ∧
    o.frame.duration = o.frame.nbSamples ∧ o.frame.pts + o.frame.duration ≤ target
  picture : video = true → 0 < o.frame.duration ∧ o.frame.pts + o.frame.duration < target + o.frame.duration

theorem Filler.inside {pts target duration : ℤ} {frame : Frame} {source : OutputSource} {answer : Answer}
    (h : Filler config video s pts target frame source duration) (hb : Batched config video s.track) :
    Inside video ⟨frame, source, answer⟩ target := by
  obtain ⟨next, hnext, hlt⟩ := hb.batch target h.until_target
  rw [h.at_next] at hnext
  obtain rfl := Option.some.inj hnext
  obtain ⟨count, spare, hcount, hspare, hlasts, rfl⟩ := h.made
  refine ⟨hlt, ?_, ?_⟩
  · rintro rfl
    rw [Lasts, if_neg (by decide)] at hlasts
    cases hspare with
    | freeze hvideo => cases hvideo
    | backup hvideo => cases hvideo
    | silence _ hpos =>
      have hsamples : (stamp (SyncerTiming.silence config count) s.track pts duration).nbSamples = min 1024 count := rfl
      have hduration : duration = min 1024 count := hlasts
      have hcount := subtract_ok hcount
      refine ⟨rfl, ?_, ?_, hlasts, ?_⟩
      · show 1 ≤ (stamp (SyncerTiming.silence config count) s.track pts duration).nbSamples
        omega
      · show (stamp (SyncerTiming.silence config count) s.track pts duration).nbSamples ≤ 1024
        omega
      · show pts + duration ≤ target
        omega
  · rintro rfl
    rw [Lasts, if_pos rfl] at hlasts
    have hpos := hlasts.2
    exact ⟨hpos, by show pts + duration < target + duration; omega⟩

/-- What `Fill` puts up, and how it counts. -/
theorem FillEnd.inside {input : Option AvDecoderReadResult} (h : FillEnd config video input now s r s')
    (hs : s.offered = []) (hb : Batched config video s.track) {o : Offer} (ho : o ∈ s'.offered) :
    (∃ target, s.track.fillUntil = some target ∧ Inside video o target) ∧
      (o.answer = .accept → s.track.next = some o.frame.pts ∧
        (s'.track.filled = s.track.filled + 1 ∨ ∃ e, r = .error e)) ∧
      (o.answer ≠ .accept → s'.track.filled = s.track.filled ∨ (o.answer = .reject ∧ ∃ e, r = .error e)) := by
  have single : ∀ {pts target duration : ℤ} {frame : Frame} {source : OutputSource} {answer : Answer},
      Filler config video s pts target frame source duration → s'.offered = s.offered ++ [⟨frame, source, answer⟩] →
      o.answer = answer ∧ s.track.next = some o.frame.pts ∧
        ∃ target, s.track.fillUntil = some target ∧ Inside video o target := by
    intro pts target duration frame source answer hfiller hoffered
    rw [hoffered, hs, List.nil_append, List.mem_singleton] at ho
    subst ho
    obtain ⟨count, spare, -, -, -, hframe⟩ := hfiller.made
    refine ⟨rfl, ?_, target, hfiller.until_target, hfiller.inside hb⟩
    rw [hfiller.at_next, hframe]
    rfl
  cases h with
  | failed e =>
    rw [hs] at ho
    cases ho
  | threw hfiller =>
    obtain ⟨hanswer, hnext, hinside⟩ := single hfiller rfl
    have hno : o.answer ≠ .accept := by rw [hanswer]; decide
    exact ⟨hinside, fun h => absurd h hno, fun _ => .inl rfl⟩
  | @rejected _ _ _ _ _ r' _ hfiller hfinish =>
    obtain ⟨hanswer, hnext, hinside⟩ := single hfiller hfinish.next.2.2
    have hno : o.answer ≠ .accept := by rw [hanswer]; decide
    refine ⟨hinside, fun h => absurd h hno, fun _ => ?_⟩
    cases hfinish with
    | failed e => exact .inr ⟨hanswer, e, rfl⟩
    | timeout => exact .inl rfl
    | forward => exact .inl rfl
  | overflowed e track hfiller =>
    obtain ⟨hanswer, hnext, hinside⟩ := single hfiller rfl
    exact ⟨hinside, fun _ => ⟨hnext, .inr ⟨e, rfl⟩⟩, fun h => absurd hanswer h⟩
  | accepted hfiller =>
    obtain ⟨hanswer, hnext, hinside⟩ := single hfiller rfl
    exact ⟨hinside, fun _ => ⟨hnext, .inl rfl⟩, fun h => absurd hanswer h⟩
  | @finished _ _ _ _ _ _ _ r' _ hfiller _ _ hfinish =>
    obtain ⟨hanswer, hnext, hinside⟩ := single hfiller hfinish.next.2.2
    refine ⟨hinside, fun _ => ⟨hnext, ?_⟩, fun h => absurd hanswer h⟩
    cases hfinish with
    | failed e => exact .inr ⟨e, rfl⟩
    | timeout => exact .inl rfl
    | forward => exact .inl rfl

end SyncerTiming

namespace Session

open SyncerTiming

variable {config : SyncerConfig} {session : Session} {call : StepCall}

/-- A filler of a call, its batch, and the batch's count. -/
theorem Calls.inside {final : StepState} (h : session.Calls call final)
    (hb : ∀ input s, StepPlan session.config call.video call.head call.now (session.view call.video) (.fill input s) →
      Batched session.config call.video s.track)
    (hthrown : ∀ e, (session.outcome call).result = .error e → ∃ o ∈ final.offered, o.answer = .throw)
    {o : Offer} (ho : o ∈ final.offered) (hfiller : o.source ≠ .input) :
    ∃ target filled, session.FillsIn call target filled ∧ filled < 5 ∧ Inside call.video o target ∧
      final.track.filled = if o.answer = .accept then filled + 1 else filled := by
  have hone : ∀ o' ∈ final.offered, o = o' := fun o' ho' => h.ends.offered_le_one rfl ho ho'
  obtain ⟨d, hplan, hend⟩ := h.ends
  have hoffered := hplan.unoffered.offered
  rw [view_offered] at hoffered
  generalize (session.outcome call).result = r at hend hthrown
  cases hend with
  | done =>
    rw [show final.offered = [] from hoffered] at ho
    cases ho
  | failed =>
    rw [show final.offered = [] from hoffered] at ho
    cases ho
  | real hend => exact absurd (hend.lands hoffered ho).1 hfiller
  | @fill input s _ _ hend =>
    have hbatch := hb input s hplan
    obtain ⟨⟨target, htarget, hinside⟩, haccepted, hrefused⟩ := hend.inside hoffered hbatch ho
    have hopen : s.track.fillUntil ≠ none := by rw [htarget]; exact Option.some_ne_none target
    refine ⟨target, s.track.filled, ⟨input, s, hplan, htarget, rfl⟩, hbatch.short hopen, hinside, ?_⟩
    by_cases haccept : o.answer = .accept
    · rw [if_pos haccept]
      rcases (haccepted haccept).2 with hcount | ⟨e, he⟩
      · exact hcount
      · obtain ⟨o', ho', hthrow⟩ := hthrown e he
        rw [← hone o' ho', haccept] at hthrow
        cases hthrow
    · rw [if_neg haccept]
      rcases hrefused haccept with hcount | ⟨hreject, e, he⟩
      · exact hcount
      · obtain ⟨o', ho', hthrow⟩ := hthrown e he
        rw [← hone o' ho', hreject] at hthrow
        cases hthrow

theorem Admissible.plan_batched (hreach : (fitting config).Reachable session) (hadmissible : session.Admissible call)
    {d : Decision}
    (hplan : StepPlan session.config call.video call.head call.now (session.view call.video) d)
    (hlive : ∀ e s', d ≠ .failed e s') : Batched session.config call.video d.state.track := by
  have hreach' := fitting_reachable hreach
  have hconfig := configured hreach'
  have henabled := hadmissible.enabled
  rw [hconfig.syncer] at henabled
  refine hplan.batched (hconfig.batched.mpr (batched hreach henabled)) ?_ ?_ ?_ hlive
  · exact fun hpending => IsFrame.retained hadmissible (holdsFrames hreach' _ hpending)
  · exact fun input hhead hstatus => hadmissible.isFrame hhead hstatus
  · exact fun input hhead hframe => hconfig.period.mpr (hadmissible.headPeriod hconfig.syncer input hhead hframe)

/-- **Filler batches are bounded, and no optional is dereferenced empty.**  In every session whose steps did not
overflow: an open batch has its next filler before its target and has accepted fewer than five; a forward batch or
a suspended real frame has that frame as its head; the frame period is positive.  A further step throws only what
its callback throws.  A filler stands inside its batch: silence has 1 to 1024 samples and ends by the target, a
picture begins before it, so that it ends less than a frame period later.  A batch counts the fillers it accepts
from 0 on, up to five. -/
theorem batches_bounded (hreach : (fitting config).Reachable session) :
    (∀ video, config.encoder.enabled video = true → Batched config video (session.track video) ∧
      (Pending (session.track video) → IsFrame (session.held video))) ∧
    ∀ call, session.Admissible call → Fits (session.outcome call).result →
      (Pending (session.track call.video) → IsFrame call.head) ∧
      (∀ e, (session.outcome call).result = .error e → e = .callback) ∧
      Batched config call.video (session.trackAfter call) ∧
      ∀ o ∈ (session.outcome call).offered, o.source ≠ .input →
        ∃ target filled, session.FillsIn call target filled ∧ filled < 5 ∧ Inside call.video o target ∧
          ((session.track call.video).fillUntil ≠ none →
            (session.track call.video).fillUntil = some target ∧ (session.track call.video).filled = filled) ∧
          ((session.track call.video).fillUntil = none → filled = 0) ∧
          (session.trackAfter call).filled = if o.answer = .accept then filled + 1 else filled := by
  have hreach' := fitting_reachable hreach
  have hconfig := configured hreach'
  refine ⟨fun video henabled => ⟨batched hreach henabled, holdsFrames hreach' video⟩, ?_⟩
  intro call hadmissible hfits
  have henabled := hadmissible.enabled
  rw [hconfig.syncer] at henabled
  have hthrown : ∀ e, (session.outcome call).result = .error e →
      e = .callback ∧ ∃ o ∈ (session.outcome call).offered, o.answer = .throw := by
    intro e he
    have hcause := outcome_thrown hreach' (batched hreach henabled) hadmissible he
    rw [he] at hfits
    exact hcause.threw hfits
  refine ⟨fun hpending => IsFrame.retained hadmissible (holdsFrames hreach' _ hpending),
    fun e he => (hthrown e he).1, batched (.step hreach ⟨call, hadmissible, hfits, rfl, rfl⟩) henabled, ?_⟩
  intro o ho hfiller
  obtain ⟨final, hcalls⟩ := session.calls hadmissible
  rw [hcalls.offered] at ho
  obtain ⟨target, filled, hin, hshort, hinside, hcount⟩ := hcalls.inside
    (fun input s hplan => hadmissible.plan_batched hreach hplan fun _ _ h => by cases h)
    (fun e he => by rw [← hcalls.offered]; exact (hthrown e he).2) ho hfiller
  refine ⟨target, filled, hin, hshort, hinside, hin.count.1, hin.count.2, ?_⟩
  rw [trackAfter, hcalls.track]
  exact hcount

/-! ### Replaying calls -/

/-- Whether every call of the list is admissible when its turn comes, and its step does not overflow. -/
def KeepsFitting (session : Session) : List StepCall → Prop
  | [] => True
  | call :: calls => session.Admissible call ∧ Fits (session.outcome call).result ∧
      KeepsFitting (session.after call) calls

theorem replay_fitting {calls : List StepCall} (h : (fitting config).Reachable session)
    (hkeeps : session.KeepsFitting calls) : (fitting config).Reachable (session.replay calls) := by
  induction calls generalizing session with
  | nil => exact h
  | cons call calls ih =>
    obtain ⟨hadmissible, hfits, hrest⟩ := hkeeps
    exact ih (.step h ⟨call, hadmissible, hfits, rfl, rfl⟩) hrest

omit [Libav] in
instance decidableFits (r : Except Exception SyncerStep) : Decidable (Fits r) :=
  match r with
  | .ok _ => .isTrue fun _ h => by cases h
  | .error e =>
    match e with
    | .overflowError what => .isFalse fun h => h what rfl
    | .invalidArgument _ | .logicError _ | .runtimeError _ | .ffmpeg _ _ | .callback | .badOptional =>
      .isTrue fun _ h => by cases h

instance decidableKeepsFitting : ∀ (session : Session) (calls : List StepCall), Decidable (session.KeepsFitting calls)
  | _, [] => .isTrue trivial
  | session, call :: calls =>
    haveI := decidableKeepsFitting (session.after call) calls
    inferInstanceAs (Decidable (_ ∧ _ ∧ _))

/-- A fresh session. -/
def fresh (syncer : Syncer) : Session := { syncer := syncer, held := fun _ => none, now := 0 }

/-- A fresh session after these calls, if the configuration and every call are accepted and no step overflows. -/
def fittingPlayback (config : SyncerConfig) (calls : List StepCall) : Option Session :=
  match Syncer.create config with
  | .error _ => none
  | .ok syncer => if (fresh syncer).KeepsFitting calls then some ((fresh syncer).replay calls) else none

theorem fittingPlayback_reachable {calls : List StepCall} (h : session ∈ fittingPlayback config calls) :
    (fitting config).Reachable session := by
  unfold fittingPlayback at h
  split at h
  · cases h
  · rename_i syncer hcreate
    split at h
    · rename_i hkeeps
      cases h
      exact replay_fitting (.init ⟨hcreate, fun _ => rfl, Int.le_refl 0⟩) hkeeps
    · cases h

end Session

end MwStreamer

namespace MwStreamer.Session

open SyncerTiming

attribute [local instance] Libav.reference

/-- Six seconds without a head: the second step opens a batch of silence and accepts its first block. -/
theorem batches_bounded_silence : ∃ session : Session, ∃ o ∈ (session.outcome (emptyCall false 6000000)).offered,
    o.source = .silence ∧ 1 ≤ o.frame.nbSamples ∧ o.frame.nbSamples ≤ 1024 ∧
      (session.trackAfter (emptyCall false 6000000)).filled = 1 := by
  have hrun : ∃ session ∈ fittingPlayback audioOnly [emptyCall false 4000000],
      session.Admissible (emptyCall false 6000000) ∧ Fits (session.outcome (emptyCall false 6000000)).result ∧
      (session.track false).fillUntil = none ∧
      ∃ o ∈ (session.outcome (emptyCall false 6000000)).offered, o.source ≠ .input ∧ o.answer = .accept := by
    decide +kernel
  obtain ⟨session, hplay, hadmissible, hfits, hclosed, o, ho, hfiller, haccept⟩ := hrun
  obtain ⟨-, -, -, hbatch⟩ := (batches_bounded (fittingPlayback_reachable hplay)).2 _ hadmissible hfits
  obtain ⟨target, filled, -, -, hinside, -, hzero, hcount⟩ := hbatch o ho hfiller
  obtain ⟨hsource, hlow, hhigh, -⟩ := hinside.silence rfl
  rw [if_pos haccept, hzero hclosed] at hcount
  exact ⟨session, o, ho, hsource, hlow, hhigh, hcount⟩

end MwStreamer.Session
