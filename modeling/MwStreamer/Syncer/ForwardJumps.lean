import MwStreamer.Syncer.Progress

/-!
# Forward jumps

A real frame that maps far ahead of its track is announced by a batch of fillers, unless the track tries without.
The flag for that is set when a forward batch ends, for the retry of the same frame; but that retry is continuous
and leaves the flag set, so that it is the next forward jump that goes unfilled.
-/

namespace MwStreamer

open StateExcept

variable [Libav]

namespace SyncerTiming

variable {config : SyncerConfig} {video : Bool} {head : Option AvDecoderReadResult} {now : ℤ}
  {s s' : StepState} {r : Except Exception SyncerStep}

/-- The head is a real frame that the shared shift maps to `pts`, the tolerance or more ahead of the expected
timestamp `next`. -/
def Ahead (config : SyncerConfig) (video : Bool) (head : Option AvDecoderReadResult) (s : StepState)
    (next pts : ℤ) : Prop :=
  ∃ input frame s₁ original shared desync shift, head = some input ∧ input.frame = some frame ∧
    Rebase video input.timeBase s s₁ ∧
    rescale frame.pts input.timeBase s₁.track.timeBase = .ok original ∧ s₁.clock.shift = some shared ∧
    Adopts config s₁.track shared desync shift ∧ add original shift = .ok pts ∧ s₁.track.next = some next ∧
    next < pts ∧ config.options.maxStreamsDiff ≤ avRescaleQ pts s₁.track.timeBase kMicroseconds
      - avRescaleQ next s₁.track.timeBase kMicroseconds

/-! ### The mapping is a function -/

theorem Converted.unique {value a b : Option ℤ} {bq cq : AVRational} (ha : Converted value a bq cq)
    (hb : Converted value b bq cq) : a = b := by
  rcases ha with ⟨hnone, rfl⟩ | ⟨v, ra, hv, rfl, hra⟩
  · rcases hb with ⟨-, rfl⟩ | ⟨v, rb, hv, -⟩
    · rfl
    · rw [hnone] at hv
      cases hv
  · rcases hb with ⟨hnone, -⟩ | ⟨v', rb, hv', rfl, hrb⟩
    · rw [hv] at hnone
      cases hnone
    · rw [hv] at hv'
      obtain rfl := Option.some.inj hv'
      rw [hra] at hrb
      rw [Except.ok.inj hrb]

/-- What the mapping reads. -/
structure SameMapping (s₁ s₂ : StepState) : Prop where
  timeBase : s₁.track.timeBase = s₂.track.timeBase
  next : s₁.track.next = s₂.track.next
  shift : s₁.track.shift = s₂.track.shift
  tryWithoutFilling : s₁.track.tryWithoutFilling = s₂.track.tryWithoutFilling
  clock : s₁.clock.shift = s₂.clock.shift

theorem Rebase.unique {timeBase : AVRational} {s₁ s₂ : StepState} (h₁ : Rebase video timeBase s s₁)
    (h₂ : Rebase video timeBase s s₂) : SameMapping s₁ s₂ := by
  cases h₁ with
  | same hbase =>
    cases h₂ with
    | same => exact ⟨rfl, rfl, rfl, rfl, rfl⟩
    | changed hbase' => exact absurd hbase' hbase
  | changed hbase hnext hshift =>
    cases h₂ with
    | same hbase' => exact absurd hbase hbase'
    | changed _ hnext' hshift' => exact ⟨rfl, hnext.unique hnext', hshift.unique hshift', rfl, rfl⟩

theorem Adopts.unique {track track' : Track} {shared shift shift' : ℤ} {desync desync' : Bool}
    (hbase : track.timeBase = track'.timeBase) (hshift : track.shift = track'.shift)
    (h : Adopts config track shared desync shift) (h' : Adopts config track' shared desync' shift') :
    shift = shift' := by
  have hdesync : desync = desync' := by
    rw [Bool.eq_iff_iff, h.desync_iff, h'.desync_iff, Desync, Desync, hbase, hshift]
  have heq := h.shift_eq
  have heq' := h'.shift_eq
  rw [hbase, hshift, hdesync] at heq
  split at heq
  · rename_i hadopt
    rw [if_pos hadopt, heq] at heq'
    exact Except.ok.inj heq'
  · rename_i hadopt
    rw [if_neg hadopt, heq] at heq'
    exact Option.some.inj heq'

/-- A mapping that far ahead is a discontinuity. -/
theorem Jumps.of_ahead {track : Track} {pts next : ℤ} {jump : Bool} (hdiff : 0 < config.options.maxStreamsDiff)
    (hnext : track.next = some next) (hfar : config.options.maxStreamsDiff ≤
      avRescaleQ pts track.timeBase kMicroseconds - avRescaleQ next track.timeBase kMicroseconds)
    (h : Jumps config track pts jump) : jump = true := by
  rw [h.discontinuous_iff]
  refine ⟨next, hnext, ?_, fun hnear => ?_⟩
  · rintro rfl
    omega
  · rw [Near, abs_lt] at hnear
    omega

theorem Rebase.tryWithoutFilling {timeBase : AVRational} (h : Rebase video timeBase s s') :
    s'.track.tryWithoutFilling = s.track.tryWithoutFilling := by
  cases h with
  | same => rfl
  | changed => rfl

/-- The state a forward jump is filled from: a fresh batch at `next`. -/
structure Begun (s : StepState) (next pts : ℤ) : Prop where
  next : s.track.next = some next
  target : s.track.fillUntil = some pts
  forward : s.track.forwardFill = true
  filled : s.track.filled = 0
  offered : s.offered = []

/-- **What a far frame leads to**: a batch, unless the track tries without filling. -/
theorem CorrectPlan.of_ahead {input : AvDecoderReadResult} {next pts : ℤ} {d : Decision}
    (hdiff : 0 < config.options.maxStreamsDiff) (hahead : Ahead config video (some input) s next pts)
    (hs : s.offered = []) (h : CorrectPlan config video input now s d) :
    (∃ e t, d = .failed e t) ∨
    (s.track.tryWithoutFilling = false ∧ ∃ t, d = .fill (some input) t ∧ Begun t next pts) ∨
    (s.track.tryWithoutFilling = true ∧ ∃ t, d = .done { wakeUs := now + 1000 } t ∧ t.track.next = some next ∧
      t.track.tryWithoutFilling = false ∧ t.offered = []) := by
  obtain ⟨input', frame, s₁, original, shared, desync, shift, hinput, hframe, hrebase, horiginal, hclock, hadopt,
    hpts, hnext, hlt, hfar⟩ := hahead
  obtain rfl := Option.some.inj hinput
  cases h with
  | failedBase e => exact .inl ⟨e, _, rfl⟩
  | failedInput e => exact .inl ⟨e, _, rfl⟩
  | bootstrap hrebase' _ _ hnone =>
    have hsame := hrebase.unique hrebase'
    rw [hsame.clock, hnone] at hclock
    cases hclock
  | @follow s₂ _ _ _ _ hrebase' hframe' horiginal' hclock' hplan =>
    have hsame := hrebase.unique hrebase'
    have hoffered : s₂.offered = [] := hrebase'.unoffered.offered.trans hs
    have htry := hrebase'.tryWithoutFilling
    rw [hframe] at hframe'
    obtain rfl := Option.some.inj hframe'
    rw [← hsame.timeBase, horiginal] at horiginal'
    obtain rfl := Except.ok.inj horiginal'
    rw [← hsame.clock, hclock] at hclock'
    obtain rfl := Option.some.inj hclock'
    rw [hsame.next] at hnext
    -- The plan maps the frame to the same timestamp.
    have mapped : ∀ {desync' shift' pts'}, Adopts config s₂.track shared desync' shift' →
        add original shift' = .ok pts' → pts' = pts := by
      intro desync' shift' pts' hadopt' hpts'
      rw [add_ok hpts', add_ok hpts, hadopt.unique hsame.timeBase hsame.shift hadopt']
    have far : ∀ {jump}, Jumps config s₂.track pts jump → jump = true := by
      intro jump hjump
      rw [hsame.timeBase] at hfar
      exact Jumps.of_ahead hdiff hnext hfar hjump
    cases hplan with
    | failed e => exact .inl ⟨e, _, rfl⟩
    | failedMapped e => exact .inl ⟨e, _, rfl⟩
    | failedJump e => exact .inl ⟨e, _, rfl⟩
    | continuous hadopt' hpts' hjump =>
      rw [mapped hadopt' hpts'] at hjump
      cases far hjump
    | backward hadopt' hpts' _ hnext' hbehind =>
      rw [hnext] at hnext'
      obtain rfl := Option.some.inj hnext'
      rw [mapped hadopt' hpts'] at hbehind
      exact absurd hlt hbehind
    | forward hadopt' hpts' _ hnext' _ hfilling =>
      obtain rfl := mapped hadopt' hpts'
      exact .inr (.inl ⟨htry.symm.trans hfilling, _, rfl, hnext, rfl, rfl, rfl, hoffered⟩)
    | retry _ _ _ _ _ hwithout _ _ huntil =>
      rw [add_ok huntil]
      exact .inr (.inr ⟨htry.symm.trans hwithout, _, rfl, hnext, rfl, hoffered⟩)

/-- What the first filler of a batch leaves. -/
theorem FillEnd.of_begun {input : Option AvDecoderReadResult} {next pts : ℤ} {result : SyncerStep}
    (h : FillEnd config video input now s r s') (hbegun : Begun s next pts) (hr : r = .ok result) :
    ∃ o, s'.offered = [o] ∧ o.source ≠ .input ∧ o.frame.pts = next ∧
      (o.answer = .accept → s'.track.filled = 1 ∧
        s'.track.fillUntil = if pts ≤ next + o.frame.duration then none else some pts) := by
  have single : ∀ {pts' target duration : ℤ} {frame : Frame} {source : OutputSource},
      Filler config video s pts' target frame source duration →
      source ≠ .input ∧ frame.pts = next ∧ frame.duration = duration ∧ pts' = next ∧ target = pts := by
    intro pts' target duration frame source hfiller
    obtain ⟨count, spare, -, hspare, -, rfl⟩ := hfiller.made
    have hat := hfiller.at_next
    have htarget := hfiller.until_target
    rw [hbegun.next] at hat
    rw [hbegun.target] at htarget
    obtain rfl := Option.some.inj hat
    obtain rfl := Option.some.inj htarget
    exact ⟨hspare.not_input, rfl, rfl, rfl, rfl⟩
  have hone : (0 : ℤ) + 1 ≠ 5 := by decide
  cases h with
  | failed => cases hr
  | threw => cases hr
  | overflowed => cases hr
  | @rejected _ _ _ frame source _ _ hfiller hfinish =>
    obtain ⟨hsource, hpts, -⟩ := single hfiller
    refine ⟨⟨frame, source, .reject⟩, ?_, hsource, hpts, fun haccept => by (cases haccept)⟩
    rw [hfinish.next.2.2, hbegun.offered]
    rfl
  | @accepted _ _ duration next' _ frame source hfiller hadd hmore =>
    obtain ⟨hsource, hpts, hduration, rfl, rfl⟩ := single hfiller
    refine ⟨⟨frame, source, .accept⟩, ?_, hsource, hpts, fun _ => ⟨?_, ?_⟩⟩
    · show s.offered ++ _ = _
      rw [hbegun.offered]
      rfl
    · show s.track.filled + 1 = 1
      rw [hbegun.filled]
      rfl
    · show s.track.fillUntil = _
      have hlt := hmore.1
      rw [add_ok hadd] at hlt
      rw [hduration, if_neg (by omega)]
      exact hbegun.target
  | @finished _ _ duration next' _ frame source r' _ hfiller hadd hdone hfinish =>
    obtain ⟨hsource, hpts, hduration, rfl, rfl⟩ := single hfiller
    refine ⟨⟨frame, source, .accept⟩, ?_, hsource, hpts, fun _ => ?_⟩
    · rw [hfinish.next.2.2]
      show s.offered ++ _ = _
      rw [hbegun.offered]
      rfl
    · have hreached := hdone.resolve_right (by rw [hbegun.filled]; exact hone)
      rw [add_ok hadd] at hreached
      rw [hduration, if_pos hreached]
      have hfilled : s.track.filled + 1 = 1 := by
        rw [hbegun.filled]
        rfl
      cases r' with
      | error e => cases hr
      | ok wake =>
        cases hfinish with
        | timeout => exact ⟨hfilled, rfl⟩
        | forward => exact ⟨hfilled, rfl⟩

end SyncerTiming

namespace Session

open SyncerTiming

variable {config : SyncerConfig} {session : Session} {call : StepCall}

/-- The step begins a batch at `next` that runs to `pts`: it puts up its first filler and nothing else, and when that
is accepted the batch goes on unless it has reached `pts`. -/
def Begins (session : Session) (call : StepCall) (next pts : ℤ) : Prop :=
  session.FillsIn call pts 0 ∧ ∃ o, (session.outcome call).offered = [o] ∧ o.source ≠ .input ∧ o.frame.pts = next ∧
    (o.answer = .accept → (session.trackAfter call).filled = 1 ∧
      (session.trackAfter call).fillUntil = if pts ≤ next + o.frame.duration then none else some pts)

/-- The step looks at a real frame that is no retry: no batch is open, and none has just ended with this frame. -/
structure Looks (session : Session) (call : StepCall) : Prop where
  closed : (session.track call.video).fillUntil = none
  fresh : (session.track call.video).pendingRealPts = none

/-- **Which forward jumps are filled.**  A step that looks at a frame far ahead of its track and returns begins a
batch before the frame if and only if the track does not try without filling. -/
theorem forward_jump_filled_iff (hreach : (system config fun _ => True).Reachable session)
    (hadmissible : session.Admissible call) (hlooks : session.Looks call) {next pts : ℤ}
    (hahead : Ahead session.config call.video call.head (session.view call.video) next pts) {result : SyncerStep}
    (hresult : (session.outcome call).result = .ok result) :
    session.Begins call next pts ↔ (session.track call.video).tryWithoutFilling = false := by
  obtain ⟨final, hcalls⟩ := session.calls hadmissible
  have hdiff := maxStreamsDiff_pos hreach
  obtain ⟨input, frame, hhead, hframe⟩ : ∃ input frame, call.head = some input ∧ input.frame = some frame := by
    obtain ⟨input, frame, -, -, -, -, -, hhead, hframe, -⟩ := hahead
    exact ⟨input, frame, hhead, hframe⟩
  have hends := hcalls.ends
  rw [hresult] at hends
  obtain ⟨d, hplan, hend⟩ := hends
  -- The plan corrects the frame.
  have hcorrect : CorrectPlan session.config call.video input call.now (session.view call.video) d := by
    cases hplan with
    | filling hfill =>
      rw [view_track, hlooks.closed] at hfill
      cases hfill
    | suspended _ hpending =>
      rw [view_track, hlooks.fresh] at hpending
      cases hpending
    | lostHead _ hpending =>
      rw [view_track, hlooks.fresh] at hpending
      cases hpending
    | resume _ hpending =>
      rw [view_track, hlooks.fresh] at hpending
      cases hpending
    | eof _ _ hhead' heof =>
      rw [hhead] at hhead'
      obtain rfl := Option.some.inj hhead'
      rw [validateInput_eof (hadmissible.input hhead) heof] at hframe
      cases hframe
    | correct _ _ hhead' _ hcorrect =>
      rw [hhead] at hhead'
      obtain rfl := Option.some.inj hhead'
      exact hcorrect
    | waiting _ _ hnone =>
      rw [hhead] at hnone
      cases hnone
    | timeout _ _ hnone =>
      rw [hhead] at hnone
      cases hnone
  rw [hhead] at hahead
  rcases hcorrect.of_ahead hdiff hahead rfl with
    ⟨e, t, rfl⟩ | ⟨hfilling, t, rfl, hbegun⟩ | ⟨hwithout, t, rfl, -, -, hnone⟩
  · cases hend
  · refine ⟨fun _ => hfilling, fun _ => ⟨⟨some input, t, hplan, hbegun.target, hbegun.filled⟩, ?_⟩⟩
    cases hend with
    | fill hend =>
      rw [trackAfter, hcalls.offered, hcalls.track]
      exact hend.of_begun hbegun rfl
  · constructor
    · rintro ⟨-, o, hoffered, -⟩
      cases hend
      rw [hcalls.offered, hnone] at hoffered
      cases hoffered
    · intro hfilling
      rw [view_track, hfilling] at hwithout
      cases hwithout

end Session

end MwStreamer

namespace MwStreamer.Session

open SyncerTiming

attribute [local instance] Libav.reference

/-- The block of 1024 samples at `pts`, offered at `now` to an accepting caller. -/
def laterBlock (pts now : ℤ) : StepCall := { blockCall 48000 pts with now := now }

/-- Block after block with one jump of two seconds in between, which is filled. -/
def jumpedOnce : List StepCall :=
  [blockCall 48000 0, laterBlock 97024 0, laterBlock 97024 0, laterBlock 97024 0, laterBlock 97024 0,
    laterBlock 97024 0, laterBlock 97024 53332, laterBlock 98048 53332]

/-- A track of this shape has a frame at 195072 two seconds ahead of it. -/
theorem ahead_again {session : Session} (hconfig : session.config.options.maxStreamsDiff = 1000)
    (hbase : (session.track false).timeBase = ⟨1, 48000⟩) (hnext : (session.track false).next = some 8192)
    (hshift : (session.track false).shift = some (-90880)) (hclock : session.clock.shift = some (-1893333)) :
    Ahead session.config false (laterBlock 195072 53332).head (session.view false) 8192 104192 := by
  have hus : rescale (-90880) ⟨1, 48000⟩ kMicroseconds = .ok (-1893333) := by decide
  refine ⟨audioInput 48000 1024 195072, _, session.view false, 195072, -1893333, false, -90880, rfl, rfl,
    .same fun h => by (cases h.1), ?_, hclock,
    ⟨.inr ⟨-90880, -1893333, 1001, hshift, ?_, ?_, by decide⟩, ?_⟩, by decide,
    hnext, by decide, ?_⟩
  · rw [view_track, hbase]
    decide
  · rw [view_track, hbase]
    exact hus
  · rw [hconfig]
    decide
  · rw [view_track, hshift, if_neg (by decide)]
  · rw [hconfig, view_track, hbase]
    decide

/-- The second jump of two seconds is not filled. -/
theorem forward_jump_not_filled :
    ¬∀ (config : SyncerConfig) (session : Session) (call : StepCall) (next pts : ℤ) (result : SyncerStep),
      (system config fun _ => True).Reachable session → session.Admissible call → session.Looks call →
      Ahead session.config call.video call.head (session.view call.video) next pts →
      (session.outcome call).result = .ok result → session.Begins call next pts := by
  intro hclaim
  have hrun : ∃ session ∈ playback audioOnly (fun _ => True) jumpedOnce,
      session.Admissible (laterBlock 195072 53332) ∧ (session.track false).fillUntil = none ∧
      (session.track false).pendingRealPts = none ∧ session.config.options.maxStreamsDiff = 1000 ∧
      (session.track false).timeBase = ⟨1, 48000⟩ ∧ (session.track false).next = some 8192 ∧
      (session.track false).shift = some (-90880) ∧ session.clock.shift = some (-1893333) ∧
      (session.outcome (laterBlock 195072 53332)).result = .ok { wakeUs := 54332 } ∧
      (session.outcome (laterBlock 195072 53332)).offered = [] := by
    decide +kernel
  obtain ⟨session, hplay, hadmissible, hclosed, hfresh, hconfig, hbase, hnext, hshift, hclock, hresult, hnone⟩ := hrun
  obtain ⟨-, o, hoffered, -⟩ := hclaim audioOnly session _ 8192 104192 _ (playback_reachable hplay) hadmissible
    ⟨hclosed, hfresh⟩ (ahead_again hconfig hbase hnext hshift hclock) hresult
  rw [hnone] at hoffered
  cases hoffered

/-- So says the criterion, as the track tries without filling. -/
theorem forward_jump_filled_iff_again : ∃ session : Session,
    session.Begins (laterBlock 195072 53332) 8192 104192 ↔ (session.track false).tryWithoutFilling = false := by
  have hrun : ∃ session ∈ playback audioOnly (fun _ => True) jumpedOnce,
      session.Admissible (laterBlock 195072 53332) ∧ (session.track false).fillUntil = none ∧
      (session.track false).pendingRealPts = none ∧ session.config.options.maxStreamsDiff = 1000 ∧
      (session.track false).timeBase = ⟨1, 48000⟩ ∧ (session.track false).next = some 8192 ∧
      (session.track false).shift = some (-90880) ∧ session.clock.shift = some (-1893333) ∧
      (session.outcome (laterBlock 195072 53332)).result = .ok { wakeUs := 54332 } := by
    decide +kernel
  obtain ⟨session, hplay, hadmissible, hclosed, hfresh, hconfig, hbase, hnext, hshift, hclock, hresult⟩ := hrun
  exact ⟨session, forward_jump_filled_iff (playback_reachable hplay) hadmissible ⟨hclosed, hfresh⟩
    (ahead_again hconfig hbase hnext hshift hclock) hresult⟩

end MwStreamer.Session
