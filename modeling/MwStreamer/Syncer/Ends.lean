import MwStreamer.Syncer.Symbolic

/-!
# How the admission methods end

`Real` and `Fill` put one frame up for admission.  Their inversion lemmas list every way they can end with
the state they leave, exceptions included; nothing above unfolds them.
-/

namespace MwStreamer

open StateExcept

namespace SyncerTiming

variable [Libav]

/-- The fields of a track that fix where its output stands. -/
structure SameLine (t t' : Track) : Prop where
  next : t'.next = t.next
  hasOutput : t'.hasOutput = t.hasOutput
  timeBase : t'.timeBase = t.timeBase
  fillUntil : t'.fillUntil = t.fillUntil
  forwardFill : t'.forwardFill = t.forwardFill
  lastSuccess : t'.lastSuccess = t.lastSuccess

omit [Libav] in
theorem SameLine.refl (t : Track) : SameLine t t := ⟨rfl, rfl, rfl, rfl, rfl, rfl⟩

/-- The duration a real frame or filler gets. -/
def Lasts (config : SyncerConfig) (video : Bool) (timeBase : AVRational) (frame : Frame)
    (duration : ℤ) : Prop :=
  if video then
    rescale 1 (avInvQ config.encoder.fps) timeBase = .ok duration ∧ 0 < duration
  else duration = frame.nbSamples

/-- The track with an accepted real frame in place, before its deadline is renewed. -/
def place (track : Track) (video : Bool) (frame : Frame) (pts next : ℤ) : Track :=
  { track with
    next := some next
    hasOutput := true
    lastReal := if video then some frame else track.lastReal
    lastRealPts := pts
    lastSuccess := true }

/-- The track after an accepted real frame. -/
def advance (track : Track) (video : Bool) (frame : Frame) (pts next waitUntil : ℤ) : Track :=
  { place track video frame pts next with waitUntil := waitUntil, pendingRealPts := none }

/-- How `Real` ends. -/
inductive RealEnd (config : SyncerConfig) (video : Bool) (input : AvDecoderReadResult) (pts now : ℤ)
    (s : StepState) : Except Exception SyncerStep → StepState → Prop where
  /-- Nothing was offered and nothing changed. -/
  | failed (e : Exception) : RealEnd config video input pts now s (.error e) s
  | threw {source : Frame} {duration ptsUs : ℤ} (hsource : input.frame = some source)
      (hlasts : Lasts config video s.track.timeBase source duration)
      (hus : rescale pts s.track.timeBase kMicroseconds = .ok ptsUs) :
      RealEnd config video input pts now s (.error .callback)
        { s with
          clock := s.clock.update ptsUs now
          offered := s.offered ++ [⟨stamp source s.track pts duration, .input, .throw⟩] }
  | rejected {source : Frame} {duration ptsUs : ℤ} (hsource : input.frame = some source)
      (hlasts : Lasts config video s.track.timeBase source duration)
      (hus : rescale pts s.track.timeBase kMicroseconds = .ok ptsUs) :
      RealEnd config video input pts now s (.ok { wakeUs := now, blocked := true })
        { s with
          clock := s.clock.update ptsUs now
          offered := s.offered ++ [⟨stamp source s.track pts duration, .input, .reject⟩] }
  | accepted {source : Frame} {duration ptsUs next waitUntil : ℤ}
      (hsource : input.frame = some source)
      (hlasts : Lasts config video s.track.timeBase source duration)
      (hus : rescale pts s.track.timeBase kMicroseconds = .ok ptsUs)
      (hnext : add pts duration = .ok next)
      (hwait : add now config.options.timeout = .ok waitUntil) :
      RealEnd config video input pts now s
        (.ok { consumed := true, frame := some (stamp source s.track pts duration), wakeUs := now })
        { clock := s.clock.update ptsUs now
          track := advance s.track video (stamp source s.track pts duration) pts next waitUntil
          offered := s.offered ++ [⟨stamp source s.track pts duration, .input, .accept⟩] }
  /-- The frame was accepted, then the bookkeeping overflowed. -/
  | overflowed {source : Frame} {duration ptsUs : ℤ} (e : Exception) (track : Track)
      (hsource : input.frame = some source)
      (hlasts : Lasts config video s.track.timeBase source duration)
      (hus : rescale pts s.track.timeBase kMicroseconds = .ok ptsUs)
      (htrack : (track = s.track ∧ add pts duration = .error e) ∨ ∃ next, add pts duration = .ok next ∧
        track = place s.track video (stamp source s.track pts duration) pts next) :
      RealEnd config video input pts now s (.error e)
        { clock := s.clock.update ptsUs now
          track := track
          offered := s.offered ++ [⟨stamp source s.track pts duration, .input, .accept⟩] }

theorem ensures_videoDuration (config : SyncerConfig) {s : StepState} {Q : ℤ → StepState → Prop}
    {E : Exception → StepState → Prop} :
    Ensures (videoDuration config) s Q E ↔
      (∀ d, rescale 1 (avInvQ config.encoder.fps) s.track.timeBase = .ok d → 0 < d → Q d s) ∧
      (∀ d, rescale 1 (avInvQ config.encoder.fps) s.track.timeBase = .ok d → d ≤ 0 →
        E (.invalidArgument "Syncer 视频 time base 无法表示帧周期") s) ∧
      (∀ e, rescale 1 (avInvQ config.encoder.fps) s.track.timeBase = .error e → E e s) := by
  simp only [videoDuration, ensures_bind, ensures_getTrack, ensures_attempt, ensures_ite,
    ensures_throw, ensures_pure, not_le]
  constructor
  · rintro ⟨hok, herr⟩
    exact ⟨fun d h => (hok d h).2, fun d h => (hok d h).1, herr⟩
  · rintro ⟨hpos, hneg, herr⟩
    exact ⟨fun d h => ⟨hneg d h, hpos d h⟩, herr⟩

/-- **`Real` ends in one of five ways.** -/
theorem real_ends (config : SyncerConfig) (video : Bool) (input : AvDecoderReadResult)
    (pts now : ℤ) (onOutput : OnOutput) (s : StepState) :
    Ensures (real config video input pts now onOutput) s
      (fun r s' => RealEnd config video input pts now s (.ok r) s')
      (fun e s' => RealEnd config video input pts now s (.error e) s') := by
  have admission : ∀ source duration, input.frame = some source →
      Lasts config video s.track.timeBase source duration →
      Ensures (do
          let frame := stamp source (← getTrack) pts duration
          let ptsUs ← toUs pts
          modifyClock fun c => c.update ptsUs now
          if !(← offer onOutput frame .input) then
            pure { wakeUs := now, blocked := true }
          else
            let next ← attempt (add pts duration)
            modifyTrack fun t =>
              { t with
                next := some next
                hasOutput := true
                lastReal := if video then some frame else t.lastReal
                lastRealPts := pts
                lastSuccess := true }
            let waitUntil ← attempt (add now config.options.timeout)
            modifyTrack fun t => { t with waitUntil := waitUntil, pendingRealPts := none }
            pure { consumed := true, frame := some frame, wakeUs := now }) s
        (fun r s' => RealEnd config video input pts now s (.ok r) s')
        (fun e s' => RealEnd config video input pts now s (.error e) s') := by
    intro source duration hsource hlasts
    simp only [ensures_bind, ensures_getTrack, ensures_toUs, ensures_modifyClock, ensures_offer,
      Bool.not_true, Bool.not_false, Bool.false_eq_true, if_false, if_true, ensures_pure,
      ensures_attempt, ensures_modifyTrack]
    refine ⟨fun ptsUs hus => ⟨fun haccept => ⟨fun next hnext => ⟨fun waitUntil hwait => ?_,
      fun e _ => ?_⟩, fun e he => ?_⟩, fun hreject => ?_, fun hthrow => ?_⟩, fun e _ => .failed e⟩
    · rw [haccept]
      exact .accepted hsource hlasts hus hnext hwait
    · rw [haccept]
      exact .overflowed e _ hsource hlasts hus (.inr ⟨next, hnext, rfl⟩)
    · rw [haccept]
      exact .overflowed e _ hsource hlasts hus (.inl ⟨rfl, he⟩)
    · rw [hreject]
      exact .rejected hsource hlasts hus
    · rw [hthrow]
      exact .threw hsource hlasts hus
  rw [real, ensures_bind, ensures_deref]
  refine ⟨fun source hsource => ?_, fun _ => .failed _⟩
  cases video with
  | true =>
    rw [if_pos rfl, ensures_bind, ensures_videoDuration]
    refine ⟨fun d hd hpos => ?_, fun _ _ _ => .failed _, fun e _ => .failed e⟩
    exact admission source d hsource (by rw [Lasts, if_pos rfl]; exact ⟨hd, hpos⟩)
  | false =>
    rw [if_neg (by decide), ensures_bind, ensures_pure]
    exact admission source source.nbSamples hsource (by rw [Lasts, if_neg (by decide)])

/-! ### Fillers -/

/-- The picture or silence `Backup` chooses for `count` missing ticks. -/
inductive Spare (config : SyncerConfig) (video : Bool) (track : Track) (count : ℤ) :
    Frame → OutputSource → Prop where
  | freeze {frame : Frame} (hvideo : video = true) (hlast : track.lastReal = some frame) :
      Spare config video track count frame .freeze
  | backup {frame : Frame} (hvideo : video = true) (hbackup : config.backupVideo = some frame) :
      Spare config video track count frame .backup
  | silence (hvideo : video = false) (hcount : 0 < count) :
      Spare config video track count (silence config count) .silence

omit [Libav] in
theorem Spare.not_input {config : SyncerConfig} {video : Bool} {track : Track} {count : ℤ}
    {frame : Frame} {source : OutputSource} (h : Spare config video track count frame source) :
    source ≠ .input := by
  cases h <;> decide

/-- `Backup` reads the state only. -/
theorem backup_ends (config : SyncerConfig) (video : Bool) (count : ℤ) (s : StepState) :
    Ensures (backup config video count) s
      (fun r s' => s' = s ∧ Spare config video s.track count r.1 r.2)
      (fun _ s' => s' = s) := by
  cases video with
  | false =>
    simp only [backup, Bool.false_eq_true, if_false, ensures_ite, ensures_throw, ensures_pure]
    refine ⟨fun _ => trivial, fun hsamples => ⟨trivial, .silence rfl ?_⟩⟩
    simp only [silence] at hsamples
    omega
  | true =>
    simp only [backup, freezing, if_true, ensures_bind, ensures_getTrack, ensures_ite, ensures_pure,
      ensures_deref, ensures_toUs, ensures_attempt, decide_eq_true_eq, Bool.false_eq_true]
    have hfreeze : ∀ frame, s.track.lastReal = some frame →
        Spare config true s.track count frame .freeze := fun _ h => .freeze rfl h
    have hbackup : ∀ frame, config.backupVideo = some frame →
        Spare config true s.track count frame .backup := fun _ h => .backup rfl h
    simp only [implies_true, and_true, false_imp_iff, not_false_eq_true, forall_const, true_and]
    exact ⟨fun _ => hbackup, fun _ _ _ _ _ _ _ _ _ => ⟨fun _ => hfreeze, fun _ => hbackup⟩⟩

/-- How `FinishFill` ends. -/
inductive FinishEnd (input : Option AvDecoderReadResult) (lastPts now : ℤ) (blocked : Bool)
    (s : StepState) : Except Exception ℤ → StepState → Prop where
  /-- The batch stays open. -/
  | failed (e : Exception) {s' : StepState} (hforward : s.track.forwardFill = true)
      (hline : SameLine s.track s'.track) (hoffered : s'.offered = s.offered)
      (hclock : s.clock.shift ≠ none → s'.clock.shift ≠ none) :
      FinishEnd input lastPts now blocked s (.error e) s'
  | timeout (hforward : s.track.forwardFill = false) :
      FinishEnd input lastPts now blocked s
        (.ok (if input.isSome then now else if blocked then now else s.track.waitUntil))
        { s with
          track :=
            { s.track with
              waitUntil := if blocked then now else s.track.waitUntil
              fillUntil := none } }
  | forward {source : AvDecoderReadResult} {frame : Frame} {original next shift shared until_ : ℤ}
      {clock : ContinuityClock} (hforward : s.track.forwardFill = true)
      (hinput : input = some source) (hframe : source.frame = some frame)
      (horiginal : rescale frame.pts source.timeBase s.track.timeBase = .ok original)
      (hnext : s.track.next = some next) (hshift : subtract next original = .ok shift)
      (hshared : rescale shift s.track.timeBase kMicroseconds = .ok shared)
      (hclock : clock = s.clock ∨ ∃ us, clock = s.clock.update us now)
      (huntil : if s.track.filled = 5 ∧ ¬blocked then
          add now (max 1000 (s.track.filledUs / 2)) = .ok until_
        else until_ = now) :
      FinishEnd input lastPts now blocked s (.ok until_)
        { s with
          clock := { clock with shift := some shared }
          track :=
            { s.track with
              shift := some shift
              tryWithoutFilling := true
              pendingRealPts := s.track.next
              suspendedUntil := until_
              fillUntil := none } }

/-- What `Adjust` leaves. -/
theorem ensures_adjust (original : ℤ) {s : StepState} {Q : Unit → StepState → Prop}
    {E : Exception → StepState → Prop}
    (hok : ∀ next shift shared, s.track.next = some next → subtract next original = .ok shift →
      rescale shift s.track.timeBase kMicroseconds = .ok shared →
      Q () { s with
        track := { s.track with shift := some shift }
        clock := { s.clock with shift := some shared } })
    (herr : ∀ e shift, E e { s with track := { s.track with shift := shift } }) :
    Ensures (adjust original) s Q E := by
  simp only [adjust, ensures_bind, ensures_getTrack, ensures_deref, ensures_attempt,
    ensures_modifyTrack, ensures_toUs, ensures_modifyClock]
  exact ⟨fun next hnext => ⟨fun shift hshift => ⟨fun shared hshared =>
    hok next shift shared hnext hshift hshared, fun e _ => herr e _⟩, fun e _ => herr e _⟩,
    fun _ => herr _ _⟩

theorem ensures_anchorFill (lastPts now : ℤ) (blocked : Bool) {s : StepState}
    {Q : Unit → StepState → Prop} {E : Exception → StepState → Prop}
    (hok : ∀ clock, (clock = s.clock ∨ ∃ us, clock = s.clock.update us now) →
      Q () { s with clock := clock })
    (herr : ∀ e, E e s) : Ensures (anchorFill lastPts now blocked) s Q E := by
  simp only [anchorFill, ensures_bind, ensures_getTrack, ensures_ite, ensures_toUs,
    ensures_modifyClock, ensures_pure]
  exact ⟨fun _ => ⟨fun us _ => hok _ (.inr ⟨us, rfl⟩), fun e _ => herr e⟩, fun _ => hok _ (.inl rfl)⟩

/-- **`FinishFill` ends in one of three ways.** -/
theorem finishFill_ends (input : Option AvDecoderReadResult) (lastPts now : ℤ) (blocked : Bool)
    (s : StepState) :
    Ensures (finishFill input lastPts now blocked) s
      (fun r s' => FinishEnd input lastPts now blocked s (.ok r) s')
      (fun e s' => FinishEnd input lastPts now blocked s (.error e) s') := by
  rw [finishFill, ensures_bind, ensures_getTrack]
  by_cases hforward : s.track.forwardFill = true
  · simp only [if_pos hforward, finishForward, ensures_bind]
    apply ensures_anchorFill
    · intro clock hclock
      have hkept : s.clock.shift ≠ none → clock.shift ≠ none := by
        rcases hclock with rfl | ⟨us, rfl⟩
        · exact id
        · rw [ContinuityClock.update_shift]
          exact id
      simp only [ensures_deref]
      refine ⟨fun source hinput => ⟨fun frame hframe => ?_,
        fun _ => .failed _ hforward (.refl _) rfl hkept⟩, fun _ => .failed _ hforward (.refl _) rfl hkept⟩
      simp only [ensures_getTrack, ensures_attempt]
      refine ⟨fun original horiginal => ?_, fun e _ => .failed e hforward (.refl _) rfl hkept⟩
      apply ensures_adjust
      · intro next shift shared hnext hshift hshared
        simp only [ensures_bind, ensures_modifyTrack, ensures_ite, ensures_attempt, ensures_pure]
        refine ⟨fun hfull => ⟨fun u hu => ?_,
          fun e _ => .failed e hforward ⟨rfl, rfl, rfl, rfl, rfl, rfl⟩ rfl fun _ => Option.some_ne_none _⟩,
          fun hshort => ?_⟩
        · exact .forward hforward hinput hframe horiginal hnext hshift hshared hclock
            (by rw [if_pos hfull]; exact hu)
        · exact .forward hforward hinput hframe horiginal hnext hshift hshared hclock
            (by rw [if_neg hshort])
      · intro e shift
        exact .failed e hforward ⟨rfl, rfl, rfl, rfl, rfl, rfl⟩ rfl hkept
    · intro e
      exact .failed e hforward (.refl _) rfl id
  · have hend : ∀ input blocked, FinishEnd input lastPts now blocked s _ _ :=
      fun input blocked => .timeout (Bool.eq_false_iff.mpr hforward)
    rw [if_neg hforward]
    cases blocked <;> cases input <;>
      simp only [finishTimeout, ensures_bind, ensures_modifyTrack, ensures_getTrack,
        ensures_pure, Bool.false_eq_true, if_false, if_true, Option.isSome_none,
        Option.isSome_some] <;>
      exact hend _ _

/-- The track with one more accepted filler. -/
def extend (track : Track) (next filledUs : ℤ) : Track :=
  { track with
    next := some next
    hasOutput := true
    filled := track.filled + 1
    filledUs := filledUs }

/-- What `Fill` puts up: a filler at the expected timestamp of an open batch. -/
structure Filler (config : SyncerConfig) (video : Bool) (s : StepState) (pts target : ℤ)
    (frame : Frame) (source : OutputSource) (duration : ℤ) : Prop where
  at_next : s.track.next = some pts
  until_target : s.track.fillUntil = some target
  made : ∃ count spare, subtract target pts = .ok count ∧ Spare config video s.track count spare source ∧
    Lasts config video s.track.timeBase spare duration ∧ frame = stamp spare s.track pts duration

/-- How `Fill` ends. -/
inductive FillEnd (config : SyncerConfig) (video : Bool) (input : Option AvDecoderReadResult)
    (now : ℤ) (s : StepState) : Except Exception SyncerStep → StepState → Prop where
  /-- Nothing was offered and nothing changed. -/
  | failed (e : Exception) : FillEnd config video input now s (.error e) s
  | threw {pts target duration : ℤ} {frame : Frame} {source : OutputSource}
      (hfiller : Filler config video s pts target frame source duration) :
      FillEnd config video input now s (.error .callback)
        { s with offered := s.offered ++ [⟨frame, source, .throw⟩] }
  /-- A rejection closes the batch. -/
  | rejected {pts target duration : ℤ} {frame : Frame} {source : OutputSource}
      {r : Except Exception ℤ} {s' : StepState}
      (hfiller : Filler config video s pts target frame source duration)
      (hfinish : FinishEnd input pts now true
        { s with offered := s.offered ++ [⟨frame, source, .reject⟩] } r s') :
      FillEnd config video input now s
        (r.map fun wake => { wakeUs := wake, blocked := true }) s'
  /-- The filler was accepted, then the bookkeeping overflowed. -/
  | overflowed {pts target duration : ℤ} {frame : Frame} {source : OutputSource} (e : Exception)
      (track : Track) (hfiller : Filler config video s pts target frame source duration)
      (htrack : (track = s.track ∧ add pts duration = .error e) ∨ ∃ next, add pts duration = .ok next ∧
        track = extend s.track next s.track.filledUs) :
      FillEnd config video input now s (.error e)
        { s with track := track, offered := s.offered ++ [⟨frame, source, .accept⟩] }
  | accepted {pts target duration next filledUs : ℤ} {frame : Frame} {source : OutputSource}
      (hfiller : Filler config video s pts target frame source duration)
      (hnext : add pts duration = .ok next)
      (hmore : next < target ∧ s.track.filled + 1 ≠ 5) :
      FillEnd config video input now s (.ok { frame := some frame, wakeUs := now })
        { s with
          track := extend s.track next filledUs
          offered := s.offered ++ [⟨frame, source, .accept⟩] }
  /-- The accepted filler reached the target or was the fifth one. -/
  | finished {pts target duration next filledUs : ℤ} {frame : Frame} {source : OutputSource}
      {r : Except Exception ℤ} {s' : StepState}
      (hfiller : Filler config video s pts target frame source duration)
      (hnext : add pts duration = .ok next)
      (hdone : target ≤ next ∨ s.track.filled + 1 = 5)
      (hfinish : FinishEnd input pts now false
        { s with
          track := extend s.track next filledUs
          offered := s.offered ++ [⟨frame, source, .accept⟩] } r s') :
      FillEnd config video input now s
        (r.map fun wake => { frame := some frame, wakeUs := wake }) s'

/-- **`Fill` ends in one of six ways.** -/
theorem fill_ends (config : SyncerConfig) (video : Bool) (input : Option AvDecoderReadResult)
    (now : ℤ) (onOutput : OnOutput) (s : StepState) :
    Ensures (fill config video input now onOutput) s
      (fun r s' => FillEnd config video input now s (.ok r) s')
      (fun e s' => FillEnd config video input now s (.error e) s') := by
  have finish : ∀ (blocked : Bool) (pts : ℤ) (t : StepState) (f : ℤ → SyncerStep),
      (∀ r s', FinishEnd input pts now blocked t r s' →
        FillEnd config video input now s (r.map f) s') →
      Ensures (do
          let wake ← finishFill input pts now blocked
          pure (f wake)) t
        (fun r s' => FillEnd config video input now s (.ok r) s')
        (fun e s' => FillEnd config video input now s (.error e) s') := by
    intro blocked pts t f h
    rw [ensures_bind]
    exact (finishFill_ends input pts now blocked t).mono (fun _ _ hr => h _ _ hr)
      (fun _ _ he => h _ _ he)
  have admission : ∀ pts target frame source duration,
      Filler config video s pts target frame source duration →
      Ensures (do
          if !(← offer onOutput frame source) then
            let wake ← finishFill input pts now true
            pure { wakeUs := wake, blocked := true }
          else
            let next ← attempt (add pts duration)
            modifyTrack fun t =>
              { t with next := some next, hasOutput := true, filled := t.filled + 1 }
            let filledUs ← attempt (add (← getTrack).filledUs (← toUs duration))
            modifyTrack fun t => { t with filledUs := filledUs }
            if target ≤ next ∨ (← getTrack).filled = 5 then
              let wake ← finishFill input pts now false
              pure { frame := some frame, wakeUs := wake }
            else pure { frame := some frame, wakeUs := now }) s
        (fun r s' => FillEnd config video input now s (.ok r) s')
        (fun e s' => FillEnd config video input now s (.error e) s') := by
    intro pts target frame source duration hfiller
    rw [ensures_bind, ensures_offer]
    refine ⟨fun haccept => ?_, fun hreject => ?_, fun hthrow => ?_⟩
    · simp only [haccept, Bool.not_true, Bool.false_eq_true, if_false, ensures_bind, ensures_attempt,
        ensures_modifyTrack, ensures_getTrack, ensures_toUs]
      refine ⟨fun next hnext => ⟨fun durationUs _ => ⟨fun filledUs _ => ?_, fun e _ => ?_⟩,
        fun e he => ?_⟩, fun e he => ?_⟩
      · by_cases hdone : target ≤ next ∨ s.track.filled + 1 = 5
        · rw [if_pos hdone]
          exact finish false pts _ (fun wake => { frame := some frame, wakeUs := wake })
            fun r s' h => .finished hfiller hnext hdone h
        · rw [if_neg hdone, ensures_pure]
          exact .accepted hfiller hnext (by simpa only [not_or, not_le] using hdone)
      · exact .overflowed e _ hfiller (.inr ⟨next, hnext, rfl⟩)
      · exact .overflowed e _ hfiller (.inr ⟨next, hnext, rfl⟩)
      · exact .overflowed e _ hfiller (.inl ⟨rfl, he⟩)
    · simp only [hreject, Bool.not_false, if_true]
      exact finish true pts _ (fun wake => { wakeUs := wake, blocked := true })
        fun r s' h => .rejected hfiller h
    · rw [hthrow]
      exact .threw hfiller
  simp only [fill, ensures_bind, ensures_getTrack, ensures_deref, ensures_attempt]
  refine ⟨fun pts hnext => ⟨fun target htarget => ⟨fun count hcount => ?_, fun e _ => .failed e⟩,
    fun _ => .failed _⟩, fun _ => .failed _⟩
  apply (backup_ends config video count s).mono
  · rintro ⟨spare, source⟩ s' ⟨rfl, hspare⟩
    have hfiller : ∀ d, Lasts config video s'.track.timeBase spare d →
        Filler config video s' pts target (stamp spare s'.track pts d) source d :=
      fun d hlasts => ⟨hnext, htarget, count, spare, hcount, hspare, hlasts, rfl⟩
    cases video with
    | true =>
      simp only [if_true, ensures_bind, ensures_videoDuration]
      refine ⟨fun d hd hpos => ?_, fun _ _ _ => .failed _, fun e _ => .failed e⟩
      simp only [ensures_getTrack]
      simpa only [ensures_bind] using admission _ _ _ _ _
        (hfiller d (by rw [Lasts, if_pos rfl]; exact ⟨hd, hpos⟩))
    | false =>
      simp only [Bool.false_eq_true, if_false, ensures_bind, ensures_pure, ensures_getTrack]
      simpa only [ensures_bind] using admission _ _ _ _ _
        (hfiller spare.nbSamples (by rw [Lasts, if_neg (by decide)]))
  · rintro e s' rfl
    exact .failed e

end SyncerTiming

end MwStreamer
