import MwStreamer.Syncer.Rejection

/-!
# What a step may throw

The timing state is full of optionals that one step sets and another dereferences.  Where the track is in
order, a step throws only what the callback throws or what checked arithmetic throws: no optional is empty, no
silence has no samples and no frame period is zero.
-/

namespace MwStreamer

open StateExcept

variable [Libav]

namespace SyncerTiming

/-- An exception that the callback threw at an offer, or an overflow. -/
def Thrown (e : Exception) (offered : List Offer) : Prop :=
  (e = .callback ∧ ∃ o ∈ offered, o.answer = .throw) ∨ ∃ what, e = .overflowError what

omit [Libav] in
theorem add_thrown {a b : ℤ} {e : Exception} {offered : List Offer} (h : add a b = .error e) :
    Thrown e offered :=
  .inr ⟨_, (add_error h).1⟩

omit [Libav] in
theorem subtract_thrown {a b : ℤ} {e : Exception} {offered : List Offer} (h : subtract a b = .error e) :
    Thrown e offered := by
  rw [subtract] at h
  split at h
  · exact .inr ⟨_, (Except.error.inj h).symm⟩
  · exact add_thrown h

omit [Libav] in
theorem apart_thrown {a b tolerance : ℤ} {e : Exception} {offered : List Offer}
    (h : apart a b tolerance = .error e) : Thrown e offered := by
  rcases bind_error h with h | ⟨difference, -, h⟩
  · exact subtract_thrown h
  · cases h

theorem rescale_thrown {value : ℤ} {bq cq : AVRational} {e : Exception} {offered : List Offer}
    (h : rescale value bq cq = .error e) : Thrown e offered := by
  simp only [rescale, rescaleChecked] at h
  split at h
  · exact .inr ⟨_, (Except.error.inj h).symm⟩
  · cases h

omit [Libav] in
theorem reading_thrown {pts wall now : ℤ} {e : Exception} {offered : List Offer}
    (h : reading pts wall now = .error e) : Thrown e offered := by
  rcases bind_error h with h | ⟨elapsed, -, h⟩
  · exact subtract_thrown h
  · split at h
    · cases h
    · exact add_thrown h

/-- The program ends in `Q`, or throws such an exception. -/
abbrev Sound {α : Type} (x : SyncerM α) (s : StepState) (Q : α → StepState → Prop) : Prop :=
  Ensures x s Q fun e s' => Thrown e s'.offered

variable {config : SyncerConfig} {video : Bool} {head : Option AvDecoderReadResult} {now : ℤ}
  {onOutput : OnOutput} {s : StepState}

theorem sound_toUs (value : ℤ) {Q : ℤ → StepState → Prop} (h : ∀ us, Q us s) : Sound (toUs value) s Q :=
  (ensures_toUs value).mpr ⟨fun us _ => h us, fun _ => rescale_thrown⟩

theorem sound_fromUs (value : ℤ) {Q : ℤ → StepState → Prop} (h : ∀ ticks, Q ticks s) : Sound (fromUs value) s Q :=
  (ensures_fromUs value).mpr ⟨fun ticks _ => h ticks, fun _ => rescale_thrown⟩

/-- The frame period of a video track is positive. -/
def Period (config : SyncerConfig) (video : Bool) (timeBase : AVRational) : Prop :=
  video = true → 0 < avRescaleQ 1 (avInvQ config.encoder.fps) timeBase

theorem sound_videoDuration (h : Period config true s.track.timeBase) {Q : ℤ → StepState → Prop}
    (hok : ∀ d, 0 < d → Q d s) : Sound (videoDuration config) s Q := by
  refine (ensures_videoDuration config).mpr ⟨fun d _ hd => hok d hd, fun d hd hneg => ?_, fun _ => rescale_thrown⟩
  have hpos := h rfl
  rw [← rescale_ok hd] at hpos
  omega

/-! ### Admissions -/

omit [Libav] in
theorem sound_offer (frame : Frame) (source : OutputSource) {Q : Bool → StepState → Prop}
    (h : ∀ accepted answer, Q accepted { s with offered := s.offered ++ [⟨frame, source, answer⟩] }) :
    Sound (offer onOutput frame source) s Q := by
  rw [Sound, ensures_offer]
  exact ⟨fun _ => h true _, fun _ => h false _, fun hthrow =>
    .inl ⟨rfl, _, List.mem_append_right _ (List.mem_singleton_self _), hthrow⟩⟩

theorem sound_real {input : AvDecoderReadResult} {frame : Frame} (hframe : input.frame = some frame)
    (hperiod : Period config video s.track.timeBase) (pts : ℤ) :
    Sound (real config video input pts now onOutput) s fun _ _ => True := by
  have admission : ∀ duration, Sound (do
      let frame := stamp frame (← getTrack) pts duration
      let ptsUs ← toUs pts
      modifyClock fun c => c.update ptsUs now
      if !(← offer onOutput frame .input) then
        pure { wakeUs := now, blocked := true }
      else
        let next ← attempt (add pts duration)
        modifyTrack fun t =>
          { t with
            next := some next
            hasOutput := true
            lastReal := if video then some frame else t.lastReal
            lastRealPts := pts
            lastSuccess := true }
        let waitUntil ← attempt (add now config.options.timeout)
        modifyTrack fun t => { t with waitUntil := waitUntil, pendingRealPts := none }
        pure { consumed := true, frame := some frame, wakeUs := now }) s fun (_ : SyncerStep) _ => True := by
    intro duration
    simp only [Sound, ensures_bind, ensures_getTrack]
    apply sound_toUs
    intro us
    simp only [ensures_modifyClock]
    apply sound_offer
    intro accepted answer
    simp only [ensures_ite, ensures_pure, ensures_bind, ensures_attempt, ensures_modifyTrack]
    exact ⟨fun _ => trivial, fun _ => ⟨fun _ _ => ⟨fun _ _ => trivial, fun _ => add_thrown⟩, fun _ => add_thrown⟩⟩
  rw [real, Sound, ensures_bind, ensures_deref, hframe]
  refine ⟨fun source hsource => ?_, fun hnone => by cases hnone⟩
  obtain rfl := Option.some.inj hsource
  cases video with
  | true =>
    rw [if_pos rfl, ensures_bind]
    exact sound_videoDuration hperiod fun d _ => admission d
  | false =>
    rw [if_neg (by decide), ensures_bind, ensures_pure]
    exact admission frame.nbSamples

theorem sound_backup (hbackup : video = true → config.backupVideo ≠ none) {count : ℤ} (hcount : 0 < count)
    (hnext : s.track.next ≠ none) : Sound (backup config video count) s fun _ s' => s' = s := by
  obtain ⟨next, hnext⟩ := Option.ne_none_iff_exists'.mp hnext
  cases video with
  | false =>
    simp only [backup, Bool.false_eq_true, if_false, Sound, ensures_ite, ensures_throw, ensures_pure]
    refine ⟨fun hnone => ?_, fun _ => trivial⟩
    simp only [silence] at hnone
    omega
  | true =>
    obtain ⟨picture, hpicture⟩ := Option.ne_none_iff_exists'.mp (hbackup rfl)
    have hpick : Sound (do
        let picture ← deref config.backupVideo
        pure (picture, OutputSource.backup)) s fun _ s' => s' = s := by
      rw [Sound, ensures_bind, ensures_deref, hpicture]
      exact ⟨fun _ _ => rfl, fun hnone => by cases hnone⟩
    rw [backup, if_pos rfl, Sound, ensures_bind, freezing, ensures_bind, ensures_getTrack]
    cases hlast : s.track.lastReal with
    | none =>
      rw [Option.isNone_none, if_pos rfl, ensures_pure, if_neg (by decide)]
      exact hpick
    | some last =>
      rw [Option.isNone_some, if_neg (by decide), ensures_bind, ensures_deref, hnext]
      refine ⟨fun next' _ => ?_, fun hnone => by cases hnone⟩
      rw [ensures_bind]
      apply sound_toUs
      intro nextUs
      rw [ensures_bind]
      apply sound_toUs
      intro lastUs
      rw [ensures_bind, ensures_attempt]
      refine ⟨fun elapsed _ => ?_, fun _ => subtract_thrown⟩
      rw [ensures_pure, ensures_ite]
      refine ⟨fun _ => ?_, fun _ => hpick⟩
      rw [ensures_bind, ensures_getTrack, ensures_bind, ensures_deref, hlast]
      exact ⟨fun _ _ => rfl, fun hnone => by cases hnone⟩

/-! ### Batches -/

theorem sound_adjust (original : ℤ) (hnext : s.track.next ≠ none) {Q : Unit → StepState → Prop}
    (h : ∀ shift shared, Q () { s with
      track := { s.track with shift := some shift }
      clock := { s.clock with shift := some shared } }) : Sound (adjust original) s Q := by
  simp only [Sound, adjust, ensures_bind, ensures_getTrack, ensures_deref, ensures_attempt, ensures_modifyTrack,
    ensures_toUs, ensures_modifyClock]
  exact ⟨fun next' _ => ⟨fun shift _ => ⟨fun shared _ => h shift shared, fun _ => rescale_thrown⟩,
    fun _ => subtract_thrown⟩, fun hnone => absurd hnone hnext⟩

theorem sound_finishFill (hnext : s.track.next ≠ none) (hhead : s.track.forwardFill = true → IsFrame head)
    (lastPts : ℤ) (blocked : Bool) :
    Sound (finishFill head lastPts now blocked) s fun _ _ => True := by
  rw [finishFill, Sound, ensures_bind, ensures_getTrack]
  by_cases hforward : s.track.forwardFill = true
  · obtain ⟨input, frame, rfl, hframe⟩ := hhead hforward
    have finish : ∀ clock : ContinuityClock, Sound (do
        let source ← deref (some input)
        let frame ← deref source.frame
        let original ← attempt (rescale frame.pts source.timeBase (← getTrack).timeBase)
        adjust original
        modifyTrack fun t => { t with tryWithoutFilling := true, pendingRealPts := t.next }
        let track ← getTrack
        if track.filled = 5 ∧ ¬blocked then
          let suspendedUntil ← attempt (add now (max 1000 (track.filledUs / 2)))
          modifyTrack fun t => { t with suspendedUntil := suspendedUntil }
          pure suspendedUntil
        else
          modifyTrack fun t => { t with suspendedUntil := now }
          pure now) { s with clock := clock } fun _ _ => True := by
      intro clock
      simp only [Sound, ensures_bind, ensures_deref, hframe, Option.some.injEq, forall_eq', reduceCtorEq,
        false_imp_iff, and_true, ensures_getTrack, ensures_attempt]
      refine ⟨fun original _ => ?_, fun _ => rescale_thrown⟩
      apply @sound_adjust _ { s with clock := clock } original hnext
      intro shift shared
      simp only [ensures_modifyTrack, ensures_ite, ensures_bind, ensures_attempt, ensures_pure, implies_true,
        and_true, true_and]
      exact fun _ _ => add_thrown
    rw [if_pos hforward, ensures_bind, finishForward, ensures_bind, anchorFill, ensures_bind, ensures_getTrack]
    have hrest := fun clock => (finish clock).mono (fun wake s' _ => (show Sound (do
        modifyTrack fun t => { t with fillUntil := none }
        pure wake) s' fun _ _ => True from trivial)) fun _ _ h => h
    by_cases hfull : s.track.filled = 5 ∨ blocked = true
    · rw [if_pos hfull, ensures_bind]
      apply sound_toUs
      intro us
      rw [ensures_modifyClock]
      exact hrest _
    · rw [if_neg hfull, ensures_pure]
      exact hrest s.clock
  · simp only [if_neg hforward, finishTimeout, ensures_bind, ensures_ite, ensures_modifyTrack, ensures_pure,
      ensures_getTrack, implies_true, and_self]

/-- A track whose batch has something left to fill, and whose frame period is positive. -/
structure Orderly (config : SyncerConfig) (video : Bool) (track : Track) : Prop where
  batch : ∀ target, track.fillUntil = some target → ∃ next, track.next = some next ∧ next < target
  output : track.hasOutput = true → track.next ≠ none
  period : Period config video track.timeBase

theorem sound_fill (horderly : Orderly config video s.track) (hbackup : video = true → config.backupVideo ≠ none)
    (hopen : s.track.fillUntil ≠ none) (hhead : s.track.forwardFill = true → IsFrame head) :
    Sound (fill config video head now onOutput) s fun _ _ => True := by
  obtain ⟨target, htarget⟩ := Option.ne_none_iff_exists'.mp hopen
  obtain ⟨pts, hpts, hlt⟩ := horderly.batch target htarget
  have hnext : s.track.next ≠ none := by rw [hpts]; exact Option.some_ne_none pts
  have admission : ∀ (frame : Frame) (source : OutputSource) (duration : ℤ), Sound (do
      if !(← offer onOutput frame source) then
        let wake ← finishFill head pts now true
        pure { wakeUs := wake, blocked := true }
      else
        let next ← attempt (add pts duration)
        modifyTrack fun t => { t with next := some next, hasOutput := true, filled := t.filled + 1 }
        let filledUs ← attempt (add (← getTrack).filledUs (← toUs duration))
        modifyTrack fun t => { t with filledUs := filledUs }
        if target ≤ next ∨ (← getTrack).filled = 5 then
          let wake ← finishFill head pts now false
          pure { frame := some frame, wakeUs := wake }
        else pure { frame := some frame, wakeUs := now }) s fun (_ : SyncerStep) _ => True := by
    intro frame source duration
    rw [Sound, ensures_bind]
    apply sound_offer
    intro accepted answer
    rw [ensures_ite]
    refine ⟨fun _ => ?_, fun _ => ?_⟩
    · rw [ensures_bind]
      refine Ensures.mono (sound_finishFill ?_ ?_ pts true) (fun _ _ _ => trivial) fun _ _ h => h
      · exact hnext
      · exact hhead
    · simp only [ensures_bind, ensures_attempt, ensures_modifyTrack, ensures_getTrack]
      refine ⟨fun next _ => ?_, fun _ => add_thrown⟩
      apply sound_toUs
      intro us
      refine ⟨fun filledUs _ => ?_, fun _ => add_thrown⟩
      rw [ensures_ite]
      refine ⟨fun _ => ?_, fun _ => trivial⟩
      rw [ensures_bind]
      refine Ensures.mono (sound_finishFill ?_ ?_ pts false) (fun _ _ _ => trivial) fun _ _ h => h
      · exact Option.some_ne_none next
      · exact hhead
  rw [fill, Sound, ensures_bind, ensures_getTrack, ensures_bind, ensures_deref, hpts]
  refine ⟨fun pts' hsome => ?_, fun hnone => by cases hnone⟩
  obtain rfl := Option.some.inj hsome
  rw [ensures_bind, ensures_deref, htarget]
  refine ⟨fun target' hsome => ?_, fun hnone => by cases hnone⟩
  obtain rfl := Option.some.inj hsome
  rw [ensures_bind, ensures_attempt]
  refine ⟨fun count hcount => ?_, fun _ => subtract_thrown⟩
  have hpos : 0 < count := by
    rw [subtract_ok hcount]
    omega
  rw [ensures_bind]
  refine (sound_backup hbackup hpos hnext).mono ?_ fun _ _ h => h
  rintro ⟨spare, source⟩ s' rfl
  cases video with
  | true =>
    simp only [if_true, ensures_bind]
    apply sound_videoDuration horderly.period
    intro d _
    simp only [ensures_getTrack]
    simpa only [Sound, ensures_bind] using admission _ source d
  | false =>
    simp only [Bool.false_eq_true, if_false, ensures_bind, ensures_pure, ensures_getTrack]
    simpa only [Sound, ensures_bind] using admission _ source spare.nbSamples

/-! ### Corrections -/

theorem sound_desynced (shared : ℤ) {Q : Bool → StepState → Prop} (h : ∀ desync, Q desync s) :
    Sound (desynced config shared) s Q := by
  rw [desynced, Sound, ensures_bind, ensures_getTrack]
  cases s.track.shift with
  | none => exact h false
  | some shift =>
    simp only [ensures_bind]
    apply sound_toUs
    intro us
    simp only [ensures_attempt]
    exact ⟨fun tolerance _ => ⟨fun desync _ => h desync, fun _ => apart_thrown⟩, fun _ => add_thrown⟩

/-- Only an expected timestamp can be missed. -/
theorem sound_jumps (pts : ℤ) {Q : Bool → StepState → Prop} (h : ∀ jump, (jump = true → s.track.next ≠ none) →
    Q jump s) : Sound (jumps config pts) s Q := by
  rw [jumps, Sound, ensures_bind, ensures_getTrack]
  cases hnext : s.track.next with
  | none => exact h false fun h => by cases h
  | some next =>
    have hany : ∀ jump, Q jump s := fun jump => h jump fun _ => by rw [hnext]; exact Option.some_ne_none next
    rw [ensures_ite]
    refine ⟨fun _ => hany false, fun _ => ?_⟩
    rw [ensures_bind]
    apply sound_toUs
    intro us
    rw [ensures_bind]
    apply sound_toUs
    intro nextUs
    rw [ensures_attempt]
    exact ⟨fun jump _ => hany jump, fun _ => apart_thrown⟩

theorem sound_follow {input : AvDecoderReadResult} {frame : Frame} (hframe : input.frame = some frame)
    (hperiod : Period config video s.track.timeBase) (hbackup : video = true → config.backupVideo ≠ none)
    (houtput : s.track.hasOutput = true → s.track.next ≠ none) (original shared : ℤ) :
    Sound (follow config video input original shared now onOutput) s fun _ _ => True := by
  -- What follows the mapping is the same whether or not the shared shift was adopted.
  have mapped : ∀ (desync : Bool) shift t, t = { s with track := { s.track with shift := some shift } } → Sound (do
      let track ← getTrack
      let shift ← deref track.shift
      let pts ← attempt (add original shift)
      if ← jumps config pts then
        let next ← deref track.next
        if next < pts then
          if !track.tryWithoutFilling then
            beginFill pts true
            fill config video (some input) now onOutput
          else
            modifyTrack fun t => { t with tryWithoutFilling := false }
            adjust original
            modifyTrack fun t => { t with pendingRealPts := t.next }
            let suspendedUntil ← attempt (add now 1000)
            modifyTrack fun t => { t with suspendedUntil := suspendedUntil }
            pure { wakeUs := suspendedUntil }
        else
          adjust original
          real config video input next now onOutput
      else
        if desync then
          let representable ← toUs shift
          modifyClock fun c => { c with shift := some representable }
        real config video input pts now onOutput) t fun _ _ => True := by
    rintro desync shift t rfl
    simp only [Sound, ensures_bind, ensures_getTrack, ensures_deref, Option.some.injEq, forall_eq', reduceCtorEq,
      false_imp_iff, and_true, ensures_attempt]
    refine ⟨fun pts _ => ?_, fun _ => add_thrown⟩
    apply sound_jumps
    intro jump hjump
    cases jump with
    | true =>
      have hnext := hjump rfl
      rw [if_pos rfl]
      simp only [ensures_bind, ensures_deref]
      refine ⟨fun next hsome => ?_, fun hnone => absurd hnone hnext⟩
      rw [ensures_ite]
      refine ⟨fun hahead => ?_, fun _ => ?_⟩
      · rw [ensures_ite]
        refine ⟨fun _ => ?_, fun _ => ?_⟩
        · rw [ensures_bind, beginFill, ensures_modifyTrack]
          refine sound_fill ⟨fun target htarget => ?_, houtput, hperiod⟩ hbackup (Option.some_ne_none pts)
            fun _ => ⟨input, frame, rfl, hframe⟩
          obtain rfl := Option.some.inj htarget
          exact ⟨next, hsome, hahead⟩
        · simp only [ensures_bind, ensures_modifyTrack]
          apply @sound_adjust _ { s with
            track := { s.track with shift := some shift, tryWithoutFilling := false } } original hnext
          intro shift' shared'
          simp only [ensures_attempt, ensures_pure]
          exact ⟨fun _ _ => trivial, fun _ => add_thrown⟩
      · rw [ensures_bind]
        apply @sound_adjust _ { s with track := { s.track with shift := some shift } } original hnext
        intro shift' shared'
        refine sound_real hframe ?_ next
        exact hperiod
    | false =>
      rw [if_neg (by decide)]
      cases desync with
      | false =>
        simp only [Bool.false_eq_true, if_false]
        refine sound_real hframe ?_ pts
        exact hperiod
      | true =>
        simp only [if_true, ensures_bind]
        apply sound_toUs
        intro representable
        rw [ensures_modifyClock]
        refine sound_real hframe ?_ pts
        exact hperiod
  rw [follow, Sound, ensures_bind]
  apply sound_desynced
  intro desync
  rw [ensures_bind, ensures_getTrack]
  by_cases hadopt : s.track.shift.isNone = true ∨ desync = true
  · simp only [if_pos hadopt, ensures_bind]
    apply sound_fromUs
    intro adopted
    rw [ensures_modifyTrack]
    simpa only [Sound, ensures_bind] using mapped desync adopted _ rfl
  · obtain ⟨shift, hshift⟩ : ∃ shift, s.track.shift = some shift := by
      cases hs : s.track.shift with
      | none => simp [hs] at hadopt
      | some shift => exact ⟨shift, rfl⟩
    simp only [if_neg hadopt, ensures_bind]
    have hsame : s = { s with track := { s.track with shift := some shift } } := by
      have htrack : { s.track with shift := some shift } = s.track := by rw [← hshift]
      rw [htrack]
    simpa only [Sound, ensures_bind] using mapped desync shift s hsame

omit [Libav] in
theorem sound_clockNow {Q : ℤ → StepState → Prop} (h : ∀ rtc, Q rtc { s with clock := s.clock.settle now }) :
    Sound (clockNow now) s Q :=
  (ensures_clockNow now).mpr ⟨fun rtc _ => h rtc, fun _ => reading_thrown⟩

theorem sound_bootstrap {input : AvDecoderReadResult} {frame : Frame} (hframe : input.frame = some frame)
    (hperiod : Period config video s.track.timeBase) (houtput : s.track.hasOutput = true → s.track.next ≠ none)
    (original : ℤ) : Sound (bootstrap config video input original now onOutput) s fun _ _ => True := by
  have anchor : ∀ pts, Sound (do
      let shift ← attempt (subtract pts original)
      modifyTrack fun t => { t with shift := some shift }
      let shared ← toUs shift
      modifyClock fun c => { c with shift := some shared }
      real config video input pts now onOutput) { s with clock := s.clock.settle now } fun _ _ => True := by
    intro pts
    simp only [Sound, ensures_bind, ensures_attempt, ensures_modifyTrack]
    refine ⟨fun shift _ => ?_, fun _ => subtract_thrown⟩
    apply sound_toUs
    intro shared
    rw [ensures_modifyClock]
    refine sound_real hframe ?_ pts
    exact hperiod
  simp only [Sound, ensures_bind] at anchor
  rw [bootstrap, Sound, ensures_bind]
  apply sound_clockNow
  intro rtc
  rw [ensures_bind]
  apply sound_fromUs
  intro mapped
  simp only [ensures_bind, ensures_getTrack, ensures_ite, ensures_deref, ensures_pure]
  exact ⟨fun hout => ⟨fun next _ => anchor (max mapped next), fun hnone => absurd hnone (houtput hout)⟩,
    fun _ => anchor mapped⟩

theorem sound_convert (value : Option ℤ) (bq cq : AVRational) {Q : Option ℤ → StepState → Prop}
    (h : ∀ value', (value ≠ none → value' ≠ none) → Q value' s) : Sound (convert value bq cq) s Q := by
  cases value with
  | none => exact h none fun h => h
  | some v =>
    simp only [convert, Sound, ensures_bind, ensures_attempt, ensures_pure]
    exact ⟨fun r _ => h (some r) fun _ => Option.some_ne_none r, fun _ => rescale_thrown⟩

/-- After a change of the time base the same optionals are set. -/
theorem sound_changeTimeBase (timeBase : AVRational) {Q : Unit → StepState → Prop}
    (h : ∀ s' : StepState, s'.track.timeBase = timeBase → s'.clock = s.clock →
      s'.track.hasOutput = s.track.hasOutput → (s.track.next ≠ none → s'.track.next ≠ none) → Q () s') :
    Sound (changeTimeBase timeBase) s Q := by
  rw [changeTimeBase, Sound, ensures_bind, ensures_getTrack, ensures_bind]
  apply sound_convert
  intro next hnext
  rw [ensures_bind, ensures_modifyTrack, ensures_bind]
  apply sound_convert
  intro shift _
  rw [ensures_bind, ensures_modifyTrack, ensures_bind]
  apply sound_convert
  intro fillUntil _
  rw [ensures_bind, ensures_modifyTrack, ensures_bind]
  apply sound_convert
  intro pending _
  simp only [ensures_bind, ensures_modifyTrack, ensures_ite, ensures_attempt]
  exact ⟨fun _ => ⟨fun lastReal _ => h _ rfl rfl rfl hnext, fun _ => rescale_thrown⟩, fun _ => h _ rfl rfl rfl hnext⟩

theorem sound_correct {input : AvDecoderReadResult} {frame : Frame} (hframe : input.frame = some frame)
    (hperiod : Period config video s.track.timeBase) (hinput : Period config video input.timeBase)
    (hbackup : video = true → config.backupVideo ≠ none) (houtput : s.track.hasOutput = true → s.track.next ≠ none) :
    Sound (correct config video input now onOutput) s fun _ _ => True := by
  have rebased : ∀ t : StepState, Period config video t.track.timeBase →
      (t.track.hasOutput = true → t.track.next ≠ none) →
      Sound (correctRebased config video input now onOutput) t fun _ _ => True := by
    intro t hperiod houtput
    simp only [correctRebased, Sound, ensures_bind, ensures_deref, hframe, Option.some.injEq, forall_eq', reduceCtorEq,
      false_imp_iff, and_true, ensures_getTrack, ensures_attempt, ensures_getClock]
    refine ⟨fun original _ => ?_, fun _ => rescale_thrown⟩
    cases t.clock.shift with
    | none => exact sound_bootstrap hframe hperiod houtput original
    | some shared => exact sound_follow hframe hperiod hbackup houtput original shared
  simp only [correctRebased, Sound, ensures_bind] at rebased
  rw [correct, Sound, ensures_bind, ensures_getTrack]
  by_cases hbase : video = true ∧ avCmpQ s.track.timeBase input.timeBase ≠ 0
  · simp only [if_pos hbase, ensures_bind]
    apply sound_changeTimeBase
    intro t htimeBase _ hout hnext
    apply rebased
    · rw [htimeBase]
      exact hinput
    · intro houtput'
      rw [hout] at houtput'
      exact hnext (houtput houtput')
  · simp only [if_neg hbase, ensures_bind]
    exact rebased s hperiod houtput

/-! ### The step -/

theorem sound_timeoutStep (hperiod : Period config video s.track.timeBase)
    (hbackup : video = true → config.backupVideo ≠ none) :
    Sound (timeoutStep config video none now onOutput) s fun _ _ => True := by
  have poll : ∀ (next rtc : ℤ) (late : Bool) (t : StepState), t.track.next = some next →
      Period config video t.track.timeBase → Sound (do
        modifyTrack fun t => { t with lastSuccess := false }
        let waitUntil ← attempt (add now kPollUs)
        modifyTrack fun t => { t with waitUntil := waitUntil }
        let target ← fromUs rtc
        if late = true ∧ next < target then
          beginFill target false
          fill config video none now onOutput
        else pure { wakeUs := waitUntil }) t fun _ _ => True := by
    intro next rtc late t hnext hperiod
    simp only [Sound, ensures_bind, ensures_modifyTrack, ensures_attempt]
    refine ⟨fun waitUntil _ => ?_, fun _ => add_thrown⟩
    apply sound_fromUs
    intro target
    rw [ensures_ite]
    refine ⟨fun hfill => ?_, fun _ => trivial⟩
    rw [ensures_bind, beginFill, ensures_modifyTrack]
    refine sound_fill ⟨fun target' htarget => ?_, fun _ => ?_, ?_⟩ hbackup ?_ ?_
    · obtain rfl := Option.some.inj htarget
      exact ⟨next, hnext, hfill.2⟩
    · show t.track.next ≠ none
      rw [hnext]
      exact Option.some_ne_none next
    · exact hperiod
    · exact Option.some_ne_none target
    · intro hforward
      cases hforward
  have seeded : ∀ (rtc : ℤ) (t : StepState), t.track.next ≠ none → Period config video t.track.timeBase → Sound (do
        let track ← getTrack
        let next ← deref track.next
        let late ←
          if !track.lastSuccess then pure true
          else do
            let nextUs ← toUs next
            let behind ← attempt (subtract rtc nextUs)
            pure (decide (config.options.timeout < behind))
        modifyTrack fun t => { t with lastSuccess := false }
        let waitUntil ← attempt (add now kPollUs)
        modifyTrack fun t => { t with waitUntil := waitUntil }
        let target ← fromUs rtc
        if late = true ∧ next < target then
          beginFill target false
          fill config video none now onOutput
        else pure { wakeUs := waitUntil }) t fun _ _ => True := by
    intro rtc t hnext hperiod
    rw [Sound, ensures_bind, ensures_getTrack, ensures_bind, ensures_deref]
    refine ⟨fun next hsome => ?_, fun hnone => absurd hnone hnext⟩
    dsimp only
    rw [ensures_ite]
    refine ⟨fun _ => poll next rtc true t hsome hperiod, fun _ => ?_⟩
    rw [ensures_bind]
    apply sound_toUs
    intro nextUs
    rw [ensures_bind, ensures_attempt]
    exact ⟨fun behind _ => poll next rtc _ t hsome hperiod, fun _ => subtract_thrown⟩
  rw [timeoutStep, Sound, ensures_bind]
  apply sound_clockNow
  intro rtc
  rw [ensures_bind, ensures_getTrack]
  cases hnext : s.track.next with
  | none =>
    simp only [Option.isNone_none, if_true, ensures_bind]
    apply sound_fromUs
    intro start
    rw [ensures_modifyTrack]
    simpa only [Sound, ensures_bind] using
      seeded rtc ⟨s.clock.settle now, { s.track with next := some start }, s.offered⟩ (Option.some_ne_none start)
        hperiod
  | some next =>
    simp only [Option.isNone_some, Bool.false_eq_true, if_false, ensures_bind]
    simpa only [Sound, ensures_bind] using seeded rtc { s with clock := s.clock.settle now }
      (by rw [hnext]; exact Option.some_ne_none next) hperiod

/-- **What a step may throw.**  On an orderly track whose real frame is still there, only the callback and checked
arithmetic throw. -/
theorem sound_step (horderly : Orderly config video s.track) (hbackup : video = true → config.backupVideo ≠ none)
    (hheld : Pending s.track → IsFrame head)
    (hvalid : ∀ input, head = some input → input.status ≠ .eof → IsFrame head)
    (hinput : ∀ input, head = some input → IsFrame head → Period config video input.timeBase) :
    Sound (step config video head now onOutput) s fun _ _ => True := by
  rw [step, Sound, ensures_bind, ensures_getTrack]
  cases hfill : s.track.fillUntil with
  | some target =>
    rw [Option.isSome_some, if_pos rfl]
    have hopen : s.track.fillUntil ≠ none := by rw [hfill]; exact Option.some_ne_none target
    exact sound_fill horderly hbackup hopen fun hforward => hheld (.inr ⟨hopen, hforward⟩)
  | none =>
    rw [Option.isSome_none, if_neg (by decide)]
    cases hpending : s.track.pendingRealPts with
    | some pending =>
      rw [Option.isSome_some, if_pos rfl, ensures_ite]
      refine ⟨fun _ => trivial, fun _ => ?_⟩
      have hframe := hheld (.inl (by rw [hpending]; exact Option.some_ne_none pending))
      obtain ⟨input, frame, rfl, hsome⟩ := hframe
      simp only [ensures_bind, ensures_modifyTrack, ensures_deref, Option.some.injEq, forall_eq', reduceCtorEq,
        false_imp_iff, and_true]
      refine sound_correct hsome ?_ (hinput input rfl ⟨input, frame, rfl, hsome⟩) hbackup ?_
      · exact horderly.period
      · exact horderly.output
    | none =>
      rw [Option.isSome_none, if_neg (by decide)]
      cases head with
      | some input =>
        simp only [ensures_ite, ensures_pure, implies_true, true_and]
        intro hstatus
        obtain ⟨input', frame, hsame, hsome⟩ := hvalid input rfl hstatus
        obtain rfl := Option.some.inj hsame
        exact sound_correct hsome horderly.period (hinput input rfl ⟨input, frame, rfl, hsome⟩) hbackup
          horderly.output
      | none =>
        simp only [ensures_ite, ensures_pure, implies_true, true_and]
        exact fun _ => sound_timeoutStep horderly.period hbackup

end SyncerTiming

end MwStreamer
