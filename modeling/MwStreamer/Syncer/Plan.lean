import MwStreamer.Syncer.Ends

/-!
# What one step decides

Before anything is put up for admission, a step settles on one of four decisions: to return, to offer the
real frame at some timestamp, to offer a filler, or to throw.  The plans below list every way to a decision
with the state it is taken in; `step_ensures` reduces a statement about a step to its plans, and the
`Ends` lemmas finish the two admission cases.
-/

namespace MwStreamer

open StateExcept

namespace SyncerTiming

/-- What a step does after its case analysis. -/
inductive Decision where
  | done (result : SyncerStep) (s' : StepState)
  | real (input : AvDecoderReadResult) (pts : ℤ) (s' : StepState)
  | fill (input : Option AvDecoderReadResult) (s' : StepState)
  | failed (e : Exception) (s' : StepState)

variable [Libav]

/-- The decision, carried out, ends in `Q` or throws into `E`. -/
def Decision.Ends (config : SyncerConfig) (video : Bool) (now : ℤ) (onOutput : OnOutput)
    (Q : SyncerStep → StepState → Prop) (E : Exception → StepState → Prop) : Decision → Prop
  | .done result s' => Q result s'
  | .real input pts s' =>
      Ensures (SyncerTiming.real config video input pts now onOutput) s' Q E
  | .fill input s' => Ensures (SyncerTiming.fill config video input now onOutput) s' Q E
  | .failed e s' => E e s'

/-- How a decision ends, and in what state. -/
inductive Decision.End (config : SyncerConfig) (video : Bool) (now : ℤ) :
    Decision → Except Exception SyncerStep → StepState → Prop where
  | done (result : SyncerStep) (s' : StepState) : End config video now (.done result s') (.ok result) s'
  | real {input : AvDecoderReadResult} {pts : ℤ} {s s' : StepState} {r : Except Exception SyncerStep}
      (hend : RealEnd config video input pts now s r s') :
      End config video now (.real input pts s) r s'
  | fill {input : Option AvDecoderReadResult} {s s' : StepState} {r : Except Exception SyncerStep}
      (hend : FillEnd config video input now s r s') : End config video now (.fill input s) r s'
  | failed (e : Exception) (s' : StepState) : End config video now (.failed e s') (.error e) s'

/-! ### Following the shared shift -/

/-- The shift a track uses under the shared shift, and whether it was found out of tolerance. -/
structure Adopts (config : SyncerConfig) (track : Track) (shared : ℤ) (desync : Bool) (shift : ℤ) :
    Prop where
  desync_eq : (track.shift = none ∧ desync = false) ∨ ∃ old us tolerance, track.shift = some old ∧
    rescale old track.timeBase kMicroseconds = .ok us ∧
    add config.options.maxStreamsDiff 1 = .ok tolerance ∧ apart us shared tolerance = .ok desync
  shift_eq : if track.shift.isNone ∨ desync then
      rescale shared kMicroseconds track.timeBase = .ok shift
    else track.shift = some shift

/-- Whether a mapped timestamp is a discontinuity of the track. -/
def Jumps (config : SyncerConfig) (track : Track) (pts : ℤ) (jump : Bool) : Prop :=
  (track.next = none ∧ jump = false) ∨ (track.next = some pts ∧ jump = false) ∨
    ∃ next a b, track.next = some next ∧ pts ≠ next ∧
      rescale pts track.timeBase kMicroseconds = .ok a ∧
      rescale next track.timeBase kMicroseconds = .ok b ∧
      apart a b config.options.maxStreamsDiff = .ok jump

/-- The ways through `follow`. -/
inductive FollowPlan (config : SyncerConfig) (input : AvDecoderReadResult) (original shared now : ℤ)
    (s : StepState) : Decision → Prop where
  | failed (e : Exception) : FollowPlan config input original shared now s (.failed e s)
  | failedMapped {desync : Bool} {shift : ℤ} (e : Exception)
      (hadopt : Adopts config s.track shared desync shift) :
      FollowPlan config input original shared now s
        (.failed e { s with track := { s.track with shift := some shift } })
  | failedJump {desync : Bool} {shift pts : ℤ} {s' : StepState} (e : Exception)
      (hadopt : Adopts config s.track shared desync shift) (hpts : add original shift = .ok pts)
      (hjump : Jumps config s.track pts true) (hline : SameLine s.track s'.track)
      (hoffered : s'.offered = s.offered) (hclock : s'.clock.shift ≠ none) :
      FollowPlan config input original shared now s (.failed e s')
  | continuous {desync : Bool} {shift pts shared' : ℤ}
      (hadopt : Adopts config s.track shared desync shift) (hpts : add original shift = .ok pts)
      (hjump : Jumps config s.track pts false)
      (hshared : if desync then rescale shift s.track.timeBase kMicroseconds = .ok shared'
        else shared' = shared) :
      FollowPlan config input original shared now s
        (.real input pts
          { s with
            track := { s.track with shift := some shift }
            clock := { s.clock with shift := some shared' } })
  | forward {desync : Bool} {shift pts next : ℤ}
      (hadopt : Adopts config s.track shared desync shift) (hpts : add original shift = .ok pts)
      (hjump : Jumps config s.track pts true) (hnext : s.track.next = some next)
      (hahead : next < pts) (htry : s.track.tryWithoutFilling = false) :
      FollowPlan config input original shared now s
        (.fill (some input)
          { s with
            track :=
              { s.track with
                shift := some shift
                fillUntil := some pts
                forwardFill := true
                filled := 0
                filledUs := 0 } })
  | retry {desync : Bool} {shift pts next shift' shared' suspendedUntil : ℤ}
      (hadopt : Adopts config s.track shared desync shift) (hpts : add original shift = .ok pts)
      (hjump : Jumps config s.track pts true) (hnext : s.track.next = some next)
      (hahead : next < pts) (htry : s.track.tryWithoutFilling = true)
      (hshift : subtract next original = .ok shift')
      (hshared : rescale shift' s.track.timeBase kMicroseconds = .ok shared')
      (huntil : add now 1000 = .ok suspendedUntil) :
      FollowPlan config input original shared now s
        (.done { wakeUs := suspendedUntil }
          { s with
            track :=
              { s.track with
                shift := some shift'
                tryWithoutFilling := false
                pendingRealPts := s.track.next
                suspendedUntil := suspendedUntil }
            clock := { s.clock with shift := some shared' } })
  | backward {desync : Bool} {shift pts next shift' shared' : ℤ}
      (hadopt : Adopts config s.track shared desync shift) (hpts : add original shift = .ok pts)
      (hjump : Jumps config s.track pts true) (hnext : s.track.next = some next)
      (hbehind : ¬next < pts) (hshift : subtract next original = .ok shift')
      (hshared : rescale shift' s.track.timeBase kMicroseconds = .ok shared') :
      FollowPlan config input original shared now s
        (.real input next
          { s with
            track := { s.track with shift := some shift' }
            clock := { s.clock with shift := some shared' } })

variable {config : SyncerConfig} {video : Bool} {now : ℤ} {onOutput : OnOutput}
variable {Q : SyncerStep → StepState → Prop} {E : Exception → StepState → Prop}

theorem ensures_desynced (config : SyncerConfig) (shared : ℤ) {s : StepState}
    {Q : Bool → StepState → Prop} {E : Exception → StepState → Prop}
    (hok : ∀ desync, ((s.track.shift = none ∧ desync = false) ∨ ∃ old us tolerance,
        s.track.shift = some old ∧ rescale old s.track.timeBase kMicroseconds = .ok us ∧
        add config.options.maxStreamsDiff 1 = .ok tolerance ∧
        apart us shared tolerance = .ok desync) → Q desync s)
    (herr : ∀ e, E e s) : Ensures (desynced config shared) s Q E := by
  rw [desynced, ensures_bind, ensures_getTrack]
  cases hshift : s.track.shift with
  | none => exact hok false (.inl ⟨hshift, rfl⟩)
  | some old =>
    simp only [ensures_bind, ensures_toUs, ensures_attempt]
    exact ⟨fun us hus => ⟨fun tolerance htol => ⟨fun desync hapart =>
      hok desync (.inr ⟨old, us, tolerance, hshift, hus, htol, hapart⟩), fun e _ => herr e⟩,
      fun e _ => herr e⟩, fun e _ => herr e⟩

theorem ensures_jumps (config : SyncerConfig) (pts : ℤ) {s : StepState} {Q : Bool → StepState → Prop}
    {E : Exception → StepState → Prop}
    (hok : ∀ jump, Jumps config s.track pts jump → Q jump s) (herr : ∀ e, E e s) :
    Ensures (jumps config pts) s Q E := by
  rw [jumps, ensures_bind, ensures_getTrack]
  cases hnext : s.track.next with
  | none => exact hok false (.inl ⟨hnext, rfl⟩)
  | some next =>
    simp only [ensures_ite, ensures_pure, ensures_bind, ensures_toUs, ensures_attempt]
    refine ⟨fun heq => hok false (.inr (.inl ⟨heq ▸ hnext, rfl⟩)), fun hne => ?_⟩
    exact ⟨fun a ha => ⟨fun b hb => ⟨fun jump hapart =>
      hok jump (.inr (.inr ⟨next, a, b, hnext, hne, ha, hb, hapart⟩)), fun e _ => herr e⟩,
      fun e _ => herr e⟩, fun e _ => herr e⟩

/-- **`follow` by plans.** -/
theorem follow_ensures {input : AvDecoderReadResult} {original shared : ℤ} {s : StepState}
    (hclock : s.clock.shift = some shared)
    (h : ∀ d, FollowPlan config input original shared now s d →
      d.Ends config video now onOutput Q E) :
    Ensures (follow config video input original shared now onOutput) s Q E := by
  -- What follows the mapping is the same whether or not the shared shift was adopted.
  have mapped : ∀ desync shift t, Adopts config s.track shared desync shift →
      t = { s with track := { s.track with shift := some shift } } →
      Ensures (do
          let track ← getTrack
          let shift ← deref track.shift
          let pts ← attempt (add original shift)
          if ← jumps config pts then
            let next ← deref track.next
            if next < pts then
              if !track.tryWithoutFilling then
                beginFill pts true
                fill config video (some input) now onOutput
              else
                modifyTrack fun t => { t with tryWithoutFilling := false }
                adjust original
                modifyTrack fun t => { t with pendingRealPts := t.next }
                let suspendedUntil ← attempt (add now 1000)
                modifyTrack fun t => { t with suspendedUntil := suspendedUntil }
                pure { wakeUs := suspendedUntil }
            else
              adjust original
              real config video input next now onOutput
          else
            if desync then
              let representable ← toUs shift
              modifyClock fun c => { c with shift := some representable }
            real config video input pts now onOutput) t Q E := by
    rintro desync shift t hadopt rfl
    have hmapped := fun e => h _ (.failedMapped e hadopt)
    simp only [ensures_bind, ensures_getTrack, ensures_deref, Option.some.injEq, forall_eq',
      reduceCtorEq, false_imp_iff, and_true, ensures_attempt]
    refine ⟨fun pts hpts => ?_, fun e _ => hmapped e⟩
    apply ensures_jumps
    · intro jump hjump
      have hjump : Jumps config s.track pts jump := hjump
      cases jump with
      | false =>
        have hreal : ∀ shared', (if desync then rescale shift s.track.timeBase kMicroseconds = .ok shared'
            else shared' = shared) → _ :=
          fun shared' hshared => h _ (.continuous hadopt hpts hjump hshared)
        cases desync with
        | false =>
          have heq : { s.clock with shift := some shared } = s.clock := by rw [← hclock]
          have h0 := hreal shared (by rw [if_neg (by decide)])
          rw [heq] at h0
          simp only [Bool.false_eq_true, if_false]
          exact h0
        | true =>
          simp only [Bool.false_eq_true, if_false, if_true, ensures_bind, ensures_toUs,
            ensures_modifyClock]
          exact ⟨fun shared' hshared => hreal shared' (by rw [if_pos rfl]; exact hshared),
            fun e _ => hmapped e⟩
      | true =>
        have hfail := fun e s' hline hoffered hclock =>
          h (.failed e s') (.failedJump e hadopt hpts hjump hline hoffered hclock)
        have hsome : s.clock.shift ≠ none := by rw [hclock]; exact Option.some_ne_none _
        simp only [if_true, ensures_bind, ensures_deref]
        refine ⟨fun next hnext => ?_, fun _ => hfail _ _ ⟨rfl, rfl, rfl, rfl, rfl, rfl⟩ rfl hsome⟩
        rw [ensures_ite]
        refine ⟨fun hahead => ?_, fun hbehind => ?_⟩
        · rw [ensures_ite, Bool.not_eq_true', Bool.not_eq_false]
          refine ⟨fun htry => ?_, fun htry => ?_⟩
          · rw [ensures_bind, beginFill, ensures_modifyTrack]
            exact h _ (.forward hadopt hpts hjump hnext hahead htry)
          · simp only [ensures_bind, ensures_modifyTrack]
            apply ensures_adjust
            · intro next' shift' shared' hnext' hshift' hshared'
              obtain rfl : next = next' := Option.some.inj (hnext.symm.trans hnext')
              simp only [ensures_attempt, ensures_pure]
              exact ⟨fun u hu => h _ (.retry hadopt hpts hjump hnext hahead htry hshift' hshared' hu),
                fun e _ => hfail _ _ ⟨rfl, rfl, rfl, rfl, rfl, rfl⟩ rfl (Option.some_ne_none _)⟩
            · exact fun e shift' => hfail _ _ ⟨rfl, rfl, rfl, rfl, rfl, rfl⟩ rfl hsome
        · rw [ensures_bind]
          apply ensures_adjust
          · intro next' shift' shared' hnext' hshift' hshared'
            obtain rfl : next = next' := Option.some.inj (hnext.symm.trans hnext')
            exact h _ (.backward hadopt hpts hjump hnext hbehind hshift' hshared')
          · exact fun e shift' => hfail _ _ ⟨rfl, rfl, rfl, rfl, rfl, rfl⟩ rfl hsome
    · exact hmapped
  rw [follow, ensures_bind]
  apply ensures_desynced
  · intro desync hdesync
    rw [ensures_bind, ensures_getTrack]
    by_cases hadopt : s.track.shift.isNone = true ∨ desync = true
    · simp only [if_pos hadopt, ensures_bind, ensures_fromUs, ensures_modifyTrack]
      refine ⟨fun adopted hadopted => ?_, fun e _ => h _ (.failed e)⟩
      simpa only [ensures_bind] using mapped desync adopted _
        ⟨hdesync, by rw [if_pos hadopt]; exact hadopted⟩ rfl
    · obtain ⟨shift, hshift⟩ : ∃ shift, s.track.shift = some shift := by
        cases hs : s.track.shift with
        | none => simp [hs] at hadopt
        | some shift => exact ⟨shift, rfl⟩
      simp only [if_neg hadopt, ensures_bind]
      have heq : s = { s with track := { s.track with shift := some shift } } := by
        have htrack : { s.track with shift := some shift } = s.track := by rw [← hshift]
        rw [htrack]
      simpa only [ensures_bind] using mapped desync shift s
        ⟨hdesync, by rw [if_neg hadopt]; exact hshift⟩ heq
  · exact fun e => h _ (.failed e)

/-! ### Anchoring the timeline -/

/-- The ways through `bootstrap`. -/
inductive BootstrapPlan (input : AvDecoderReadResult) (original now : ℤ) (s : StepState) :
    Decision → Prop where
  | failed {s' : StepState} (e : Exception) (hline : SameLine s.track s'.track)
      (hoffered : s'.offered = s.offered) : BootstrapPlan input original now s (.failed e s')
  | anchored {rtc mapped pts shift shared : ℤ} (hrtc : clockReading s.clock now = .ok rtc)
      (hmapped : rescale rtc kMicroseconds s.track.timeBase = .ok mapped)
      (hpts : if s.track.hasOutput then ∃ next, s.track.next = some next ∧ pts = max mapped next
        else pts = mapped)
      (hshift : subtract pts original = .ok shift)
      (hshared : rescale shift s.track.timeBase kMicroseconds = .ok shared) :
      BootstrapPlan input original now s
        (.real input pts
          { s with
            track := { s.track with shift := some shift }
            clock := { s.clock.settle now with shift := some shared } })

/-- **`bootstrap` by plans.** -/
theorem bootstrap_ensures {input : AvDecoderReadResult} {original : ℤ} {s : StepState}
    (h : ∀ d, BootstrapPlan input original now s d → d.Ends config video now onOutput Q E) :
    Ensures (bootstrap config video input original now onOutput) s Q E := by
  have hfail := fun e s' hline hoffered => h (.failed e s') (.failed e hline hoffered)
  simp only [bootstrap, ensures_bind, ensures_clockNow, ensures_fromUs, ensures_getTrack]
  refine ⟨fun rtc hrtc => ⟨fun mapped hmapped => ?_, fun e _ => hfail e _ (.refl _) rfl⟩,
    fun e _ => hfail e _ (.refl _) rfl⟩
  have anchor : ∀ pts, (if s.track.hasOutput then
        ∃ next, s.track.next = some next ∧ pts = max mapped next else pts = mapped) →
      Ensures (do
          let shift ← attempt (subtract pts original)
          modifyTrack fun t => { t with shift := some shift }
          let shared ← toUs shift
          modifyClock fun c => { c with shift := some shared }
          real config video input pts now onOutput) { s with clock := s.clock.settle now } Q E := by
    intro pts hpts
    simp only [ensures_bind, ensures_attempt, ensures_modifyTrack, ensures_toUs, ensures_modifyClock]
    exact ⟨fun shift hshift => ⟨fun shared hshared =>
      h _ (.anchored hrtc hmapped hpts hshift hshared),
      fun e _ => hfail e _ ⟨rfl, rfl, rfl, rfl, rfl, rfl⟩ rfl⟩, fun e _ => hfail e _ (.refl _) rfl⟩
  simp only [ensures_bind] at anchor
  simp only [ensures_ite, ensures_bind, ensures_deref, ensures_pure]
  refine ⟨fun hout => ⟨fun next hnext => ?_, fun _ => hfail _ _ (.refl _) rfl⟩, fun hout => ?_⟩
  · exact anchor (max mapped next) (by rw [if_pos hout]; exact ⟨next, hnext, rfl⟩)
  · exact anchor mapped (by rw [if_neg hout])

/-! ### Changing the time base -/

/-- One optional timestamp in its new unit. -/
def Converted (value value' : Option ℤ) (bq cq : AVRational) : Prop :=
  (value = none ∧ value' = none) ∨
    ∃ v r, value = some v ∧ value' = some r ∧ rescale v bq cq = .ok r

/-- The state a real frame is corrected in: the same one, or one in the time base of the frame. -/
inductive Rebase (video : Bool) (timeBase : AVRational) (s : StepState) : StepState → Prop where
  | same (hbase : ¬(video = true ∧ avCmpQ s.track.timeBase timeBase ≠ 0)) :
      Rebase video timeBase s s
  | changed {next shift fillUntil pendingRealPts : Option ℤ} {lastRealPts : ℤ}
      (hbase : video = true ∧ avCmpQ s.track.timeBase timeBase ≠ 0)
      (hnext : Converted s.track.next next s.track.timeBase timeBase)
      (hshift : Converted s.track.shift shift s.track.timeBase timeBase)
      (hfill : Converted s.track.fillUntil fillUntil s.track.timeBase timeBase)
      (hpending : Converted s.track.pendingRealPts pendingRealPts s.track.timeBase timeBase) :
      Rebase video timeBase s
        { s with
          track :=
            { s.track with
              next := next
              shift := shift
              fillUntil := fillUntil
              pendingRealPts := pendingRealPts
              lastRealPts := lastRealPts
              timeBase := timeBase } }

theorem ensures_convert (value : Option ℤ) (bq cq : AVRational) {s : StepState}
    {Q : Option ℤ → StepState → Prop} {E : Exception → StepState → Prop}
    (hok : ∀ value', Converted value value' bq cq → Q value' s) (herr : ∀ e, E e s) :
    Ensures (convert value bq cq) s Q E := by
  cases value with
  | none => exact hok none (.inl ⟨rfl, rfl⟩)
  | some v =>
    simp only [convert, ensures_bind, ensures_attempt, ensures_pure]
    exact ⟨fun r hr => hok (some r) (.inr ⟨v, r, rfl, rfl, hr⟩), fun e _ => herr e⟩

/-- What a failed `ChangeTimeBase` leaves alone: it stops between two conversions, so the timestamps may
be in either unit. -/
structure Halfway (s s' : StepState) : Prop where
  clock : s'.clock = s.clock
  offered : s'.offered = s.offered
  timeBase : s'.track.timeBase = s.track.timeBase
  hasOutput : s'.track.hasOutput = s.track.hasOutput

/-- `ChangeTimeBase` offers nothing, and converts every timestamp when it succeeds. -/
theorem ensures_changeTimeBase (timeBase : AVRational) {s : StepState}
    (hbase : video = true ∧ avCmpQ s.track.timeBase timeBase ≠ 0)
    {Q : Unit → StepState → Prop} {E : Exception → StepState → Prop}
    (hok : ∀ s', Rebase video timeBase s s' → Q () s')
    (herr : ∀ e s', Halfway s s' → E e s') :
    Ensures (changeTimeBase timeBase) s Q E := by
  rw [changeTimeBase, ensures_bind, ensures_getTrack, ensures_bind]
  refine ensures_convert _ _ _ (fun next hnext => ?_) fun e => herr e _ ⟨rfl, rfl, rfl, rfl⟩
  rw [ensures_bind, ensures_modifyTrack, ensures_bind]
  refine ensures_convert _ _ _ (fun shift hshift => ?_) fun e => herr e _ ⟨rfl, rfl, rfl, rfl⟩
  rw [ensures_bind, ensures_modifyTrack, ensures_bind]
  refine ensures_convert _ _ _ (fun fillUntil hfill => ?_) fun e => herr e _ ⟨rfl, rfl, rfl, rfl⟩
  rw [ensures_bind, ensures_modifyTrack, ensures_bind]
  refine ensures_convert _ _ _ (fun pending hpending => ?_) fun e => herr e _ ⟨rfl, rfl, rfl, rfl⟩
  simp only [ensures_bind, ensures_modifyTrack, ensures_ite, ensures_attempt]
  exact ⟨fun _ => ⟨fun r _ => hok _ (.changed hbase hnext hshift hfill hpending),
      fun e _ => herr e _ ⟨rfl, rfl, rfl, rfl⟩⟩,
    fun _ => hok _ (.changed hbase hnext hshift hfill hpending)⟩

/-! ### Correcting a real frame -/

/-- The ways through `correct`. -/
inductive CorrectPlan (config : SyncerConfig) (video : Bool) (input : AvDecoderReadResult) (now : ℤ)
    (s : StepState) : Decision → Prop where
  | failedBase {s' : StepState} (e : Exception)
      (hbase : video = true ∧ avCmpQ s.track.timeBase input.timeBase ≠ 0)
      (hhalf : Halfway s s') : CorrectPlan config video input now s (.failed e s')
  | failedInput {s₁ : StepState} (e : Exception) (hrebase : Rebase video input.timeBase s s₁) :
      CorrectPlan config video input now s (.failed e s₁)
  | bootstrap {s₁ : StepState} {frame : Frame} {original : ℤ} {d : Decision}
      (hrebase : Rebase video input.timeBase s s₁) (hframe : input.frame = some frame)
      (horiginal : rescale frame.pts input.timeBase s₁.track.timeBase = .ok original)
      (hclock : s₁.clock.shift = none) (hplan : BootstrapPlan input original now s₁ d) :
      CorrectPlan config video input now s d
  | follow {s₁ : StepState} {frame : Frame} {original shared : ℤ} {d : Decision}
      (hrebase : Rebase video input.timeBase s s₁) (hframe : input.frame = some frame)
      (horiginal : rescale frame.pts input.timeBase s₁.track.timeBase = .ok original)
      (hclock : s₁.clock.shift = some shared)
      (hplan : FollowPlan config input original shared now s₁ d) :
      CorrectPlan config video input now s d

/-- The rest of `correct`, where the time base is the input's. -/
def correctRebased (config : SyncerConfig) (video : Bool) (input : AvDecoderReadResult) (now : ℤ)
    (onOutput : OnOutput) : SyncerM SyncerStep := do
  let frame ← deref input.frame
  let original ← attempt (rescale frame.pts input.timeBase (← getTrack).timeBase)
  match (← getClock).shift with
  | none => bootstrap config video input original now onOutput
  | some shared => follow config video input original shared now onOutput

/-- **`correct` by plans.** -/
theorem correct_ensures {input : AvDecoderReadResult} {s : StepState}
    (h : ∀ d, CorrectPlan config video input now s d → d.Ends config video now onOutput Q E) :
    Ensures (correct config video input now onOutput) s Q E := by
  have rebased : ∀ s₁, Rebase video input.timeBase s s₁ →
      Ensures (correctRebased config video input now onOutput) s₁ Q E := by
    intro s₁ hrebase
    have hfail := fun e => h _ (.failedInput e hrebase)
    simp only [correctRebased, ensures_bind, ensures_deref, ensures_getTrack, ensures_attempt, ensures_getClock]
    refine ⟨fun frame hframe => ⟨fun original horiginal => ?_, fun e _ => hfail e⟩, fun _ => hfail _⟩
    cases hclock : s₁.clock.shift with
    | none =>
      exact bootstrap_ensures fun d hplan => h d (.bootstrap hrebase hframe horiginal hclock hplan)
    | some shared =>
      exact follow_ensures hclock fun d hplan =>
        h d (.follow hrebase hframe horiginal hclock hplan)
  simp only [correctRebased, ensures_bind] at rebased
  rw [correct, ensures_bind, ensures_getTrack]
  by_cases hbase : video = true ∧ avCmpQ s.track.timeBase input.timeBase ≠ 0
  · simp only [if_pos hbase, ensures_bind]
    exact ensures_changeTimeBase input.timeBase hbase rebased
      fun e s' hhalf => h _ (.failedBase e hbase hhalf)
  · simp only [if_neg hbase, ensures_bind]
    exact rebased s (.same hbase)

/-! ### Missing input -/

/-- The expected timestamp a timeout works with. -/
def Seeds (config : SyncerConfig) (track : Track) (next : ℤ) : Prop :=
  track.next = some next ∨ (track.next = none ∧
    rescale config.options.startTs kMicroseconds track.timeBase = .ok next)

/-- The track once a timeout was noticed. -/
def timedOut (track : Track) (next waitUntil : ℤ) : Track :=
  { track with next := some next, lastSuccess := false, waitUntil := waitUntil }

/-- The ways through `timeoutStep`. -/
inductive TimeoutPlan (config : SyncerConfig) (now : ℤ) (s : StepState) : Decision → Prop where
  | failed {s' : StepState} (e : Exception)
      (hnext : s'.track.next = s.track.next ∨ ∃ next, Seeds config s.track next ∧
        s'.track.next = some next)
      (hclock : s'.clock = s.clock.settle now) (hout : s'.track.hasOutput = s.track.hasOutput)
      (hshift : s'.track.shift = s.track.shift) (hbase : s'.track.timeBase = s.track.timeBase)
      (hfill : s'.track.fillUntil = s.track.fillUntil)
      (hpending : s'.track.pendingRealPts = s.track.pendingRealPts)
      (htry : s'.track.tryWithoutFilling = s.track.tryWithoutFilling)
      (hoffered : s'.offered = s.offered) : TimeoutPlan config now s (.failed e s')
  | idle {rtc next waitUntil target : ℤ} (hrtc : clockReading s.clock now = .ok rtc)
      (hseed : Seeds config s.track next) (hwait : add now kPollUs = .ok waitUntil)
      (htarget : rescale rtc kMicroseconds s.track.timeBase = .ok target)
      (hlate : s.track.lastSuccess = true ∨ target ≤ next) :
      TimeoutPlan config now s
        (.done { wakeUs := waitUntil }
          { s with
            clock := s.clock.settle now
            track := timedOut s.track next waitUntil })
  | fill {rtc next waitUntil target : ℤ} (hrtc : clockReading s.clock now = .ok rtc)
      (hseed : Seeds config s.track next) (hwait : add now kPollUs = .ok waitUntil)
      (htarget : rescale rtc kMicroseconds s.track.timeBase = .ok target) (hbefore : next < target) :
      TimeoutPlan config now s
        (.fill none
          { s with
            clock := s.clock.settle now
            track :=
              { timedOut s.track next waitUntil with
                fillUntil := some target
                forwardFill := false
                filled := 0
                filledUs := 0 } })

/-- **`timeoutStep` by plans.** -/
theorem timeoutStep_ensures {s : StepState}
    (h : ∀ d, TimeoutPlan config now s d → d.Ends config video now onOutput Q E) :
    Ensures (timeoutStep config video none now onOutput) s Q E := by
  have hfail := fun e track hnext hout hshift hbase hfill hpending htry =>
    h (.failed e { s with clock := s.clock.settle now, track := track })
      (.failed e hnext rfl hout hshift hbase hfill hpending htry rfl)
  have hsame := fun e => hfail e s.track (.inl rfl) rfl rfl rfl rfl rfl rfl
  -- The deadline is moved before the target is known, in both cases of lateness.
  have poll : ∀ next rtc late t, clockReading s.clock now = .ok rtc → Seeds config s.track next →
      (late = false → s.track.lastSuccess = true) →
      t = { s with
        clock := s.clock.settle now
        track := { s.track with next := some next } } →
      Ensures (do
          modifyTrack fun t => { t with lastSuccess := false }
          let waitUntil ← attempt (add now kPollUs)
          modifyTrack fun t => { t with waitUntil := waitUntil }
          let target ← fromUs rtc
          if late = true ∧ next < target then
            beginFill target false
            fill config video none now onOutput
          else pure { wakeUs := waitUntil }) t Q E := by
    rintro next rtc late t hrtc hseed hlate rfl
    simp only [ensures_bind, ensures_modifyTrack, ensures_attempt, ensures_fromUs]
    refine ⟨fun waitUntil hwait => ⟨fun target htarget => ?_,
      fun e _ => hfail e _ (.inr ⟨next, hseed, rfl⟩) rfl rfl rfl rfl rfl rfl⟩,
      fun e _ => hfail e _ (.inr ⟨next, hseed, rfl⟩) rfl rfl rfl rfl rfl rfl⟩
    rw [ensures_ite]
    refine ⟨fun hfill => ?_, fun hidle => ?_⟩
    · rw [ensures_bind, beginFill, ensures_modifyTrack]
      exact h _ (.fill hrtc hseed hwait htarget hfill.2)
    · refine h _ (.idle hrtc hseed hwait htarget ?_)
      cases late with
      | false => exact .inl (hlate rfl)
      | true => exact .inr (not_lt.mp fun hlt => hidle ⟨rfl, hlt⟩)
  have seeded : ∀ next rtc t, clockReading s.clock now = .ok rtc → Seeds config s.track next →
      t = { s with
        clock := s.clock.settle now
        track := { s.track with next := some next } } →
      Ensures (do
          let track ← getTrack
          let next ← deref track.next
          let late ←
            if !track.lastSuccess then pure true
            else do
              let nextUs ← toUs next
              let behind ← attempt (subtract rtc nextUs)
              pure (decide (config.options.timeout < behind))
          modifyTrack fun t => { t with lastSuccess := false }
          let waitUntil ← attempt (add now kPollUs)
          modifyTrack fun t => { t with waitUntil := waitUntil }
          let target ← fromUs rtc
          if late = true ∧ next < target then
            beginFill target false
            fill config video none now onOutput
          else pure { wakeUs := waitUntil }) t Q E := by
    rintro next rtc t hrtc hseed rfl
    have hpoll := fun late hlate => poll next rtc late _ hrtc hseed hlate rfl
    have hlost := fun e => hfail e { s.track with next := some next } (.inr ⟨next, hseed, rfl⟩)
      rfl rfl rfl rfl rfl rfl
    simp only [ensures_bind, ensures_attempt, ensures_ite, ensures_pure] at hpoll
    simp only [ensures_bind, ensures_getTrack, ensures_deref, Option.some.injEq, forall_eq',
      reduceCtorEq, false_imp_iff, and_true, ensures_ite, Bool.not_eq_true', Bool.not_eq_false,
      ensures_pure, ensures_toUs, ensures_attempt]
    refine ⟨fun _ => ?_, fun hsuccess => ?_⟩
    · simpa only [true_and] using hpoll true (fun h => absurd h (by decide))
    · exact ⟨fun nextUs _ => ⟨fun behind _ => hpoll _ (fun _ => hsuccess), fun e _ => hlost e⟩,
        fun e _ => hlost e⟩
  simp only [ensures_bind] at seeded
  rw [timeoutStep, ensures_bind, ensures_clockNow]
  refine ⟨fun rtc hrtc => ?_, fun e _ => hsame e⟩
  rw [ensures_bind, ensures_getTrack]
  cases hnext : s.track.next with
  | none =>
    simp only [Option.isNone_none, if_true, ensures_bind, ensures_fromUs, ensures_modifyTrack]
    exact ⟨fun start hstart => seeded start rtc _ hrtc (.inr ⟨hnext, hstart⟩) rfl,
      fun e _ => hsame e⟩
  | some next =>
    have htrack : { s.track with next := some next } = s.track := by rw [← hnext]
    simp only [Option.isNone_some, Bool.false_eq_true, if_false, ensures_bind]
    exact seeded next rtc _ hrtc (.inl hnext) (by rw [htrack])

/-! ### What every plan keeps -/

/-- The state a decision is taken in. -/
def Decision.state : Decision → StepState
  | .done _ s' => s'
  | .real _ _ s' => s'
  | .fill _ s' => s'
  | .failed _ s' => s'

/-- No plan offers anything or sets `has_output` before its decision. -/
structure Unoffered (s s' : StepState) : Prop where
  offered : s'.offered = s.offered
  hasOutput : s'.track.hasOutput = s.track.hasOutput

omit [Libav] in
theorem Unoffered.trans {s₁ s₂ s₃ : StepState} (h₁ : Unoffered s₁ s₂) (h₂ : Unoffered s₂ s₃) :
    Unoffered s₁ s₃ :=
  ⟨h₂.offered.trans h₁.offered, h₂.hasOutput.trans h₁.hasOutput⟩

theorem FollowPlan.unoffered {input : AvDecoderReadResult} {original shared : ℤ} {s : StepState}
    {d : Decision} (h : FollowPlan config input original shared now s d) : Unoffered s d.state := by
  cases h with
  | failedJump e _ _ _ hline hoffered => exact ⟨hoffered, hline.hasOutput⟩
  | _ => exact ⟨rfl, rfl⟩

theorem BootstrapPlan.unoffered {input : AvDecoderReadResult} {original : ℤ} {s : StepState}
    {d : Decision} (h : BootstrapPlan input original now s d) : Unoffered s d.state := by
  cases h with
  | failed e hline hoffered => exact ⟨hoffered, hline.hasOutput⟩
  | anchored => exact ⟨rfl, rfl⟩

theorem Rebase.unoffered {timeBase : AVRational} {s s' : StepState} (h : Rebase video timeBase s s') :
    Unoffered s s' := by
  cases h <;> exact ⟨rfl, rfl⟩

theorem CorrectPlan.unoffered {input : AvDecoderReadResult} {s : StepState} {d : Decision}
    (h : CorrectPlan config video input now s d) : Unoffered s d.state := by
  cases h with
  | failedBase e _ hhalf => exact ⟨hhalf.offered, hhalf.hasOutput⟩
  | failedInput e hrebase => exact hrebase.unoffered
  | bootstrap hrebase _ _ _ hplan => exact hrebase.unoffered.trans hplan.unoffered
  | follow hrebase _ _ _ hplan => exact hrebase.unoffered.trans hplan.unoffered

theorem TimeoutPlan.unoffered {s : StepState} {d : Decision} (h : TimeoutPlan config now s d) :
    Unoffered s d.state := by
  cases h with
  | failed e _ _ hout _ _ _ _ _ hoffered => exact ⟨hoffered, hout⟩
  | _ => exact ⟨rfl, rfl⟩

/-! ### The step -/

/-- The state a suspended real frame is corrected in. -/
def resumed (s : StepState) : StepState := { s with track := { s.track with pendingRealPts := none } }

omit [Libav] in
theorem resumed_eq {s : StepState} (h : s.track.pendingRealPts = none) : resumed s = s := by
  have htrack : { s.track with pendingRealPts := none } = s.track := by rw [← h]
  rw [resumed, htrack]

/-- The ways through `step`. -/
inductive StepPlan (config : SyncerConfig) (video : Bool) (head : Option AvDecoderReadResult)
    (now : ℤ) (s : StepState) : Decision → Prop where
  | filling {target : ℤ} (hfill : s.track.fillUntil = some target) :
      StepPlan config video head now s (.fill head s)
  | suspended {pending : ℤ} (hfill : s.track.fillUntil = none)
      (hpending : s.track.pendingRealPts = some pending) (hearly : now < s.track.suspendedUntil) :
      StepPlan config video head now s (.done { wakeUs := s.track.suspendedUntil } s)
  | lostHead {pending : ℤ} (hfill : s.track.fillUntil = none)
      (hpending : s.track.pendingRealPts = some pending) (hhead : head = none) :
      StepPlan config video head now s
        (.failed .badOptional (resumed s))
  | resume {pending : ℤ} {input : AvDecoderReadResult} {d : Decision}
      (hfill : s.track.fillUntil = none) (hpending : s.track.pendingRealPts = some pending)
      (hdue : ¬now < s.track.suspendedUntil) (hhead : head = some input)
      (hplan : CorrectPlan config video input now (resumed s) d) :
      StepPlan config video head now s d
  | eof {input : AvDecoderReadResult} (hfill : s.track.fillUntil = none)
      (hpending : s.track.pendingRealPts = none) (hhead : head = some input)
      (heof : input.status = .eof) :
      StepPlan config video head now s (.done { consumed := true, wakeUs := now } s)
  | correct {input : AvDecoderReadResult} {d : Decision} (hfill : s.track.fillUntil = none)
      (hpending : s.track.pendingRealPts = none) (hhead : head = some input)
      (hframe : input.status ≠ .eof) (hplan : CorrectPlan config video input now s d) :
      StepPlan config video head now s d
  | waiting (hfill : s.track.fillUntil = none) (hpending : s.track.pendingRealPts = none)
      (hhead : head = none) (hearly : now < s.track.waitUntil) :
      StepPlan config video head now s (.done { wakeUs := s.track.waitUntil } s)
  | timeout {d : Decision} (hfill : s.track.fillUntil = none)
      (hpending : s.track.pendingRealPts = none) (hhead : head = none)
      (hdue : ¬now < s.track.waitUntil) (hplan : TimeoutPlan config now s d) :
      StepPlan config video head now s d

/-- **A step by plans.**  Whatever holds of every planned decision, carried out, holds of the step. -/
theorem step_ensures {head : Option AvDecoderReadResult} {s : StepState}
    (h : ∀ d, StepPlan config video head now s d → d.Ends config video now onOutput Q E) :
    Ensures (step config video head now onOutput) s Q E := by
  rw [step, ensures_bind, ensures_getTrack]
  cases hfill : s.track.fillUntil with
  | some target =>
    rw [Option.isSome_some, if_pos rfl]
    exact h _ (.filling hfill)
  | none =>
    rw [Option.isSome_none, if_neg (by decide)]
    cases hpending : s.track.pendingRealPts with
    | some pending =>
      rw [Option.isSome_some, if_pos rfl, ensures_ite]
      refine ⟨fun hearly => h _ (.suspended hfill hpending hearly), fun hdue => ?_⟩
      simp only [ensures_bind, ensures_modifyTrack, ensures_deref]
      refine ⟨fun input hhead => ?_, fun hhead => h _ (.lostHead hfill hpending hhead)⟩
      exact correct_ensures fun d hplan => h d (.resume hfill hpending hdue hhead hplan)
    | none =>
      rw [Option.isSome_none, if_neg (by decide)]
      cases head with
      | some input =>
        simp only [ensures_ite, ensures_pure]
        exact ⟨fun heof => h _ (.eof hfill hpending rfl heof), fun hframe =>
          correct_ensures fun d hplan => h d (.correct hfill hpending rfl hframe hplan)⟩
      | none =>
        simp only [ensures_ite, ensures_pure]
        exact ⟨fun hearly => h _ (.waiting hfill hpending rfl hearly), fun hdue =>
          timeoutStep_ensures fun d hplan => h d (.timeout hfill hpending rfl hdue hplan)⟩

theorem StepPlan.unoffered {head : Option AvDecoderReadResult} {s : StepState} {d : Decision}
    (h : StepPlan config video head now s d) : Unoffered s d.state := by
  cases h with
  | resume _ _ _ _ hplan => exact ⟨hplan.unoffered.offered, hplan.unoffered.hasOutput⟩
  | correct _ _ _ _ hplan => exact hplan.unoffered
  | timeout _ _ _ _ hplan => exact hplan.unoffered
  | _ => exact ⟨rfl, rfl⟩

/-- Only `Correct` puts up a real frame. -/
theorem StepPlan.real_corrects {head : Option AvDecoderReadResult} {input : AvDecoderReadResult}
    {pts : ℤ} {s s' : StepState} (h : StepPlan config video head now s (.real input pts s')) :
    s.track.fillUntil = none ∧ head = some input ∧
      CorrectPlan config video input now (resumed s) (.real input pts s') := by
  have same : ∀ {input'}, CorrectPlan config video input' now (resumed s) (.real input pts s') →
      input' = input := by
    intro input' hcorrect
    cases hcorrect with
    | bootstrap _ _ _ _ hplan => cases hplan; rfl
    | follow _ _ _ _ hplan => cases hplan <;> rfl
  cases h with
  | resume hfill _ _ hhead hplan =>
    obtain rfl := same hplan
    exact ⟨hfill, hhead, hplan⟩
  | correct hfill hpending hhead _ hplan =>
    rw [← resumed_eq hpending] at hplan
    obtain rfl := same hplan
    exact ⟨hfill, hhead, hplan⟩
  | timeout _ _ _ _ hplan => cases hplan

/-- A filler continues an open batch, or opens one for a forward jump or for a timeout. -/
theorem StepPlan.fill_cases {head input : Option AvDecoderReadResult} {s s' : StepState}
    (h : StepPlan config video head now s (.fill input s')) :
    (s' = s ∧ input = head ∧ s.track.fillUntil.isSome) ∨
    (∃ real, head = some real ∧ input = head ∧ s.track.fillUntil = none ∧
      CorrectPlan config video real now (resumed s) (.fill input s')) ∨
    (head = none ∧ input = none ∧ s.track.fillUntil = none ∧ s.track.pendingRealPts = none ∧
      ¬now < s.track.waitUntil ∧ TimeoutPlan config now s (.fill input s')) := by
  have same : ∀ {real}, CorrectPlan config video real now (resumed s) (.fill input s') →
      input = some real := by
    intro real hcorrect
    cases hcorrect with
    | bootstrap _ _ _ _ hplan => cases hplan
    | follow _ _ _ _ hplan => cases hplan; rfl
  cases h with
  | filling hfill => exact .inl ⟨rfl, rfl, by rw [hfill]; rfl⟩
  | resume hfill _ _ hhead hplan => exact .inr (.inl ⟨_, hhead, by rw [same hplan, hhead], hfill, hplan⟩)
  | correct hfill hpending hhead _ hplan =>
    rw [← resumed_eq hpending] at hplan
    exact .inr (.inl ⟨_, hhead, by rw [same hplan, hhead], hfill, hplan⟩)
  | timeout hfill hpending hhead hdue hplan =>
    refine .inr (.inr ⟨hhead, ?_, hfill, hpending, hdue, hplan⟩)
    cases hplan
    rfl

/-- Carrying a decision out ends in one of its ends. -/
theorem Decision.ends (d : Decision) :
    d.Ends config video now onOutput (fun r s' => d.End config video now (.ok r) s')
      (fun e s' => d.End config video now (.error e) s') := by
  cases d with
  | done result s' => exact .done result s'
  | real input pts s =>
    exact (real_ends config video input pts now onOutput s).mono (fun _ _ => .real) fun _ _ => .real
  | fill input s =>
    exact (fill_ends config video input now onOutput s).mono (fun _ _ => .fill) fun _ _ => .fill
  | failed e s' => exact .failed e s'

/-- How `step` ends: one of its plans, carried out. -/
def StepEnd (config : SyncerConfig) (video : Bool) (head : Option AvDecoderReadResult) (now : ℤ)
    (s : StepState) (r : Except Exception SyncerStep) (s' : StepState) : Prop :=
  ∃ d, StepPlan config video head now s d ∧ d.End config video now r s'

/-- **Every step ends in the end of one of its plans.** -/
theorem step_ends (config : SyncerConfig) (video : Bool) (head : Option AvDecoderReadResult)
    (now : ℤ) (onOutput : OnOutput) (s : StepState) :
    Ensures (step config video head now onOutput) s
      (fun r s' => StepEnd config video head now s (.ok r) s')
      (fun e s' => StepEnd config video head now s (.error e) s') := by
  apply step_ensures
  intro d hplan
  have hends : d.Ends config video now onOutput _ _ := d.ends
  cases d with
  | done result s' => exact ⟨_, hplan, hends⟩
  | real input pts s => exact Ensures.mono hends (fun _ _ h => ⟨_, hplan, h⟩) fun _ _ h => ⟨_, hplan, h⟩
  | fill input s => exact Ensures.mono hends (fun _ _ h => ⟨_, hplan, h⟩) fun _ _ h => ⟨_, hplan, h⟩
  | failed e s' => exact ⟨_, hplan, hends⟩

end SyncerTiming

end MwStreamer
