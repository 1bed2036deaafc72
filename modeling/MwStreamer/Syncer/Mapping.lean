import MwStreamer.Syncer.Continuity

/-!
# Real frames keep the shared mapping

A real frame is mapped by the local shift of its track.  When it is accepted, that shift is tied to the
shared one in one of three ways: the shared shift was published from it, it lies within the tolerance, or
it was adopted from the shared shift for the first time.  The bounds follow from the tie alone.
-/

namespace MwStreamer

open StateExcept Rounding

variable [Libav]

namespace SyncerTiming

variable {config : SyncerConfig} {video : Bool} {head : Option AvDecoderReadResult} {now : ℤ}
  {s s' : StepState} {r : Except Exception SyncerStep}

/-! ### Corrections -/

/-- The local shift is out of tolerance. -/
def Desync (config : SyncerConfig) (track : Track) (shared : ℤ) : Prop :=
  ∃ old, track.shift = some old ∧
    config.options.maxStreamsDiff < |avRescaleQ old track.timeBase kMicroseconds - shared|

/-- A mapped timestamp that is not the expected one and not near it either. -/
def Discontinuous (config : SyncerConfig) (track : Track) (pts : ℤ) : Prop :=
  ∃ next, track.next = some next ∧ pts ≠ next ∧ ¬Near config track.timeBase pts next

/-- The real frame was mapped by `shift` and found out of tolerance, in the shift or in the result. -/
def Corrected (config : SyncerConfig) (s : StepState) (original : ℤ) : Prop :=
  ∃ shared, s.clock.shift = some shared ∧ (Desync config s.track shared ∨
    ∃ shift, s.track.shift = some shift ∧ Discontinuous config s.track (original + shift))

/-- The plan measured the desynchronisation. -/
theorem Adopts.desync_iff {track : Track} {shared shift : ℤ} {desync : Bool}
    (h : Adopts config track shared desync shift) :
    desync = true ↔ Desync config track shared := by
  rcases h.desync_eq with ⟨hnone, rfl⟩ | ⟨old, us, tolerance, hold, hus, htolerance, hapart⟩
  · simp [Desync, hnone]
  · rw [apart_ok hapart, rescale_ok hus, add_ok htolerance, decide_eq_true_iff, Desync]
    constructor
    · intro hfar
      refine ⟨old, hold, ?_⟩
      rw [lt_abs]
      omega
    · rintro ⟨old', hold', hfar⟩
      rw [hold] at hold'
      cases hold'
      rw [lt_abs] at hfar
      omega

theorem Jumps.discontinuous_iff {track : Track} {pts : ℤ} {jump : Bool} (h : Jumps config track pts jump) :
    jump = true ↔ Discontinuous config track pts := by
  rcases h with ⟨hnone, rfl⟩ | ⟨heq, rfl⟩ | ⟨next, a, b, hnext, hne, ha, hb, hapart⟩
  · simp [Discontinuous, hnone]
  · simp [Discontinuous, heq]
  · rw [apart_ok hapart, rescale_ok ha, rescale_ok hb, decide_eq_true_iff]
    have hnear : Near config track.timeBase pts next ↔
        ¬(config.options.maxStreamsDiff ≤ avRescaleQ pts track.timeBase kMicroseconds
            - avRescaleQ next track.timeBase kMicroseconds ∨
          avRescaleQ pts track.timeBase kMicroseconds
            - avRescaleQ next track.timeBase kMicroseconds ≤ -config.options.maxStreamsDiff) := by
      rw [Near, abs_lt]
      omega
    constructor
    · exact fun hfar => ⟨next, hnext, hne, fun hn => hnear.mp hn hfar⟩
    · rintro ⟨next', hnext', -, hfar⟩
      rw [hnext] at hnext'
      cases hnext'
      exact not_not.mp fun hn => hfar (hnear.mpr hn)

/-! ### The tie between the two shifts -/

/-- How the shift of an accepted real frame is tied to the shared one. -/
inductive Tied (config : SyncerConfig) (s : StepState) (original : ℤ) (shift shared : ℤ) : Prop where
  /-- The shared shift was published from the local one. -/
  | published (hshared : rescale shift s.track.timeBase kMicroseconds = .ok shared)
  /-- Neither shift moved. -/
  | kept (us : ℤ) (hshift : s.track.shift = some shift) (hclock : s.clock.shift = some shared)
      (hus : rescale shift s.track.timeBase kMicroseconds = .ok us)
      (hwithin : |us - shared| ≤ config.options.maxStreamsDiff)
      (hfine : ¬Corrected config s original)
  /-- The first adoption of the shared shift. -/
  | adopted (hnone : s.track.shift = none) (hclock : s.clock.shift = some shared)
      (hshift : rescale shared kMicroseconds s.track.timeBase = .ok shift)

/-- A real frame reaches its admission mapped by a tied shift. -/
structure Mapped (config : SyncerConfig) (s s' : StepState) (original pts : ℤ) : Prop where
  timeBase : s'.track.timeBase = s.track.timeBase
  tied : ∃ shift shared, s'.track.shift = some shift ∧ s'.clock.shift = some shared ∧
    pts = original + shift ∧ Tied config s original shift shared

theorem FollowPlan.mapped {input offered : AvDecoderReadResult} {original shared pts : ℤ}
    (hclock : s.clock.shift = some shared)
    (h : FollowPlan config input original shared now s (.real offered pts s')) :
    Mapped config s s' original pts := by
  cases h with
  | backward hadopt hpts hjump hnext hbehind hshift hshared =>
    refine ⟨rfl, _, _, rfl, rfl, ?_, .published hshared⟩
    rw [subtract_ok hshift]
    omega
  | @continuous desync shift _ shared' hadopt hpts hjump hshared =>
    refine ⟨rfl, shift, shared', rfl, rfl, add_ok hpts, ?_⟩
    have hdesync := hadopt.desync_iff
    have hadopted := hadopt.shift_eq
    cases desync with
    | true => exact .published (by rwa [if_pos rfl] at hshared)
    | false =>
      rw [if_neg (by decide)] at hshared
      subst hshared
      cases hold : s.track.shift with
      | none => exact .adopted hold hclock (by simpa [hold] using hadopted)
      | some old =>
        obtain rfl : old = shift := by simpa [hold] using hadopted
        rcases hadopt.desync_eq with ⟨hnone, -⟩ | ⟨_, us, tolerance, hsome, hus, htolerance, hapart⟩
        · rw [hold] at hnone; cases hnone
        · rw [hold] at hsome
          cases hsome
          refine .kept us hold hclock hus ?_ ?_
          · have hin := apart_ok hapart
            rw [add_ok htolerance] at hin
            simp only [Bool.false_eq, decide_eq_false_iff_not, not_or, not_le] at hin
            rw [abs_le]
            omega
          · rintro ⟨shared, hshared, hfar | ⟨shift, hshift, hfar⟩⟩
            · rw [hclock] at hshared
              cases hshared
              exact absurd (hdesync.mpr hfar) (by decide)
            · rw [hold] at hshift
              cases hshift
              rw [← add_ok hpts] at hfar
              exact absurd (hjump.discontinuous_iff.mpr hfar) (by decide)

theorem BootstrapPlan.mapped {input offered : AvDecoderReadResult} {original pts : ℤ}
    (h : BootstrapPlan input original now s (.real offered pts s')) :
    Mapped config s s' original pts := by
  cases h with
  | anchored _ _ _ hshift hshared =>
    refine ⟨rfl, _, _, rfl, rfl, ?_, .published hshared⟩
    rw [subtract_ok hshift]
    omega

/-- **A real frame is put up through a tied shift.** -/
theorem CorrectPlan.mapped {input offered : AvDecoderReadResult} {pts : ℤ}
    (h : CorrectPlan config video input now s (.real offered pts s')) :
    ∃ s₁ frame original, Rebase video input.timeBase s s₁ ∧ input.frame = some frame ∧
      rescale frame.pts input.timeBase s₁.track.timeBase = .ok original ∧
      Mapped config s₁ s' original pts := by
  cases h with
  | bootstrap hrebase hframe horiginal _ hplan =>
    exact ⟨_, _, _, hrebase, hframe, horiginal, hplan.mapped⟩
  | follow hrebase hframe horiginal hclock hplan =>
    exact ⟨_, _, _, hrebase, hframe, horiginal, hplan.mapped hclock⟩

/-- The admission of a real frame leaves both shifts alone. -/
theorem RealEnd.shifts {input : AvDecoderReadResult} {pts : ℤ}
    (h : RealEnd config video input pts now s r s') :
    s'.track.shift = s.track.shift ∧ s'.clock.shift = s.clock.shift := by
  cases h with
  | overflowed e track _ _ _ htrack =>
    rcases htrack with ⟨rfl, -⟩ | ⟨next, -, rfl⟩
    · exact ⟨rfl, s.clock.update_shift _ _⟩
    · exact ⟨rfl, s.clock.update_shift _ _⟩
  | failed => exact ⟨rfl, rfl⟩
  | _ => exact ⟨rfl, s.clock.update_shift _ _⟩

/-! ### What a tie bounds -/

/-- How far the mapping by `shift` ticks is from the one by `shared` microseconds, exactly: in microseconds
times the denominator of the time base. -/
def deviation (timeBase : AVRational) (shift shared : ℤ) : ℤ :=
  shift * (timeBase.num * 1000000) - shared * timeBase.den

theorem deviation_le_of_rescale {timeBase : AVRational} (hbase : timeBase.Positive) {shift us : ℤ}
    (h : rescale shift timeBase kMicroseconds = .ok us) :
    2 * |deviation timeBase shift us| ≤ timeBase.den := by
  obtain ⟨hus, -⟩ := (rescaleChecked_ok_iff hbase (by decide)).mp h
  have hscaled : us = roundNear (shift * (timeBase.num * 1000000)) timeBase.den := by
    rw [hus, scaled]
    simp [kMicroseconds]
  rw [deviation, hscaled, Int.mul_comm (roundNear _ _)]
  exact roundNear_abs_error hbase.2

theorem deviation_le_of_adopt {timeBase : AVRational} (hbase : timeBase.Positive) {shift shared : ℤ}
    (h : rescale shared kMicroseconds timeBase = .ok shift) :
    2 * |deviation timeBase shift shared| ≤ timeBase.num * 1000000 := by
  obtain ⟨hshift, -⟩ := (rescaleChecked_ok_iff (by decide) hbase).mp h
  have hscaled : shift = roundNear (shared * timeBase.den) (timeBase.num * 1000000) := by
    rw [hshift, scaled]
    simp [kMicroseconds, Int.mul_comm]
  have hd : 0 < timeBase.num * 1000000 := Int.mul_pos hbase.1 (by decide)
  rw [deviation, hscaled, abs_sub_comm, Int.mul_comm (roundNear _ _)]
  exact roundNear_abs_error hd

/-- A tolerance in microseconds bounds the exact deviation up to half a microsecond. -/
theorem deviation_le_of_within {timeBase : AVRational} (hbase : timeBase.Positive)
    {shift us shared bound : ℤ} (h : rescale shift timeBase kMicroseconds = .ok us)
    (hwithin : |us - shared| ≤ bound) :
    2 * |deviation timeBase shift shared| ≤ (2 * bound + 1) * timeBase.den := by
  have hround := deviation_le_of_rescale hbase h
  have hsplit : deviation timeBase shift shared
      = deviation timeBase shift us + (us - shared) * timeBase.den := by
    unfold deviation
    ring
  have hscale : |(us - shared) * timeBase.den| ≤ bound * timeBase.den := by
    rw [abs_le] at hwithin ⊢
    have hden := hbase.2
    constructor <;> nlinarith
  have htriangle := abs_add_le (deviation timeBase shift us) ((us - shared) * timeBase.den)
  rw [← hsplit] at htriangle
  linarith

/-! ### One step -/

theorem Rebase.shift_none {timeBase : AVRational} (h : Rebase video timeBase s s') :
    s'.track.shift = none ↔ s.track.shift = none := by
  cases h with
  | same => exact Iff.rfl
  | changed _ _ hshift =>
    rcases hshift with ⟨hold, hnew⟩ | ⟨v, r, hold, hnew, -⟩
    · simp [hold, hnew]
    · simp [hold, hnew]

/-- **The mapping of one step.** -/
theorem StepEnd.mapped (h : StepEnd config video head now s r s') (hs : s.offered = []) {o : Offer}
    (ho : o ∈ s'.offered) (hreal : o.source = .input) :
    ∃ input frame s₁ original, head = some input ∧ input.frame = some frame ∧
      Rebase video input.timeBase (resumed s) s₁ ∧
      rescale frame.pts input.timeBase s'.track.timeBase = .ok original ∧
      Mapped config s₁ s' original o.frame.pts := by
  obtain ⟨d, hplan, hend⟩ := h
  have hoffered := hplan.unoffered.offered
  rw [hs] at hoffered
  cases hend with
  | done => rw [show s'.offered = [] from hoffered] at ho; cases ho
  | failed e => rw [show s'.offered = [] from hoffered] at ho; cases ho
  | fill hfill => exact absurd hreal (hfill.lands hoffered ho).1
  | real hend =>
    obtain ⟨-, rfl, hcorrect⟩ := hplan.real_corrects
    obtain ⟨s₁, frame, original, hrebase, hframe, horiginal, hmapped⟩ := hcorrect.mapped
    obtain ⟨hshift, hclock⟩ := hend.shifts
    rw [← (hend.lands hoffered ho).2.1] at hmapped
    refine ⟨_, frame, s₁, original, rfl, hframe, hrebase, ?_, ?_, ?_⟩
    · rw [hend.timeBase, hmapped.timeBase]
      exact horiginal
    · rw [hend.timeBase, hmapped.timeBase]
    · rw [hshift, hclock]
      exact hmapped.tied

end SyncerTiming

namespace Session

open SyncerTiming

variable {config : SyncerConfig} {session : Session} {call : StepCall}

/-- **Real frames keep the shared mapping.**  An accepted real frame is its input, in the unit of the
track, moved by the local shift.  A track that had a shift before ends within the tolerance of the shared
one, and equal to it after any correction; a first adoption is off by at most half a tick. -/
theorem shared_mapping (hreach : (system config fun _ => True).Reachable session)
    (hadmissible : session.Admissible call) {o : Offer} (ho : o ∈ (session.outcome call).offered)
    (hreal : o.source = .input) :
    ∃ input frame s₁ original shift shared, call.head = some input ∧ input.frame = some frame ∧
      -- The state the frame was corrected in, after a possible change of the time base.
      Rebase call.video input.timeBase (resumed (session.view call.video)) s₁ ∧
      rescale frame.pts input.timeBase (session.trackAfter call).timeBase = .ok original ∧
      (session.trackAfter call).shift = some shift ∧
      (session.after call).clock.shift = some shared ∧ o.frame.pts = original + shift ∧
      ((session.track call.video).shift ≠ none →
        |avRescaleQ shift (session.trackAfter call).timeBase kMicroseconds - shared|
            ≤ config.options.maxStreamsDiff ∧
        2 * |deviation (session.trackAfter call).timeBase shift shared|
            ≤ (2 * config.options.maxStreamsDiff + 1) * (session.trackAfter call).timeBase.den ∧
        (Corrected session.config s₁ original →
          avRescaleQ shift (session.trackAfter call).timeBase kMicroseconds = shared)) ∧
      ((session.track call.video).shift = none →
        2 * |deviation (session.trackAfter call).timeBase shift shared|
          ≤ (session.trackAfter call).timeBase.num * 1000000 + (session.trackAfter call).timeBase.den) := by
  obtain ⟨final, hcalls⟩ := session.calls hadmissible
  have hoptions := (configured hreach).options
  have hdiff := (valid hreach).maxStreamsDiff
  have hbase := timeBase_positive (.step hreach ⟨call, hadmissible, trivial, rfl, rfl⟩) call.video
  rw [hcalls.offered] at ho
  obtain ⟨input, frame, s₁, original, hhead, hframe, hrebase, horiginal, hsame,
    shift, shared, hshift, hclock, hpts, htied⟩ := hcalls.ends.mapped rfl ho hreal
  have hnone : s₁.track.shift = none ↔ (session.track call.video).shift = none := hrebase.shift_none
  rw [trackAfter, hcalls.track]
  rw [hcalls.track] at hbase
  rw [hcalls.clock]
  refine ⟨input, frame, s₁, original, shift, shared, hhead, hframe, hrebase, horiginal, hshift, hclock,
    hpts, fun hhad => ?_, fun hfirst => ?_⟩
  · cases htied with
    | published hshared =>
      rw [← hsame] at hshared
      have hround := deviation_le_of_rescale hbase hshared
      rw [← rescale_ok hshared, sub_self, abs_zero]
      have hden := hbase.2
      exact ⟨hdiff.le, by nlinarith, fun _ => rfl⟩
    | kept us _ _ hus hwithin hfine =>
      rw [← hsame] at hus
      rw [hoptions] at hwithin
      rw [← rescale_ok hus]
      exact ⟨hwithin, deviation_le_of_within hbase hus hwithin, fun h => absurd h hfine⟩
    | adopted hfirst => exact absurd (hnone.mp hfirst) hhad
  · cases htied with
    | published hshared =>
      rw [← hsame] at hshared
      have hround := deviation_le_of_rescale hbase hshared
      have hnum := hbase.1
      omega
    | kept us hsome =>
      rw [hnone.mpr hfirst] at hsome
      cases hsome
    | adopted _ _ hadopted =>
      rw [← hsame] at hadopted
      have hround := deviation_le_of_adopt hbase hadopted
      have hden := hbase.2
      omega

end Session

end MwStreamer

namespace MwStreamer.Session

open SyncerTiming

attribute [local instance] Libav.reference

/-- Both default tracks at 25 pictures a second. -/
def avConfig : SyncerConfig := { encoder := { fps := ⟨25, 1⟩, width := 2, height := 2, videoPixelFormat := 0 } }

/-- The picture of slot `pts`, offered to an accepting caller. -/
def pictureCall (pts : ℤ) : StepCall :=
  { video := true, head := some (videoInput ⟨25, 1⟩ pts), now := 0, onOutput := none }

/-- Both sources jump back by a picture or a block.  The audio moves the shared shift by 21.333 ms and the
video, which has no such tick, follows and publishes its own 40 ms. -/
theorem shared_mapping_follows : ∃ session : Session,
    (session.track true).shift = some 0 ∧ session.clock.shift = some 21333 ∧
    ∃ o ∈ (session.outcome (pictureCall 0)).offered, ∃ shift shared,
      (session.trackAfter (pictureCall 0)).shift = some shift ∧
      (session.after (pictureCall 0)).clock.shift = some shared ∧
      |avRescaleQ shift (session.trackAfter (pictureCall 0)).timeBase kMicroseconds - shared| ≤ 1000 := by
  have hrun : ∃ session ∈ playback avConfig (fun _ => True)
      [blockCall 48000 0, pictureCall 0, blockCall 48000 0],
      session.Admissible (pictureCall 0) ∧ (session.track true).shift = some 0 ∧
      session.clock.shift = some 21333 ∧
      ∃ o ∈ (session.outcome (pictureCall 0)).offered, o.source = .input := by
    decide +kernel
  obtain ⟨session, hplay, hadmissible, hshift, hclock, o, ho, hreal⟩ := hrun
  obtain ⟨_, _, _, _, shift, shared, -, -, -, -, hshift', hclock', -, hwithin, -⟩ :=
    shared_mapping (playback_reachable hplay) hadmissible ho hreal
  have hhad : (session.track true).shift ≠ none := by rw [hshift]; exact Option.some_ne_none _
  exact ⟨session, hshift, hclock, o, ho, shift, shared, hshift', hclock', (hwithin hhad).1⟩

end MwStreamer.Session
