import MwStreamer.Syncer.Invariants

/-!
# The output has no gaps

Once the shared shift exists, everything a track accepts starts next to its expected timestamp: a filler
exactly there, a real frame less than `max_streams_diff` away.  The argument is local to one step.  A plan
that reaches the admission of a real frame either measured the distance itself (`Jumps`) or moved the frame
to the expected timestamp, and a filler is stamped from it.
-/

namespace MwStreamer

open StateExcept

variable [Libav]

namespace SyncerTiming

/-! ### What an admission leaves -/

/-- Where an accepted output leaves the expected timestamp: at its end, unless that is no `int64_t`. -/
def Lands (o : Offer) (r : Except Exception SyncerStep) (track : Track) : Prop :=
  track.next = some (o.frame.pts + o.frame.duration) ∨
    (int64Max < o.frame.pts + o.frame.duration ∨ o.frame.pts + o.frame.duration < int64Min) ∧
      r = .error (.overflowError "Syncer 时间计算溢出")

theorem RealEnd.lands {config : SyncerConfig} {video : Bool} {input : AvDecoderReadResult}
    {pts now : ℤ} {s s' : StepState} {r : Except Exception SyncerStep}
    (h : RealEnd config video input pts now s r s') (hs : s.offered = []) {o : Offer}
    (ho : o ∈ s'.offered) :
    o.source = .input ∧ o.frame.pts = pts ∧ (o.answer = .accept → Lands o r s'.track) := by
  cases h with
  | failed e => rw [hs] at ho; cases ho
  | threw =>
    rw [hs, List.nil_append, List.mem_singleton] at ho
    subst ho
    exact ⟨rfl, rfl, nofun⟩
  | rejected =>
    rw [hs, List.nil_append, List.mem_singleton] at ho
    subst ho
    exact ⟨rfl, rfl, nofun⟩
  | accepted _ _ _ hnext _ =>
    rw [hs, List.nil_append, List.mem_singleton] at ho
    subst ho
    refine ⟨rfl, rfl, fun _ => .inl ?_⟩
    rw [add_ok hnext]
    rfl
  | overflowed e track _ _ _ htrack =>
    rw [hs, List.nil_append, List.mem_singleton] at ho
    subst ho
    refine ⟨rfl, rfl, fun _ => ?_⟩
    rcases htrack with ⟨rfl, herror⟩ | ⟨next, hnext, rfl⟩
    · obtain ⟨rfl, hout⟩ := add_error herror
      exact .inr ⟨hout, rfl⟩
    · rw [add_ok hnext]
      exact .inl rfl

/-- Finishing a batch leaves the expected timestamp and the offers alone. -/
theorem FinishEnd.next {input : Option AvDecoderReadResult} {lastPts now : ℤ} {blocked : Bool}
    {s s' : StepState} {r : Except Exception ℤ} (h : FinishEnd input lastPts now blocked s r s') :
    s'.track.next = s.track.next ∧ s'.track.hasOutput = s.track.hasOutput ∧
      s'.offered = s.offered := by
  cases h with
  | failed e _ hline hoffered => exact ⟨hline.next, hline.hasOutput, hoffered⟩
  | timeout => exact ⟨rfl, rfl, rfl⟩
  | forward => exact ⟨rfl, rfl, rfl⟩

theorem FillEnd.lands {config : SyncerConfig} {video : Bool} {input : Option AvDecoderReadResult}
    {now : ℤ} {s s' : StepState} {r : Except Exception SyncerStep}
    (h : FillEnd config video input now s r s') (hs : s.offered = []) {o : Offer}
    (ho : o ∈ s'.offered) :
    o.source ≠ .input ∧ s.track.next = some o.frame.pts ∧
      (o.answer = .accept → Lands o r s'.track) := by
  have filler : ∀ {pts target duration frame source answer},
      Filler config video s pts target frame source duration →
      o ∈ s.offered ++ [⟨frame, source, answer⟩] →
      o = ⟨frame, source, answer⟩ ∧ source ≠ .input ∧ s.track.next = some frame.pts ∧
        frame.pts = pts ∧ frame.duration = duration := by
    intro pts target duration frame source answer hfiller hmem
    rw [hs, List.nil_append, List.mem_singleton] at hmem
    obtain ⟨count, spare, -, hspare, -, rfl⟩ := hfiller.made
    exact ⟨hmem, hspare.not_input, hfiller.at_next, rfl, rfl⟩
  cases h with
  | failed e => rw [hs] at ho; cases ho
  | threw hfiller =>
    obtain ⟨rfl, hsource, hnext, -⟩ := filler hfiller ho
    exact ⟨hsource, hnext, nofun⟩
  | rejected hfiller hfinish =>
    rw [hfinish.next.2.2] at ho
    obtain ⟨rfl, hsource, hnext, -⟩ := filler hfiller ho
    exact ⟨hsource, hnext, nofun⟩
  | overflowed e track hfiller htrack =>
    obtain ⟨rfl, hsource, hnext, hpts, hduration⟩ := filler hfiller ho
    refine ⟨hsource, hnext, fun _ => ?_⟩
    unfold Lands
    rw [hpts, hduration]
    rcases htrack with ⟨rfl, herror⟩ | ⟨next, hadd, rfl⟩
    · obtain ⟨rfl, hout⟩ := add_error herror
      exact .inr ⟨hout, rfl⟩
    · rw [← add_ok hadd]
      exact .inl rfl
  | accepted hfiller hadd _ =>
    obtain ⟨rfl, hsource, hnext, hpts, hduration⟩ := filler hfiller ho
    refine ⟨hsource, hnext, fun _ => .inl ?_⟩
    rw [hpts, hduration, ← add_ok hadd]
    rfl
  | finished hfiller hadd _ hfinish =>
    rw [hfinish.next.2.2] at ho
    obtain ⟨rfl, hsource, hnext, hpts, hduration⟩ := filler hfiller ho
    refine ⟨hsource, hnext, fun _ => .inl ?_⟩
    rw [hfinish.next.1, hpts, hduration, ← add_ok hadd]
    rfl

/-! ### Where an admission happens -/

/-- Less than the tolerance apart after conversion to microseconds. -/
def Near (config : SyncerConfig) (timeBase : AVRational) (a b : ℤ) : Prop :=
  |avRescaleQ a timeBase kMicroseconds - avRescaleQ b timeBase kMicroseconds|
    < config.options.maxStreamsDiff

theorem near_self {config : SyncerConfig} (hdiff : 0 < config.options.maxStreamsDiff)
    (timeBase : AVRational) (a : ℤ) : Near config timeBase a a := by
  rw [Near, sub_self, abs_zero]
  exact hdiff

/-- A mapped timestamp that is no discontinuity is near the expected one. -/
theorem Jumps.near {config : SyncerConfig} {track : Track} {pts next : ℤ}
    (hdiff : 0 < config.options.maxStreamsDiff) (h : Jumps config track pts false)
    (hnext : track.next = some next) : Near config track.timeBase pts next := by
  rcases h with ⟨hnone, -⟩ | ⟨heq, -⟩ | ⟨next', a, b, hnext', -, ha, hb, hapart⟩
  · rw [hnext] at hnone; cases hnone
  · rw [hnext] at heq
    cases heq
    exact near_self hdiff track.timeBase pts
  · rw [hnext] at hnext'
    cases hnext'
    have hfar := apart_ok hapart
    rw [Near, ← rescale_ok ha, ← rescale_ok hb, abs_lt]
    simp only [Bool.false_eq, decide_eq_false_iff_not, not_or, not_le] at hfar
    omega

/-- **Real frames are put up near the expected timestamp.** -/
theorem FollowPlan.real_near {config : SyncerConfig} {input offered : AvDecoderReadResult}
    {original shared now pts : ℤ} {s s' : StepState} (hdiff : 0 < config.options.maxStreamsDiff)
    (h : FollowPlan config input original shared now s (.real offered pts s')) {next : ℤ}
    (hnext : s.track.next = some next) : Near config s.track.timeBase pts next := by
  cases h with
  | continuous _ _ hjump _ => exact hjump.near hdiff hnext
  | backward _ _ _ hnext' _ _ _ =>
    rw [hnext] at hnext'
    cases hnext'
    exact near_self hdiff s.track.timeBase pts

theorem CorrectPlan.real_near {config : SyncerConfig} {video : Bool} {input offered : AvDecoderReadResult}
    {now pts : ℤ} {s s' : StepState} (hdiff : 0 < config.options.maxStreamsDiff)
    (hshift : s.clock.shift ≠ none) (hsame : SameBase video (some input) s.track)
    (h : CorrectPlan config video input now s (.real offered pts s')) {next : ℤ}
    (hnext : s.track.next = some next) : Near config s.track.timeBase pts next := by
  cases h with
  | bootstrap hrebase hframe _ hclock _ =>
    rw [hrebase.eq_of_same hframe hsame] at hclock
    exact absurd hclock hshift
  | follow hrebase hframe _ _ hplan =>
    obtain rfl := hrebase.eq_of_same hframe hsame
    exact hplan.real_near hdiff hnext

/-- **Fillers are put up at the expected timestamp.** -/
theorem StepPlan.fill_at {config : SyncerConfig} {video : Bool} {head input : Option AvDecoderReadResult}
    {now : ℤ} {s s' : StepState} (hsame : SameBase video head s.track)
    (h : StepPlan config video head now s (.fill input s')) {next : ℤ}
    (hnext : s.track.next = some next) : s'.track.next = some next := by
  rcases h.fill_cases with ⟨rfl, -⟩ | ⟨real, rfl, -, -, hcorrect⟩ | ⟨-, -, -, -, -, htimeout⟩
  · exact hnext
  · cases hcorrect with
    | bootstrap _ _ _ _ hplan => cases hplan
    | follow hrebase hframe _ _ hplan =>
      obtain rfl := hrebase.eq_of_same hframe hsame
      cases hplan
      exact hnext
  · cases htimeout with
    | fill _ hseed _ _ _ =>
      rcases hseed with hnext' | ⟨hnone, -⟩
      · rw [← hnext, hnext']
        rfl
      · rw [hnext] at hnone; cases hnone

/-- An accepted output moves the expected timestamp to its end. -/
theorem StepEnd.lands {config : SyncerConfig} {video : Bool} {head : Option AvDecoderReadResult}
    {now : ℤ} {s s' : StepState} {r : Except Exception SyncerStep} (hs : s.offered = [])
    (h : StepEnd config video head now s r s') {o : Offer} (ho : o ∈ s'.offered)
    (haccept : o.answer = .accept) : Lands o r s'.track := by
  obtain ⟨d, hplan, hend⟩ := h
  have hoffered := hplan.unoffered.offered.trans hs
  cases hend with
  | done => rw [show s'.offered = [] from hoffered] at ho; cases ho
  | failed e => rw [show s'.offered = [] from hoffered] at ho; cases ho
  | real hreal => exact (hreal.lands hoffered ho).2.2 haccept
  | fill hfill => exact (hfill.lands hoffered ho).2.2 haccept

/-- **Continuity of one step.**  With the shared shift established, every output is put up near the expected
timestamp, a filler exactly at it. -/
theorem StepEnd.continuous {config : SyncerConfig} {video : Bool} {head : Option AvDecoderReadResult}
    {now : ℤ} {s s' : StepState} {r : Except Exception SyncerStep}
    (hdiff : 0 < config.options.maxStreamsDiff) (hs : s.offered = []) (hshift : s.clock.shift ≠ none)
    (hsame : SameBase video head s.track) (h : StepEnd config video head now s r s') {o : Offer}
    (ho : o ∈ s'.offered) {next : ℤ} (hnext : s.track.next = some next) :
    Near config s.track.timeBase o.frame.pts next ∧ (o.source ≠ .input → o.frame.pts = next) := by
  obtain ⟨d, hplan, hend⟩ := h
  have hoffered := hplan.unoffered.offered.trans hs
  cases hend with
  | done => rw [show s'.offered = [] from hoffered] at ho; cases ho
  | failed e => rw [show s'.offered = [] from hoffered] at ho; cases ho
  | real hreal =>
    obtain ⟨hinput, hpts, -⟩ := hreal.lands hoffered ho
    refine ⟨?_, fun hfiller => absurd hinput hfiller⟩
    obtain ⟨-, rfl, hcorrect⟩ := hplan.real_corrects
    rw [hpts]
    exact CorrectPlan.real_near (s := resumed s) hdiff hshift hsame hcorrect hnext
  | fill hfill =>
    obtain ⟨hfiller, hat, -⟩ := hfill.lands hoffered ho
    rw [hplan.fill_at hsame hnext] at hat
    cases hat
    exact ⟨near_self hdiff _ _, fun _ => rfl⟩

end SyncerTiming

namespace Session

open SyncerTiming

variable {config : SyncerConfig} {session : Session} {call : StepCall}

/-- **Continuity of every run.**  In any step that begins with the shared shift established, an accepted
output is near the expected timestamp and a filler exactly at it; the expected timestamp then moves to the
end of the output, or the sum of its timestamp and duration is no `int64_t` and the step throws. -/
theorem output_continuity
    (hreach : (system config (ForcedRate config)).Reachable session)
    (hadmissible : session.Admissible call) (hforced : ForcedRate config call)
    (hshift : session.clock.shift ≠ none) {o : Offer}
    (ho : o ∈ (session.outcome call).offered) (haccept : o.answer = .accept) :
    (∀ next, (session.track call.video).next = some next →
      Near config (session.track call.video).timeBase o.frame.pts next ∧
        (o.source ≠ .input → o.frame.pts = next)) ∧
      Lands o (session.outcome call).result ((session.after call).track call.video) := by
  obtain ⟨final, hcalls⟩ := session.calls hadmissible
  have hoptions := (configured hreach).options
  have hdiff : 0 < session.config.options.maxStreamsDiff := by
    rw [hoptions]
    exact (valid hreach).maxStreamsDiff
  have hsame := sameBase hreach (fun _ h => h) hadmissible hforced
  rw [hcalls.offered] at ho
  rw [hcalls.track]
  refine ⟨fun next hnext => ?_, hcalls.ends.lands rfl ho haccept⟩
  have hnear := hcalls.ends.continuous hdiff rfl hshift hsame ho hnext
  unfold Near at hnear ⊢
  rwa [hoptions] at hnear

end Session

end MwStreamer

namespace MwStreamer.Session

open SyncerTiming

attribute [local instance] Libav.reference

/-- The default audio track alone. -/
def audioOnly : SyncerConfig := { encoder := { videoPixelFormat := -1 } }

/-- The block of 1024 samples at `pts`, offered to an accepting caller. -/
def blockCall (rate pts : ℤ) : StepCall :=
  { video := false, head := some (audioInput rate 1024 pts), now := 0, onOutput := none }

/-- A block 20 samples late is accepted where it is, less than a millisecond from the end of the first. -/
theorem output_continuity_late_block :
    ∃ session : Session, ∃ o ∈ (session.outcome (blockCall 48000 1044)).offered,
      (session.track false).next = some 1024 ∧ o.frame.pts = 1044 ∧
      Near audioOnly ⟨1, 48000⟩ o.frame.pts 1024 ∧
      Lands o (session.outcome (blockCall 48000 1044)).result
        ((session.after (blockCall 48000 1044)).track false) := by
  have hrun : ∃ session ∈ playback audioOnly (ForcedRate audioOnly) [blockCall 48000 0],
      session.Admissible (blockCall 48000 1044) ∧ session.clock.shift ≠ none ∧
      (session.track false).next = some 1024 ∧ (session.track false).timeBase = ⟨1, 48000⟩ ∧
      ∃ o ∈ (session.outcome (blockCall 48000 1044)).offered, o.answer = .accept ∧
        o.frame.pts = 1044 := by
    decide +kernel
  obtain ⟨session, hplay, hadmissible, hshift, hnext, hbase, o, ho, haccept, hpts⟩ := hrun
  have hforced : ForcedRate audioOnly (blockCall 48000 1044) := by decide
  obtain ⟨hnear, hlands⟩ := output_continuity (playback_reachable hplay) hadmissible hforced hshift ho
    haccept
  refine ⟨session, o, ho, hnext, hpts, ?_, hlands⟩
  rw [← hbase]
  exact (hnear 1024 hnext).1

/-- Audio only, with an output line that starts close to the largest `int64_t`. -/
def lateConfig : SyncerConfig :=
  { encoder := { videoPixelFormat := -1, audioSampleRate := 2000000000 }
    options := { startTs := 4611686018427387 } }

/-- The second block is accepted, but its end is no `int64_t` any more. -/
theorem output_continuity_overflow :
    ¬∀ (config : SyncerConfig) (session : Session) (call : StepCall) (o : Offer),
      (system config (ForcedRate config)).Reachable session → session.Admissible call →
      ForcedRate config call → session.clock.shift ≠ none → o ∈ (session.outcome call).offered →
      o.answer = .accept →
      ((session.after call).track call.video).next = some (o.frame.pts + o.frame.duration) := by
  intro hclaim
  have hrun : ∃ session ∈ playback lateConfig (ForcedRate lateConfig) [blockCall 2000000000 0],
      session.Admissible (blockCall 2000000000 1024) ∧ ForcedRate lateConfig (blockCall 2000000000 1024) ∧
      session.clock.shift ≠ none ∧ ∃ o ∈ (session.outcome (blockCall 2000000000 1024)).offered,
        o.answer = .accept ∧ ((session.after (blockCall 2000000000 1024)).track false).next
          ≠ some (o.frame.pts + o.frame.duration) := by
    decide +kernel
  obtain ⟨session, hplay, hadmissible, hforced, hshift, o, ho, haccept, hnext⟩ := hrun
  exact hnext (hclaim _ _ _ _ (playback_reachable hplay) hadmissible hforced hshift ho haccept)

end MwStreamer.Session
