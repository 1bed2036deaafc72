import MwStreamer.Syncer.Batches

/-!
# A held head is consumed

A step that has nothing to show asks to be called again later, never at once.  And a head that is held and offered
again at each wake time is consumed after at most twelve steps: an open batch accepts at most five fillers, one
suspension may follow it, a forward jump fills at most five more, and then the real frame is put up where its track
expects it.  `Due` says how many steps are left.
-/

namespace MwStreamer

open StateExcept

variable [Libav]

namespace SyncerTiming

variable {config : SyncerConfig} {video : Bool} {head : Option AvDecoderReadResult} {now : ℤ}
  {s s' : StepState} {r : Except Exception SyncerStep}

/-! ### Sleeping -/

/-- A step that returns shows something, or sleeps. -/
def Progresses (now : ℤ) (result : SyncerStep) : Prop :=
  result.consumed = true ∨ result.frame ≠ none ∨ result.blocked = true ∨ now < result.wakeUs

theorem RealEnd.progresses {input : AvDecoderReadResult} {pts : ℤ} (h : RealEnd config video input pts now s r s')
    {result : SyncerStep} (hr : r = .ok result) : Progresses now result := by
  cases h with
  | failed => cases hr
  | threw => cases hr
  | overflowed => cases hr
  | rejected =>
    cases hr
    exact .inr (.inr (.inl rfl))
  | accepted =>
    cases hr
    exact .inl rfl

theorem FillEnd.progresses {input : Option AvDecoderReadResult} (h : FillEnd config video input now s r s')
    {result : SyncerStep} (hr : r = .ok result) : Progresses now result := by
  cases h with
  | failed => cases hr
  | threw => cases hr
  | overflowed => cases hr
  | accepted =>
    cases hr
    exact .inr (.inl (Option.some_ne_none _))
  | @rejected _ _ _ _ _ r' =>
    cases r' with
    | error e => cases hr
    | ok wake =>
      cases hr
      exact .inr (.inr (.inl rfl))
  | @finished _ _ _ _ _ _ _ r' =>
    cases r' with
    | error e => cases hr
    | ok wake =>
      cases hr
      exact .inr (.inl (Option.some_ne_none _))

theorem CorrectPlan.progresses {input : AvDecoderReadResult} {result : SyncerStep}
    (h : CorrectPlan config video input now s (.done result s')) : Progresses now result := by
  cases h with
  | bootstrap _ _ _ _ hplan => cases hplan
  | follow _ _ _ _ hplan =>
    cases hplan with
    | retry _ _ _ _ _ _ _ _ huntil =>
      have hlater : now < now + 1000 := by omega
      exact .inr (.inr (.inr (lt_of_lt_of_eq hlater (add_ok huntil).symm)))

/-- **A step shows something, or sleeps into the future.** -/
theorem StepEnd.progresses (h : StepEnd config video head now s r s') {result : SyncerStep} (hr : r = .ok result) :
    Progresses now result := by
  obtain ⟨d, hplan, hend⟩ := h
  cases hend with
  | real hend => exact hend.progresses hr
  | fill hend => exact hend.progresses hr
  | failed => cases hr
  | done =>
    cases hr
    cases hplan with
    | suspended _ _ hearly => exact .inr (.inr (.inr hearly))
    | resume _ _ _ _ hplan => exact hplan.progresses
    | eof => exact .inl rfl
    | correct _ _ _ _ hplan => exact hplan.progresses
    | waiting _ _ _ hearly => exact .inr (.inr (.inr hearly))
    | timeout _ _ _ _ hplan =>
      cases hplan with
      | idle _ _ hwait =>
        have hlater : now < now + kPollUs := by
          rw [kPollUs]
          omega
        exact .inr (.inr (.inr (lt_of_lt_of_eq hlater (add_ok hwait).symm)))

/-- A step on a head never asks to be called in the past. -/
theorem StepEnd.wake_le {input : AvDecoderReadResult} (h : StepEnd config video (some input) now s r s')
    {result : SyncerStep} (hr : r = .ok result) : now ≤ result.wakeUs := by
  have corrected : ∀ {t t' : StepState} {source : AvDecoderReadResult},
      CorrectPlan config video input now t (.done result t') → now ≤ result.wakeUs := by
    intro t t' source hcorrect
    cases hcorrect with
    | bootstrap _ _ _ _ hplan => cases hplan
    | follow _ _ _ _ hplan =>
      cases hplan with
      | retry _ _ _ _ _ _ _ _ huntil =>
        have hlater : now ≤ now + 1000 := by omega
        exact le_of_le_of_eq hlater (add_ok huntil).symm
  have finished : ∀ {head lastPts blocked t t' wake}, head = some input →
      FinishEnd head lastPts now blocked t (.ok wake) t' → now ≤ wake := by
    intro head lastPts blocked t t' wake hhead hfinish
    cases hfinish with
    | timeout =>
      rw [hhead, Option.isSome_some, if_pos rfl]
    | forward _ _ _ _ _ _ _ _ huntil =>
      split at huntil
      · have hlater := add_ok huntil
        omega
      · exact le_of_eq huntil.symm
  obtain ⟨d, hplan, hend⟩ := h
  cases hend with
  | failed => cases hr
  | real hend =>
    cases hend with
    | failed => cases hr
    | threw => cases hr
    | overflowed => cases hr
    | rejected =>
      cases hr
      exact le_refl now
    | accepted =>
      cases hr
      exact le_refl now
  | @fill head t _ _ hend =>
    have hhead : head = some input := by
      rcases hplan.fill_cases with ⟨-, hhead, -⟩ | ⟨_, -, hhead, -⟩ | ⟨hnone, -⟩
      · exact hhead
      · exact hhead
      · cases hnone
    cases hend with
    | failed => cases hr
    | threw => cases hr
    | overflowed => cases hr
    | accepted =>
      cases hr
      exact le_refl now
    | @rejected _ _ _ _ _ r' _ _ hfinish =>
      cases r' with
      | error e => cases hr
      | ok wake =>
        cases hr
        exact finished hhead hfinish
    | @finished _ _ _ _ _ _ _ r' _ _ _ _ hfinish =>
      cases r' with
      | error e => cases hr
      | ok wake =>
        cases hr
        exact finished hhead hfinish
  | done =>
    cases hr
    cases hplan with
    | suspended _ _ hearly => exact le_of_lt hearly
    | resume _ _ _ hhead hcorrect =>
      obtain rfl := Option.some.inj hhead
      exact @corrected _ _ input hcorrect
    | eof => exact le_refl now
    | correct _ _ hhead _ hcorrect =>
      obtain rfl := Option.some.inj hhead
      exact @corrected _ _ input hcorrect
    | waiting _ _ hhead => cases hhead
    | timeout _ _ hhead => cases hhead

/-! ### How many steps are left -/

/-- The steps left until the head is consumed, when the next one comes at `wake` or later. -/
inductive Due (config : SyncerConfig) (video : Bool) (head : Option AvDecoderReadResult) (s : StepState) (wake : ℤ) :
    ℕ → Prop where
  /-- The head is put up where the track expects it. -/
  | ready {p : ℤ} (hreal : AwaitsReal config head p s) (hsame : SameBase video head s.track)
      (hdue : s.track.pendingRealPts = none ∨ s.track.suspendedUntil ≤ wake) : Due config video head s wake 1
  | jump {left : ℕ} (hopen : s.track.fillUntil ≠ none) (hforward : s.track.forwardFill = true)
      (hsame : SameBase video head s.track) (hleft : (left : ℤ) + s.track.filled = 5) :
      Due config video head s wake (left + 1)
  | idle (hclosed : s.track.fillUntil = none)
      (hdue : s.track.pendingRealPts = none ∨ s.track.suspendedUntil ≤ wake) : Due config video head s wake 6
  | suspended (hclosed : s.track.fillUntil = none) : Due config video head s wake 7
  | batch {left : ℕ} (hopen : s.track.fillUntil ≠ none) (hleft : (left : ℤ) + s.track.filled = 5) :
      Due config video head s wake (left + 7)

theorem Due.of_same {wake : ℤ} {n : ℕ} (h : Due config video head s wake n) (htrack : s'.track = s.track)
    (hclock : s'.clock.shift = s.clock.shift) : Due config video head s' wake n := by
  cases h with
  | ready hreal hsame hdue => exact .ready (hreal.of_same htrack hclock) (by rwa [htrack]) (by rwa [htrack])
  | jump hopen hforward hsame hleft =>
    exact .jump (by rwa [htrack]) (by rwa [htrack]) (by rwa [htrack]) (by rwa [htrack])
  | idle hclosed hdue => exact .idle (by rwa [htrack]) (by rwa [htrack])
  | suspended hclosed => exact .suspended (by rwa [htrack])
  | batch hopen hleft => exact .batch (by rwa [htrack]) (by rwa [htrack])

/-- Every track in order is due. -/
theorem Batched.due (hb : Batched config video s.track) (wake : ℤ) : ∃ n ≤ 12, Due config video head s wake n := by
  by_cases hclosed : s.track.fillUntil = none
  · exact ⟨7, by omega, .suspended hclosed⟩
  · have hshort := hb.short hclosed
    have hpos := hb.counted.1
    refine ⟨(5 - s.track.filled).toNat + 7, by omega, .batch hclosed ?_⟩
    omega

/-- The frame of a track that awaits it is put up, or the step throws. -/
theorem CorrectPlan.of_awaitsReal {input : AvDecoderReadResult} {d : Decision} {p : ℤ}
    (h : CorrectPlan config video input now s d) (hw : AwaitsReal config (some input) p s)
    (hsame : SameBase video (some input) s.track) :
    (∃ pts s', d = .real input pts s') ∨ ∃ e s', d = .failed e s' := by
  obtain ⟨-, ⟨input', frame, original, shift, shared, hinput, hframe, horiginal, hclock, -, hpts, hstable⟩,
    hcontinuous⟩ := hw
  obtain rfl := Option.some.inj hinput
  cases h with
  | failedBase e => exact .inr ⟨e, _, rfl⟩
  | failedInput e => exact .inr ⟨e, _, rfl⟩
  | bootstrap hrebase _ _ hnone =>
    obtain rfl : s = _ := (hrebase.eq_of_same hframe hsame).symm
    rw [hclock] at hnone
    cases hnone
  | follow hrebase hframe' horiginal' hclock' hplan =>
    obtain rfl : s = _ := (hrebase.eq_of_same hframe hsame).symm
    rw [hclock] at hclock'
    obtain rfl := Option.some.inj hclock'
    rw [hframe] at hframe'
    obtain rfl := Option.some.inj hframe'
    rw [horiginal] at horiginal'
    obtain rfl := Except.ok.inj horiginal'
    have hno : ∀ {desync shift' pts}, Adopts config s.track shared desync shift' →
        add original shift' = .ok pts → ¬Jumps config s.track pts true := by
      intro desync shift' pts hadopt hadd hjump
      rw [add_ok hadd, hstable _ _ hadopt, hpts] at hjump
      exact absurd (hcontinuous _ hjump) (by decide)
    cases hplan with
    | failed e => exact .inr ⟨e, _, rfl⟩
    | failedMapped e => exact .inr ⟨e, _, rfl⟩
    | failedJump e => exact .inr ⟨e, _, rfl⟩
    | continuous => exact .inl ⟨_, _, rfl⟩
    | forward hadopt hadd hjump => exact absurd hjump (hno hadopt hadd)
    | retry hadopt hadd hjump => exact absurd hjump (hno hadopt hadd)
    | backward => exact .inl ⟨_, _, rfl⟩

/-- A finished forward batch leaves its real frame ready. -/
theorem FinishEnd.ready {lastPts wake : ℤ} {blocked : Bool} (hdiff : 0 < config.options.maxStreamsDiff)
    (h : FinishEnd head lastPts now blocked s (.ok wake) s') (hforward : s.track.forwardFill = true) :
    s'.track.fillUntil = none ∧ s'.track.suspendedUntil = wake ∧ s'.track.timeBase = s.track.timeBase ∧
      ∃ p, AwaitsReal config head p s' := by
  cases h with
  | timeout hlate =>
    rw [hlate] at hforward
    cases hforward
  | @forward source frame original next shift shared _ clock _ hinput hframe horiginal hnext hshift hshared =>
    refine ⟨rfl, rfl, rfl, next, rfl, ⟨source, frame, original, shift, shared, hinput, hframe, horiginal, rfl, rfl,
      ?_, ?_⟩, fun jump hjump => hjump.at_next hnext⟩
    · rw [subtract_ok hshift]
      omega
    · intro desync shift' hadopt
      refine Adopts.of_published hdiff ?_ ?_ hadopt
      · rfl
      · exact hshared

/-- A finished late batch leaves its track closed. -/
theorem FinishEnd.closed {lastPts wake : ℤ} {blocked : Bool}
    (h : FinishEnd head lastPts now blocked s (.ok wake) s') : s'.track.fillUntil = none := by
  cases h with
  | timeout => rfl
  | forward => rfl

/-- A caller with space for every frame. -/
def Accepted (offered : List Offer) : Prop := ∀ o ∈ offered, o.answer = .accept

/-- An accepted filler brings its batch one step further. -/
theorem FillEnd.due (hdiff : 0 < config.options.maxStreamsDiff) (h : FillEnd config video head now s r s')
    (haccepted : Accepted s'.offered) {result : SyncerStep} (hr : r = .ok result)
    (hopen : s.track.fillUntil ≠ none) {left : ℕ} (hleft : (left : ℤ) + 1 + s.track.filled = 5) :
    (s.track.forwardFill = true → SameBase video head s.track →
      Due config video head s' result.wakeUs (left + 1) ∨ Due config video head s' result.wakeUs 1) ∧
    (Due config video head s' result.wakeUs (left + 7) ∨ Due config video head s' result.wakeUs 7) := by
  cases h with
  | failed => cases hr
  | threw => cases hr
  | overflowed => cases hr
  | rejected _ hfinish =>
    rw [hfinish.next.2.2] at haccepted
    have hno := haccepted _ (List.mem_append_right _ (List.mem_singleton_self _))
    cases hno
  | @accepted pts target duration next filledUs =>
    have hcount : (left : ℤ) + (s.track.filled + 1) = 5 := by omega
    exact ⟨fun hforward hsame => .inl (.jump hopen hforward hsame hcount), .inl (.batch hopen hcount)⟩
  | @finished _ _ _ _ _ _ _ r' _ _ _ _ hfinish =>
    cases r' with
    | error e => cases hr
    | ok wake =>
      obtain rfl := Except.ok.inj hr
      refine ⟨fun hforward hsame => .inr ?_, .inr (.suspended hfinish.closed)⟩
      obtain ⟨-, hsuspended, hbase, p, hready⟩ := FinishEnd.ready hdiff hfinish hforward
      refine .ready hready ?_ (.inr (le_of_eq hsuspended))
      intro hvideo input hhead hframe
      rw [hbase]
      exact hsame hvideo input hhead hframe

/-- A head that may have changed the time base is measured in it. -/
theorem Rebase.sameBase {input : AvDecoderReadResult} (hpositive : input.timeBase.Positive)
    (h : Rebase video input.timeBase s s') : SameBase video (some input) s'.track := by
  intro hvideo input' hinput _
  obtain rfl := Option.some.inj hinput
  cases h with
  | same hbase =>
    by_contra hne
    exact hbase ⟨hvideo, hne⟩
  | changed => exact (Libav.avCmpQ_eq_zero _ _ hpositive hpositive).mpr rfl

/-- An accepted real frame is consumed. -/
theorem RealEnd.consumed {input : AvDecoderReadResult} {pts : ℤ} (h : RealEnd config video input pts now s r s')
    (haccepted : Accepted s'.offered) {result : SyncerStep} (hr : r = .ok result) : result.consumed = true := by
  cases h with
  | failed => cases hr
  | threw => cases hr
  | overflowed => cases hr
  | rejected =>
    have hno := haccepted _ (List.mem_append_right _ (List.mem_singleton_self _))
    cases hno
  | accepted =>
    cases hr
    rfl

/-- **A frame that is corrected and not consumed** is put up after five more steps at the latest. -/
theorem CorrectPlan.due {input : AvDecoderReadResult} {d : Decision} (hdiff : 0 < config.options.maxStreamsDiff)
    (hpositive : input.timeBase.Positive) (hclosed : s.track.fillUntil = none)
    (h : CorrectPlan config video input now s d) (hend : d.End config video now r s')
    (haccepted : Accepted s'.offered) {result : SyncerStep} (hr : r = .ok result)
    (hunconsumed : result.consumed = false) : ∃ n ≤ 5, Due config video (some input) s' result.wakeUs n := by
  cases hend with
  | failed => cases hr
  | real hend =>
    rw [hend.consumed haccepted hr] at hunconsumed
    cases hunconsumed
  | @fill head t _ _ hend =>
    cases h with
    | bootstrap _ _ _ _ hplan => cases hplan
    | @follow s₁ _ _ _ _ hrebase _ _ _ hplan =>
      cases hplan with
      | forward =>
        have hsame := hrebase.sameBase hpositive
        have hleft : ((4 : ℕ) : ℤ) + 1 + 0 = 5 := rfl
        obtain ⟨hjump, -⟩ := hend.due hdiff haccepted hr (Option.some_ne_none _) hleft
        rcases hjump rfl hsame with hdue | hdue
        · exact ⟨5, le_refl 5, hdue⟩
        · exact ⟨1, by omega, hdue⟩
  | done =>
    obtain rfl := Except.ok.inj hr
    cases h with
    | bootstrap _ _ _ _ hplan => cases hplan
    | @follow s₁ frame original _ _ hrebase hframe horiginal _ hplan =>
      cases hplan with
      | @retry _ _ _ next shift' shared' until_ _ _ _ hnext _ _ hshift hshared =>
        refine ⟨1, by omega, @Due.ready _ _ _ _ _ _ next ⟨hrebase.fillUntil hclosed, ⟨input, frame, original, shift',
          shared', rfl, hframe, horiginal, rfl, rfl, ?_, ?_⟩, fun jump hjump => hjump.at_next hnext⟩ ?_
          (.inr (le_refl _))⟩
        · rw [subtract_ok hshift]
          omega
        · intro desync shift hadopt
          refine Adopts.of_published hdiff ?_ ?_ hadopt
          · rfl
          · exact hshared
        · exact fun hvideo input' hinput hframe' => hrebase.sameBase hpositive hvideo input' hinput hframe'

/-- **Every step that does not consume the head brings it closer.** -/
theorem StepEnd.due {input : AvDecoderReadResult} {wake : ℤ} {n : ℕ} (hdiff : 0 < config.options.maxStreamsDiff)
    (hpositive : ∀ frame, input.frame = some frame → input.timeBase.Positive)
    (h : StepEnd config video (some input) now s r s') (hb : Batched config video s.track)
    (hheld : Pending s.track → IsFrame (some input))
    (hvalid : input.status ≠ .eof → IsFrame (some input)) (haccepted : Accepted s'.offered) {result : SyncerStep}
    (hr : r = .ok result) (hunconsumed : result.consumed = false) (hwake : wake ≤ now)
    (hdue : Due config video (some input) s wake n) : ∃ m < n, Due config video (some input) s' result.wakeUs m := by
  obtain ⟨d, hplan, hend⟩ := h
  have framed : IsFrame (some input) → input.timeBase.Positive := by
    rintro ⟨input', frame, hinput, hframe⟩
    obtain rfl := Option.some.inj hinput
    exact hpositive frame hframe
  -- A track that awaits the frame puts it up, and it is consumed.
  have unready : ∀ {t p}, CorrectPlan config video input now t d → AwaitsReal config (some input) p t →
      SameBase video (some input) t.track → False := by
    intro t p hcorrect hready hsame
    rcases hcorrect.of_awaitsReal hready hsame with ⟨pts, t', rfl⟩ | ⟨e, t', rfl⟩
    · cases hend with
      | real hend =>
        rw [hend.consumed haccepted hr] at hunconsumed
        cases hunconsumed
    · cases hend
      cases hr
  -- Otherwise a corrected frame is due in five steps.
  have corrected : ∀ {t}, CorrectPlan config video input now t d → t.track.fillUntil = none →
      IsFrame (some input) → 6 ≤ n → ∃ m < n, Due config video (some input) s' result.wakeUs m := by
    intro t hcorrect hclosed hframe hn
    obtain ⟨m, hm, hlater⟩ := hcorrect.due hdiff (framed hframe) hclosed hend haccepted hr hunconsumed
    exact ⟨m, by omega, hlater⟩
  cases hplan with
  | filling hfill =>
    have hopen : s.track.fillUntil ≠ none := by rw [hfill]; exact Option.some_ne_none _
    have hshort := hb.short hopen
    cases hend with
    | fill hend =>
      cases hdue with
      | ready hready => exact absurd hready.closed hopen
      | idle hclosed => exact absurd hclosed hopen
      | suspended hclosed => exact absurd hclosed hopen
      | @jump left _ hforward hsame hleft =>
        obtain ⟨less, rfl⟩ : ∃ less, left = less + 1 := ⟨left - 1, by omega⟩
        have hless : (less : ℤ) + 1 + s.track.filled = 5 := by
          rw [← hleft]
          push_cast
          rfl
        obtain ⟨hjump, -⟩ := hend.due hdiff haccepted hr hopen hless
        rcases hjump hforward hsame with hlater | hlater
        · exact ⟨less + 1, by omega, hlater⟩
        · exact ⟨1, by omega, hlater⟩
      | @batch left _ hleft =>
        obtain ⟨less, rfl⟩ : ∃ less, left = less + 1 := ⟨left - 1, by omega⟩
        have hless : (less : ℤ) + 1 + s.track.filled = 5 := by
          rw [← hleft]
          push_cast
          rfl
        rcases (hend.due hdiff haccepted hr hopen hless).2 with hlater | hlater
        · exact ⟨less + 7, by omega, hlater⟩
        · exact ⟨7, by omega, hlater⟩
  | suspended hfill hpending hearly =>
    cases hend
    obtain rfl := Except.ok.inj hr
    have hwaits : s.track.pendingRealPts = none ∨ s.track.suspendedUntil ≤ wake → False := by
      rintro (hnone | hearlier)
      · rw [hpending] at hnone
        cases hnone
      · omega
    cases hdue with
    | ready _ _ hdue => exact (hwaits hdue).elim
    | idle _ hdue => exact (hwaits hdue).elim
    | suspended hclosed => exact ⟨6, by omega, .idle hclosed (.inr (le_refl _))⟩
    | jump hopen => exact absurd hfill hopen
    | batch hopen => exact absurd hfill hopen
  | lostHead _ _ hhead => cases hhead
  | resume hfill hpending _ hhead hcorrect =>
    obtain rfl := Option.some.inj hhead
    have hframe := hheld (.inl (by rw [hpending]; exact Option.some_ne_none _))
    cases hdue with
    | ready hready hsame => exact (unready hcorrect hready.resumed hsame).elim
    | idle => exact corrected hcorrect hfill hframe (by omega)
    | suspended => exact corrected hcorrect hfill hframe (by omega)
    | jump hopen => exact absurd hfill hopen
    | batch hopen => exact absurd hfill hopen
  | eof =>
    cases hend
    obtain rfl := Except.ok.inj hr
    cases hunconsumed
  | correct hfill _ hhead hstatus hcorrect =>
    obtain rfl := Option.some.inj hhead
    have hframe := hvalid hstatus
    cases hdue with
    | ready hready hsame => exact (unready hcorrect hready hsame).elim
    | idle => exact corrected hcorrect hfill hframe (by omega)
    | suspended => exact corrected hcorrect hfill hframe (by omega)
    | jump hopen => exact absurd hfill hopen
    | batch hopen => exact absurd hfill hopen
  | waiting _ _ hhead => cases hhead
  | timeout _ _ hhead => cases hhead

/-! ### What the callback answered -/

/-- At most one frame was put up, with the answer of the callback. -/
def Answered (onOutput : OnOutput) (s s' : StepState) : Prop :=
  s'.offered = s.offered ∨
    ∃ frame source, s'.offered = s.offered ++ [⟨frame, source, answerOf onOutput frame⟩]

theorem real_answers (config : SyncerConfig) (video : Bool) (input : AvDecoderReadResult) (pts now : ℤ)
    (onOutput : OnOutput) (s : StepState) :
    Ensures (real config video input pts now onOutput) s (fun _ => Answered onOutput s)
      fun _ => Answered onOutput s := by
  have admission : ∀ source duration, Ensures (do
      let frame := stamp source (← getTrack) pts duration
      let ptsUs ← toUs pts
      modifyClock fun c => c.update ptsUs now
      if !(← offer onOutput frame .input) then
        pure { wakeUs := now, blocked := true }
      else
        let next ← attempt (add pts duration)
        modifyTrack fun t =>
          { t with
            next := some next
            hasOutput := true
            lastReal := if video then some frame else t.lastReal
            lastRealPts := pts
            lastSuccess := true }
        let waitUntil ← attempt (add now config.options.timeout)
        modifyTrack fun t => { t with waitUntil := waitUntil, pendingRealPts := none }
        pure { consumed := true, frame := some frame, wakeUs := now }) s (fun (_ : SyncerStep) => Answered onOutput s)
      fun _ => Answered onOutput s := by
    intro source duration
    have hshown : ∀ clock track, Answered onOutput s ⟨clock, track,
        s.offered ++
          [⟨stamp source s.track pts duration, .input, answerOf onOutput (stamp source s.track pts duration)⟩]⟩ :=
      fun _ _ => .inr ⟨_, _, rfl⟩
    simp only [ensures_bind, ensures_getTrack, ensures_toUs, ensures_modifyClock, ensures_offer, Bool.not_true,
      Bool.not_false, Bool.false_eq_true, if_false, if_true, ensures_pure, ensures_attempt, ensures_modifyTrack]
    exact ⟨fun us _ => ⟨fun _ => ⟨fun next _ => ⟨fun _ _ => hshown _ _, fun _ _ => hshown _ _⟩, fun _ _ => hshown _ _⟩,
      fun _ => hshown _ _, fun _ => hshown _ _⟩, fun _ _ => .inl rfl⟩
  rw [real, ensures_bind, ensures_deref]
  refine ⟨fun source _ => ?_, fun _ => .inl rfl⟩
  cases video with
  | true =>
    rw [if_pos rfl, ensures_bind, ensures_videoDuration]
    exact ⟨fun d _ _ => admission source d, fun _ _ _ => .inl rfl, fun _ _ => .inl rfl⟩
  | false =>
    rw [if_neg (by decide), ensures_bind, ensures_pure]
    exact admission source source.nbSamples

theorem fill_answers (config : SyncerConfig) (video : Bool) (input : Option AvDecoderReadResult) (now : ℤ)
    (onOutput : OnOutput) (s : StepState) :
    Ensures (fill config video input now onOutput) s (fun _ => Answered onOutput s) fun _ => Answered onOutput s := by
  have finish : ∀ (blocked : Bool) (pts : ℤ) (t : StepState), Answered onOutput s t →
      Ensures (finishFill input pts now blocked) t (fun _ => Answered onOutput s) fun _ => Answered onOutput s := by
    intro blocked pts t ht
    have kept : ∀ {r s'}, FinishEnd input pts now blocked t r s' → Answered onOutput s s' := by
      intro r s' hfinish
      rw [Answered, hfinish.next.2.2]
      exact ht
    exact (finishFill_ends input pts now blocked t).mono (fun _ _ => kept) fun _ _ => kept
  have admission : ∀ (pts target : ℤ) (frame : Frame) (source : OutputSource) (duration : ℤ), Ensures (do
      if !(← offer onOutput frame source) then
        let wake ← finishFill input pts now true
        pure { wakeUs := wake, blocked := true }
      else
        let next ← attempt (add pts duration)
        modifyTrack fun t => { t with next := some next, hasOutput := true, filled := t.filled + 1 }
        let filledUs ← attempt (add (← getTrack).filledUs (← toUs duration))
        modifyTrack fun t => { t with filledUs := filledUs }
        if target ≤ next ∨ (← getTrack).filled = 5 then
          let wake ← finishFill input pts now false
          pure { frame := some frame, wakeUs := wake }
        else pure { frame := some frame, wakeUs := now }) s (fun (_ : SyncerStep) => Answered onOutput s)
      fun _ => Answered onOutput s := by
    intro pts target frame source duration
    have hshown : ∀ clock track, Answered onOutput s ⟨clock, track,
        s.offered ++ [⟨frame, source, answerOf onOutput frame⟩]⟩ := fun _ _ => .inr ⟨_, _, rfl⟩
    rw [ensures_bind, ensures_offer]
    refine ⟨fun _ => ?_, fun _ => ?_, fun _ => hshown _ _⟩
    · simp only [Bool.not_true, Bool.false_eq_true, if_false, ensures_bind, ensures_attempt, ensures_modifyTrack,
        ensures_getTrack, ensures_toUs, ensures_ite, ensures_pure]
      refine ⟨fun next _ => ⟨fun us _ => ⟨fun filledUs _ => ⟨fun _ => ?_, fun _ => hshown _ _⟩, fun _ _ => hshown _ _⟩,
        fun _ _ => hshown _ _⟩, fun _ _ => hshown _ _⟩
      exact finish false pts _ (hshown _ _)
    · simp only [Bool.not_false, if_true, ensures_bind, ensures_pure]
      exact finish true pts _ (hshown _ _)
  simp only [fill, ensures_bind, ensures_getTrack, ensures_deref, ensures_attempt]
  refine ⟨fun pts _ => ⟨fun target _ => ⟨fun count _ => ?_, fun _ _ => .inl rfl⟩, fun _ => .inl rfl⟩,
    fun _ => .inl rfl⟩
  apply (backup_ends config video count s).mono
  · rintro ⟨spare, source⟩ s' ⟨rfl, -⟩
    cases video with
    | true =>
      simp only [if_true, ensures_bind, ensures_videoDuration, ensures_getTrack]
      refine ⟨fun d _ _ => ?_, fun _ _ _ => .inl rfl, fun _ _ => .inl rfl⟩
      simpa only [ensures_bind] using admission pts target _ source d
    | false =>
      simp only [Bool.false_eq_true, if_false, ensures_bind, ensures_pure, ensures_getTrack]
      simpa only [ensures_bind] using admission pts target _ source spare.nbSamples
  · rintro e s' rfl
    exact .inl rfl

/-- **A step records the answers of its callback.** -/
theorem step_answers (config : SyncerConfig) (video : Bool) (head : Option AvDecoderReadResult) (now : ℤ)
    (onOutput : OnOutput) (s : StepState) :
    Ensures (step config video head now onOutput) s (fun _ => Answered onOutput s) fun _ => Answered onOutput s := by
  apply step_ensures
  intro d hplan
  have hoffered := hplan.unoffered.offered
  have later : ∀ {s'}, Answered onOutput d.state s' → Answered onOutput s s' := by
    intro s' h
    rw [Answered, hoffered] at h
    exact h
  cases d with
  | done => exact .inl hoffered
  | failed => exact .inl hoffered
  | real input pts t => exact (real_answers _ _ _ _ _ _ t).mono (fun _ _ => later) fun _ _ => later
  | fill input t => exact (fill_answers _ _ _ _ _ t).mono (fun _ _ => later) fun _ _ => later

end SyncerTiming

namespace Session

open SyncerTiming

variable {config : SyncerConfig} {session : Session} {video : Bool} {input : AvDecoderReadResult}

/-- What the owner of a held head owes its steps: the head again, space for every output and a clock that has reached
the wake time of the step before.  None of them overflows. -/
structure Held (session : Session) (video : Bool) (input : AvDecoderReadResult) (wake : ℤ) (call : StepCall) :
    Prop where
  admissible : session.Admissible call
  fits : Fits (session.outcome call).result
  video_eq : call.video = video
  head : call.head = some input
  space : ∀ frame, answerOf call.onOutput frame = .accept
  due : wake ≤ call.now

/-- The wake time a step returns. -/
def wake (outcome : StepOutcome) : ℤ :=
  match outcome.result with
  | .ok result => result.wakeUs
  | .error _ => 0

/-- Steps on one track while its head is held. -/
def Holding (video : Bool) (input : AvDecoderReadResult) : ℤ → Session → List StepCall → Prop
  | _, _, [] => True
  | earliest, session, call :: calls => session.Held video input earliest call ∧
      (consumed (session.outcome call) = false →
        Holding video input (wake (session.outcome call)) (session.after call) calls)

/-- One of the steps consumes the head. -/
def Consumes : Session → List StepCall → Prop
  | _, [] => False
  | session, call :: calls => consumed (session.outcome call) = true ∨ Consumes (session.after call) calls

theorem outcome_answered {call : StepCall} (hadmissible : session.Admissible call) {o : Offer}
    (ho : o ∈ (session.outcome call).offered) : o.answer = answerOf call.onOutput o.frame := by
  have houtcome : session.outcome call =
      (session.syncer.timing.stepOn call.video call.head call.now call.onOutput).1 := by
    rw [outcome, Syncer.step, hadmissible.valid]
  have single : ∀ final : StepState, Answered call.onOutput (session.view call.video) final → o ∈ final.offered →
      o.answer = answerOf call.onOutput o.frame := by
    intro final hanswered ho
    rcases hanswered with hnone | ⟨frame, source, hone⟩
    · rw [hnone] at ho
      cases ho
    · rw [hone, view_offered, List.nil_append, List.mem_singleton] at ho
      rw [ho]
  have hanswers := step_answers session.config call.video call.head call.now call.onOutput (session.view call.video)
  rw [houtcome, stepOn] at ho
  cases hrun : SyncerTiming.step session.config call.video call.head call.now call.onOutput
    (session.view call.video) with
  | ok result final =>
    rw [show SyncerTiming.step session.syncer.timing.config call.video call.head call.now call.onOutput
      (session.syncer.timing.view call.video) = .ok result final from hrun] at ho
    exact single final (hanswers.ok hrun) ho
  | error e final =>
    rw [show SyncerTiming.step session.syncer.timing.config call.video call.head call.now call.onOutput
      (session.syncer.timing.view call.video) = .error e final from hrun] at ho
    exact single final (hanswers.error hrun) ho

/-- **Any run of steps on a held head consumes it in as many steps as are due.** -/
theorem consumes_of_due (hreach : (fitting config).Reachable session) {earliest : ℤ} {n : ℕ}
    (hdue : Due session.config video (some input) (session.view video) earliest n) {calls : List StepCall}
    (hholding : Holding video input earliest session calls) (hlength : n ≤ calls.length) : session.Consumes calls := by
  induction calls generalizing session earliest n with
  | nil =>
    have hzero : n = 0 := Nat.le_zero.mp hlength
    subst hzero
    cases hdue
  | cons call calls ih =>
    obtain ⟨hheld, hlater⟩ := hholding
    by_cases hconsumed : consumed (session.outcome call) = true
    · exact .inl hconsumed
    · rw [Bool.not_eq_true] at hconsumed
      obtain ⟨hadmissible, hfits, rfl, hhead, hspace, hwake⟩ := hheld
      have hreach' := fitting_reachable hreach
      have hconfig := configured hreach'
      have henabled := hadmissible.enabled
      rw [hconfig.syncer] at henabled
      obtain ⟨final, hcalls⟩ := session.calls hadmissible
      have haccepted : Accepted final.offered := by
        intro o ho
        rw [← hcalls.offered] at ho
        rw [outcome_answered hadmissible ho]
        exact hspace o.frame
      obtain ⟨result, hresult⟩ : ∃ result, (session.outcome call).result = .ok result := by
        cases hresult : (session.outcome call).result with
        | ok result => exact ⟨result, rfl⟩
        | error e =>
          have hcause := outcome_thrown hreach' (batched hreach henabled) hadmissible hresult
          rw [hresult] at hfits
          obtain ⟨-, o, ho, hthrow⟩ := hcause.threw hfits
          rw [hcalls.offered] at ho
          rw [haccepted o ho] at hthrow
          cases hthrow
      have hunconsumed : result.consumed = false := by
        rw [consumed, hresult] at hconsumed
        exact hconsumed
      have hstep : (fitting config).Reachable (session.after call) :=
        .step hreach ⟨call, hadmissible, hfits, rfl, rfl⟩
      have hends := hcalls.ends
      rw [hhead] at hends
      have hpositive : ∀ frame, input.frame = some frame → input.timeBase.Positive := by
        intro frame hframe
        have hstatus : input.status ≠ .eof := by
          intro heof
          rw [validateInput_eof (hadmissible.input hhead) heof] at hframe
          cases hframe
        obtain ⟨frame', hvalid⟩ := validateInput_ok (hadmissible.input hhead) hstatus
        exact hvalid.timeBase
      have hheld : Pending (session.track call.video) → IsFrame (some input) := by
        intro hpending
        rw [← hhead]
        exact hadmissible.held hreach' hpending
      have hframe : input.status ≠ .eof → IsFrame (some input) := by
        intro hstatus
        rw [← hhead]
        exact hadmissible.isFrame hhead hstatus
      obtain ⟨m, hm, hnext⟩ := hends.due (maxStreamsDiff_pos hreach') hpositive
        (hconfig.batched.mpr (batched hreach henabled)) hheld hframe haccepted hresult hunconsumed hwake hdue
      have hrest := hlater hconsumed
      rw [wake, hresult] at hrest
      rw [← hcalls.config] at hnext
      rw [List.length_cons] at hlength
      exact .inr (ih hstep (hnext.of_same hcalls.track (congrArg ContinuityClock.shift hcalls.clock)) hrest (by omega))

theorem validateCall_ok {syncer : Syncer} {call : StepCall}
    (henabled : syncer.config.encoder.enabled call.video = true) (hnow : 0 ≤ call.now)
    (hinput : ∀ input, call.head = some input → validateInput input call.video syncer.config = .ok ()) :
    syncer.validateCall call = .ok () := by
  have hlate : ¬call.now < 0 := by omega
  simp only [Syncer.validateCall, henabled, Bool.not_true, Bool.false_eq_true, if_false, if_neg hlate]
  cases hhead : call.head with
  | none => rfl
  | some input => exact hinput input hhead

theorem Admissible.now_nonneg {call : StepCall} (h : session.Admissible call) : 0 ≤ call.now := by
  have hvalid := h.valid
  simp only [Syncer.validateCall] at hvalid
  split at hvalid
  · cases hvalid
  split at hvalid
  · cases hvalid
  · rename_i hnow
    omega

/-- The head can be offered again at the wake time. -/
theorem Admissible.again {call : StepCall} (hadmissible : session.Admissible call) (hhead : call.head = some input)
    {result : SyncerStep} (hresult : (session.outcome call).result = .ok result)
    (hunconsumed : result.consumed = false) : (session.after call).Admissible { call with now := result.wakeUs } := by
  obtain ⟨final, hcalls⟩ := session.calls hadmissible
  have hends := hcalls.ends
  rw [hhead] at hends
  have hwake := hends.wake_le hresult
  refine ⟨?_, hwake, fun other hother => ?_⟩
  · have hnow := hadmissible.now_nonneg
    apply validateCall_ok
    · rw [hcalls.syncerConfig]
      exact hadmissible.enabled
    · show 0 ≤ result.wakeUs
      omega
    · intro input' hhead'
      rw [hcalls.syncerConfig]
      exact hadmissible.input hhead'
  · have hkept : consumed (session.outcome call) = false := by
      rw [consumed, hresult]
      exact hunconsumed
    rw [after_held, if_pos rfl, hkept, if_neg (by decide)] at hother
    exact hother

/-- **Every step makes progress, and a held head is consumed in bounded time.**  A step that returns has consumed
its head, returned a frame, reported a rejection, or sleeps into the future.  While one head is held, everything is
accepted and the clock reaches each wake time, one of the first twelve steps on its track consumes it; until then
the head can always be offered again at the wake time. -/
theorem head_progress (hreach : (fitting config).Reachable session) :
    (∀ call result, session.Admissible call → (session.outcome call).result = .ok result →
      result.consumed = true ∨ result.frame ≠ none ∨ result.blocked = true ∨ call.now < result.wakeUs) ∧
    (∀ video input earliest calls, Holding video input earliest session calls → 12 ≤ calls.length →
      session.Consumes calls) ∧
    ∀ video input earliest call result, session.Held video input earliest call →
      (session.outcome call).result = .ok result → result.consumed = false →
      (session.after call).Admissible { call with now := result.wakeUs } := by
  refine ⟨?_, ?_, ?_⟩
  · intro call result hadmissible hresult
    obtain ⟨final, hcalls⟩ := session.calls hadmissible
    exact hcalls.ends.progresses hresult
  · intro video input earliest calls hholding hlength
    have henabled : config.encoder.enabled video = true := by
      cases calls with
      | nil => cases hlength
      | cons call calls =>
        obtain ⟨⟨hadmissible, -, rfl, -⟩, -⟩ := hholding
        have henabled := hadmissible.enabled
        rw [(configured (fitting_reachable hreach)).syncer] at henabled
        exact henabled
    have hb := (configured (fitting_reachable hreach)).batched.mpr (batched hreach henabled)
    obtain ⟨n, hn, hdue⟩ := @Batched.due _ session.config video (some input) (session.view video) hb earliest
    exact consumes_of_due hreach hdue hholding (by omega)
  · intro video input earliest call result hheld hresult hunconsumed
    exact hheld.admissible.again hheld.head hresult hunconsumed

/-- `Holding`, for a caller without a callback. -/
def HoldingAlone (video : Bool) (input : AvDecoderReadResult) : ℤ → Session → List StepCall → Prop
  | _, _, [] => True
  | earliest, session, call :: calls => (session.Admissible call ∧ Fits (session.outcome call).result ∧
      call.video = video ∧ call.head = some input ∧ call.onOutput.isNone = true ∧ earliest ≤ call.now) ∧
      (consumed (session.outcome call) = false →
        HoldingAlone video input (wake (session.outcome call)) (session.after call) calls)

instance decidableHoldingAlone : ∀ (video : Bool) (input : AvDecoderReadResult) (earliest : ℤ) (session : Session)
    (calls : List StepCall), Decidable (HoldingAlone video input earliest session calls)
  | _, _, _, _, [] => .isTrue trivial
  | video, input, _, session, call :: calls =>
    haveI := decidableHoldingAlone video input (wake (session.outcome call)) (session.after call) calls
    inferInstanceAs (Decidable (_ ∧ (_ → _)))

theorem HoldingAlone.holding {earliest : ℤ} {calls : List StepCall}
    (h : HoldingAlone video input earliest session calls) : Holding video input earliest session calls := by
  induction calls generalizing session earliest with
  | nil => exact trivial
  | cons call calls ih =>
    obtain ⟨⟨hadmissible, hfits, hvideo, hhead, hnone, hwake⟩, hlater⟩ := h
    refine ⟨⟨hadmissible, hfits, hvideo, hhead, fun frame => ?_, hwake⟩, fun hunconsumed => ih (hlater hunconsumed)⟩
    rw [Option.isNone_iff_eq_none.mp hnone]
    rfl

end Session

end MwStreamer

namespace MwStreamer.Session

open SyncerTiming

attribute [local instance] Libav.reference

/-- A block two seconds ahead of the track, offered to an accepting caller. -/
def jumpCall (now : ℤ) : StepCall :=
  { video := false, head := some (audioInput 48000 1024 97024), now := now, onOutput := none }

/-- Five fillers, a suspension of 53.332 ms, and the block is consumed. -/
theorem head_progress_jump : ∃ session : Session,
    session.Consumes ([0, 0, 0, 0, 0, 53332, 0, 0, 0, 0, 0, 0].map jumpCall) := by
  have hrun : ∃ session ∈ fittingPlayback audioOnly [blockCall 48000 0],
      HoldingAlone false (audioInput 48000 1024 97024) 0 session
        ([0, 0, 0, 0, 0, 53332, 0, 0, 0, 0, 0, 0].map jumpCall) := by
    decide +kernel
  obtain ⟨session, hplay, hholding⟩ := hrun
  exact ⟨session, (head_progress (fittingPlayback_reachable hplay)).2.1 _ _ _ _ hholding.holding (by decide)⟩

end MwStreamer.Session
