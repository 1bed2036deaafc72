import MwStreamer.Syncer.Mapping

/-!
# A rejected output is offered again

`on_output` may refuse a frame, and the same frame or its replacement must come back at the same timestamp.
`Awaits` says that a track will put up nothing but `p` as long as its head stays the same: it works on a
batch whose next filler is at `p`, it waits without a frame to offer, or its real frame maps to `p` however
often the mapping is computed again.  Every refused offer leads there, and no step without an accepted
output leaves it.
-/

namespace MwStreamer

open StateExcept

variable [Libav]

namespace SyncerTiming

variable {config : SyncerConfig} {video : Bool} {head : Option AvDecoderReadResult} {now p : ℤ}
  {s s' : StepState} {r : Except Exception SyncerStep}

/-! ### Mapping the same frame again -/

/-- A shift that was just published is in tolerance. -/
theorem Adopts.of_published {track : Track} {shared shift shift' : ℤ} {desync : Bool}
    (hdiff : 0 < config.options.maxStreamsDiff) (hshift : track.shift = some shift)
    (hshared : rescale shift track.timeBase kMicroseconds = .ok shared)
    (h : Adopts config track shared desync shift') : shift' = shift := by
  have hdesync : desync = false := by
    by_contra hd
    obtain ⟨old, hold, hfar⟩ := h.desync_iff.mp (Bool.not_eq_false _ ▸ hd)
    rw [hshift] at hold
    cases hold
    rw [← rescale_ok hshared, sub_self, abs_zero] at hfar
    omega
  have hadopted := h.shift_eq
  rw [hshift, hdesync, if_neg (by simp)] at hadopted
  exact (Option.some.inj hadopted).symm

/-- **Adoption is stable.**  Mapping the frame again after an adoption gives the same shift. -/
theorem Adopts.again {track : Track} {shared shared' shift shift' : ℤ} {desync desync' : Bool}
    (hdiff : 0 < config.options.maxStreamsDiff) (h : Adopts config track shared desync shift)
    (hshared : if desync then rescale shift track.timeBase kMicroseconds = .ok shared'
      else shared' = shared)
    (h' : Adopts config { track with shift := some shift } shared' desync' shift') : shift' = shift := by
  cases desync with
  | true => exact Adopts.of_published hdiff rfl (by rwa [if_pos rfl] at hshared) h'
  | false =>
    rw [if_neg (by decide)] at hshared
    subst hshared
    have hadopted := h'.shift_eq
    cases desync' with
    | false => exact (Option.some.inj (by simpa using hadopted)).symm
    | true =>
      have hagain : rescale shared' kMicroseconds track.timeBase = .ok shift' := by simpa using hadopted
      have hfirst := h.shift_eq
      cases hold : track.shift with
      | none =>
        rw [hold, if_pos (by simp), hagain] at hfirst
        exact Except.ok.inj hfirst
      | some old =>
        -- The same shift was in tolerance a moment ago.
        rw [hold, if_neg (by simp)] at hfirst
        cases hfirst
        obtain ⟨old', hold', hfar⟩ := h'.desync_iff.mp rfl
        cases hold'
        exact absurd (h.desync_iff.mpr ⟨_, hold, hfar⟩) (by decide)

theorem Jumps.at_next {track : Track} {next : ℤ} {jump : Bool} (hnext : track.next = some next)
    (h : Jumps config track next jump) : jump = false := by
  rcases h with ⟨-, rfl⟩ | ⟨-, rfl⟩ | ⟨next', a, b, hnext', hne, -⟩
  · rfl
  · rfl
  · rw [hnext] at hnext'
    exact absurd (Option.some.inj hnext') hne

/-! ### What a track waits to offer -/

/-- The waiting real frame maps to `p`, which is no discontinuity. -/
structure AwaitsReal (config : SyncerConfig) (head : Option AvDecoderReadResult) (p : ℤ)
    (s : StepState) : Prop where
  closed : s.track.fillUntil = none
  mapped : ∃ input frame original shift shared, head = some input ∧ input.frame = some frame ∧
    rescale frame.pts input.timeBase s.track.timeBase = .ok original ∧
    s.clock.shift = some shared ∧ s.track.shift = some shift ∧ original + shift = p ∧
    ∀ desync shift', Adopts config s.track shared desync shift' → shift' = shift
  continuous : ∀ jump, Jumps config s.track p jump → jump = false

/-- Whatever a step on this head offers next, it offers at `p`. -/
inductive Awaits (config : SyncerConfig) (head : Option AvDecoderReadResult) (p : ℤ)
    (s : StepState) : Prop where
  | batch (hopen : s.track.fillUntil ≠ none) (hnext : s.track.next = some p)
      (hwhy : s.track.forwardFill = true ∨ ¬IsFrame head)
  | real (hreal : AwaitsReal config head p s)
  | silent (hclosed : s.track.fillUntil = none) (hpending : s.track.pendingRealPts = none)
      (hnext : s.track.next = some p) (hhead : ¬IsFrame head)

/-- A decision that offers at `p`, or nothing. -/
def Decision.OffersAt (config : SyncerConfig) (head : Option AvDecoderReadResult) (p : ℤ) :
    Decision → Prop
  | .done _ s' => Awaits config head p s'
  | .failed _ s' => Awaits config head p s'
  | .real _ pts s' => pts = p ∧ AwaitsReal config head p s'
  | .fill input s' => input = head ∧ s'.track.fillUntil ≠ none ∧ s'.track.next = some p ∧
      (s'.track.forwardFill = true ∨ ¬IsFrame head) ∧ (¬IsFrame head → s'.track.pendingRealPts = none)

/-! ### Carrying a decision out -/

/-- No offer was accepted. -/
def Refused (offered : List Offer) : Prop := ∀ o ∈ offered, o.answer ≠ .accept

omit [Libav] in
theorem not_refused (offered : List Offer) (frame : Frame) (source : OutputSource) :
    ¬Refused (offered ++ [⟨frame, source, .accept⟩]) :=
  fun h => h _ (List.mem_append_right _ (List.mem_singleton_self _)) rfl

theorem AwaitsReal.of_same {head : Option AvDecoderReadResult} (h : AwaitsReal config head p s)
    (htrack : s'.track = s.track) (hclock : s'.clock.shift = s.clock.shift) :
    AwaitsReal config head p s' := by
  refine ⟨?_, ?_, ?_⟩
  · rw [htrack]
    exact h.closed
  · rw [htrack, hclock]
    exact h.mapped
  · rw [htrack]
    exact h.continuous

theorem AwaitsReal.resumed (h : AwaitsReal config head p s) : AwaitsReal config head p (resumed s) := by
  obtain ⟨input, frame, original, shift, shared, hhead, hframe, horiginal, hclock, hshift, hpts, hstable⟩ :=
    h.mapped
  exact ⟨h.closed, ⟨input, frame, original, shift, shared, hhead, hframe, horiginal, hclock, hshift, hpts,
    fun desync shift' hadopt => hstable desync shift' ⟨hadopt.desync_eq, hadopt.shift_eq⟩⟩, h.continuous⟩

theorem Awaits.of_same {head : Option AvDecoderReadResult} (h : Awaits config head p s)
    (htrack : s'.track = s.track) (hclock : s'.clock.shift = s.clock.shift) :
    Awaits config head p s' := by
  cases h with
  | batch hopen hnext hwhy => exact .batch (by rwa [htrack]) (by rwa [htrack]) (by rwa [htrack])
  | real hreal => exact .real (hreal.of_same htrack hclock)
  | silent hclosed hpending hnext hhead =>
    exact .silent (by rwa [htrack]) (by rwa [htrack]) (by rwa [htrack]) hhead

/-- A refused real frame leaves the track as it was put up. -/
theorem RealEnd.refused {input : AvDecoderReadResult} {pts : ℤ}
    (h : RealEnd config video input pts now s r s') (hrefused : Refused s'.offered) :
    s'.track = s.track ∧ s'.clock.shift = s.clock.shift ∧
      ∀ result, r = .ok result → result.consumed = false := by
  cases h with
  | failed e => exact ⟨rfl, rfl, fun _ hresult => by cases hresult⟩
  | threw => exact ⟨rfl, s.clock.update_shift _ _, fun _ hresult => by cases hresult⟩
  | rejected => exact ⟨rfl, s.clock.update_shift _ _, fun _ hresult => by cases hresult; rfl⟩
  | accepted => exact absurd hrefused (not_refused _ _ _)
  | overflowed => exact absurd hrefused (not_refused _ _ _)

/-- A refused filler leaves its batch open or closes it; a batch for a forward jump hands over to the
real frame at the same timestamp. -/
theorem FillEnd.refused {input : Option AvDecoderReadResult} {pts : ℤ}
    (hdiff : 0 < config.options.maxStreamsDiff) (h : FillEnd config video input now s r s')
    (hrefused : Refused s'.offered) (hopen : s.track.fillUntil ≠ none) (hnext : s.track.next = some pts)
    (hwhy : s.track.forwardFill = true ∨ ¬IsFrame input)
    (hpending : ¬IsFrame input → s.track.pendingRealPts = none) : Awaits config input pts s' := by
  cases h with
  | failed e => exact .batch hopen hnext hwhy
  | threw => exact .batch hopen hnext hwhy
  | accepted => exact absurd hrefused (not_refused _ _ _)
  | overflowed => exact absurd hrefused (not_refused _ _ _)
  | finished _ _ _ hfinish =>
    rw [hfinish.next.2.2] at hrefused
    exact absurd hrefused (not_refused _ _ _)
  | rejected _ hfinish =>
    cases hfinish with
    | failed e hforward hline =>
      refine .batch ?_ (hline.next.trans hnext) (.inl (hline.forwardFill.trans hforward))
      rw [hline.fillUntil]
      exact hopen
    | timeout hforward =>
      rcases hwhy with hforward' | hhead
      · rw [show s.track.forwardFill = false from hforward] at hforward'
        cases hforward'
      · exact .silent rfl (hpending hhead) hnext hhead
    | @forward source frame original next shift shared until_ clock _ hinput hframe horiginal hnext'
        hshift hshared =>
      obtain rfl : pts = next := Option.some.inj (hnext.symm.trans hnext')
      refine .real ⟨rfl, ⟨source, frame, original, shift, shared, hinput, hframe, horiginal, rfl, rfl,
        ?_, ?_⟩, fun jump hjump => hjump.at_next hnext⟩
      · rw [subtract_ok hshift]
        omega
      · intro desync shift' hadopt
        refine Adopts.of_published hdiff ?_ ?_ hadopt
        · rfl
        · exact hshared

/-! ### Offering again -/

/-- A real frame put up through the shared shift would be put up there again. -/
theorem FollowPlan.awaits {input offered : AvDecoderReadResult} {frame : Frame} {original shared pts : ℤ}
    (hdiff : 0 < config.options.maxStreamsDiff) (hclosed : s.track.fillUntil = none)
    (hframe : input.frame = some frame)
    (horiginal : rescale frame.pts input.timeBase s.track.timeBase = .ok original)
    (h : FollowPlan config input original shared now s (.real offered pts s')) :
    AwaitsReal config (some input) pts s' := by
  cases h with
  | continuous hadopt hpts hjump hshared =>
    refine ⟨hclosed, ⟨input, frame, original, _, _, rfl, hframe, horiginal, rfl, rfl, (add_ok hpts).symm,
      fun desync' shift' => hadopt.again hdiff hshared⟩, fun jump hjump' => ?_⟩
    by_contra htrue
    have hfar := hjump'.discontinuous_iff.mp (Bool.not_eq_false _ ▸ htrue)
    exact absurd (hjump.discontinuous_iff.mpr hfar) (by decide)
  | backward hadopt hpts hjump hnext hbehind hshift hshared =>
    refine ⟨hclosed, ⟨input, frame, original, _, _, rfl, hframe, horiginal, rfl, rfl, ?_, ?_⟩,
      fun jump hjump' => hjump'.at_next hnext⟩
    · rw [subtract_ok hshift]
      omega
    · intro desync shift' hadopt'
      refine Adopts.of_published hdiff ?_ ?_ hadopt'
      · rfl
      · exact hshared

/-- A bootstrapping frame would be put up there again unless it is a discontinuity. -/
theorem BootstrapPlan.awaits {input offered : AvDecoderReadResult} {frame : Frame} {original pts : ℤ}
    (hdiff : 0 < config.options.maxStreamsDiff) (hclosed : s.track.fillUntil = none)
    (hframe : input.frame = some frame)
    (horiginal : rescale frame.pts input.timeBase s.track.timeBase = .ok original)
    (hnear : ¬Discontinuous config s.track pts)
    (h : BootstrapPlan input original now s (.real offered pts s')) :
    AwaitsReal config (some input) pts s' := by
  cases h with
  | anchored _ _ _ hshift hshared =>
    refine ⟨hclosed, ⟨input, frame, original, _, _, rfl, hframe, horiginal, rfl, rfl, ?_, ?_⟩,
      fun jump hjump' => ?_⟩
    · rw [subtract_ok hshift]
      omega
    · intro desync shift' hadopt'
      refine Adopts.of_published hdiff ?_ ?_ hadopt'
      · rfl
      · exact hshared
    · by_contra htrue
      exact hnear (hjump'.discontinuous_iff.mp (Bool.not_eq_false _ ▸ htrue))

/-- A head passes `ValidateInput`: only an end of file carries no frame. -/
def ValidHead (head : Option AvDecoderReadResult) : Prop :=
  ∀ input, head = some input → (input.status = .eof ↔ input.frame = none)

/-- **An awaited timestamp stays awaited.**  From a track that awaits `p`, every plan offers at `p` or
nothing. -/
theorem CorrectPlan.awaits {input : AvDecoderReadResult} {d : Decision}
    (hdiff : 0 < config.options.maxStreamsDiff) (hsame : SameBase video (some input) s.track)
    (hw : AwaitsReal config (some input) p s) (h : CorrectPlan config video input now s d) :
    d.OffersAt config (some input) p := by
  obtain ⟨hclosed, ⟨input', frame, original, shift, shared, hinput, hframe, horiginal, hclock, hshift,
    hpts, hstable⟩, hcontinuous⟩ := hw
  cases hinput
  have hagain : Awaits config (some input) p s :=
    .real ⟨hclosed, ⟨input, frame, original, shift, shared, rfl, hframe, horiginal, hclock, hshift,
      hpts, hstable⟩, hcontinuous⟩
  cases h with
  | failedBase e hbase =>
    exact absurd (hsame hbase.1 input rfl (by rw [hframe]; exact Option.some_ne_none _)) hbase.2
  | failedInput e hrebase =>
    obtain rfl : s = _ := (hrebase.eq_of_same hframe hsame).symm
    exact hagain
  | bootstrap hrebase _ _ hnone =>
    obtain rfl : s = _ := (hrebase.eq_of_same hframe hsame).symm
    rw [hclock] at hnone
    cases hnone
  | follow hrebase hframe' horiginal' hclock' hplan =>
    obtain rfl : s = _ := (hrebase.eq_of_same hframe hsame).symm
    rw [hclock] at hclock'
    cases hclock'
    rw [hframe] at hframe'
    cases hframe'
    rw [horiginal] at horiginal'
    cases horiginal'
    have hno : ∀ {desync shift' pts}, Adopts config s.track shared desync shift' →
        add original shift' = .ok pts → ¬Jumps config s.track pts true := by
      intro desync shift' pts hadopt hadd hjump
      rw [add_ok hadd, hstable _ _ hadopt, hpts] at hjump
      exact absurd (hcontinuous _ hjump) (by decide)
    cases hplan with
    | failed e => exact hagain
    | @failedMapped _ shift' e hadopt =>
      have htrack : { s.track with shift := some shift' } = s.track := by
        rw [hstable _ _ hadopt, ← hshift]
      show Awaits config (some input) p { s with track := { s.track with shift := some shift' } }
      rw [htrack]
      exact hagain
    | failedJump e hadopt hadd hjump => exact absurd hjump (hno hadopt hadd)
    | forward hadopt hadd hjump => exact absurd hjump (hno hadopt hadd)
    | retry hadopt hadd hjump => exact absurd hjump (hno hadopt hadd)
    | backward hadopt hadd hjump => exact absurd hjump (hno hadopt hadd)
    | @continuous _ _ pts _ hadopt hadd hjump hshared =>
      have heq : pts = p := by rw [add_ok hadd, hstable _ _ hadopt, hpts]
      refine ⟨heq, ?_⟩
      rw [← heq]
      have hplan : FollowPlan config input original shared now s (.real input pts _) :=
        .continuous hadopt hadd hjump hshared
      exact hplan.awaits hdiff hclosed hframe horiginal

theorem TimeoutPlan.awaits {d : Decision} (hclosed : s.track.fillUntil = none)
    (hpending : s.track.pendingRealPts = none) (hnext : s.track.next = some p)
    (h : TimeoutPlan config now s d) : d.OffersAt config none p := by
  have hhead : ¬IsFrame none := fun ⟨_, _, hnone, _⟩ => by cases hnone
  have hseeded : ∀ {next}, Seeds config s.track next → next = p := by
    rintro next (hsome | ⟨hnone, -⟩)
    · rw [hnext] at hsome
      exact (Option.some.inj hsome).symm
    · rw [hnext] at hnone
      cases hnone
  cases h with
  | failed e hnext' _ _ _ _ hfill hpending' =>
    refine .silent (hfill.trans hclosed) (hpending'.trans hpending) ?_ hhead
    rcases hnext' with hsame | ⟨next, hseed, hnext'⟩
    · exact hsame.trans hnext
    · rw [hnext', hseeded hseed]
  | idle _ hseed =>
    obtain rfl := hseeded hseed
    exact .silent hclosed hpending rfl hhead
  | fill _ hseed =>
    obtain rfl := hseeded hseed
    exact ⟨rfl, Option.some_ne_none _, rfl, .inr hhead, fun _ => hpending⟩

theorem StepPlan.awaits {d : Decision} (hdiff : 0 < config.options.maxStreamsDiff)
    (hsame : SameBase video head s.track) (hvalid : ValidHead head)
    (hheld : Pending s.track → IsFrame head) (hw : Awaits config head p s)
    (h : StepPlan config video head now s d) : d.OffersAt config head p := by
  have hpending : ¬IsFrame head → s.track.pendingRealPts = none := by
    intro hhead
    by_contra hsome
    exact hhead (hheld (.inl hsome))
  have hframe : ∀ {input}, head = some input → input.status ≠ .eof → IsFrame head := by
    intro input hhead hstatus
    cases hf : input.frame with
    | none => exact absurd ((hvalid input hhead).mpr hf) hstatus
    | some frame => exact ⟨input, frame, hhead, hf⟩
  cases hw with
  | batch hopen hnext hwhy =>
    cases h with
    | filling => exact ⟨rfl, hopen, hnext, hwhy, hpending⟩
    | suspended hclosed => exact absurd hclosed hopen
    | lostHead hclosed => exact absurd hclosed hopen
    | resume hclosed => exact absurd hclosed hopen
    | eof hclosed => exact absurd hclosed hopen
    | correct hclosed => exact absurd hclosed hopen
    | waiting hclosed => exact absurd hclosed hopen
    | timeout hclosed => exact absurd hclosed hopen
  | real hreal =>
    obtain ⟨input, frame, _, _, _, hinput, hf, -⟩ := hreal.mapped
    have hresumed := hreal.resumed
    cases h with
    | filling hopen => rw [hreal.closed] at hopen; cases hopen
    | suspended => exact .real hreal
    | lostHead _ _ hhead => rw [hinput] at hhead; cases hhead
    | resume _ _ _ hhead hplan =>
      subst hhead
      exact CorrectPlan.awaits (s := resumed s) hdiff hsame hresumed hplan
    | eof _ _ hhead heof =>
      rw [hinput] at hhead
      cases hhead
      rw [(hvalid _ hinput).mp heof] at hf
      cases hf
    | correct _ _ hhead _ hplan =>
      subst hhead
      exact hplan.awaits hdiff hsame hreal
    | waiting _ _ hhead => rw [hinput] at hhead; cases hhead
    | timeout _ _ hhead => rw [hinput] at hhead; cases hhead
  | silent hclosed hreal hnext hhead =>
    cases h with
    | filling hopen => rw [hclosed] at hopen; cases hopen
    | suspended _ hsome => rw [hreal] at hsome; cases hsome
    | lostHead _ hsome => rw [hreal] at hsome; cases hsome
    | resume _ hsome => rw [hreal] at hsome; cases hsome
    | eof => exact .silent hclosed hreal hnext hhead
    | correct _ _ hinput hstatus => exact absurd (hframe hinput hstatus) hhead
    | waiting => exact .silent hclosed hreal hnext hhead
    | timeout _ _ hnone _ hplan =>
      subst hnone
      exact hplan.awaits hclosed hreal hnext

/-- Carrying out a decision that awaits `p` offers at `p` only, and a refusal leaves `p` awaited. -/
theorem Decision.End.awaits {d : Decision} (hdiff : 0 < config.options.maxStreamsDiff)
    (hoffered : d.state.offered = []) (hw : d.OffersAt config head p)
    (h : d.End config video now r s') :
    (∀ o ∈ s'.offered, o.frame.pts = p) ∧ (Refused s'.offered → Awaits config head p s') := by
  cases h with
  | done result s' =>
    rw [show s'.offered = [] from hoffered]
    exact ⟨fun o ho => (by cases ho), fun _ => hw⟩
  | failed e s' =>
    rw [show s'.offered = [] from hoffered]
    exact ⟨fun o ho => (by cases ho), fun _ => hw⟩
  | real hend =>
    obtain ⟨rfl, hreal⟩ := hw
    refine ⟨fun o ho => (hend.lands hoffered ho).2.1, fun hrefused => ?_⟩
    obtain ⟨htrack, hclock, -⟩ := hend.refused hrefused
    exact .real (hreal.of_same htrack hclock)
  | fill hend =>
    obtain ⟨rfl, hopen, hnext, hwhy, hpending⟩ := hw
    refine ⟨fun o ho => ?_, fun hrefused => hend.refused hdiff hrefused hopen hnext hwhy hpending⟩
    have hat := (hend.lands hoffered ho).2.1
    rw [hnext] at hat
    exact (Option.some.inj hat).symm

/-- **One retry.** -/
theorem StepEnd.awaits (hdiff : 0 < config.options.maxStreamsDiff) (hs : s.offered = [])
    (hsame : SameBase video head s.track) (hvalid : ValidHead head)
    (hheld : Pending s.track → IsFrame head) (hw : Awaits config head p s)
    (h : StepEnd config video head now s r s') :
    (∀ o ∈ s'.offered, o.frame.pts = p) ∧ (Refused s'.offered → Awaits config head p s') := by
  obtain ⟨d, hplan, hend⟩ := h
  exact hend.awaits hdiff (hplan.unoffered.offered.trans hs)
    (hplan.awaits hdiff hsame hvalid hheld hw)

/-! ### The first offer -/

/-- The real frame of a fresh timeline, put up away from the expected timestamp. -/
def Bootstraps (config : SyncerConfig) (s : StepState) (p : ℤ) : Prop :=
  s.clock.shift = none ∧ Discontinuous config s.track p

/-- A batch for a timeout is open while a real frame waits. -/
def FillsLate (head : Option AvDecoderReadResult) (s : StepState) : Prop :=
  s.track.fillUntil ≠ none ∧ s.track.forwardFill = false ∧ IsFrame head

theorem StepPlan.real_offersAt {input : AvDecoderReadResult} {pts : ℤ}
    (hdiff : 0 < config.options.maxStreamsDiff) (hsame : SameBase video head s.track)
    (hfirst : ¬Bootstraps config s pts) (h : StepPlan config video head now s (.real input pts s')) :
    AwaitsReal config head pts s' := by
  obtain ⟨hclosed, rfl, hcorrect⟩ := h.real_corrects
  cases hcorrect with
  | bootstrap hrebase hframe horiginal hclock hplan =>
    obtain rfl : resumed s = _ := (hrebase.eq_of_same hframe hsame).symm
    exact BootstrapPlan.awaits (s := resumed s) hdiff hclosed hframe horiginal
      (fun hfar => hfirst ⟨hclock, hfar⟩) hplan
  | follow hrebase hframe horiginal _ hplan =>
    obtain rfl : resumed s = _ := (hrebase.eq_of_same hframe hsame).symm
    exact FollowPlan.awaits (s := resumed s) hdiff hclosed hframe horiginal hplan

theorem StepPlan.fill_offersAt {input : Option AvDecoderReadResult}
    (hheld : Pending s.track → IsFrame head) (hnext : s'.track.next = some p)
    (hlate : ¬FillsLate head s) (h : StepPlan config video head now s (.fill input s')) :
    Decision.OffersAt config head p (.fill input s') := by
  have hpending : ¬IsFrame head → s.track.pendingRealPts = none := by
    intro hhead
    by_contra hsome
    exact hhead (hheld (.inl hsome))
  rcases h.fill_cases with ⟨rfl, rfl, hopen⟩ | ⟨real, hhead, rfl, hclosed, hcorrect⟩ |
    ⟨rfl, rfl, hclosed, hreal, -, htimeout⟩
  · rw [Option.isSome_iff_ne_none] at hopen
    refine ⟨rfl, hopen, hnext, ?_, hpending⟩
    by_contra hwhy
    rw [not_or, Bool.not_eq_true, not_not] at hwhy
    exact hlate ⟨hopen, hwhy⟩
  · cases hcorrect with
    | bootstrap _ _ _ _ hplan => cases hplan
    | follow _ hframe _ _ hplan =>
      cases hplan
      exact ⟨rfl, Option.some_ne_none _, hnext, .inl rfl,
        fun hnot => absurd ⟨real, _, hhead, hframe⟩ hnot⟩
  · have hnone : ¬IsFrame none := fun ⟨_, _, h, _⟩ => by cases h
    cases htimeout
    exact ⟨rfl, Option.some_ne_none _, hnext, .inr hnone, fun _ => hreal⟩

/-- **A refused offer is awaited again.**  The exceptions are the first real frame of a timeline and a
filler for a timeout that the real frame has overtaken. -/
theorem StepEnd.first_awaits (hdiff : 0 < config.options.maxStreamsDiff) (hs : s.offered = [])
    (hsame : SameBase video head s.track) (hheld : Pending s.track → IsFrame head)
    (h : StepEnd config video head now s r s') {o : Offer} (ho : o ∈ s'.offered)
    (hrefused : Refused s'.offered) (hfirst : o.source = .input → ¬Bootstraps config s o.frame.pts)
    (hlate : o.source ≠ .input → ¬FillsLate head s) : Awaits config head o.frame.pts s' := by
  obtain ⟨d, hplan, hend⟩ := h
  have hoffered := hplan.unoffered.offered.trans hs
  refine (Decision.End.awaits hdiff hoffered (?_ : d.OffersAt config head o.frame.pts) hend).2 hrefused
  cases hend with
  | done => rw [show s'.offered = [] from hoffered] at ho; cases ho
  | failed e => rw [show s'.offered = [] from hoffered] at ho; cases ho
  | real hreal =>
    obtain ⟨hinput, rfl, -⟩ := hreal.lands hoffered ho
    exact ⟨rfl, hplan.real_offersAt hdiff hsame (hfirst hinput)⟩
  | fill hfill =>
    obtain ⟨hfiller, hnext, -⟩ := hfill.lands hoffered ho
    exact hplan.fill_offersAt hheld hnext (hlate hfiller)

/-! ### What a refused step leaves -/

theorem CorrectPlan.next {input : AvDecoderReadResult} {frame : Frame} {d : Decision}
    (hframe : input.frame = some frame) (hsame : SameBase video (some input) s.track)
    (h : CorrectPlan config video input now s d) : d.state.track.next = s.track.next := by
  cases h with
  | failedBase e hbase =>
    exact absurd (hsame hbase.1 input rfl (by rw [hframe]; exact Option.some_ne_none _)) hbase.2
  | failedInput e hrebase => rw [← hrebase.eq_of_same hframe hsame]; rfl
  | bootstrap hrebase _ _ _ hplan =>
    obtain rfl : s = _ := (hrebase.eq_of_same hframe hsame).symm
    cases hplan with
    | failed e hline => exact hline.next
    | anchored => rfl
  | follow hrebase _ _ _ hplan =>
    obtain rfl : s = _ := (hrebase.eq_of_same hframe hsame).symm
    cases hplan with
    | failedJump e _ _ _ hline => exact hline.next
    | _ => rfl

/-- Before its decision a step can only seed an unset expected timestamp, and only without a head. -/
theorem StepPlan.next {d : Decision} (hsame : SameBase video head s.track) (hvalid : ValidHead head)
    (hheld : Pending s.track → IsFrame head) (h : StepPlan config video head now s d) :
    d.state.track.next = s.track.next ∨ (s.track.next = none ∧ head = none) := by
  cases h with
  | resume _ hreal _ hhead hplan =>
    obtain ⟨input, frame, hinput, hframe⟩ := hheld (.inl (by rw [hreal]; exact Option.some_ne_none _))
    subst hhead
    cases hinput
    exact .inl (CorrectPlan.next (s := resumed s) hframe hsame hplan)
  | correct _ _ hhead hstatus hplan =>
    subst hhead
    cases hf : AvDecoderReadResult.frame _ with
    | none => exact absurd ((hvalid _ rfl).mpr hf) hstatus
    | some frame => exact .inl (hplan.next hf hsame)
  | timeout _ _ hhead _ hplan =>
    have hseeded : ∀ {next}, Seeds config s.track next → s.track.next = some next ∨
        (s.track.next = none ∧ head = none) := fun hseed => hseed.imp_right fun h => ⟨h.1, hhead⟩
    cases hplan with
    | failed e hnext =>
      rcases hnext with hnext | ⟨next, hseed, hnext⟩
      · exact .inl hnext
      · exact (hseeded hseed).imp_left fun h => hnext.trans h.symm
    | idle _ hseed => exact (hseeded hseed).imp_left Eq.symm
    | fill _ hseed => exact (hseeded hseed).imp_left Eq.symm
  | _ => exact .inl rfl

/-- A refused decision moves neither the expected timestamp nor `has_output`. -/
theorem Decision.End.refused {d : Decision} (hrefused : Refused s'.offered)
    (h : d.End config video now r s') :
    s'.track.next = d.state.track.next ∧ s'.track.hasOutput = d.state.track.hasOutput := by
  cases h with
  | done => exact ⟨rfl, rfl⟩
  | failed => exact ⟨rfl, rfl⟩
  | real hend =>
    rw [(hend.refused hrefused).1]
    exact ⟨rfl, rfl⟩
  | fill hend =>
    cases hend with
    | failed => exact ⟨rfl, rfl⟩
    | threw => exact ⟨rfl, rfl⟩
    | rejected _ hfinish => exact ⟨hfinish.next.1, hfinish.next.2.1⟩
    | accepted => exact absurd hrefused (not_refused _ _ _)
    | overflowed => exact absurd hrefused (not_refused _ _ _)
    | finished _ _ _ hfinish =>
      rw [hfinish.next.2.2] at hrefused
      exact absurd hrefused (not_refused _ _ _)

theorem StepEnd.refused_hasOutput (h : StepEnd config video head now s r s')
    (hrefused : Refused s'.offered) : s'.track.hasOutput = s.track.hasOutput := by
  obtain ⟨d, hplan, hend⟩ := h
  exact (hend.refused hrefused).2.trans hplan.unoffered.hasOutput

theorem StepEnd.refused_next (hsame : SameBase video head s.track) (hvalid : ValidHead head)
    (hheld : Pending s.track → IsFrame head) (h : StepEnd config video head now s r s')
    (hrefused : Refused s'.offered) :
    s'.track.next = s.track.next ∨ (s.track.next = none ∧ head = none) := by
  obtain ⟨d, hplan, hend⟩ := h
  rw [(hend.refused hrefused).1]
  exact hplan.next hsame hvalid hheld

/-- A step that offered something and was refused does not consume its head. -/
theorem StepEnd.refused_unconsumed (hs : s.offered = []) (h : StepEnd config video head now s r s')
    (hoffered : s'.offered ≠ []) (hrefused : Refused s'.offered) {result : SyncerStep}
    (hr : r = .ok result) : result.consumed = false := by
  obtain ⟨d, hplan, hend⟩ := h
  have hnone := hplan.unoffered.offered.trans hs
  cases hend with
  | done => exact absurd hnone hoffered
  | failed => exact absurd hnone hoffered
  | real hend => exact (hend.refused hrefused).2.2 result hr
  | fill hend => exact hend.unconsumed hr

/-! ### The shared shift stays -/

theorem FollowPlan.established {input : AvDecoderReadResult} {original shared : ℤ} {d : Decision}
    (hclock : s.clock.shift = some shared) (h : FollowPlan config input original shared now s d) :
    d.state.clock.shift ≠ none := by
  have hsome : s.clock.shift ≠ none := by rw [hclock]; exact Option.some_ne_none _
  cases h with
  | failedJump _ _ _ _ _ _ hkept => exact hkept
  | failed => exact hsome
  | failedMapped => exact hsome
  | forward => exact hsome
  | continuous => exact Option.some_ne_none _
  | retry => exact Option.some_ne_none _
  | backward => exact Option.some_ne_none _

theorem CorrectPlan.established {input : AvDecoderReadResult} {d : Decision}
    (hclock : s.clock.shift ≠ none) (h : CorrectPlan config video input now s d) :
    d.state.clock.shift ≠ none := by
  have hrebased : ∀ {s₁}, Rebase video input.timeBase s s₁ → s₁.clock.shift ≠ none := by
    intro s₁ hrebase
    cases hrebase <;> exact hclock
  cases h with
  | failedBase e _ hhalf =>
    rw [show (Decision.failed e _).state.clock = s.clock from hhalf.clock]
    exact hclock
  | failedInput e hrebase => exact hrebased hrebase
  | bootstrap hrebase _ _ hnone => exact absurd hnone (hrebased hrebase)
  | follow _ _ _ hsome hplan => exact hplan.established hsome

theorem StepPlan.established {d : Decision} (hclock : s.clock.shift ≠ none)
    (h : StepPlan config video head now s d) : d.state.clock.shift ≠ none := by
  cases h with
  | resume _ _ _ _ hplan => exact CorrectPlan.established (s := resumed s) hclock hplan
  | correct _ _ _ _ hplan => exact hplan.established hclock
  | timeout _ _ _ _ hplan =>
    have hsettled : (s.clock.settle now).shift ≠ none := by
      rw [ContinuityClock.settle_shift]
      exact hclock
    cases hplan with
    | failed e _ hsettle =>
      rw [show (Decision.failed e _).state.clock = _ from hsettle]
      exact hsettled
    | idle => exact hsettled
    | fill => exact hsettled
  | _ => exact hclock

theorem FinishEnd.established {input : Option AvDecoderReadResult} {lastPts : ℤ} {blocked : Bool}
    {r : Except Exception ℤ} (h : FinishEnd input lastPts now blocked s r s')
    (hclock : s.clock.shift ≠ none) : s'.clock.shift ≠ none := by
  cases h with
  | failed _ _ _ _ hkept => exact hkept hclock
  | timeout => exact hclock
  | forward => exact Option.some_ne_none _

/-- **Once established, the shared shift stays established.** -/
theorem StepEnd.established (hclock : s.clock.shift ≠ none)
    (h : StepEnd config video head now s r s') : s'.clock.shift ≠ none := by
  obtain ⟨d, hplan, hend⟩ := h
  have hd := hplan.established hclock
  cases hend with
  | done => exact hd
  | failed => exact hd
  | real hend =>
    rw [hend.shifts.2]
    exact hd
  | fill hend =>
    cases hend with
    | rejected _ hfinish => exact hfinish.established hd
    | finished _ _ _ hfinish => exact hfinish.established hd
    | _ => exact hd

/-! ### One offer at most -/

theorem StepEnd.offered_le_one (hs : s.offered = []) (h : StepEnd config video head now s r s')
    {o o' : Offer} (ho : o ∈ s'.offered) (ho' : o' ∈ s'.offered) : o = o' := by
  obtain ⟨d, hplan, hend⟩ := h
  have hoffered := hplan.unoffered.offered.trans hs
  have hone : s'.offered = d.state.offered ∨ ∃ o, s'.offered = d.state.offered ++ [o] := by
    cases hend with
    | done => exact .inl rfl
    | failed => exact .inl rfl
    | real hend =>
      cases hend with
      | failed => exact .inl rfl
      | _ => exact .inr ⟨_, rfl⟩
    | fill hend =>
      cases hend with
      | failed => exact .inl rfl
      | rejected _ hfinish => exact .inr ⟨_, hfinish.next.2.2⟩
      | finished _ _ _ hfinish => exact .inr ⟨_, hfinish.next.2.2⟩
      | _ => exact .inr ⟨_, rfl⟩
  rw [hoffered] at hone
  rcases hone with hnone | ⟨only, honly⟩
  · rw [hnone] at ho
    cases ho
  · rw [honly, List.nil_append, List.mem_singleton] at ho ho'
    exact ho.trans ho'.symm

theorem StepEnd.refused_of (hs : s.offered = []) (h : StepEnd config video head now s r s') {o : Offer}
    (ho : o ∈ s'.offered) (hrefused : o.answer ≠ .accept) : Refused s'.offered := by
  intro o' ho'
  rw [← h.offered_le_one hs ho ho']
  exact hrefused

/-- A refused filler leaves the expected timestamp at its own. -/
theorem StepEnd.refused_filler (hs : s.offered = []) (h : StepEnd config video head now s r s')
    {o : Offer} (ho : o ∈ s'.offered) (hrefused : Refused s'.offered) (hfiller : o.source ≠ .input) :
    s'.track.next = some o.frame.pts := by
  obtain ⟨d, hplan, hend⟩ := h
  have hoffered := hplan.unoffered.offered.trans hs
  rw [(hend.refused hrefused).1]
  cases hend with
  | done => rw [show s'.offered = [] from hoffered] at ho; cases ho
  | failed => rw [show s'.offered = [] from hoffered] at ho; cases ho
  | real hend => exact absurd (hend.lands hoffered ho).1 hfiller
  | fill hend => exact (hend.lands hoffered ho).2.1

/-- A step that offers a real frame has a head. -/
theorem StepEnd.real_head (hs : s.offered = []) (h : StepEnd config video head now s r s') {o : Offer}
    (ho : o ∈ s'.offered) (hreal : o.source = .input) : head ≠ none := by
  obtain ⟨d, hplan, hend⟩ := h
  have hoffered := hplan.unoffered.offered.trans hs
  cases hend with
  | done => rw [show s'.offered = [] from hoffered] at ho; cases ho
  | failed => rw [show s'.offered = [] from hoffered] at ho; cases ho
  | real => rw [hplan.real_corrects.2.1]; exact Option.some_ne_none _
  | fill hend => exact absurd hreal (hend.lands hoffered ho).1

/-- With a head in its unit the track keeps its time base. -/
theorem StepEnd.same_timeBase (hsame : SameBase video head s.track) (hvalid : ValidHead head)
    (hheld : Pending s.track → IsFrame head) (h : StepEnd config video head now s r s') :
    s'.track.timeBase = s.track.timeBase := by
  rcases h.timeBase with hbase | ⟨input, hvideo, hhead, hreal, hcmp, -⟩
  · exact hbase
  · refine absurd (hsame hvideo input hhead fun hnone => ?_) hcmp
    rcases hreal with hpending | hstatus
    · obtain ⟨input', frame, hhead', hframe⟩ := hheld (.inl hpending)
      rw [hhead] at hhead'
      cases hhead'
      rw [hnone] at hframe
      cases hframe
    · exact hstatus ((hvalid input hhead).mpr hnone)

end SyncerTiming

namespace Session

open SyncerTiming

variable {config : SyncerConfig} {Promise : StepCall → Prop} {session session' : Session}
  {call : StepCall}

theorem Admissible.validHead (h : session.Admissible call) : ValidHead call.head := by
  intro input hhead
  refine ⟨fun heof => validateInput_eof (h.input hhead) heof, fun hnone => ?_⟩
  by_contra hstatus
  obtain ⟨frame, hvalid⟩ := validateInput_ok (h.input hhead) hstatus
  rw [hvalid.frame_eq] at hnone
  cases hnone

theorem Admissible.held (h : session.Admissible call)
    (hreach : (system config Promise).Reachable session) :
    Pending (session.track call.video) → IsFrame call.head :=
  fun hpending => IsFrame.retained h (holdsFrames hreach _ hpending)

/-- Steps on one track with one head, and what they offer. -/
def retries (video : Bool) (head : Option AvDecoderReadResult) : Transition Session Offer where
  init _ := True
  step session es session' := ∃ call, session.Admissible call ∧ call.video = video ∧
    call.head = head ∧ es = (session.outcome call).offered ∧ session' = session.after call

/-- What the retries of one head start from and keep. -/
structure Retrying (config : SyncerConfig) (video : Bool) (head : Option AvDecoderReadResult)
    (session : Session) : Prop where
  reachable : (system config fun _ => True).Reachable session
  sameBase : SameBase video head (session.track video)

theorem Retrying.after (h : Retrying config call.video call.head session)
    (hadmissible : session.Admissible call) :
    Retrying config call.video call.head (session.after call) := by
  obtain ⟨final, hcalls⟩ := session.calls hadmissible
  refine ⟨.step h.reachable ⟨call, hadmissible, trivial, rfl, rfl⟩, ?_⟩
  intro hvideo input hhead hframe
  rw [hcalls.track, hcalls.ends.same_timeBase h.sameBase hadmissible.validHead
    (hadmissible.held h.reachable)]
  exact h.sameBase hvideo input hhead hframe

theorem maxStreamsDiff_pos (hreach : (system config Promise).Reachable session) :
    0 < session.config.options.maxStreamsDiff := by
  rw [(configured hreach).options]
  exact (valid hreach).maxStreamsDiff

/-- What one refused step keeps, along any number of retries. -/
theorem retries_induct (Inv : Session → Prop) {video : Bool} {head : Option AvDecoderReadResult}
    {es : List Offer} (h : Retrying config video head session)
    (hrun : (retries video head).Run session es session') (hrefused : Refused es) (hinit : Inv session)
    (hstep : ∀ (session : Session) (call : StepCall) (final : StepState),
      Retrying config call.video call.head session → session.Admissible call →
      call.video = video → call.head = head → session.Calls call final → Refused final.offered →
      Inv session → Inv (session.after call)) :
    Retrying config video head session' ∧ Inv session' := by
  induction hrun with
  | refl => exact ⟨h, hinit⟩
  | snoc _ hlast ih =>
    obtain ⟨call, hadmissible, rfl, rfl, rfl, rfl⟩ := hlast
    obtain ⟨hretrying, hinv⟩ := ih fun o ho => hrefused o (List.mem_append_left _ ho)
    obtain ⟨final, hcalls⟩ := Session.calls hadmissible
    refine ⟨hretrying.after hadmissible, hstep _ call final hretrying hadmissible rfl rfl hcalls ?_ hinv⟩
    rw [← hcalls.offered]
    exact fun o ho => hrefused o (List.mem_append_right _ ho)

theorem Calls.view {final : StepState} (h : session.Calls call final) :
    ((session.after call).view call.video).track = final.track ∧
      ((session.after call).view call.video).clock = final.clock := ⟨h.track, h.clock⟩

/-- **Awaiting survives every retry.** -/
theorem retries_awaits {video : Bool} {head : Option AvDecoderReadResult} {p : ℤ} {es : List Offer}
    (h : Retrying config video head session)
    (hrun : (retries video head).Run session es session') (hrefused : Refused es)
    (hw : Awaits session.config head p (session.view video)) :
    Retrying config video head session' ∧ Awaits session'.config head p (session'.view video) := by
  refine retries_induct (fun t => Awaits t.config head p (t.view video)) h hrun hrefused hw ?_
  rintro t call final hretrying hadmissible rfl rfl hcalls hfinal hw
  have hawaits := hcalls.ends.awaits (maxStreamsDiff_pos hretrying.reachable) rfl hretrying.sameBase
    hadmissible.validHead (hadmissible.held hretrying.reachable) hw
  rw [hcalls.config]
  exact (hawaits.2 hfinal).of_same hcalls.view.1 (congrArg _ hcalls.view.2)

/-- **Rejecting an output is transparent.**  A step whose output is refused keeps `has_output` and its head,
and moves the expected timestamp only by seeding it.  Whatever the next steps with the same head offer, and
however often it is refused in turn, it is offered at the same timestamp; the first acceptance moves the
expected timestamp to its end.  A filler for a timeout that a real frame has overtaken may be replaced by
that frame, which is then put up near it; the first real frame of a timeline may be preceded by fillers. -/
theorem rejection_transparent (hreach : (system config fun _ => True).Reachable session)
    (hadmissible : session.Admissible call)
    (hsame : SameBase call.video call.head (session.track call.video)) {o : Offer}
    (ho : o ∈ (session.outcome call).offered) (hanswer : o.answer ≠ .accept) :
    (session.trackAfter call).hasOutput = (session.track call.video).hasOutput ∧
    (∀ result, (session.outcome call).result = .ok result → result.consumed = false) ∧
    ((session.trackAfter call).next = (session.track call.video).next ∨
      (session.track call.video).next = none ∧ call.head = none ∧
        (session.trackAfter call).next = some o.frame.pts) ∧
    ∀ es session', (retries call.video call.head).Run (session.after call) es session' → Refused es →
      ∀ again : StepCall, session'.Admissible again → again.video = call.video →
        again.head = call.head → ∀ o' ∈ (session'.outcome again).offered,
          (o'.answer = .accept → Lands o' (session'.outcome again).result (session'.trackAfter again)) ∧
          ((o.source = .input → ¬Bootstraps session.config (session.view call.video) o.frame.pts) →
            (o.source ≠ .input → ¬FillsLate call.head (session.view call.video)) →
            o'.frame.pts = o.frame.pts) ∧
          (o.source ≠ .input → session.clock.shift ≠ none →
            Near session.config (session.track call.video).timeBase o'.frame.pts o.frame.pts) := by
  obtain ⟨final, hcalls⟩ := session.calls hadmissible
  have hdiff := maxStreamsDiff_pos hreach
  have hretrying : Retrying config call.video call.head session := ⟨hreach, hsame⟩
  have hheld := hadmissible.held hreach
  have ho' := ho
  rw [hcalls.offered] at ho'
  have hrefused := hcalls.ends.refused_of rfl ho' hanswer
  have hnext : final.track.next = (session.track call.video).next ∨
      (session.track call.video).next = none ∧ call.head = none ∧
        final.track.next = some o.frame.pts := by
    rcases hcalls.ends.refused_next hsame hadmissible.validHead hheld hrefused with h | ⟨hnone, hhead⟩
    · exact .inl h
    · refine .inr ⟨hnone, hhead, hcalls.ends.refused_filler rfl ho' hrefused fun hreal => ?_⟩
      exact hcalls.ends.real_head rfl ho' hreal hhead
  rw [trackAfter, hcalls.track]
  refine ⟨hcalls.ends.refused_hasOutput hrefused, fun result hr => ?_, hnext, ?_⟩
  · exact hcalls.ends.refused_unconsumed rfl (List.ne_nil_of_mem ho') hrefused hr
  intro es session' hrun hes again hagain hvideo hhead o₂ ho₂
  obtain ⟨final', hcalls'⟩ := Session.calls hagain
  rw [hcalls'.offered] at ho₂
  rw [trackAfter, hcalls'.track]
  refine ⟨fun haccept => hcalls'.ends.lands rfl ho₂ haccept, fun hfirst hlate => ?_,
    fun hfiller hshift => ?_⟩
  · have hawaits := hcalls.ends.first_awaits hdiff rfl hsame hheld ho' hrefused hfirst hlate
    rw [← hcalls.config] at hawaits
    obtain ⟨hagain', hw⟩ := retries_awaits (hretrying.after hadmissible) hrun hes
      (hawaits.of_same hcalls.view.1 (congrArg _ hcalls.view.2))
    rw [← hvideo, ← hhead] at hagain' hw
    exact (hcalls'.ends.awaits (maxStreamsDiff_pos hagain'.reachable) rfl hagain'.sameBase
      hagain.validHead (hagain.held hagain'.reachable) hw).1 o₂ ho₂
  · -- The expected timestamp stays at the refused filler, and every offer is near it.
    have hinit : ((session.after call).track call.video).next = some o.frame.pts ∧
        (session.after call).clock.shift ≠ none ∧
        ((session.after call).track call.video).timeBase = (session.track call.video).timeBase ∧
        (session.after call).config = session.config := by
      rw [hcalls.track, hcalls.clock]
      exact ⟨hcalls.ends.refused_filler rfl ho' hrefused hfiller, hcalls.ends.established hshift,
        hcalls.ends.same_timeBase hsame hadmissible.validHead hheld, hcalls.config⟩
    obtain ⟨hagain', hat, hclock, hbase, hconfig⟩ := retries_induct
      (fun t => (t.track call.video).next = some o.frame.pts ∧ t.clock.shift ≠ none ∧
        (t.track call.video).timeBase = (session.track call.video).timeBase ∧
        t.config = session.config)
      (hretrying.after hadmissible) hrun hes hinit (by
        rintro t c final hretry hadm hv hh hc hfinal ⟨hat, hclock, hbase, hconfig⟩
        rw [← hv] at hat hbase ⊢
        rw [hc.track, hc.clock, hc.config]
        refine ⟨?_, hc.ends.established hclock, ?_, hconfig⟩
        · rcases hc.ends.refused_next hretry.sameBase hadm.validHead (hadm.held hretry.reachable) hfinal
            with h | ⟨hnone, -⟩
          · exact h.trans hat
          · rw [view_track, hat] at hnone
            cases hnone
        · exact (hc.ends.same_timeBase hretry.sameBase hadm.validHead
            (hadm.held hretry.reachable)).trans hbase)
    rw [← hvideo] at hat hbase hagain'
    rw [← hhead] at hagain'
    rw [← hvideo, ← hbase, ← hconfig]
    exact (hcalls'.ends.continuous (maxStreamsDiff_pos hagain'.reachable) rfl hclock hagain'.sameBase
      ho₂ hat).1

end Session

end MwStreamer

namespace MwStreamer.Session

open SyncerTiming

attribute [local instance] Libav.reference

/-- A step without a head. -/
def emptyCall (video : Bool) (now : ℤ) : StepCall :=
  { video := video, head := none, now := now, onOutput := none }

/-- The call with a caller that has no space. -/
def refusing (call : StepCall) : StepCall := { call with onOutput := some fun _ => .reject }

/-- A refused block comes back where it was, and its acceptance moves the track to its end. -/
theorem rejection_transparent_block : ∃ session : Session,
    ∃ o ∈ (session.outcome (refusing (blockCall 48000 0))).offered,
    ∃ o' ∈ ((session.after (refusing (blockCall 48000 0))).outcome (blockCall 48000 0)).offered,
      o'.frame.pts = o.frame.pts := by
  have hrun : ∃ session ∈ playback audioOnly (fun _ => True) [],
      session.Admissible (refusing (blockCall 48000 0)) ∧
      (session.after (refusing (blockCall 48000 0))).Admissible (blockCall 48000 0) ∧
      (session.track false).next = some 0 ∧
      ∃ o ∈ (session.outcome (refusing (blockCall 48000 0))).offered,
        o.answer ≠ .accept ∧ o.source = .input ∧ o.frame.pts = 0 ∧
      ∃ o' ∈ ((session.after (refusing (blockCall 48000 0))).outcome (blockCall 48000 0)).offered,
        o'.answer = .accept := by
    decide +kernel
  obtain ⟨session, hplay, hadmissible, hagain, hnext, o, ho, hanswer, hreal, hpts, o', ho', -⟩ := hrun
  have hsame : SameBase false (refusing (blockCall 48000 0)).head (session.track false) := nofun
  have hfirst : ¬Bootstraps session.config (session.view false) o.frame.pts := by
    rintro ⟨-, next, hat, hne, -⟩
    rw [view_track, hnext] at hat
    exact hne (hpts.trans (Option.some.inj hat))
  have hrest := (rejection_transparent (playback_reachable hplay) hadmissible hsame ho hanswer).2.2.2
    [] _ (.refl _) (fun _ h => absurd h List.not_mem_nil) (blockCall 48000 0) hagain rfl rfl o' ho'
  exact ⟨session, o, ho, o', ho', hrest.2.1 (fun _ => hfirst) fun hfiller => absurd hreal hfiller⟩

/-- What a caller relies on after a refusal, for the very next step. -/
def Transparent (session : Session) (call again : StepCall) : Prop :=
  ∀ o ∈ (session.outcome call).offered, o.answer ≠ .accept →
    (session.trackAfter call).next = (session.track call.video).next ∧
    ∀ o' ∈ ((session.after call).outcome again).offered, o'.frame.pts = o.frame.pts

instance decidableTransparent (session : Session) (call again : StepCall) :
    Decidable (Transparent session call again) := by
  unfold Transparent
  infer_instance

/-- The picture at `pts` of a source with fifty pictures a second. -/
def fastPictureCall (pts : ℤ) : StepCall :=
  { video := true, head := some (videoInput ⟨50, 1⟩ pts), now := 0, onOutput := none }

/-- Refusals that are not transparent: the real frame replaces a filler for a timeout and starts ten samples
later; the first real frame is preceded by fillers; a time base changes; a timeout seeds the track. -/
theorem rejection_not_transparent :
    (∃ session call, (system audioOnly fun _ => True).Reachable session ∧ session.Admissible call ∧
      (session.after call).Admissible call ∧ ¬Transparent session call call) ∧
    (∃ session call, (system avConfig fun _ => True).Reachable session ∧ session.Admissible call ∧
      session.clock.shift = none ∧ ¬Transparent session call call) ∧
    (∃ session call, (system avConfig fun _ => True).Reachable session ∧ session.Admissible call ∧
      (session.trackAfter call).timeBase ≠ (session.track call.video).timeBase ∧
      ¬Transparent session call call) ∧
    (∃ session call,
      (system { avConfig with options := { forwardStartShift := true } } fun _ => True).Reachable session ∧
      session.Admissible call ∧ (session.track call.video).next = none ∧
      ¬Transparent session call call) := by
  refine ⟨?_, ?_, ?_, ?_⟩
  · have hrun : ∃ session ∈ playback audioOnly (fun _ => True) [blockCall 48000 0, emptyCall false 3000000],
        session.Admissible (refusing { blockCall 48000 2058 with now := 3000000 }) ∧
        (session.after (refusing { blockCall 48000 2058 with now := 3000000 })).Admissible
          (refusing { blockCall 48000 2058 with now := 3000000 }) ∧
        ¬Transparent session (refusing { blockCall 48000 2058 with now := 3000000 })
          (refusing { blockCall 48000 2058 with now := 3000000 }) := by
      decide +kernel
    obtain ⟨session, hplay, h⟩ := hrun
    exact ⟨session, _, playback_reachable hplay, h⟩
  · have hrun : ∃ session ∈ playback avConfig (fun _ => True) [emptyCall false 4000000],
        session.Admissible (refusing { pictureCall 0 with now := 7000000 }) ∧ session.clock.shift = none ∧
        ¬Transparent session (refusing { pictureCall 0 with now := 7000000 })
          (refusing { pictureCall 0 with now := 7000000 }) := by
      decide +kernel
    obtain ⟨session, hplay, h⟩ := hrun
    exact ⟨session, _, playback_reachable hplay, h⟩
  · have hrun : ∃ session ∈ playback avConfig (fun _ => True) [pictureCall 0],
        session.Admissible (refusing (fastPictureCall 2)) ∧
        (session.trackAfter (refusing (fastPictureCall 2))).timeBase ≠ (session.track true).timeBase ∧
        ¬Transparent session (refusing (fastPictureCall 2)) (refusing (fastPictureCall 2)) := by
      decide +kernel
    obtain ⟨session, hplay, h⟩ := hrun
    exact ⟨session, _, playback_reachable hplay, h⟩
  · have hrun : ∃ session ∈ playback { avConfig with options := { forwardStartShift := true } }
          (fun _ => True) [emptyCall true 4000000],
        session.Admissible (refusing (emptyCall false 7000000)) ∧ (session.track false).next = none ∧
        ¬Transparent session (refusing (emptyCall false 7000000)) (refusing (emptyCall false 7000000)) := by
      decide +kernel
    obtain ⟨session, hplay, h⟩ := hrun
    exact ⟨session, _, playback_reachable hplay, h⟩

end MwStreamer.Session
