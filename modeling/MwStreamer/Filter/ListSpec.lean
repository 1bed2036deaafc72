import MwStreamer.Library.SampleHold
import MwStreamer.Library.Transition
import MwStreamer.Filter.ForceFps

/-!
# The output list of the frame rate filter

What a reader of `ForceFps` gets is fixed by the accepted inputs alone: it is `listSpec`, the sample and hold
of the pictures on the grid of output ticks, cut at end-of-file marks and at leaps of more than one tick and
half a second.  However pushes and reads alternate, and however often the queue was full, the results so far
are a prefix of that list, and all of it once a read finds nothing.

The filter measures a leap with `av_compare_ts`, which is exact only while the leap is an `int64_t` in half
seconds.  `Measured` says so of the accepted inputs; below two frames per second there are leaps that it
excludes, and on them the filter fills instead of reanchoring.
-/

namespace MwStreamer

open SampleHold

/-- Both components of the frame rate are `int`s. -/
def ForceFpsConfig.IsInt (config : ForceFpsConfig) : Prop :=
  config.fps.num ≤ intMax ∧ config.fps.den ≤ intMax

instance (config : ForceFpsConfig) : Decidable config.IsInt := inferInstanceAs (Decidable (_ ∧ _))

namespace ForceFps

/-! ### The specification -/

/-- The output slot of a picture: its timestamp rescaled to the inverse frame rate. -/
def slotOf (timeBase : AVRational) (input : AvDecoderReadResult) : ℤ :=
  scaled (input.frame.getD {}).pts input.timeBase timeBase

/-- An accepted input on the grid. -/
def item (timeBase : AVRational) (input : AvDecoderReadResult) :
    Item AvDecoderReadResult AvDecoderReadResult :=
  if input.status = .eof then .mark input else .sample (slotOf timeBase input) input

/-- The picture of an input in an output slot. -/
def pictureAt (timeBase : AVRational) (slot : ℤ) (input : AvDecoderReadResult) (again : Bool) :
    AvDecoderReadResult :=
  { input with
    frame := input.frame.map fun frame =>
      { frame with
        pts := slot
        bestEffortTimestamp := slot
        pktDts := avNoptsValue
        timeBase := timeBase
        duration := 1
        a53Cc := !again && frame.a53Cc }
    timeBase := timeBase }

/-- An end of file in the output time base. -/
def endAt (timeBase : AVRational) (input : AvDecoderReadResult) : AvDecoderReadResult :=
  { input with
    endPts :=
      if input.endPts = avNoptsValue then avNoptsValue
      else scaled input.endPts input.timeBase timeBase
    timeBase := timeBase }

def render (timeBase : AVRational) :
    Shown AvDecoderReadResult AvDecoderReadResult → AvDecoderReadResult
  | .sample slot input again => pictureAt timeBase slot input again
  | .mark input => endAt timeBase input

/-- A step back, or forward by more than one tick and half a second. -/
def leaps (timeBase : AVRational) (last pts : ℤ) : Bool :=
  decide (pts < last ∨ timeBase.den < 2 * (pts - last - 1) * timeBase.num)

/-- **The output list of a list of accepted inputs.** -/
def listSpec (timeBase : AVRational) (inputs : List AvDecoderReadResult) : List AvDecoderReadResult :=
  (spec (leaps timeBase) (inputs.map (item timeBase))).map (render timeBase)

/-- The step between two slots, less one tick, is an `int64_t` in half seconds.  Steps that are no `int64_t`
in ticks are cut without being measured. -/
def MeasuredStep (timeBase : AVRational) (last pts : ℤ) : Prop :=
  last ≤ pts → pts - last ≤ int64Max →
    2 * (pts - last - 1) * timeBase.num ≤ int64Max * timeBase.den

instance (timeBase : AVRational) (last pts : ℤ) : Decidable (MeasuredStep timeBase last pts) :=
  inferInstanceAs (Decidable (_ → _ → _))

/-- Every step between two consecutive pictures is measured. -/
def Measured (timeBase : AVRational) (inputs : List AvDecoderReadResult) : Prop :=
  inputs.IsChain fun x y => x.status ≠ .eof → y.status ≠ .eof →
    MeasuredStep timeBase (slotOf timeBase x) (slotOf timeBase y)

instance (timeBase : AVRational) (inputs : List AvDecoderReadResult) :
    Decidable (Measured timeBase inputs) :=
  inferInstanceAs (Decidable (inputs.IsChain _))

/-! ### Leaps -/

theorem avReduce_positive {num den : ℤ} (hnum : 0 < num) (hden : 0 < den) :
    (avReduce num den).Positive := by
  have hgcd : 0 < (Int.gcd num den : ℤ) := by
    exact_mod_cast Int.gcd_pos_of_ne_zero_left den hnum.ne'
  constructor
  · exact Int.ediv_pos_of_pos_of_dvd hnum hgcd.le (Int.gcd_dvd_left num den)
  · exact Int.ediv_pos_of_pos_of_dvd hden hgcd.le (Int.gcd_dvd_right num den)

theorem avReduce_den_le {num den : ℤ} (hden : 0 < den) : (avReduce num den).den ≤ den :=
  Int.ediv_le_self _ hden.le

theorem create_ok {config : ForceFpsConfig} {impl : ForceFps} (h : create config = .ok impl) :
    config.fps.Positive ∧ impl
      = { capacity := config.inputCapacity, timeBase := avReduce config.fps.den config.fps.num } := by
  unfold create at h
  split at h
  · cases h
  · rename_i hvalid
    rw [not_or, Decidable.not_not] at hvalid
    cases h
    exact ⟨hvalid.1, rfl⟩

variable [Libav]

theorem discontinuous_le {timeBase : AVRational} {last pts : ℤ}
    (h : discontinuous timeBase last pts = false) : last ≤ pts := by
  by_contra hlt
  rw [discontinuous, if_pos (by omega)] at h
  cases h

/-- **Measured leaps are recognised.** -/
theorem discontinuous_eq_leaps {timeBase : AVRational} (htb : timeBase.Positive)
    (hint : timeBase.den ≤ intMax) {last pts : ℤ} (h : MeasuredStep timeBase last pts) :
    discontinuous timeBase last pts = leaps timeBase last pts := by
  obtain ⟨hnum, hden⟩ := htb
  rw [discontinuous, leaps]
  by_cases hback : pts < last
  · simp [hback]
  · rw [if_neg hback]
    have hle : last ≤ pts := by omega
    by_cases hwide : int64Max < pts - last
    · -- Half seconds are at most `int64_t` many ticks, so a step that is no `int64_t` is a leap.
      have hleap : timeBase.den < 2 * (pts - last - 1) * timeBase.num := by
        have hone : 2 * (pts - last - 1) * 1 ≤ 2 * (pts - last - 1) * timeBase.num :=
          Int.mul_le_mul_of_nonneg_left (by omega) (by unfold int64Max at hwide; omega)
        unfold int64Max at hwide
        unfold intMax at hint
        omega
      simp [hwide, hleap]
    · simp only [if_neg hwide]
      by_cases hone : 1 < pts - last
      · have hhalf : Representable 1 ⟨1, 2⟩ timeBase := by
          unfold Representable int64Min int64Max
          unfold intMax at hint
          dsimp only
          constructor <;> omega
        have hstep : Representable (pts - last - 1) timeBase ⟨1, 2⟩ := by
          have hm := h hle (by omega)
          have hpos : 0 ≤ (pts - last - 1) * timeBase.num := Int.mul_nonneg (by omega) hnum.le
          unfold Representable
          unfold int64Max at hm
          unfold int64Min int64Max
          dsimp only
          constructor
          · nlinarith
          · nlinarith
        have hexact := Libav.avCompareTs_gt (pts - last - 1) timeBase 1 ⟨1, 2⟩ ⟨hnum, hden⟩
          (by decide) hstep hhalf
        have heq : 1 * (1 * timeBase.den) < (pts - last - 1) * (timeBase.num * 2) ↔
            pts < last ∨ timeBase.den < 2 * (pts - last - 1) * timeBase.num := by
          constructor
          · intro hlt
            exact .inr (by nlinarith)
          · rintro (hlt | hlt)
            · omega
            · nlinarith
        simp only [hone, decide_true, Bool.true_and]
        exact decide_eq_decide.mpr (hexact.trans heq)
      · -- A step of at most one tick is within the tolerance.
        have hnone : ¬(pts < last ∨ timeBase.den < 2 * (pts - last - 1) * timeBase.num) := by
          rintro (hlt | hlt)
          · omega
          · have : 2 * (pts - last - 1) * timeBase.num ≤ 0 :=
              Int.mul_nonpos_of_nonpos_of_nonneg (by omega) hnum.le
            omega
        simp [hone, hnone]

/-! ### What the queue still shows -/

/-- An input `TryPushFrame` lets pass. -/
inductive Accepted (timeBase : AVRational) (input : AvDecoderReadResult) : Prop where
  | picture (frame : Frame) (hstatus : input.status = .frame) (hframe : input.frame = some frame)
      (hslot : rescaleChecked "ForceFps 时间戳超出可表示范围" frame.pts input.timeBase timeBase
        = .ok (slotOf timeBase input))
  | eof (hstatus : input.status = .eof)
      (hend : input.endPts ≠ avNoptsValue → rescaleChecked "ForceFps 时间戳超出可表示范围" input.endPts
        input.timeBase timeBase = .ok (scaled input.endPts input.timeBase timeBase))

theorem rescale_ok {what : String} {value r : ℤ} {bq cq : AVRational} (hb : bq.Positive)
    (hc : cq.Positive) (h : rescaleChecked what value bq cq = .ok r) :
    rescaleChecked what value bq cq = .ok (scaled value bq cq) := by
  rw [← ((rescaleChecked_ok_iff hb hc).mp h).1]
  exact h

theorem checkInput_ok {impl : ForceFps} (htb : impl.timeBase.Positive) {input : AvDecoderReadResult}
    (h : impl.checkInput input = .ok ()) : Accepted impl.timeBase input := by
  unfold checkInput at h
  split at h
  · rename_i hstatus
    split at h
    · cases h
    · rename_i frame hframe
      by_cases hbad : frame.nbSamples ≠ 0 ∨ frame.width ≤ 0 ∨ frame.height ≤ 0 ∨
          frame.pts = avNoptsValue ∨ ¬input.timeBase.Positive
      · simp only [if_pos hbad] at h
        cases h
      · simp only [if_neg hbad, ForceFps.rescale] at h
        have hsource : input.timeBase.Positive := by
          by_contra hneg
          exact hbad (.inr (.inr (.inr (.inr hneg))))
        cases hr : rescaleChecked "ForceFps 时间戳超出可表示范围" frame.pts input.timeBase
            impl.timeBase with
        | error e => rw [hr] at h; cases h
        | ok r =>
          refine .picture frame hstatus hframe ?_
          rw [slotOf, hframe]
          exact rescale_ok hsource htb hr
  · rename_i hstatus
    by_cases hbad : input.frame.isSome ∨ (input.endPts ≠ avNoptsValue ∧ ¬input.timeBase.Positive)
    · simp only [if_pos hbad] at h
      cases h
    · simp only [if_neg hbad, ForceFps.rescale] at h
      refine .eof hstatus fun hend => ?_
      have hsource : input.timeBase.Positive := by
        by_contra hneg
        exact hbad (.inr ⟨hend, hneg⟩)
      rw [if_pos hend] at h
      cases hr : rescaleChecked "ForceFps 时间戳超出可表示范围" input.endPts input.timeBase
          impl.timeBase with
      | error e => rw [hr] at h; cases h
      | ok r =>
        rw [← hr]
        exact rescale_ok hsource htb hr
  · cases h

/-- The history of the filter as a hold on the grid. -/
def hold (impl : ForceFps) : Option (Hold AvDecoderReadResult) :=
  match impl.last, impl.lastInputPts, impl.nextPts with
  | some last, some slot, some next => some ⟨last, impl.lastUsed, slot, next⟩
  | _, _, _ => none

/-- The queue on the grid. -/
def queued (impl : ForceFps) : List (Item AvDecoderReadResult AvDecoderReadResult) :=
  impl.inputs.map (item impl.timeBase)

/-- What reads will still return for the queue, and the hold that remains then. -/
def pending (impl : ForceFps) : List AvDecoderReadResult :=
  (run (discontinuous impl.timeBase) impl.hold impl.queued).map (render impl.timeBase)

def remaining (impl : ForceFps) : Option (Hold AvDecoderReadResult) :=
  SampleHold.after (discontinuous impl.timeBase) impl.hold impl.queued

/-- **The invariant of a filter in use.**  The history is there as a whole or not at all. -/
structure Valid (impl : ForceFps) : Prop where
  timeBase : impl.timeBase.Positive
  running : impl.stopped = false
  accepted : ∀ input ∈ impl.inputs, Accepted impl.timeBase input
  slot : impl.lastInputPts.isSome = impl.last.isSome
  next : impl.nextPts.isSome = impl.last.isSome
  lastFrame : ∀ input ∈ impl.last, input.status = .frame

/-- A turn of the loop returned `result` and left `impl'`. -/
structure Turn (impl : ForceFps) (rest : List AvDecoderReadResult)
    (result : Option AvDecoderReadResult) (impl' : ForceFps) : Prop where
  valid : impl'.Valid
  timeBase : impl'.timeBase = impl.timeBase
  pending : impl.pending = result.toList ++ impl'.pending
  remaining : impl.remaining = impl'.remaining
  status : ∀ output ∈ result, output.status ≠ .null
  skipped : result = none → impl'.inputs = rest

theorem hold_cases {impl : ForceFps} (hv : impl.Valid) :
    (impl.last = none ∧ impl.lastInputPts = none ∧ impl.nextPts = none ∧ impl.hold = none) ∨
      ∃ last slot next, impl.last = some last ∧ impl.lastInputPts = some slot ∧
        impl.nextPts = some next ∧ impl.hold = some ⟨last, impl.lastUsed, slot, next⟩ := by
  have hslot := hv.slot
  have hnext := hv.next
  cases hlast : impl.last with
  | none =>
    rw [hlast, Option.isSome_none, Option.isSome_eq_false_iff, Option.isNone_iff_eq_none] at hslot hnext
    exact .inl ⟨rfl, hslot, hnext, by rw [hold, hlast]⟩
  | some last =>
    rw [hlast, Option.isSome_some, Option.isSome_iff_exists] at hslot hnext
    obtain ⟨slot, hslot⟩ := hslot
    obtain ⟨next, hnext⟩ := hnext
    exact .inr ⟨last, slot, next, rfl, hslot, hnext, by rw [hold, hlast, hslot, hnext]⟩

omit [Libav] in
theorem queued_cons {impl : ForceFps} {input : AvDecoderReadResult} {rest : List AvDecoderReadResult}
    (hin : impl.inputs = input :: rest) :
    impl.queued = item impl.timeBase input :: rest.map (item impl.timeBase) := by
  rw [queued, hin, List.map_cons]

/-- **Consuming the front.**  When the new state holds what the front leaves, the results are those of the
front. -/
theorem consumed_turn {impl impl' : ForceFps} {input : AvDecoderReadResult}
    {rest : List AvDecoderReadResult} {result : Option AvDecoderReadResult}
    (hin : impl.inputs = input :: rest) (hv : impl'.Valid) (htb : impl'.timeBase = impl.timeBase)
    (hinputs : impl'.inputs = rest)
    (hshown : (feed (discontinuous impl.timeBase) impl.hold (item impl.timeBase input)).1.map
      (render impl.timeBase) = result.toList)
    (hhold : (feed (discontinuous impl.timeBase) impl.hold (item impl.timeBase input)).2 = impl'.hold)
    (hstatus : ∀ output ∈ result, output.status ≠ .null) : Turn impl rest result impl' := by
  have hqueued : impl'.queued = rest.map (item impl.timeBase) := by rw [queued, hinputs, htb]
  refine ⟨hv, htb, ?_, ?_, hstatus, fun _ => hinputs⟩
  · rw [ForceFps.pending, queued_cons hin, run, List.map_append, hshown, hhold, ForceFps.pending, hqueued, htb]
  · rw [ForceFps.remaining, queued_cons hin, SampleHold.after, hhold, ForceFps.remaining, hqueued, htb]

theorem readEof_turn {impl : ForceFps} (hv : impl.Valid) {input : AvDecoderReadResult}
    {rest : List AvDecoderReadResult} (hin : impl.inputs = input :: rest) (heof : input.status = .eof)
    (hend : input.endPts ≠ avNoptsValue → rescaleChecked "ForceFps 时间戳超出可表示范围" input.endPts
      input.timeBase impl.timeBase = .ok (scaled input.endPts input.timeBase impl.timeBase)) :
    ∃ result impl', impl.readEof input rest = .ok (result, impl') ∧ Turn impl rest result impl' := by
  have hread : impl.readEof input rest
      = .ok (some (endAt impl.timeBase input), { impl with inputs := rest }.clearHistory) := by
    rw [readEof, endAt]
    by_cases hpts : input.endPts = avNoptsValue
    · simp [hpts, bind, Except.bind, pure, Except.pure]
    · simp [hpts, ForceFps.rescale, hend hpts, bind, Except.bind, pure, Except.pure]
  have hitem : item impl.timeBase input = .mark input := by rw [item, if_pos heof]
  refine ⟨_, _, hread, consumed_turn hin ?_ rfl rfl ?_ ?_ ?_⟩
  · exact ⟨hv.timeBase, hv.running, fun x hx => hv.accepted x (by rw [hin]; exact .tail _ hx), rfl, rfl,
      fun _ h => by cases h⟩
  · rw [hitem, feed]
    rfl
  · rw [hitem, feed]
    rfl
  · intro output houtput
    cases houtput
    show input.status ≠ .null
    rw [heof]
    decide

/-- The state after a picture was returned in its own slot. -/
def shownIn (impl : ForceFps) (input : AvDecoderReadResult) (slot : ℤ)
    (rest : List AvDecoderReadResult) : ForceFps :=
  { impl.remember input true with
    lastInputPts := some slot, nextPts := some (slot + 1), inputs := rest }

theorem shown_turn {impl : ForceFps} (hv : impl.Valid) {input : AvDecoderReadResult}
    {rest : List AvDecoderReadResult} (hin : impl.inputs = input :: rest)
    (hstatus : input.status = .frame)
    (hfeed : feed (discontinuous impl.timeBase) impl.hold
        (.sample (slotOf impl.timeBase input) input : Item AvDecoderReadResult AvDecoderReadResult)
      = ([.sample (slotOf impl.timeBase input) input false],
          some (.at (slotOf impl.timeBase input) input))) :
    Turn impl rest (some (impl.output input (slotOf impl.timeBase input) false))
      (impl.shownIn input (slotOf impl.timeBase input) rest) := by
  have hitem : item impl.timeBase input = .sample (slotOf impl.timeBase input) input := by
    rw [item, if_neg (by rw [hstatus]; decide)]
  refine consumed_turn hin ?_ rfl rfl ?_ ?_ ?_
  · refine ⟨hv.timeBase, hv.running, fun x hx => hv.accepted x (by rw [hin]; exact .tail _ hx), rfl, rfl,
      fun x hx => ?_⟩
    cases hx
    exact hstatus
  · rw [hitem, hfeed]
    rfl
  · rw [hitem, hfeed]
    rfl
  · intro output houtput
    cases houtput
    show input.status ≠ .null
    rw [hstatus]
    decide

/-- The state after a picture was repeated in slot `next`. -/
def repeatedIn (impl : ForceFps) (last : AvDecoderReadResult) (next : ℤ) : ForceFps :=
  { impl with last := some last, lastUsed := true, nextPts := some (next + 1) }

/-- **One slot of a gap**; the picture behind the gap stays in front. -/
theorem filler_turn {impl : ForceFps} (hv : impl.Valid) {input last : AvDecoderReadResult}
    {rest : List AvDecoderReadResult} (hin : impl.inputs = input :: rest) {pts slot next : ℤ}
    (hitem : item impl.timeBase input = .sample pts input) (hlast : impl.last = some last)
    (hslot : impl.lastInputPts = some slot)
    (hhold : impl.hold = some ⟨last, impl.lastUsed, slot, next⟩)
    (hjoin : discontinuous impl.timeBase slot pts = false) (hgap : next < pts) :
    Turn impl rest (some (impl.output last next impl.lastUsed))
      (impl.repeatedIn last next) := by
  have hhold' : (impl.repeatedIn last next).hold = some ⟨last, true, slot, next + 1⟩ := by
    simp only [hold, repeatedIn, hslot]
  have htb : (impl.repeatedIn last next).timeBase = impl.timeBase := rfl
  have hqueued : (impl.repeatedIn last next).queued = impl.queued := rfl
  have hfeed := @feed_filler _ AvDecoderReadResult _ ⟨last, impl.lastUsed, slot, next⟩ pts input hjoin hgap
  refine ⟨⟨hv.timeBase, hv.running, hv.accepted, ?_, rfl, ?_⟩, rfl, ?_, ?_, ?_, ?_⟩
  · exact congrArg Option.isSome hslot
  · intro x hx
    cases hx
    exact hv.lastFrame last hlast
  · rw [ForceFps.pending, ForceFps.pending, hhold, hhold', htb, hqueued, queued_cons hin, hitem, run, run,
      hfeed, List.cons_append, List.map_cons]
    rfl
  · rw [ForceFps.remaining, ForceFps.remaining, hhold, hhold', htb, hqueued, queued_cons hin, hitem,
      SampleHold.after, SampleHold.after, hfeed]
  · intro output houtput
    cases houtput
    show last.status ≠ .null
    rw [hv.lastFrame last hlast]
    decide
  · intro hnone
    cases hnone

theorem readPicture_turn {impl : ForceFps} (hv : impl.Valid) {input : AvDecoderReadResult}
    {rest : List AvDecoderReadResult} (hin : impl.inputs = input :: rest) {frame : Frame}
    (hstatus : input.status = .frame)
    (hslot : rescaleChecked "ForceFps 时间戳超出可表示范围" frame.pts input.timeBase impl.timeBase
      = .ok (slotOf impl.timeBase input)) :
    ∃ result impl', impl.readPicture input frame rest = .ok (result, impl') ∧
      Turn impl rest result impl' := by
  have hitem : item impl.timeBase input = .sample (slotOf impl.timeBase input) input := by
    rw [item, if_neg (by rw [hstatus]; decide)]
  generalize hpts : slotOf impl.timeBase input = pts at *
  simp only [readPicture, ForceFps.rescale, hslot, bind, Except.bind]
  rcases hold_cases hv with ⟨-, -, hnext, hhold⟩ | ⟨last, slot, next, hlast, hslot', hnext, hhold⟩
  · -- The first picture after a cut.
    rw [hnext]
    refine ⟨_, _, rfl, ?_⟩
    rw [← hpts]
    exact shown_turn hv hin hstatus (by rw [hhold]; rfl)
  · have hdisc : impl.isDiscontinuity pts = discontinuous impl.timeBase slot pts := by
      rw [isDiscontinuity, hslot']
    simp only [hnext, hdisc]
    by_cases hleap : discontinuous impl.timeBase slot pts = true
    · rw [if_pos hleap]
      refine ⟨_, _, rfl, ?_⟩
      rw [← hpts]
      refine shown_turn hv hin hstatus ?_
      rw [hhold, hpts, feed, if_pos hleap]
    · have hjoin : discontinuous impl.timeBase slot pts = false := by simpa using hleap
      rw [if_neg hleap]
      by_cases hskip : pts < next
      · -- The slot is taken: the picture is only remembered.
        rw [if_pos hskip]
        refine ⟨_, _, rfl, consumed_turn hin ?_ rfl rfl ?_ ?_ ?_⟩
        · refine ⟨hv.timeBase, hv.running, fun x hx => hv.accepted x (by rw [hin]; exact .tail _ hx), ?_,
            ?_, fun x hx => ?_⟩
          · exact congrArg Option.isSome hslot'
          · exact congrArg Option.isSome hnext
          · cases hx
            exact hstatus
        · rw [hitem, hhold]
          simp [feed, hjoin, hskip]
        · rw [hitem, hhold]
          simp [feed, hjoin, hskip, hold, remember, hslot', hnext]
        · intro output houtput
          cases houtput
      · rw [if_neg hskip]
        by_cases hgap : next < pts
        · -- One slot of the gap; the picture stays in front.
          rw [if_pos hgap, hlast]
          exact ⟨_, _, rfl, filler_turn hv hin hitem hlast hslot' hhold hjoin hgap⟩
        · rw [if_neg hgap]
          refine ⟨_, _, rfl, ?_⟩
          rw [← hpts]
          refine shown_turn hv hin hstatus ?_
          have hnow : pts = next := by omega
          rw [hhold, hpts, feed, if_neg hleap, if_neg hskip, hnow, Int.sub_self]
          rfl

theorem readFront_turn {impl : ForceFps} (hv : impl.Valid) {input : AvDecoderReadResult}
    {rest : List AvDecoderReadResult} (hin : impl.inputs = input :: rest) :
    ∃ result impl', impl.readFront input rest = .ok (result, impl') ∧ Turn impl rest result impl' := by
  rw [readFront]
  cases hv.accepted input (by rw [hin]; exact List.mem_cons_self) with
  | picture frame hstatus hframe hslot =>
    rw [if_neg (by rw [hstatus]; decide), hframe]
    exact readPicture_turn hv hin hstatus hslot
  | eof hstatus hend =>
    rw [if_pos hstatus]
    exact readEof_turn hv hin hstatus hend

/-- A read returned `result` and left `impl'`. -/
structure ReadEnd (impl : ForceFps) (result : AvDecoderReadResult) (impl' : ForceFps) : Prop where
  valid : impl'.Valid
  timeBase : impl'.timeBase = impl.timeBase
  pending : impl.pending = (if result.status = .null then [] else [result]) ++ impl'.pending
  remaining : impl.remaining = impl'.remaining
  empty : result.status = .null → impl'.inputs = []

/-- The loop ends after at most one turn for each queued input. -/
theorem readLoop_end {impl : ForceFps} (hv : impl.Valid) {inputs : List AvDecoderReadResult}
    (hin : impl.inputs = inputs) :
    ∃ result impl', impl.readLoop inputs = (.ok result, impl') ∧ ReadEnd impl result impl' := by
  induction inputs generalizing impl with
  | nil =>
    refine ⟨{}, impl, rfl, hv, rfl, ?_, rfl, fun _ => hin⟩
    simp
  | cons input rest ih =>
    obtain ⟨result, mid, hread, hturn⟩ := readFront_turn hv hin
    simp only [readLoop, hread]
    cases result with
    | some output =>
      have hne := hturn.status output rfl
      refine ⟨output, mid, rfl, hturn.valid, hturn.timeBase, ?_, hturn.remaining, fun hnull => absurd hnull hne⟩
      rw [if_neg hne]
      exact hturn.pending
    | none =>
      obtain ⟨result, impl', hloop, hend⟩ := ih hturn.valid (hturn.skipped rfl)
      refine ⟨result, impl', hloop, hend.valid, hend.timeBase.trans hturn.timeBase, ?_,
        hturn.remaining.trans hend.remaining, hend.empty⟩
      rw [hturn.pending, Option.toList_none, List.nil_append]
      exact hend.pending

theorem tryReadFrame_end {impl : ForceFps} (hv : impl.Valid) :
    ∃ result impl', impl.tryReadFrame = (.ok result, impl') ∧ ReadEnd impl result impl' := by
  rw [tryReadFrame, if_neg (by rw [hv.running]; decide)]
  exact readLoop_end hv rfl

/-! ### Runs -/

/-- What happens at the interface: an input enters the queue, a result leaves the filter. -/
inductive Event where
  | accepted (input : AvDecoderReadResult)
  | returned (result : AvDecoderReadResult)
  deriving DecidableEq, Repr

def Event.accepted? : Event → Option AvDecoderReadResult
  | .accepted input => some input
  | .returned _ => none

def Event.returned? : Event → Option AvDecoderReadResult
  | .accepted _ => none
  | .returned result => some result

def acceptedInputs (events : List Event) : List AvDecoderReadResult := events.filterMap Event.accepted?

def returnedResults (events : List Event) : List AvDecoderReadResult := events.filterMap Event.returned?

/-- A call of the producer and what it does: the input is queued, refused for lack of room or invalid. -/
def Pushes (impl : ForceFps) (input : AvDecoderReadResult) (events : List Event) (impl' : ForceFps) :
    Prop :=
  match impl.tryPushFrame input with
  | .ok (true, next) => events = [.accepted input] ∧ impl' = next
  | .ok (false, next) => events = [] ∧ impl' = next
  | .error _ => events = [] ∧ impl' = impl

/-- A call of the reader and what it does. -/
def Reads (impl : ForceFps) (events : List Event) (impl' : ForceFps) : Prop :=
  match impl.tryReadFrame with
  | (.ok result, next) => events = (if result.status = .null then [] else [.returned result]) ∧ impl' = next
  | (.error _, next) => events = [] ∧ impl' = next

/-- One producer and one reader, in any order. -/
def system (config : ForceFpsConfig) : Transition ForceFps Event where
  init impl := create config = .ok impl
  step impl events impl' := (∃ input, impl.Pushes input events impl') ∨ impl.Reads events impl'

/-- **The invariant of runs.**  What was returned and what the queue still shows is what all accepted inputs
show. -/
structure Conserves (output : AVRational) (events : List Event) (impl : ForceFps) : Prop where
  valid : impl.Valid
  timeBase : impl.timeBase = output
  results : returnedResults events ++ impl.pending
    = (run (discontinuous output) none ((acceptedInputs events).map (item output))).map (render output)
  hold : impl.remaining
    = SampleHold.after (discontinuous output) none ((acceptedInputs events).map (item output))

theorem conserves_fresh {config : ForceFpsConfig} {impl : ForceFps} (h : create config = .ok impl) :
    Conserves (avReduce config.fps.den config.fps.num) [] impl := by
  obtain ⟨⟨hnum, hden⟩, rfl⟩ := create_ok h
  refine ⟨⟨avReduce_positive hden hnum, rfl, fun _ hx => ?_, rfl, rfl, fun _ hx => ?_⟩, rfl, rfl, rfl⟩
  · cases hx
  · cases hx

theorem pending_push (impl : ForceFps) (input : AvDecoderReadResult) :
    pending { impl with inputs := impl.inputs ++ [input] } = impl.pending
      ++ (run (discontinuous impl.timeBase) impl.remaining [item impl.timeBase input]).map
        (render impl.timeBase) := by
  show (run (discontinuous impl.timeBase) impl.hold
    ((impl.inputs ++ [input]).map (item impl.timeBase))).map (render impl.timeBase) = _
  rw [List.map_append, run_append, List.map_append]
  rfl

theorem remaining_push (impl : ForceFps) (input : AvDecoderReadResult) :
    remaining { impl with inputs := impl.inputs ++ [input] }
      = SampleHold.after (discontinuous impl.timeBase) impl.remaining [item impl.timeBase input] := by
  show SampleHold.after (discontinuous impl.timeBase) impl.hold
    ((impl.inputs ++ [input]).map (item impl.timeBase)) = _
  rw [List.map_append, SampleHold.after_append]
  rfl

/-- **A push.** -/
theorem Pushes.conserves {impl impl' : ForceFps} {input : AvDecoderReadResult} {events new : List Event}
    {output : AVRational} (h : impl.Pushes input new impl') (hc : Conserves output events impl) :
    Conserves output (events ++ new) impl' := by
  have hsame : Conserves output (events ++ []) impl := by rwa [List.append_nil]
  have hrunning : ¬impl.stopped = true := by rw [hc.valid.running]; decide
  unfold Pushes tryPushFrame at h
  simp only [if_neg hrunning] at h
  by_cases hfull : impl.capacity ≤ impl.inputs.length
  · simp only [if_pos hfull] at h
    obtain ⟨rfl, rfl⟩ := h
    exact hsame
  · simp only [if_neg hfull] at h
    cases hcheck : impl.checkInput input with
    | error e =>
      rw [hcheck] at h
      obtain ⟨rfl, rfl⟩ := h
      exact hsame
    | ok u =>
      rw [hcheck] at h
      obtain ⟨rfl, rfl⟩ := h
      have haccepted := checkInput_ok hc.valid.timeBase hcheck
      have hin : acceptedInputs (events ++ [.accepted input]) = acceptedInputs events ++ [input] := by
        simp [acceptedInputs, Event.accepted?]
      have hout : returnedResults (events ++ [.accepted input]) = returnedResults events := by
        simp [returnedResults, Event.returned?]
      refine ⟨⟨hc.valid.timeBase, hc.valid.running, ?_, hc.valid.slot, hc.valid.next, hc.valid.lastFrame⟩,
        hc.timeBase, ?_, ?_⟩
      · intro x hx
        rcases List.mem_append.mp hx with hx | hx
        · exact hc.valid.accepted x hx
        · rw [List.mem_singleton.mp hx]
          exact haccepted
      · rw [hin, hout, pending_push, List.map_append, run_append, List.map_append, ← hc.results, ← hc.hold,
          List.append_assoc, ← hc.timeBase]
        rfl
      · rw [hin, remaining_push, List.map_append, SampleHold.after_append, ← hc.hold, ← hc.timeBase]
        rfl

/-- **A read.** -/
theorem Reads.conserves {impl impl' : ForceFps} {events new : List Event} {output : AVRational}
    (h : impl.Reads new impl') (hc : Conserves output events impl) :
    Conserves output (events ++ new) impl' := by
  obtain ⟨result, next, hread, hend⟩ := tryReadFrame_end hc.valid
  rw [Reads, hread] at h
  obtain ⟨rfl, rfl⟩ := h
  have hin : acceptedInputs (events ++ if result.status = .null then [] else [.returned result])
      = acceptedInputs events := by
    rw [acceptedInputs, List.filterMap_append]
    split <;> simp [acceptedInputs, Event.accepted?]
  have hout : returnedResults (events ++ if result.status = .null then [] else [.returned result])
      = returnedResults events ++ if result.status = .null then [] else [result] := by
    rw [returnedResults, List.filterMap_append]
    split <;> simp [returnedResults, Event.returned?]
  refine ⟨hend.valid, hend.timeBase.trans hc.timeBase, ?_, ?_⟩
  · rw [hin, hout, List.append_assoc, ← hend.pending]
    exact hc.results
  · rw [hin, ← hend.remaining]
    exact hc.hold

theorem conserves {config : ForceFpsConfig} {start impl : ForceFps} {events : List Event}
    (hstart : create config = .ok start) (hrun : (system config).Run start events impl) :
    Conserves (avReduce config.fps.den config.fps.num) events impl := by
  refine hrun.induct (.init hstart) (conserves_fresh hstart) ?_
  intro events impl new impl' _ hc hstep
  rcases hstep with ⟨input, hpush⟩ | hread
  · exact hpush.conserves hc
  · exact hread.conserves hc

/-- **The filter and the specification agree** on measured inputs. -/
theorem run_eq_listSpec {output : AVRational} (houtput : output.Positive) (hint : output.den ≤ intMax)
    {inputs : List AvDecoderReadResult} (h : Measured output inputs) :
    (run (discontinuous output) none (inputs.map (item output))).map (render output)
      = listSpec output inputs := by
  have hagree : (inputs.map (item output)).IsChain fun x y => ∀ l a p b,
      x = .sample l a → y = .sample p b → discontinuous output l p = leaps output l p := by
    rw [List.isChain_map]
    refine List.IsChain.imp (fun x y hstep l a p b hx hy => ?_) h
    by_cases hxe : x.status = .eof
    · rw [item, if_pos hxe] at hx
      cases hx
    · by_cases hye : y.status = .eof
      · rw [item, if_pos hye] at hy
        cases hy
      · rw [item, if_neg hxe] at hx
        rw [item, if_neg hye] at hy
        cases hx
        cases hy
        exact discontinuous_eq_leaps houtput hint (hstep hxe hye)
  have hle : ∀ l p, leaps output l p = false → l ≤ p := by
    intro l p hjoin
    rw [leaps, decide_eq_false_iff_not, not_or] at hjoin
    omega
  rw [listSpec, ← run_eq_spec hle]
  refine congrArg _ (run_congr (fun _ _ => discontinuous_le) ?_ ?_ hagree)
  · intro held hheld
    cases hheld
  · intro held _ _ hheld
    cases hheld

/-- **The results are a prefix of the output list**, and all of it when a read finds nothing.  A read never
throws. -/
theorem list_specification {config : ForceFpsConfig} (hint : config.IsInt) {start impl : ForceFps}
    {events : List Event} (hstart : create config = .ok start)
    (hrun : (system config).Run start events impl)
    (hmeasured : Measured (avReduce config.fps.den config.fps.num) (acceptedInputs events)) :
    returnedResults events
        <+: listSpec (avReduce config.fps.den config.fps.num) (acceptedInputs events) ∧
      ∃ result impl', impl.tryReadFrame = (.ok result, impl') ∧
        (result.status = .null → returnedResults events
          = listSpec (avReduce config.fps.den config.fps.num) (acceptedInputs events)) := by
  obtain ⟨⟨hnum, hden⟩, -⟩ := create_ok hstart
  have hc := conserves hstart hrun
  have hden' := Int.le_trans (@avReduce_den_le config.fps.den _ hnum) hint.1
  have hresults := hc.results
  rw [run_eq_listSpec (avReduce_positive hden hnum) hden' hmeasured] at hresults
  refine ⟨⟨impl.pending, hresults⟩, ?_⟩
  obtain ⟨result, impl', hread, hend⟩ := tryReadFrame_end hc.valid
  refine ⟨result, impl', hread, fun hnull => ?_⟩
  have hempty : impl'.pending = [] := by
    rw [ForceFps.pending, queued, hend.empty hnull]
    rfl
  rw [← hresults, hend.pending, if_pos hnull, hempty, List.append_nil, List.append_nil]

/-! ### Replaying calls -/

inductive Call where
  | push (input : AvDecoderReadResult)
  | read
  deriving DecidableEq, Repr

def perform (impl : ForceFps) : Call → List Event × ForceFps
  | .push input =>
    match impl.tryPushFrame input with
    | .ok (true, next) => ([.accepted input], next)
    | .ok (false, next) => ([], next)
    | .error _ => ([], impl)
  | .read =>
    match impl.tryReadFrame with
    | (.ok result, next) => (if result.status = .null then [] else [.returned result], next)
    | (.error _, next) => ([], next)

def replay (impl : ForceFps) (calls : List Call) : List Event × ForceFps :=
  Transition.replay perform impl calls

theorem perform_step {config : ForceFpsConfig} (impl : ForceFps) (call : Call) :
    (system config).step impl (impl.perform call).1 (impl.perform call).2 := by
  cases call with
  | push input =>
    refine .inl ⟨input, ?_⟩
    simp only [Pushes, perform]
    split <;> exact ⟨rfl, rfl⟩
  | read =>
    refine .inr ?_
    simp only [Reads, perform]
    split <;> exact ⟨rfl, rfl⟩

theorem replay_run {config : ForceFpsConfig} (impl : ForceFps) (calls : List Call) :
    (system config).Run impl (impl.replay calls).1 (impl.replay calls).2 :=
  Transition.replay_run perform_step impl calls

end ForceFps

end MwStreamer

namespace MwStreamer.ForceFps

attribute [local instance] Libav.reference

/-- A picture at `pts` in the given time base. -/
def pictureInput (timeBase : AVRational) (pts : ℤ) : AvDecoderReadResult :=
  { status := .frame
    timeBase := timeBase
    frame := some { media := some (.stored 0), pts := pts, width := 2, height := 2, format := 0 } }

/-- Two pictures, read as often as the gap between them has slots, and once more. -/
def gapCalls : List Call :=
  [.push (pictureInput ⟨1, 1000⟩ 0), .push (pictureInput ⟨1, 1000⟩ 120), .read, .read, .read, .read]

/-- At 25 frames per second a gap of 120 ms shows slots 0 to 3, and then nothing is left. -/
theorem list_specification_gap :
    ∃ start : ForceFps, create {} = .ok start ∧
      (returnedResults (start.replay gapCalls).1).length = 4 ∧
      returnedResults (start.replay gapCalls).1
        = listSpec ⟨1, 25⟩ [pictureInput ⟨1, 1000⟩ 0, pictureInput ⟨1, 1000⟩ 120] := by
  have hcreate : create {} = .ok { capacity := 8, timeBase := ⟨1, 25⟩ } := by decide +kernel
  have haccepted : acceptedInputs (replay { capacity := 8, timeBase := ⟨1, 25⟩ } gapCalls).1
      = [pictureInput ⟨1, 1000⟩ 0, pictureInput ⟨1, 1000⟩ 120] := by
    decide +kernel
  have hempty : (tryReadFrame (replay { capacity := 8, timeBase := ⟨1, 25⟩ } gapCalls).2).1 = .ok {} := by
    decide +kernel
  have hbase : avReduce 1 25 = ⟨1, 25⟩ := by decide +kernel
  obtain ⟨-, result, impl', hread, hall⟩ := @list_specification _ {} (by decide) _ _ _
    hcreate (replay_run _ gapCalls) (by rw [haccepted]; decide +kernel)
  rw [hread] at hempty
  cases hempty
  refine ⟨_, hcreate, by decide +kernel, ?_⟩
  rw [← hbase, ← haccepted]
  exact hall rfl

/-- At one frame per second, a leap of five quintillion seconds. -/
def leapCalls : List Call :=
  [.push (pictureInput ⟨1, 1⟩ 0), .push (pictureInput ⟨1, 1⟩ 5000000000000000000), .read, .read]

/-- The leap is filled: the second result shows the first picture again instead of the second picture. -/
theorem list_specification_fails_on_leap :
    ¬∀ (config : ForceFpsConfig) (start impl : ForceFps) (events : List Event),
      config.IsInt → create config = .ok start → (system config).Run start events impl →
      returnedResults events
        <+: listSpec (avReduce config.fps.den config.fps.num) (acceptedInputs events) := by
  intro hclaim
  have hcreate : create { fps := ⟨1, 1⟩ } = .ok { capacity := 8, timeBase := ⟨1, 1⟩ } := by decide +kernel
  have hprefix := hclaim { fps := ⟨1, 1⟩ } _ _ _ (by decide) hcreate (replay_run _ leapCalls)
  revert hprefix
  decide +kernel

end MwStreamer.ForceFps
