import Mathlib.Data.List.Chain
import MwStreamer.Decoder.Steps

/-!
# The decoder delivers every segment between two resets

The inputs the worker has taken are segments with a reset behind each but the last.  `Traced` says which segments these
are and what was emitted for each; the flags `started` and `drained` are right when they say of the codec, before every
input, that it takes one or that its stream was drained.  `Delivered` follows an output from `Emit` to the reader, where
nothing but the reader takes it away.
-/

namespace MwStreamer

namespace AvDecoder

def Event.accepted? : Event → Option Input
  | .accepted input => some input
  | _ => none

def Event.emitted? : Event → Option AvDecoderReadResult
  | .emitted result => some result
  | _ => none

def Event.read? : Event → Option AvDecoderReadResult
  | .read result => some result
  | _ => none

/-- The inputs a producer was told were accepted. -/
def accepted (history : List Event) : List Input := history.filterMap Event.accepted?

/-- What the worker entered `Emit` with. -/
def emitted (history : List Event) : List AvDecoderReadResult := history.filterMap Event.emitted?

def reads (history : List Event) : List AvDecoderReadResult := history.filterMap Event.read?

/-- The input the worker has in its hands. -/
def Worker.holds : Worker → List Input
  | .checking input | .sending input => [input]
  | _ => []

/-- The output the worker is blocked with. -/
def Worker.emits : Worker → List AvDecoderReadResult
  | .emitting result => [result]
  | _ => []

/-- The worker is blocked with an end of file. -/
def Worker.closes : Worker → Bool
  | .emitting result => result.status == .eof
  | _ => false

def Reader.holds : Reader → List AvDecoderReadResult
  | .holding (some result) => [result]
  | _ => []

/-- What was accepted and not taken by the worker, or taken and not seen by the codec. -/
def untreated (s : AvDecoder) : List Input := s.worker.holds ++ s.packets.queue

/-- What was emitted and not read. -/
def unread (s : AvDecoder) : List AvDecoderReadResult := s.reader.holds ++ s.frames.queue ++ s.worker.emits

/-! ### Segments -/

/-- What lies between two resets: the packets, whether an end of the stream follows them, the frames that were emitted,
and whether an end of file was, with its `end_pts`. -/
structure Segment where
  packets : List Packet := []
  eof : Bool := false
  frames : List Frame := []
  closed : Bool := false
  endPts : ℤ := avNoptsValue
  deriving DecidableEq, Repr

namespace Segment

def inputs (segment : Segment) : List Input :=
  segment.packets.map .packet ++ if segment.eof then [.eof] else []

def outputs (segment : Segment) (s : AvDecoder) : List AvDecoderReadResult :=
  segment.frames.map s.frameResult ++ if segment.closed then [s.eofResult segment.endPts] else []

/-- What `FrameEndPts` gave for the last frame, which may be unknown, as it is before any frame.  The context of the
codec is the one it had then. -/
def KnowsEnd [Libav] (segment : Segment) (timeBase : AVRational) : Prop :=
  match segment.frames.getLast? with
  | none => segment.endPts = avNoptsValue
  | some frame => ∃ context, segment.endPts = frameEndPts context timeBase (stamped timeBase frame)

/-- A segment the worker is in: the frames of the codec in order, all of them before an end of file. -/
structure Underway [Libav] [LibDecoder] (segment : Segment) (timeBase : AVRational) : Prop where
  frames : segment.frames <+: decode segment.packets
  eof : segment.closed = true → segment.eof = true
  all : segment.closed = true → segment.frames = decode segment.packets
  knowsEnd : segment.KnowsEnd timeBase

/-- A segment before a reset: there is an end of file if and only if an end of the stream was accepted. -/
structure Finished [Libav] [LibDecoder] (segment : Segment) (timeBase : AVRational) : Prop extends
    Underway segment timeBase where
  closed : segment.closed = segment.eof

end Segment

/-- Segments with a reset behind each. -/
def resetInputs (segments : List Segment) : List Input := segments.flatMap fun segment => segment.inputs ++ [.reset]

def segmentOutputs (segments : List Segment) (s : AvDecoder) : List AvDecoderReadResult :=
  segments.flatMap fun segment => segment.outputs s

theorem resetInputs_concat (segments : List Segment) (segment : Segment) :
    resetInputs (segments ++ [segment]) = resetInputs segments ++ (segment.inputs ++ [.reset]) := by
  rw [resetInputs, List.flatMap_append, List.flatMap_singleton, ← resetInputs]

theorem segmentOutputs_concat (segments : List Segment) (segment : Segment) (s : AvDecoder) :
    segmentOutputs (segments ++ [segment]) s = segmentOutputs segments s ++ segment.outputs s := by
  rw [segmentOutputs, List.flatMap_append, List.flatMap_singleton, ← segmentOutputs]

/-! ### The invariants -/

/-- What the flags of `Run` say of the codec at a place of the worker. -/
def FlagsAt (s : AvDecoder) : Worker → Prop
  | .receiving => s.started = true ∧ s.drained = false
  | .emitting result => result.status = .eof → s.codec.ended = true
  | .popping | .checking _ =>
    (s.codec.ended = true → s.drained = true) ∧ (s.codec.ended = false → s.codec.hungry = true)
  | .sending input =>
    (s.codec.ended = true → s.drained = true) ∧ (s.codec.ended = false → s.codec.hungry = true) ∧ input ≠ .reset
  | _ => True

/-- The flags of `Run`. -/
structure Flags (s : AvDecoder) : Prop where
  fresh : s.started = false → s.codec = {} ∧ s.drained = false
  drained : s.drained = true → s.codec.ended = true
  worker : s.FlagsAt s.worker

/-- An accepted end of the stream is followed by a reset; `submitted_eof_` tells that one is due. -/
structure Admission (history : List Event) (s : AvDecoder) : Prop where
  chain : (accepted history).IsChain fun a b => a = .eof → b = .reset
  submitted : (∀ input, s.producer ≠ .pushed input) →
    ((accepted history).getLast? = some .eof ↔ s.submittedEof = true)
  pushing : ∀ input, s.producer = .pushing input → (accepted history).getLast? = some .eof → input = .reset
  pushed : ∀ input, s.producer = .pushed input → (accepted history).getLast? = some input

/-- Outputs stay in order between `Emit` and the reader. -/
def Delivered (history : List Event) (s : AvDecoder) : Prop := emitted history = reads history ++ s.unread

/-- The segments of a history: the worker is in the last of them.  `stable` is why later packets do not change what a
codec gave. -/
structure Traced [Libav] [LibDecoder] (history : List Event) (s : AvDecoder) (earlier : List Segment)
    (current : Segment) : Prop where
  inputs : accepted history = resetInputs earlier ++ current.inputs ++ s.untreated
  outputs : emitted history = segmentOutputs earlier s ++ current.outputs s
  finished : ∀ segment ∈ earlier, segment.Finished s.timeBase
  underway : current.Underway s.timeBase
  stable : current.eof = false → ∀ more, current.frames <+: decode (current.packets ++ more)
  sent : s.codec.sent = current.packets
  given : s.codec.given = current.frames.length
  ended : s.codec.ended = current.eof
  endPts : s.nextPts = current.endPts
  closed : current.closed = (s.drained || s.worker.closes)

/-! ### What one step preserves -/

theorem accepted_append (history events : List Event) :
    accepted (history ++ events) = accepted history ++ accepted events := List.filterMap_append

theorem emitted_append (history events : List Event) :
    emitted (history ++ events) = emitted history ++ emitted events := List.filterMap_append

theorem reads_append (history events : List Event) : reads (history ++ events) = reads history ++ reads events :=
  List.filterMap_append

variable [Libav] [LibDecoder] {s s' : AvDecoder} {history events : List Event}

theorem Worked.flags (h : s.Worked events s') (hflags : s.Flags) : s'.Flags := by
  obtain ⟨hfresh, hdrained, hworker⟩ := hflags
  induction h with
  | receiving h hstarted hundrained => exact ⟨hfresh, hdrained, hstarted, hundrained⟩
  | popping h hready =>
    -- The codec was flushed, or it was drained.
    refine ⟨hfresh, hdrained, fun hended => ?_, fun hopen => ?_⟩
    · by_contra hundrained
      have hstarted : s.started = false := Bool.eq_false_iff.mpr fun hstarted => hundrained (hready hstarted)
      rw [(hfresh hstarted).1] at hended
      cases hended
    · have hstarted : s.started = false := by
        rw [Bool.eq_false_iff]
        intro hstarted
        rw [hdrained (hready hstarted)] at hopen
        cases hopen
      rw [(hfresh hstarted).1]
  | ended h hended hnone => exact ⟨hfresh, hdrained, fun _ => hended⟩
  | starved h hopen =>
    rw [h] at hworker
    refine ⟨fun hstarted => ?_, hdrained, fun hended => ?_, fun _ => rfl⟩
    · exact absurd hworker.1 (Bool.eq_false_iff.mp hstarted)
    · exact absurd hended (Bool.eq_false_iff.mp hopen)
  | decoded context frame h hframe =>
    rw [h] at hworker
    refine ⟨fun hstarted => ?_, hdrained, fun heof => ?_⟩
    · exact absurd hworker.1 (Bool.eq_false_iff.mp hstarted)
    · cases heof
  | emitted result h hroom =>
    rw [h] at hworker
    have hended : (s.drained || result.status == .eof) = true → s.codec.ended = true := by
      intro hor
      rcases Bool.or_eq_true_iff.mp hor with hdrain | heof
      · exact hdrained hdrain
      · exact hworker (beq_iff_eq.mp heof)
    refine ⟨fun hstarted => ⟨(hfresh hstarted).1, ?_⟩, hended, trivial⟩
    rw [Bool.eq_false_iff]
    intro hor
    have hcodec := hended hor
    rw [(hfresh hstarted).1] at hcodec
    cases hcodec
  | taken input rest h hqueue =>
    rw [h] at hworker
    exact ⟨hfresh, hdrained, hworker⟩
  | flushed h => exact ⟨fun _ => ⟨rfl, rfl⟩, fun hfalse => (by cases hfalse), trivial⟩
  | checked input h hreset =>
    rw [h] at hworker
    exact ⟨hfresh, hdrained, hworker.1, hworker.2, hreset⟩
  | sent packet h => exact ⟨fun hfalse => (by cases hfalse), hdrained, trivial⟩
  | finished h => exact ⟨fun hfalse => (by cases hfalse), fun _ => rfl, trivial⟩

theorem Calm.flags (h : s.Calm events s') (hflags : s.Flags) : s'.Flags := by
  induction h with
  | producer h => induction h <;> exact ⟨hflags.fresh, hflags.drained, hflags.worker⟩
  | reader h => induction h <;> exact ⟨hflags.fresh, hflags.drained, hflags.worker⟩
  | worker h => exact h.flags hflags

/-! ### Admission -/

omit [Libav] [LibDecoder] in
theorem Consumed.accepted (h : s.Consumed events s') : accepted events = [] := by induction h <;> rfl

theorem Worked.accepted (h : s.Worked events s') : accepted events = [] := by induction h <;> rfl

omit [Libav] [LibDecoder] in
/-- An input behind the others. -/
theorem Admission.accept (hadmission : Admission history s) {input : Input}
    (h : (AvDecoder.accepted history).getLast? = some .eof → input = .reset) :
    (AvDecoder.accepted history ++ [input]).IsChain fun a b => a = .eof → b = .reset := by
  refine List.isChain_append.mpr ⟨hadmission.chain, .singleton input, fun last hlast next hnext => ?_⟩
  rintro rfl
  rw [← Option.some.inj hnext]
  exact h hlast

theorem Calm.admission (h : s.Calm events s') (hadmission : Admission history s) :
    Admission (history ++ events) s' := by
  obtain ⟨hchain, hsubmitted, hpushing, hpushed⟩ := hadmission
  induction h with
  | producer h =>
    induction h with
    | @rejected events hrejected =>
      have hnothing : accepted (history ++ events) = accepted history := by
        rw [accepted_append]
        rcases hrejected with rfl | ⟨e, rfl⟩
        · exact List.append_nil _
        · exact List.append_nil _
      exact ⟨by rwa [hnothing], by rwa [hnothing], by rwa [hnothing], by rwa [hnothing]⟩
    | waited input hidle hadmits =>
      rw [List.append_nil]
      have hsettled : ∀ input, s.producer ≠ .pushed input := by simp [hidle]
      refine ⟨hchain, fun _ => hsubmitted hsettled, fun pending hpending hlast => ?_, nofun⟩
      rw [← Producer.pushing.inj hpending]
      exact hadmits ((hsubmitted hsettled).mp hlast)
    | admitted input hidle hadmits =>
      have hsettled : ∀ input, s.producer ≠ .pushed input := by simp [hidle]
      have hchain' := Admission.accept ⟨hchain, hsubmitted, hpushing, hpushed⟩
        fun hlast => hadmits ((hsubmitted hsettled).mp hlast)
      have happend : accepted (history ++ [.accepted input]) = accepted history ++ [input] :=
        accepted_append history [.accepted input]
      refine ⟨by rwa [happend], fun _ => ?_, fun pending hpending => ?_, fun pending hpending => ?_⟩
      · rw [happend, List.getLast?_concat]
        simp
      · rw [hidle] at hpending
        cases hpending
      · exact absurd hpending (hsettled pending)
    | queued input hpending =>
      have hchain' := Admission.accept ⟨hchain, hsubmitted, hpushing, hpushed⟩ (hpushing input hpending)
      have happend : accepted (history ++ [.accepted input]) = accepted history ++ [input] :=
        accepted_append history [.accepted input]
      refine ⟨by rwa [happend], fun hsettled => absurd rfl (hsettled input), nofun, fun pushed hpushed' => ?_⟩
      rw [happend, List.getLast?_concat, Producer.pushed.inj hpushed']
    | settled input hpending =>
      rw [List.append_nil]
      refine ⟨hchain, fun _ => ?_, nofun, nofun⟩
      rw [hpushed input hpending]
      simp
  | reader h =>
    have hnothing : accepted (history ++ events) = accepted history := by
      rw [accepted_append, h.accepted, List.append_nil]
    induction h <;> exact ⟨by rwa [hnothing], by rwa [hnothing], by rwa [hnothing], by rwa [hnothing]⟩
  | worker h =>
    have hnothing : accepted (history ++ events) = accepted history := by
      rw [accepted_append, h.accepted, List.append_nil]
    induction h <;> exact ⟨by rwa [hnothing], by rwa [hnothing], by rwa [hnothing], by rwa [hnothing]⟩

/-! ### From `Emit` to the reader -/

omit [Libav] [LibDecoder] in
theorem Produced.outputs (h : s.Produced events s') :
    emitted events = [] ∧ reads events = [] ∧ s'.unread = s.unread := by
  induction h with
  | rejected hrejected =>
    rcases hrejected with rfl | ⟨e, rfl⟩
    · exact ⟨rfl, rfl, rfl⟩
    · exact ⟨rfl, rfl, rfl⟩
  | _ => exact ⟨rfl, rfl, rfl⟩

omit [Libav] [LibDecoder] in
/-- The reader takes from the front. -/
theorem Consumed.outputs (h : s.Consumed events s') :
    emitted events = [] ∧ s.unread = reads events ++ s'.unread := by
  induction h with
  | asked wait hidle => simp [emitted, reads, unread, hidle, Reader.holds]
  | popped wait h =>
    cases hqueue : s.frames.queue with
    | nil => simp [emitted, reads, unread, h, hqueue, Reader.holds]
    | cons result rest => simp [emitted, reads, unread, h, hqueue, Reader.holds]
  | nothing h =>
    rw [unread, unread, h]
    exact ⟨rfl, rfl⟩
  | delivered result h =>
    rw [unread, unread, h]
    exact ⟨rfl, rfl⟩

/-- The worker adds behind; a reset leaves what was emitted alone. -/
theorem Worked.outputs (h : s.Worked events s') :
    reads events = [] ∧ s'.unread = s.unread ++ AvDecoder.emitted events := by
  have hquiet : ∀ worker : Worker, s.worker.emits = [] → worker.emits = [] →
      s.reader.holds ++ s.frames.queue ++ worker.emits = s.unread ++ [] := by
    intro worker h h'
    rw [unread, h, h', List.append_nil, List.append_nil]
  induction h with
  | receiving h hstarted hdrained => exact ⟨rfl, hquiet _ (by rw [h]; rfl) rfl⟩
  | popping h hready => exact ⟨rfl, hquiet _ (by rw [h]; rfl) rfl⟩
  | ended h hended hnone =>
    refine ⟨rfl, ?_⟩
    have hbefore : s.unread = s.reader.holds ++ s.frames.queue := by
      rw [unread, h]
      exact List.append_nil _
    rw [hbefore]
    rfl
  | starved h hended => exact ⟨rfl, hquiet _ (by rw [h]; rfl) rfl⟩
  | decoded context frame h hframe =>
    refine ⟨rfl, ?_⟩
    have hbefore : s.unread = s.reader.holds ++ s.frames.queue := by
      rw [unread, h]
      exact List.append_nil _
    rw [hbefore]
    rfl
  | emitted result h hroom =>
    refine ⟨rfl, ?_⟩
    rw [unread, unread, h]
    show s.reader.holds ++ (s.frames.queue ++ [result]) ++ [] = s.reader.holds ++ s.frames.queue ++ [result] ++ []
    simp only [List.append_assoc, List.append_nil]
  | taken input rest h hqueue => exact ⟨rfl, hquiet _ (by rw [h]; rfl) rfl⟩
  | flushed h => exact ⟨rfl, hquiet _ (by rw [h]; rfl) rfl⟩
  | checked input h hreset => exact ⟨rfl, hquiet _ (by rw [h]; rfl) rfl⟩
  | sent packet h => exact ⟨rfl, hquiet _ (by rw [h]; rfl) rfl⟩
  | finished h => exact ⟨rfl, hquiet _ (by rw [h]; rfl) rfl⟩

theorem Calm.delivered (h : s.Calm events s') (hdelivered : Delivered history s) :
    Delivered (history ++ events) s' := by
  rw [Delivered] at hdelivered ⊢
  rw [emitted_append, reads_append, hdelivered]
  induction h with
  | producer h =>
    obtain ⟨hemitted, hreads, hunread⟩ := h.outputs
    rw [hemitted, hreads, hunread, List.append_nil, List.append_nil]
  | reader h =>
    obtain ⟨hemitted, hunread⟩ := h.outputs
    rw [hemitted, hunread, List.append_nil, List.append_assoc]
  | worker h =>
    obtain ⟨hreads, hunread⟩ := h.outputs
    rw [hreads, hunread, List.append_nil, List.append_assoc]

/-! ### Segments -/

omit [Libav] in
/-- The next frame of the codec continues the frames it gave. -/
theorem CodecState.frame?_prefix {codec : CodecState} {frames : List Frame} {frame : Frame}
    (hframes : frames <+: decode codec.sent) (hgiven : codec.given = frames.length)
    (h : codec.frame? = some frame) : frames ++ [frame] <+: decode codec.sent := by
  rw [frame?] at h
  split at h
  · obtain ⟨rest, hrest⟩ := hframes
    rw [hgiven, ← hrest, List.getElem?_append_right (le_refl _), Nat.sub_self] at h
    cases rest with
    | nil => cases h
    | cons next rest =>
      obtain rfl := Option.some.inj h
      exact ⟨rest, by rw [← hrest, List.append_assoc, List.singleton_append]⟩
  · cases h

omit [Libav] in
/-- What the codec gives before the end of its stream stays, whatever follows. -/
theorem CodecState.frame?_stable {codec : CodecState} {frames : List Frame} {frame : Frame}
    (hframes : frames <+: decode codec.sent) (hgiven : codec.given = frames.length) (hopen : codec.ended = false)
    (h : codec.frame? = some frame) (more : List Packet) : frames ++ [frame] <+: decode (codec.sent ++ more) := by
  have hnext := codec.frame?_prefix hframes hgiven h
  have hready : codec.given < ready codec.sent := by
    rw [frame?] at h
    split at h
    · rename_i hgives
      rcases hgives with hended | hready
      · exact absurd hended (Bool.eq_false_iff.mp hopen)
      · exact hready
    · cases h
  have htake : frames ++ [frame] <+: (decode codec.sent).take (ready codec.sent) := by
    refine List.prefix_take_iff.mpr ⟨hnext, ?_⟩
    rw [List.length_append, List.length_singleton]
    omega
  exact htake.trans (LibDecoder.ready_stable codec.sent more)

omit [Libav] in
/-- A codec at the end of its stream that gives no more has given all. -/
theorem CodecState.frame?_none {codec : CodecState} {frames : List Frame} (hframes : frames <+: decode codec.sent)
    (hgiven : codec.given = frames.length) (hended : codec.ended = true) (h : codec.frame? = none) :
    frames = decode codec.sent := by
  rw [frame?, if_pos (.inl hended), hgiven] at h
  exact hframes.eq_of_length_le (List.getElem?_eq_none_iff.mp h)

omit [Libav] [LibDecoder] in
theorem Produced.inputs (h : s.Produced events s') : s'.untreated = s.untreated ++ accepted events := by
  induction h with
  | rejected hrejected =>
    rcases hrejected with rfl | ⟨e, rfl⟩
    · exact (List.append_nil _).symm
    · exact (List.append_nil _).symm
  | waited input hidle h => exact (List.append_nil _).symm
  | admitted input hidle h => exact (List.append_assoc _ _ _).symm
  | queued input h => exact (List.append_assoc _ _ _).symm
  | settled input h => exact (List.append_nil _).symm

/-- Behind an end of the stream the worker holds a reset, so the codec takes what it sends. -/
theorem Traced.sendable {earlier : List Segment} {current : Segment} (htraced : Traced history s earlier current)
    (hadmission : Admission history s) (hflags : s.Flags) : s.Sendable := by
  intro input hworker
  have hat := hflags.worker
  rw [hworker] at hat
  obtain ⟨-, hhungry, hreset⟩ := hat
  have hopen : s.codec.ended = false := by
    rw [Bool.eq_false_iff]
    intro hended
    rw [htraced.ended] at hended
    have hchain := hadmission.chain
    rw [htraced.inputs, Segment.inputs, if_pos hended, untreated, hworker] at hchain
    have hsplit : resetInputs earlier ++ (current.packets.map Input.packet ++ [Input.eof])
        ++ ((Worker.sending input).holds ++ s.packets.queue)
        = resetInputs earlier ++ current.packets.map Input.packet ++ Input.eof :: input :: s.packets.queue := by
      simp [Worker.holds]
    rw [hsplit] at hchain
    exact hreset ((List.isChain_append_cons_cons.mp hchain).2.1 rfl)
  exact ⟨hopen, hhungry hopen, hreset⟩

theorem Worked.traced (h : s.Worked events s') (hflags : s.Flags) (hsendable : s.Sendable) {earlier : List Segment}
    {current : Segment} (htraced : Traced history s earlier current) :
    ∃ earlier' current', Traced (history ++ events) s' earlier' current' := by
  obtain ⟨hinputs, houtputs, hfinished, hunderway, hstable, hsent, hgiven, hended, hendPts, hclosed⟩ := htraced
  have haccepted := h.accepted
  have hat := hflags.worker
  rw [← List.append_nil (AvDecoder.accepted history), ← haccepted, ← accepted_append, untreated] at hinputs
  induction h with
  | receiving h hstarted hdrained =>
    rw [h] at hinputs hclosed
    rw [← List.append_nil history] at houtputs
    exact ⟨earlier, current, hinputs, houtputs, hfinished, hunderway, hstable, hsent, hgiven, hended, hendPts, hclosed⟩
  | popping h hready =>
    rw [h] at hinputs hclosed
    rw [← List.append_nil history] at houtputs
    exact ⟨earlier, current, hinputs, houtputs, hfinished, hunderway, hstable, hsent, hgiven, hended, hendPts, hclosed⟩
  | ended h hdone hnone =>
    rw [h] at hinputs hclosed hat
    have hopen : current.closed = false := by
      rw [hclosed, hat.2]
      rfl
    have hall : current.frames = decode current.packets := by
      rw [← hsent]
      exact CodecState.frame?_none (by rw [hsent]; exact hunderway.frames) hgiven hdone hnone
    refine ⟨earlier, { current with closed := true }, hinputs, ?_, hfinished,
      ⟨hunderway.frames, fun _ => by rw [← hended, hdone], fun _ => hall, hunderway.knowsEnd⟩, hstable, hsent, hgiven,
      hended, hendPts, (Bool.or_true _).symm⟩
    rw [emitted_append, houtputs, List.append_assoc, Segment.outputs, hopen, hendPts, if_neg Bool.false_ne_true,
      List.append_nil]
    rfl
  | starved h hopen =>
    rw [h] at hinputs hclosed
    rw [← List.append_nil history] at houtputs
    exact ⟨earlier, current, hinputs, houtputs, hfinished, hunderway, hstable, hsent, hgiven, hended, hendPts, hclosed⟩
  | decoded context frame h hframe =>
    rw [h] at hinputs hclosed hat
    have hopen : current.closed = false := by
      rw [hclosed, hat.2]
      rfl
    have hprefix : current.frames <+: decode s.codec.sent := by
      rw [hsent]
      exact hunderway.frames
    refine ⟨earlier, { current with
      frames := current.frames ++ [frame]
      endPts := frameEndPts context s.timeBase (stamped s.timeBase frame) }, hinputs, ?_, hfinished,
      ⟨?_, fun hclose => ?_, fun hclose => ?_, ?_⟩, fun heof more => ?_, hsent, ?_, hended, rfl, ?_⟩
    · rw [emitted_append, houtputs, List.append_assoc, Segment.outputs, hopen, if_neg Bool.false_ne_true,
        List.append_nil, Segment.outputs, List.map_append]
      simp only [if_neg Bool.false_ne_true, List.append_nil]
      rfl
    · rw [← hsent]
      exact CodecState.frame?_prefix hprefix hgiven hframe
    · exact absurd hclose (Bool.eq_false_iff.mp hopen)
    · exact absurd hclose (Bool.eq_false_iff.mp hopen)
    · rw [Segment.KnowsEnd, List.getLast?_concat]
      exact ⟨context, rfl⟩
    · rw [← hsent]
      exact CodecState.frame?_stable hprefix hgiven (by rw [hended, heof]) hframe more
    · simp [hgiven]
    · show current.closed = (s.drained || false)
      rw [hclosed]
      rfl
  | emitted result h hroom =>
    rw [h] at hinputs hclosed
    rw [← List.append_nil history] at houtputs
    refine ⟨earlier, current, hinputs, houtputs, hfinished, hunderway, hstable, hsent, hgiven, hended, hendPts, ?_⟩
    rw [hclosed]
    exact (Bool.or_false _).symm
  | taken input rest h hqueue =>
    rw [h, hqueue] at hinputs
    rw [h] at hclosed
    rw [← List.append_nil history] at houtputs
    exact ⟨earlier, current, hinputs, houtputs, hfinished, hunderway, hstable, hsent, hgiven, hended, hendPts, hclosed⟩
  | flushed h =>
    rw [h] at hinputs hclosed hat
    have hover : current.closed = current.eof := by
      have hdrained : current.closed = s.drained := hclosed.trans (Bool.or_false _)
      rw [hdrained, ← hended]
      exact Bool.eq_iff_iff.mpr ⟨hflags.drained, hat.1⟩
    refine ⟨earlier ++ [current], {}, ?_, ?_, ?_, ⟨List.nil_prefix, nofun, nofun, rfl⟩, fun _ more =>
      List.nil_prefix, rfl, rfl, rfl, rfl, rfl⟩
    · rw [hinputs, resetInputs_concat]
      simp [Segment.inputs, Worker.holds, untreated]
    · rw [List.append_nil, houtputs, ← segmentOutputs_concat]
      exact (List.append_nil _).symm
    · intro segment hsegment
      rcases List.mem_append.mp hsegment with hearlier | hlast
      · exact hfinished segment hearlier
      · rw [List.mem_singleton.mp hlast]
        exact { hunderway with closed := hover }
  | checked input h hreset =>
    rw [h] at hinputs hclosed
    rw [← List.append_nil history] at houtputs
    exact ⟨earlier, current, hinputs, houtputs, hfinished, hunderway, hstable, hsent, hgiven, hended, hendPts, hclosed⟩
  | sent packet h =>
    rw [h] at hinputs hclosed
    rw [← List.append_nil history] at houtputs
    have hopen : current.eof = false := by
      rw [← hended]
      exact (hsendable _ h).1
    refine ⟨earlier, { current with packets := current.packets ++ [packet] }, ?_, houtputs, hfinished,
      ⟨hstable hopen [packet], hunderway.eof, fun hclose => ?_, hunderway.knowsEnd⟩, fun _ more => ?_, ?_, hgiven,
      hended, hendPts, hclosed⟩
    · rw [hinputs]
      simp [Segment.inputs, Worker.holds, untreated, hopen]
    · rw [hunderway.eof hclose] at hopen
      cases hopen
    · rw [List.append_assoc]
      exact hstable hopen _
    · rw [hsent]
  | finished h =>
    rw [h] at hinputs hclosed
    rw [← List.append_nil history] at houtputs
    have hopen : current.eof = false := by
      rw [← hended]
      exact (hsendable _ h).1
    refine ⟨earlier, { current with eof := true }, ?_, houtputs, hfinished,
      ⟨hunderway.frames, fun _ => rfl, hunderway.all, hunderway.knowsEnd⟩, fun heof => (by cases heof), hsent, hgiven,
      rfl, hendPts, hclosed⟩
    rw [hinputs]
    simp [Segment.inputs, Worker.holds, untreated, hopen]

theorem Calm.traced (h : s.Calm events s') (hflags : s.Flags) (hsendable : s.Sendable) {earlier : List Segment}
    {current : Segment} (htraced : Traced history s earlier current) :
    ∃ earlier' current', Traced (history ++ events) s' earlier' current' := by
  induction h with
  | producer h =>
    obtain ⟨hinputs, houtputs, hfinished, hunderway, hstable, hsent, hgiven, hended, hendPts, hclosed⟩ := htraced
    have hinputs' : accepted (history ++ events) = resetInputs earlier ++ current.inputs ++ s'.untreated := by
      rw [accepted_append, hinputs, h.inputs, List.append_assoc]
    have houtputs' : emitted (history ++ events) = segmentOutputs earlier s ++ current.outputs s := by
      rw [emitted_append, h.outputs.1, List.append_nil, houtputs]
    refine ⟨earlier, current, ?_⟩
    induction h <;>
      exact ⟨hinputs', houtputs', hfinished, hunderway, hstable, hsent, hgiven, hended, hendPts, hclosed⟩
  | reader h =>
    obtain ⟨hinputs, houtputs, hfinished, hunderway, hstable, hsent, hgiven, hended, hendPts, hclosed⟩ := htraced
    have hinputs' : accepted (history ++ events) = resetInputs earlier ++ current.inputs ++ s.untreated := by
      rw [accepted_append, h.accepted, List.append_nil, hinputs]
    have houtputs' : emitted (history ++ events) = segmentOutputs earlier s ++ current.outputs s := by
      rw [emitted_append, h.outputs.1, List.append_nil, houtputs]
    refine ⟨earlier, current, ?_⟩
    induction h <;>
      exact ⟨hinputs', houtputs', hfinished, hunderway, hstable, hsent, hgiven, hended, hendPts, hclosed⟩
  | worker h => exact h.traced hflags hsendable htraced

/-! ### Runs -/

/-- What holds of a decoder as long as it is neither stopped nor its codec fails. -/
structure Lawful (history : List Event) (s : AvDecoder) : Prop where
  quiet : s.Quiet
  room : 0 < s.packets.capacity ∧ 0 < s.frames.capacity
  flags : s.Flags
  admission : Admission history s
  delivered : Delivered history s
  traced : ∃ earlier current, Traced history s earlier current
  used : ∀ e, .misused e ∉ history

theorem Calm.room (h : s.Calm events s') (hroom : 0 < s.packets.capacity ∧ 0 < s.frames.capacity) :
    0 < s'.packets.capacity ∧ 0 < s'.frames.capacity := by
  induction h with
  | producer h => induction h <;> exact hroom
  | reader h => induction h <;> exact hroom
  | worker h => induction h <;> exact hroom

/-- The worker never sends what the codec refuses. -/
theorem Calm.used (h : s.Calm events s') (e : Exception) : .misused e ∉ events := by
  induction h with
  | producer h =>
    induction h with
    | rejected hrejected => rcases hrejected with rfl | ⟨e, rfl⟩ <;> simp
    | _ => simp
  | reader h => induction h <;> simp
  | worker h => induction h <;> simp

/-- **One step keeps the law.** -/
theorem Lawful.step (hlawful : Lawful history s) (hcalm : ∀ e ∈ events, e.disturbs = false)
    (h : system.step s events s') : Lawful (history ++ events) s' := by
  obtain ⟨hquiet, hroom, hflags, hadmission, hdelivered, ⟨earlier, current, htraced⟩, hused⟩ := hlawful
  have hsendable := htraced.sendable hadmission hflags
  have hstep := step_calm hquiet hsendable hcalm h
  refine ⟨hstep.quiet hquiet, hstep.room hroom, hstep.flags hflags, hstep.admission hadmission,
    hstep.delivered hdelivered, hstep.traced hflags hsendable htraced, fun e hmem => ?_⟩
  rcases List.mem_append.mp hmem with hbefore | hnow
  · exact hused e hbefore
  · exact hstep.used e hnow

/-- **The worker goes on**, unless it waits for an input or for the reader. -/
theorem Lawful.progress (hlawful : Lawful history s) (answer : Answer) :
    (∃ result, s.work answer = some result) ∨ (s.worker = .popping ∧ s.packets.queue = []) ∨
      ∃ result, s.worker = .emitting result ∧ s.frames.queue ≠ [] := by
  cases hworker : s.worker with
  | entering =>
    left
    rw [work, hworker]
    exact ⟨_, rfl⟩
  | receiving =>
    left
    rw [work, hworker]
    cases hfailure : answer.failure with
    | none => exact ⟨_, rfl⟩
    | some e => exact ⟨_, rfl⟩
  | emitting result =>
    by_cases hroom : s.frames.queue.length < s.frames.capacity
    · left
      rw [work, hworker]
      obtain ⟨⟨taken, frames⟩, hoffer⟩ := s.frames.offer_ready result (.inr hroom)
      simp only [hoffer]
      cases taken with
      | true => exact ⟨_, rfl⟩
      | false => exact ⟨_, rfl⟩
    · refine .inr (.inr ⟨result, rfl, fun hnil => hroom ?_⟩)
      rw [hnil]
      exact hlawful.room.2
  | popping =>
    by_cases hqueue : s.packets.queue = []
    · exact .inr (.inl ⟨rfl, hqueue⟩)
    · left
      rw [work, hworker]
      have hready : ∃ result, s.packets.take true = some result := s.packets.take_ready (.inr (.inl hqueue))
      obtain ⟨⟨taken, packets⟩, htake⟩ := hready
      simp only [htake]
      cases taken with
      | none => exact ⟨_, rfl⟩
      | some input => exact ⟨_, rfl⟩
  | checking input =>
    left
    rw [work, hworker]
    exact ⟨_, rfl⟩
  | sending input =>
    left
    rw [work, hworker]
    cases hfailure : answer.failure with
    | none => exact ⟨_, rfl⟩
    | some e => exact ⟨_, rfl⟩
  | failing e => exact absurd hworker (hlawful.quiet.failing e)
  | cleaning left => exact absurd hworker (hlawful.quiet.cleaning left)
  | done => exact absurd hworker hlawful.quiet.done

end AvDecoder

namespace AvDecoder

attribute [local instance] Libav.reference LibDecoder.reference

end AvDecoder

end MwStreamer
