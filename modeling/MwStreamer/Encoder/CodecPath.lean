import Mathlib.Data.List.Forall2
import MwStreamer.Encoder.Delivery

/-!
# What the codecs and the filter take

The history has every call of a codec path with its answer.  The codecs and the filter of a session are what these
calls made of them (`Tracked.codecs` and `Tracked.filter`), and `Passed` follows the frames through the calls: what a
codec path was given goes into `PrepareVideoFrame` or into the filter, what comes out of these goes to the codec, and
the codec takes the end of the stream after the last of it.
-/

namespace MwStreamer

namespace AvEncoder

/-! ### The calls of a session -/

def Event.called? (video : Bool) : Event → Option Call
  | .called v call => if v = video then some call else none
  | _ => none

/-- The calls of a codec path in the current session. -/
def calls (video : Bool) (history : List Event) : List Call :=
  Sessions.select Event.opens (Event.called? video) history

/-- What goes into `PrepareVideoFrame`, or into the filter. -/
def Call.input? : Call → Option (Option Frame)
  | .prepared frame _ => some (some frame)
  | .submitted frame => some frame
  | _ => none

/-- What comes out of `PrepareVideoFrame`, or out of the filter. -/
def Call.output? : Call → Option Frame
  | .prepared _ result => some result
  | .filtered frame => frame
  | _ => none

/-- What the codec takes; it takes nothing from a call it answers with `EAGAIN`. -/
def Call.taken? : Call → Option (Option Frame)
  | .sent (some frame) result => if 0 ≤ result then some (some frame) else none
  | .sent none result => if 0 ≤ result ∨ result = averrorEof then some none else none
  | _ => none

def inputs (calls : List Call) : List (Option Frame) := calls.filterMap Call.input?

def outputs (calls : List Call) : List Frame := calls.filterMap Call.output?

def taken (calls : List Call) : List (Option Frame) := calls.filterMap Call.taken?

/-- After each submission the filter is asked until it has nothing more. -/
def Emptied (calls : List Call) : Prop :=
  ∀ before frame after, calls = before ++ .submitted frame :: after → .filtered none ∈ after

/-- `Encode` sends a frame in the time base of the codec, and for video without a decoding time stamp. -/
def Submits [Libav] (config : AvEncoderConfig) (video : Bool) (frame submitted : Frame) : Prop :=
  ∃ scaled, inTimeBase frame (config.codecTimeBase video) = .ok scaled ∧
    submitted = if video then { scaled with pktDts := avNoptsValue } else scaled

/-- **What a codec path does with these frames.**  They go into `PrepareVideoFrame`, or into the filter with its end;
everything that comes out goes to the codec in the same order, once, and then the end of the stream does. -/
structure Delivered [Libav] (config : AvEncoderConfig) (video : Bool) (frames : List Frame) (calls : List Call) :
    Prop where
  inputs : inputs calls = frames.map some ++ if video then [] else [none]
  taken : ∃ submitted, List.Forall₂ (Submits config video) (outputs calls) submitted ∧
    taken calls = submitted.map some ++ [none]
  emptied : Emptied calls

section

variable [LibAudio] [LibCodec]

/-- The answers of a codec. -/
inductive CodecAnswers : Codec → List Call → Codec → Prop where
  | prepared {codec : Codec} {frame prepared : Frame} (h : prepareVideoFrame codec frame = .ok prepared) :
      CodecAnswers codec [.prepared frame prepared] codec
  | submitted (codec : Codec) (frame : Option Frame) : CodecAnswers codec [.submitted frame] codec
  | filtered (codec : Codec) (frame : Option Frame) : CodecAnswers codec [.filtered frame] codec
  | sent {codec codec' : Codec} {frame : Option Frame} {result : ℤ}
      (h : avcodecSendFrame codec frame = (result, codec')) : CodecAnswers codec [.sent frame result] codec'
  | received {codec codec' : Codec} {result : ℤ} (h : avcodecReceivePacket codec = (result, codec')) :
      CodecAnswers codec [.received result] codec'

/-- A codec under the calls of its codec path. -/
def codecCalls : Transition Codec Call where
  init codec := ∃ config video, openCodec config video = .ok codec
  step := CodecAnswers

/-- The answers of a filter that is given frames of this rate. -/
inductive FilterAnswers [Libav] (rate : ℤ) : Graph → List Call → Graph → Prop where
  | prepared (graph : Graph) (frame prepared : Frame) : FilterAnswers rate graph [.prepared frame prepared] graph
  | submitted {graph graph' : Graph} {frame : Frame} (h : AudioResampler.submit graph rate frame = .ok graph') :
      FilterAnswers rate graph [.submitted (some frame)] graph'
  | closed {graph graph' : Graph} (h : avBuffersrcClose graph = .ok graph') :
      FilterAnswers rate graph [.submitted none] graph'
  | filtered {graph graph' : Graph} {frame : Option Frame} (h : avBuffersinkGetFrame graph = .ok (frame, graph')) :
      FilterAnswers rate graph [.filtered frame] graph'
  | sent (graph : Graph) (frame : Option Frame) (result : ℤ) : FilterAnswers rate graph [.sent frame result] graph
  | received (graph : Graph) (result : ℤ) : FilterAnswers rate graph [.received result] graph

/-- A filter under the calls of the audio track. -/
def filterCalls [Libav] (rate : ℤ) : Transition Graph Call where
  init graph := ∃ config codec, createFilter config codec = .ok graph
  step := FilterAnswers rate

end

/-! ### One step of a codec path -/

variable [Libav] [LibAudio] [LibCodec] {config : AvEncoderConfig} {callback : Option Exception} {codec codec' : Codec}
  {filter filter' : Option Graph} {place : Place} {new : List Call} {flow : Flow}

/-- What a step of a codec path does. -/
inductive Advanced (config : AvEncoderConfig) (codec : Codec) :
    Option Graph → Place → List Call → Flow → Codec → Option Graph → Prop where
  | threw (filter : Option Graph) (place : Place) (e : Exception) :
      Advanced config codec filter place [] (.thrown e) codec filter
  | prepared {filter : Option Graph} {frame result : Frame} {flow : Flow}
      (hprepared : prepareVideoFrame codec frame = .ok result)
      (hflow : (∃ e, flow = .thrown e) ∨
        ∃ submitted, Submits config true result submitted ∧ flow = .goto (.sending submitted none)) :
      Advanced config codec filter (.video (some frame)) [.prepared frame result] flow codec filter
  | ended (filter : Option Graph) : Advanced config codec filter (.video none) [] (.goto .draining) codec filter
  | submitted {graph graph' : Graph} {frame : Frame}
      (hsubmit : AudioResampler.submit graph config.audioSampleRate frame = .ok graph') :
      Advanced config codec (some graph) (.audio (some frame)) [.submitted (some frame)] (.goto (.filtering false))
        codec (some graph')
  | closed {graph graph' : Graph} (hclose : avBuffersrcClose graph = .ok graph') :
      Advanced config codec (some graph) (.audio none) [.submitted none] (.goto (.filtering true)) codec (some graph')
  | filtered {graph graph' : Graph} {frame : Frame} {ended : Bool} {flow : Flow}
      (hget : avBuffersinkGetFrame graph = .ok (some frame, graph'))
      (hflow : (∃ e, flow = .thrown e) ∨
        ∃ submitted, Submits config false frame submitted ∧ flow = .goto (.sending submitted (some ended))) :
      Advanced config codec (some graph) (.filtering ended) [.filtered (some frame)] flow codec (some graph')
  | emptied {graph graph' : Graph} (hget : avBuffersinkGetFrame graph = .ok (none, graph')) :
      Advanced config codec (some graph) (.filtering false) [.filtered none] .returned codec (some graph')
  | finished {graph graph' : Graph} (hget : avBuffersinkGetFrame graph = .ok (none, graph')) :
      Advanced config codec (some graph) (.filtering true) [.filtered none] (.goto .draining) codec (some graph')
  | sent {filter : Option Graph} {codec' : Codec} {submitted : Frame} {loop : Option Bool} {result : ℤ} {flow : Flow}
      (hsend : avcodecSendFrame codec (some submitted) = (result, codec'))
      (hflow : (∃ e, flow = .thrown e) ∨ result < 0 ∧ flow = .goto (.receiving (.resend submitted loop)) ∨
        0 ≤ result ∧ flow = .goto (.receiving (.sent loop))) :
      Advanced config codec filter (.sending submitted loop) [.sent (some submitted) result] flow codec' filter
  | drained {filter : Option Graph} {codec' : Codec} {result : ℤ} {flow : Flow}
      (hsend : avcodecSendFrame codec none = (result, codec'))
      (hflow : (∃ e, flow = .thrown e) ∨ ¬(0 ≤ result ∨ result = averrorEof) ∧ flow = .goto (.receiving .resendEof) ∨
        (0 ≤ result ∨ result = averrorEof) ∧ flow = .goto (.receiving .drained)) :
      Advanced config codec filter .draining [.sent none result] flow codec' filter
  | received {filter : Option Graph} {codec' : Codec} {after : After} {result : ℤ} {flow : Flow}
      (hreceive : avcodecReceivePacket codec = (result, codec'))
      (hflow : (∃ e, flow = .thrown e) ∨ flow = .goto (.receiving after) ∨ flow = AvEncoder.received result after) :
      Advanced config codec filter (.receiving after) [.received result] flow codec' filter

omit [Libav] [LibAudio] [LibCodec] in
theorem Flow.of_bind {α : Type} (action : Except Exception α) (next : α → Flow) :
    (∃ e, Flow.of (action >>= fun value => pure (next value)) = .thrown e) ∨
      ∃ value, action = .ok value ∧ Flow.of (action >>= fun value => pure (next value)) = next value := by
  cases action with
  | error e => exact .inl ⟨e, rfl⟩
  | ok value => exact .inr ⟨value, rfl, rfl⟩

omit [Libav] [LibAudio] [LibCodec] in
theorem throwIfError_ok {result : ℤ} {operation : String} {u : Unit} (h : throwIfError result operation = .ok u) :
    0 ≤ result := by
  rw [throwIfError] at h
  split at h
  · cases h
  · omega

theorem advance_sending {submitted : Frame} {loop : Option Bool}
    (h : advance config callback codec filter (.sending submitted loop) = (new, flow, codec', filter')) :
    Advanced config codec filter (.sending submitted loop) new flow codec' filter' := by
  obtain ⟨result, sent, hsend⟩ : ∃ result sent, avcodecSendFrame codec (some submitted) = (result, sent) := ⟨_, _, rfl⟩
  rw [advance, hsend] at h
  dsimp only at h
  split at h
  · rename_i hagain
    obtain ⟨rfl, rfl, rfl, rfl⟩ := by simpa using h
    exact .sent hsend (.inr (.inl ⟨by rw [hagain]; decide, rfl⟩))
  · obtain ⟨rfl, rfl, rfl, rfl⟩ := by simpa using h
    refine .sent hsend ?_
    rcases Flow.of_bind (throwIfError result "avcodec_send_frame") fun _ => .goto (.receiving (.sent loop)) with
      hthrown | ⟨u, hok, hflow⟩
    · exact .inl hthrown
    · exact .inr (.inr ⟨throwIfError_ok hok, hflow⟩)

theorem advance_draining (h : advance config callback codec filter .draining = (new, flow, codec', filter')) :
    Advanced config codec filter .draining new flow codec' filter' := by
  obtain ⟨result, sent, hsend⟩ : ∃ result sent, avcodecSendFrame codec none = (result, sent) := ⟨_, _, rfl⟩
  simp only [advance, hsend] at h
  split at h
  · rename_i hagain
    obtain ⟨rfl, rfl, rfl, rfl⟩ := by simpa using h
    exact .drained hsend (.inr (.inl ⟨by rw [hagain]; decide, rfl⟩))
  · by_cases heof : result = averrorEof
    · rw [heof] at h hsend
      obtain ⟨rfl, rfl, rfl, rfl⟩ := by simpa using h
      exact .drained hsend (.inr (.inr ⟨.inr rfl, rfl⟩))
    · rw [if_pos heof] at h
      obtain ⟨rfl, rfl, rfl, rfl⟩ := by simpa using h
      refine .drained hsend ?_
      rcases Flow.of_bind (throwIfError result "avcodec_send_frame EOF") fun _ => .goto (.receiving .drained) with
        hthrown | ⟨u, hok, hflow⟩
      · exact .inl hthrown
      · exact .inr (.inr ⟨.inl (throwIfError_ok hok), hflow⟩)

theorem advance_receiving {after : After}
    (h : advance config callback codec filter (.receiving after) = (new, flow, codec', filter')) :
    Advanced config codec filter (.receiving after) new flow codec' filter' := by
  obtain ⟨result, next, hreceive⟩ : ∃ result next, avcodecReceivePacket codec = (result, next) := ⟨_, _, rfl⟩
  unfold advance at h
  rw [hreceive] at h
  dsimp only at h
  split at h
  · obtain ⟨rfl, rfl, rfl, rfl⟩ := by simpa using h
    exact .received hreceive (.inr (.inr rfl))
  · obtain ⟨rfl, rfl, rfl, rfl⟩ := by simpa using h
    refine .received hreceive ?_
    cases throwIfError result "avcodec_receive_packet" with
    | error e => exact .inl ⟨e, rfl⟩
    | ok _ =>
      cases callback with
      | none => exact .inr (.inl rfl)
      | some e => exact .inl ⟨e, rfl⟩

theorem advance_cases (h : advance config callback codec filter place = (new, flow, codec', filter')) :
    Advanced config codec filter place new flow codec' filter' := by
  cases place with
  | video frame =>
    cases frame with
    | none =>
      obtain ⟨rfl, rfl, rfl, rfl⟩ := by simpa [advance] using h
      exact .ended _
    | some frame =>
      rw [advance] at h
      split at h
      · obtain ⟨rfl, rfl, rfl, rfl⟩ := by simpa using h
        exact .threw _ _ _
      · rename_i result hprepared
        obtain ⟨rfl, rfl, rfl, rfl⟩ := by simpa using h
        refine .prepared hprepared ?_
        rcases Flow.of_bind (inTimeBase result (config.codecTimeBase true)) fun submitted =>
          .goto (.sending { submitted with pktDts := avNoptsValue } none) with hthrown | ⟨scaled, hscaled, hflow⟩
        · exact .inl hthrown
        · exact .inr ⟨_, ⟨scaled, hscaled, rfl⟩, hflow⟩
  | audio frame =>
    cases filter with
    | none =>
      obtain ⟨rfl, rfl, rfl, rfl⟩ := by simpa [advance] using h
      exact .threw _ _ _
    | some graph =>
      simp only [advance] at h
      split at h
      · obtain ⟨rfl, rfl, rfl, rfl⟩ := by simpa using h
        exact .threw _ _ _
      · rename_i graph' hgraph
        obtain ⟨rfl, rfl, rfl, rfl⟩ := by simpa using h
        cases frame with
        | none => exact .closed hgraph
        | some frame => exact .submitted hgraph
  | filtering ended =>
    cases filter with
    | none =>
      obtain ⟨rfl, rfl, rfl, rfl⟩ := by simpa [advance] using h
      exact .threw _ _ _
    | some graph =>
      simp only [advance] at h
      split at h
      · obtain ⟨rfl, rfl, rfl, rfl⟩ := by simpa using h
        exact .threw _ _ _
      · rename_i frame graph' hget
        obtain ⟨rfl, rfl, rfl, rfl⟩ := by simpa using h
        refine .filtered hget ?_
        rcases Flow.of_bind (inTimeBase frame (config.codecTimeBase false)) fun submitted =>
          .goto (.sending submitted (some ended)) with hthrown | ⟨scaled, hscaled, hflow⟩
        · exact .inl hthrown
        · exact .inr ⟨_, ⟨scaled, hscaled, rfl⟩, hflow⟩
      · rename_i graph' hget
        obtain ⟨rfl, rfl, rfl, rfl⟩ := by simpa using h
        cases ended with
        | false => exact .emptied hget
        | true => exact .finished hget
  | sending submitted loop => exact advance_sending h
  | draining => exact advance_draining h
  | receiving after => exact advance_receiving h

/-- The calls of a step leave the codec as the step leaves it. -/
theorem Advanced.codec_run (h : Advanced config codec filter place new flow codec' filter') :
    codecCalls.Run codec new codec' := by
  cases h with
  | threw e => exact .refl _
  | prepared hprepared hflow => exact .single (.prepared hprepared)
  | ended => exact .refl _
  | submitted hsubmit => exact .single (.submitted _ _)
  | closed hclose => exact .single (.submitted _ _)
  | filtered hget hflow => exact .single (.filtered _ _)
  | emptied hget => exact .single (.filtered _ _)
  | finished hget => exact .single (.filtered _ _)
  | sent hsend hflow => exact .single (.sent hsend)
  | drained hsend hflow => exact .single (.sent hsend)
  | received hreceive hflow => exact .single (.received hreceive)

/-- They leave the filter as the step leaves it. -/
theorem Advanced.filter_run (h : Advanced config codec filter place new flow codec' filter') {graph' : Graph}
    (hgraph : filter' = some graph') :
    ∃ graph, filter = some graph ∧ (filterCalls config.audioSampleRate).Run graph new graph' := by
  cases h with
  | threw e => exact ⟨_, hgraph, .refl _⟩
  | prepared hprepared hflow => exact ⟨_, hgraph, .single (.prepared _ _ _)⟩
  | ended => exact ⟨_, hgraph, .refl _⟩
  | submitted hsubmit => exact ⟨_, rfl, Option.some.inj hgraph ▸ .single (.submitted hsubmit)⟩
  | closed hclose => exact ⟨_, rfl, Option.some.inj hgraph ▸ .single (.closed hclose)⟩
  | filtered hget hflow => exact ⟨_, rfl, Option.some.inj hgraph ▸ .single (.filtered hget)⟩
  | emptied hget => exact ⟨_, rfl, Option.some.inj hgraph ▸ .single (.filtered hget)⟩
  | finished hget => exact ⟨_, rfl, Option.some.inj hgraph ▸ .single (.filtered hget)⟩
  | sent hsend hflow => exact ⟨_, hgraph, .single (.sent _ _ _)⟩
  | drained hsend hflow => exact ⟨_, hgraph, .single (.sent _ _ _)⟩
  | received hreceive hflow => exact ⟨_, hgraph, .single (.received _ _)⟩

/-! ### Where a codec path is -/

/-- The loop of `Audio` remembers whether its input has ended; `Video` has none and does not send after the end. -/
def Loops (video last : Bool) : Option Bool → Prop
  | none => video = true ∧ last = false
  | some ended => video = false ∧ ended = last

/-- A place of the track; `last` tells that it was given the end of the stream. -/
def Place.Fits (video last : Bool) : Place → Prop
  | .video frame => video = true ∧ frame.isNone = last
  | .audio frame => video = false ∧ frame.isNone = last
  | .filtering ended => video = false ∧ ended = last
  | .sending _ loop => Loops video last loop
  | .draining => last = true
  | .receiving (.resend _ loop) => Loops video last loop
  | .receiving (.sent loop) => Loops video last loop
  | .receiving .resendEof => last = true
  | .receiving .drained => last = true

omit [Libav] [LibAudio] [LibCodec] in
theorem enter_fits (video : Bool) (frame : Option Frame) : (Place.enter video frame).Fits video frame.isNone := by
  cases video with
  | true => exact ⟨rfl, rfl⟩
  | false => exact ⟨rfl, rfl⟩

omit [Libav] [LibAudio] [LibCodec] in
theorem received_fits {video last : Bool} {after : After} (hfits : (Place.receiving after).Fits video last) {result : ℤ}
    {place : Place} (hflow : AvEncoder.received result after = .goto place) : place.Fits video last := by
  cases after with
  | resend submitted loop =>
    obtain rfl := Flow.goto.inj hflow
    exact hfits
  | sent loop =>
    cases loop with
    | none => cases hflow
    | some ended =>
      obtain rfl := Flow.goto.inj hflow
      exact hfits
  | resendEof =>
    obtain rfl := Flow.goto.inj hflow
    exact hfits
  | drained =>
    rw [received] at hflow
    split at hflow <;> cases hflow

theorem Advanced.fits {video last : Bool} (h : Advanced config codec filter place new flow codec' filter')
    (hfits : place.Fits video last) {place' : Place} (hplace' : flow = .goto place') : place'.Fits video last := by
  subst hplace'
  cases h with
  | prepared hprepared hflow =>
    rcases hflow with ⟨e, hcontra⟩ | ⟨submitted, -, heq⟩
    · cases hcontra
    · obtain rfl := Flow.goto.inj heq
      exact ⟨hfits.1, hfits.2.symm⟩
  | ended => exact hfits.2.symm
  | submitted hsubmit => exact hfits
  | closed hclose => exact hfits
  | filtered hget hflow =>
    rcases hflow with ⟨e, hcontra⟩ | ⟨submitted, -, heq⟩
    · cases hcontra
    · obtain rfl := Flow.goto.inj heq
      exact hfits
  | finished hget => exact hfits.2.symm
  | sent hsend hflow =>
    rcases hflow with ⟨e, hcontra⟩ | ⟨-, heq⟩ | ⟨-, heq⟩
    · cases hcontra
    · obtain rfl := Flow.goto.inj heq
      exact hfits
    · obtain rfl := Flow.goto.inj heq
      exact hfits
  | drained hsend hflow =>
    rcases hflow with ⟨e, hcontra⟩ | ⟨-, heq⟩ | ⟨-, heq⟩
    · cases hcontra
    · obtain rfl := Flow.goto.inj heq
      exact hfits
    · obtain rfl := Flow.goto.inj heq
      exact hfits
  | received hreceive hflow =>
    rcases hflow with ⟨e, hcontra⟩ | heq | heq
    · cases hcontra
    · obtain rfl := Flow.goto.inj heq
      exact hfits
    · exact received_fits hfits heq.symm

/-! ### The frames on a codec path -/

/-- What the codec path was given and has not gone into it. -/
def Place.entered : Place → List (Option Frame)
  | .video (some frame) => [some frame]
  | .audio frame => [frame]
  | _ => []

/-- A frame that the codec has still to take. -/
def Place.owed : Place → List Frame
  | .sending submitted _ => [submitted]
  | .receiving (.resend submitted _) => [submitted]
  | _ => []

/-- The codec has taken the end of the stream. -/
def Place.closed : Place → Bool
  | .receiving .drained => true
  | _ => false

/-- The loop of `Audio` asks the filter again. -/
def Place.loops : Place → Bool
  | .filtering _ => true
  | .sending _ loop => loop.isSome
  | .receiving (.resend _ loop) => loop.isSome
  | .receiving (.sent loop) => loop.isSome
  | _ => false

/-- What goes into `PrepareVideoFrame` or into the filter; the end of the stream passes the first by. -/
def entering (video : Bool) (given : List (Option Frame)) : List (Option Frame) :=
  if video then given.filter Option.isSome else given

/-- **The frames on a codec path that was given these.**  Between two calls of `Video` or `Audio` it has no place. -/
structure Passed (config : AvEncoderConfig) (video last : Bool) (place : Option Place) (given : List (Option Frame))
    (calls : List Call) : Prop where
  inputs : entering video given = inputs calls ++ place.elim [] Place.entered
  taken : ∃ submitted, List.Forall₂ (Submits config video) (outputs calls) submitted ∧
    submitted.map some ++ (if place.elim last Place.closed then [none] else []) =
      taken calls ++ (place.elim [] Place.owed).map some
  emptied : place.elim false Place.loops = false → Emptied calls

variable {video last : Bool} {given : List (Option Frame)} {calls : List Call}

omit [Libav] [LibAudio] [LibCodec] in
/-- Calls that give the filter nothing. -/
theorem Emptied.append (h : Emptied calls) (hnew : ∀ frame, .submitted frame ∉ new) : Emptied (calls ++ new) := by
  intro before frame after heq
  rcases List.append_eq_append_iff.mp heq with ⟨middle, -, hmiddle⟩ | ⟨middle, hcalls, hmiddle⟩
  · exact absurd (hmiddle ▸ List.mem_append_right _ List.mem_cons_self) (hnew frame)
  · cases middle with
    | nil =>
      rw [List.nil_append] at hmiddle
      exact absurd (hmiddle ▸ List.mem_cons_self) (hnew frame)
    | cons call middle =>
      obtain ⟨rfl, rfl⟩ := List.cons.inj hmiddle
      exact List.mem_append_left _ (h before frame middle hcalls)

omit [Libav] [LibAudio] [LibCodec] in
/-- The filter has nothing more. -/
theorem emptied_filtered (calls : List Call) : Emptied (calls ++ [.filtered none]) := by
  intro before frame after heq
  rcases List.eq_nil_or_concat after with rfl | ⟨after, last, rfl⟩
  · obtain ⟨-, hlast⟩ := List.append_inj' heq rfl
    cases (List.cons.inj hlast).1
  · rw [List.concat_eq_append, ← List.cons_append, ← List.append_assoc] at heq
    obtain ⟨-, hlast⟩ := List.append_inj' heq rfl
    rw [List.concat_eq_append, (List.cons.inj hlast).1]
    exact List.mem_append_right _ (List.mem_singleton_self _)

omit [LibAudio] [LibCodec] in
/-- A step before the codec has taken the end of the stream. -/
theorem Passed.log (h : Passed config video last (some place) given calls) (hclosed : place.closed = false)
    {place' : Option Place} {submitted : List Frame}
    (hinputs : place.entered = AvEncoder.inputs new ++ place'.elim [] Place.entered)
    (houtputs : List.Forall₂ (Submits config video) (outputs new) submitted)
    (htaken : place.owed.map some ++ (submitted.map some ++ if place'.elim last Place.closed then [none] else []) =
      AvEncoder.taken new ++ (place'.elim [] Place.owed).map some)
    (hemptied : place'.elim false Place.loops = false → Emptied (calls ++ new)) :
    Passed config video last place' given (calls ++ new) := by
  obtain ⟨before, hbefore, htook⟩ := h.taken
  rw [Option.elim_some, hclosed, if_neg Bool.false_ne_true, List.append_nil] at htook
  refine ⟨?_, ⟨before ++ submitted, ?_, ?_⟩, hemptied⟩
  · rw [h.inputs, Option.elim_some, hinputs, AvEncoder.inputs, AvEncoder.inputs, AvEncoder.inputs,
      List.filterMap_append, List.append_assoc]
  · rw [outputs, List.filterMap_append]
    exact List.rel_append hbefore houtputs
  · rw [List.map_append, htook, Option.elim_some, List.append_assoc, List.append_assoc, htaken, AvEncoder.taken,
      AvEncoder.taken, AvEncoder.taken, List.filterMap_append, List.append_assoc]

omit [LibAudio] [LibCodec] in
/-- A packet, or that there is none. -/
theorem Passed.received (h : Passed config video last (some place) given calls) (result : ℤ) {place' : Option Place}
    (hentered : place'.elim [] Place.entered = place.entered) (howed : place'.elim [] Place.owed = place.owed)
    (hclosed : place'.elim last Place.closed = place.closed)
    (hloops : place'.elim false Place.loops = false → place.loops = false) :
    Passed config video last place' given (calls ++ [.received result]) := by
  obtain ⟨submitted, houtputs, htook⟩ := h.taken
  refine ⟨?_, ⟨submitted, ?_, ?_⟩, fun hdone => (h.emptied (hloops hdone)).append fun _ hcontra => ?_⟩
  · rw [h.inputs, hentered, AvEncoder.inputs, AvEncoder.inputs, List.filterMap_append]
    exact congrArg (· ++ _) (List.append_nil _).symm
  · rw [outputs, List.filterMap_append]
    exact (List.append_nil _).symm ▸ houtputs
  · rw [hclosed, howed, AvEncoder.taken, List.filterMap_append]
    exact htook.trans (congrArg (· ++ _) (List.append_nil _).symm)
  · cases List.mem_singleton.mp hcontra

omit [LibAudio] [LibCodec] in
/-- `Video` or `Audio` is called. -/
theorem Passed.enter (h : Passed config video false none given calls) (frame : Option Frame) :
    Passed config video frame.isNone (some (.enter video frame)) (given ++ [frame]) calls := by
  obtain ⟨submitted, houtputs, htook⟩ := h.taken
  have hinputs := h.inputs
  rw [entering, Option.elim_none, List.append_nil] at hinputs
  cases video with
  | true =>
    refine ⟨?_, ⟨submitted, houtputs, ?_⟩, fun _ => h.emptied rfl⟩
    · rw [entering, if_pos rfl, List.filter_append]
      rw [if_pos rfl] at hinputs
      rw [hinputs]
      cases frame <;> rfl
    · cases frame <;> exact htook
  | false =>
    refine ⟨?_, ⟨submitted, houtputs, htook⟩, fun _ => h.emptied rfl⟩
    rw [entering, if_neg Bool.false_ne_true]
    rw [if_neg Bool.false_ne_true] at hinputs
    rw [hinputs]
    rfl

/-- Where a step leaves the codec path, if it does not throw. -/
def Flow.place? : Flow → Option (Option Place)
  | .goto place => some (some place)
  | .returned => some none
  | .thrown _ => none

omit [LibAudio] [LibCodec] in
/-- A frame has been sent to the codec, or is sent again. -/
theorem Passed.sent {submitted : Frame} {loop : Option Bool}
    (h : Passed config video last (some (.sending submitted loop)) given calls) {result : ℤ} {place' : Place}
    (hflow : result < 0 ∧ place' = .receiving (.resend submitted loop) ∨
      0 ≤ result ∧ place' = .receiving (.sent loop)) :
    Passed config video last (some place') given (calls ++ [.sent (some submitted) result]) := by
  have hquiet : ∀ frame, .submitted frame ∉ [Call.sent (some submitted) result] :=
    fun _ hcontra => (by cases List.mem_singleton.mp hcontra)
  rcases hflow with ⟨hresult, rfl⟩ | ⟨hresult, rfl⟩
  · refine h.log rfl rfl .nil ?_ fun hdone => (h.emptied hdone).append hquiet
    rw [AvEncoder.taken, List.filterMap_cons, Call.taken?, if_neg (Int.not_le.mpr hresult)]
    rfl
  · refine h.log rfl rfl .nil ?_ fun hdone => (h.emptied hdone).append hquiet
    rw [AvEncoder.taken, List.filterMap_cons, Call.taken?, if_pos hresult]
    rfl

omit [LibAudio] [LibCodec] in
/-- The codec has been given the end of the stream, or is given it again. -/
theorem Passed.drained (h : Passed config video last (some .draining) given calls) {result : ℤ} {place' : Place}
    (hflow : ¬(0 ≤ result ∨ result = averrorEof) ∧ place' = .receiving .resendEof ∨
      (0 ≤ result ∨ result = averrorEof) ∧ place' = .receiving .drained) :
    Passed config video last (some place') given (calls ++ [.sent none result]) := by
  have hquiet : ∀ frame, .submitted frame ∉ [Call.sent none result] :=
    fun _ hcontra => (by cases List.mem_singleton.mp hcontra)
  rcases hflow with ⟨hresult, rfl⟩ | ⟨hresult, rfl⟩
  · refine h.log rfl rfl .nil ?_ fun hdone => (h.emptied hdone).append hquiet
    rw [AvEncoder.taken, List.filterMap_cons, Call.taken?, if_neg hresult]
    rfl
  · refine h.log rfl rfl .nil ?_ fun hdone => (h.emptied hdone).append hquiet
    rw [AvEncoder.taken, List.filterMap_cons, Call.taken?, if_pos hresult]
    rfl

omit [LibAudio] [LibCodec] in
/-- `Receive` returns. -/
theorem Passed.returns {after : After} (h : Passed config video last (some (.receiving after)) given calls)
    (hfits : (Place.receiving after).Fits video last) (result : ℤ) {place' : Option Place}
    (hplace' : (AvEncoder.received result after).place? = some place') :
    Passed config video last place' given (calls ++ [.received result]) := by
  cases after with
  | resend submitted loop =>
    obtain rfl := Option.some.inj hplace'
    exact h.received result rfl rfl rfl id
  | sent loop =>
    cases loop with
    | none =>
      obtain rfl := Option.some.inj hplace'
      exact h.received result rfl rfl hfits.2 fun _ => rfl
    | some ended =>
      obtain rfl := Option.some.inj hplace'
      exact h.received result rfl rfl rfl id
  | resendEof =>
    obtain rfl := Option.some.inj hplace'
    exact h.received result rfl rfl rfl id
  | drained =>
    rw [AvEncoder.received] at hplace'
    split at hplace'
    · obtain rfl := Option.some.inj hplace'
      exact h.received result rfl rfl hfits fun _ => rfl
    · cases hplace'

/-- **A step of a codec path passes the frames on.** -/
theorem Advanced.passed (h : Advanced config codec filter place new flow codec' filter')
    (hpassed : Passed config video last (some place) given calls) (hfits : place.Fits video last)
    {place' : Option Place} (hplace' : flow.place? = some place') :
    Passed config video last place' given (calls ++ new) := by
  cases h with
  | threw e => cases hplace'
  | prepared hprepared hflow =>
    rcases hflow with ⟨e, rfl⟩ | ⟨submitted, hsubmits, rfl⟩
    · cases hplace'
    · obtain rfl := Option.some.inj hplace'
      obtain rfl : video = true := hfits.1
      refine hpassed.log rfl rfl (.cons hsubmits .nil) rfl fun hdone =>
        (hpassed.emptied rfl).append fun _ hcontra => ?_
      cases List.mem_singleton.mp hcontra
  | ended =>
    obtain rfl := Option.some.inj hplace'
    refine hpassed.log rfl rfl .nil rfl fun _ => ?_
    exact (hpassed.emptied rfl).append fun _ hcontra => by cases hcontra
  | submitted hsubmit =>
    obtain rfl := Option.some.inj hplace'
    exact hpassed.log rfl rfl .nil rfl fun hcontra => by cases hcontra
  | closed hclose =>
    obtain rfl := Option.some.inj hplace'
    exact hpassed.log rfl rfl .nil rfl fun hcontra => by cases hcontra
  | filtered hget hflow =>
    rcases hflow with ⟨e, rfl⟩ | ⟨submitted, hsubmits, rfl⟩
    · cases hplace'
    · obtain rfl := Option.some.inj hplace'
      obtain rfl : video = false := hfits.1
      exact hpassed.log rfl rfl (.cons hsubmits .nil) rfl fun hcontra => by cases hcontra
  | emptied hget =>
    obtain rfl := Option.some.inj hplace'
    obtain rfl : false = last := hfits.2
    exact hpassed.log rfl rfl .nil rfl fun _ => emptied_filtered calls
  | finished hget =>
    obtain rfl := Option.some.inj hplace'
    exact hpassed.log rfl rfl .nil rfl fun _ => emptied_filtered calls
  | sent hsend hflow =>
    rcases hflow with ⟨e, rfl⟩ | ⟨hresult, rfl⟩ | ⟨hresult, rfl⟩
    · cases hplace'
    · obtain rfl := Option.some.inj hplace'
      exact hpassed.sent (.inl ⟨hresult, rfl⟩)
    · obtain rfl := Option.some.inj hplace'
      exact hpassed.sent (.inr ⟨hresult, rfl⟩)
  | drained hsend hflow =>
    rcases hflow with ⟨e, rfl⟩ | ⟨hresult, rfl⟩ | ⟨hresult, rfl⟩
    · cases hplace'
    · obtain rfl := Option.some.inj hplace'
      exact hpassed.drained (.inl ⟨hresult, rfl⟩)
    · obtain rfl := Option.some.inj hplace'
      exact hpassed.drained (.inr ⟨hresult, rfl⟩)
  | received hreceive hflow =>
    rcases hflow with ⟨e, rfl⟩ | rfl | rfl
    · cases hplace'
    · obtain rfl := Option.some.inj hplace'
      exact hpassed.received _ rfl rfl rfl id
    · exact hpassed.returns hfits _ hplace'

/-! ### Sessions -/

variable {history events : List Event} {s s' : AvEncoder}

/-- An event that changes nothing of what is given to a codec path or called on it. -/
def Untracked (events : List Event) : Prop :=
  ∀ e ∈ events, e.opens = false ∧ e.running? = none ∧ ∀ v, e.consumed? v = none ∧ e.called? v = none

omit [Libav] [LibAudio] [LibCodec] in
theorem Untracked.same (h : Untracked events) (history : List Event) : runs (history ++ events) = runs history ∧
    ∀ v, consumed v (history ++ events) = consumed v history ∧
      AvEncoder.calls v (history ++ events) = AvEncoder.calls v history :=
  ⟨Sessions.select_same (fun e he => (h e he).1) fun e he => (h e he).2.1, fun v =>
    ⟨Sessions.select_same (fun e he => (h e he).1) fun e he => ((h e he).2.2 v).1,
      Sessions.select_same (fun e he => (h e he).1) fun e he => ((h e he).2.2 v).2⟩⟩

/-- The place of a worker that is in `Video` or `Audio`. -/
def Worker.place? : Worker → Option Place
  | .encoding _ place => some place
  | _ => none

/-- The codec path has thrown. -/
def Worker.thrown : Worker → Bool
  | .failing _ _ => true
  | _ => false

/-- **The calls of a session.**  The codecs and the filter are what the calls made of those `Start` opened, and in a
session without an error the frames of each codec path pass through its calls. -/
structure Tracked (history : List Event) (s : AvEncoder) : Prop where
  opening : ∀ config, s.owner = .opening config → ∀ v, consumed v history = [] ∧ AvEncoder.calls v history = []
  session : ∀ config, s.session = some config → ∀ p ∈ runs history, p.1 = config
  settled : s.owner.settled = true → (∀ v, (s.tracks v).worker = none) → s.session = none
  fits : ∀ v last place, (s.tracks v).worker = some (.encoding last place) → place.Fits v last
  codecs : ∀ config, s.session = some config → ∀ v codec, (s.tracks v).codec = some codec →
    ∃ opened, openCodec config v = .ok opened ∧ codecCalls.Run opened (AvEncoder.calls v history) codec
  filter : ∀ config, s.session = some config → ∀ graph, s.filter = some graph →
    ∃ codec created, openCodec config false = .ok codec ∧ createFilter config codec = .ok created ∧
      (filterCalls config.audioSampleRate).Run created (AvEncoder.calls false history) graph
  passed : s.error = none → ∀ v, (∀ worker, (s.tracks v).worker = some worker → worker.thrown = false) →
    ∀ p ∈ runs history, Passed p.1 v ((s.tracks v).last history v) ((s.tracks v).worker.bind Worker.place?)
      (consumed v history) (AvEncoder.calls v history)

omit [Libav] in
/-- Without another run the end of the stream is where the worker says. -/
theorem last_same (hruns : runs (history ++ events) = runs history) (track : Track) (v : Bool) :
    track.last (history ++ events) v = track.last history v := by
  rw [Track.last, Track.last, ran, ran, hruns]

/-- A worker is outside `Video` and `Audio`, as it was before. -/
def Track.Outside (track track' : Track) (history : List Event) (v : Bool) : Prop :=
  track.worker.bind Worker.place? = none ∧ (∀ worker, track.worker = some worker → worker.thrown = false) ∧
    track'.last history v = track.last history v

theorem Tracked.same (h : Tracked history s) (huntracked : Untracked events) (hsession : s'.session = s.session)
    (hfilter : s'.filter = s.filter) (hcodecs : ∀ v, (s'.tracks v).codec = (s.tracks v).codec)
    (hopening : ∀ config, s'.owner = .opening config → s.owner = .opening config)
    (hsettled : s'.owner.settled = true → (∀ v, (s'.tracks v).worker = none) →
      s.owner.settled = true ∧ ∀ v, (s.tracks v).worker = none)
    (herror : s'.error = none → s.error = none)
    (hworkers : ∀ v, (s'.tracks v).worker = (s.tracks v).worker ∨ (s'.tracks v).worker.bind Worker.place? = none ∧
      (s'.error = none → (s.tracks v).Outside (s'.tracks v) history v)) : Tracked (history ++ events) s' := by
  obtain ⟨hruns, hsame⟩ := huntracked.same history
  refine ⟨fun config howner v => ?_, fun config hs p hp => ?_, fun hset hnone => ?_, fun v last place hw => ?_,
    fun config hs v codec hcodec => ?_, fun config hs graph hgraph => ?_, fun hnone v hthrown p hp => ?_⟩
  · rw [(hsame v).1, (hsame v).2]
    exact h.opening config (hopening config howner) v
  · exact h.session config (hsession.symm.trans hs) p (hruns ▸ hp)
  · obtain ⟨hset, hnone⟩ := hsettled hset hnone
    exact hsession.trans (h.settled hset hnone)
  · rcases hworkers v with heq | ⟨hout, -⟩
    · exact h.fits v last place (heq.symm.trans hw)
    · rw [hw] at hout
      cases hout
  · rw [(hsame v).2]
    exact h.codecs config (hsession.symm.trans hs) v codec ((hcodecs v).symm.trans hcodec)
  · rw [(hsame false).2]
    exact h.filter config (hsession.symm.trans hs) graph (hfilter.symm.trans hgraph)
  · rw [last_same hruns, (hsame v).1, (hsame v).2]
    have hp' : p ∈ runs history := hruns ▸ hp
    rcases hworkers v with heq | ⟨hout, hold⟩
    · rw [Track.last, heq, ← Track.last]
      exact h.passed (herror hnone) v (fun worker hworker => hthrown worker (heq.trans hworker)) p hp'
    · obtain ⟨hout', hthrown', hlast⟩ := hold hnone
      rw [hout, hlast, ← hout']
      exact h.passed (herror hnone) v hthrown' p hp'

/-- The owner or a producer takes a step. -/
theorem Tracked.frame (h : Tracked history s) (huntracked : Untracked events) (hsession : s'.session = s.session)
    (hfilter : s'.filter = s.filter) (hcodecs : ∀ v, (s'.tracks v).codec = (s.tracks v).codec)
    (hopening : ∀ config, s'.owner = .opening config → s.owner = .opening config)
    (hsettled : s'.owner.settled = true → s.owner.settled = true) (herror : s'.error = none → s.error = none)
    (hworkers : ∀ v, (s'.tracks v).worker = (s.tracks v).worker) : Tracked (history ++ events) s' :=
  h.same huntracked hsession hfilter hcodecs hopening
    (fun hset hnone => ⟨hsettled hset, fun v => (hworkers v).symm.trans (hnone v)⟩) herror fun v => .inl (hworkers v)

/-- A worker takes a step outside `Video` and `Audio`. -/
theorem Tracked.turn (h : Tracked history s) {track : Track} {w w' : Worker} (huntracked : Untracked events)
    (hworker : (s.tracks video).worker = some w) (hworker' : track.worker = some w')
    (hcodec : track.codec = (s.tracks video).codec) (hplace' : w'.place? = none)
    (hold : s.error = none → w.place? = none ∧ w.thrown = false ∧ w'.last = w.last) :
    Tracked (history ++ events) (s.setTrack video track) := by
  refine h.same huntracked rfl rfl (setTrack_same Track.codec hcodec) (fun _ howner => howner) (fun _ hnone => ?_) id
    fun v => ?_
  · have hnone' := hnone video
    rw [setTrack_self, hworker'] at hnone'
    cases hnone'
  · rcases setTrack_cases s video v track with ⟨rfl, heq⟩ | ⟨-, heq⟩
    · refine .inr ⟨?_, fun hnone => ?_⟩
      · rw [heq, hworker']
        exact hplace'
      · obtain ⟨hplace, hthrown, hlast⟩ := hold hnone
        refine ⟨?_, fun worker hw => ?_, ?_⟩
        · rw [hworker]
          exact hplace
        · obtain rfl := Option.some.inj (hworker.symm.trans hw)
          exact hthrown
        · rw [heq, Track.last, hworker', Track.last, hworker]
          exact hlast
    · exact .inl (by rw [heq])

omit [Libav] [LibAudio] [LibCodec] in
theorem untracked_nil : Untracked [] := fun e he => by cases he

omit [Libav] [LibAudio] [LibCodec] in
theorem untracked_single {e : Event}
    (h : e.opens = false ∧ e.running? = none ∧ ∀ v, e.consumed? v = none ∧ e.called? v = none) : Untracked [e] := by
  intro e' he
  obtain rfl := List.mem_singleton.mp he
  exact h

omit [Libav] [LibAudio] [LibCodec] in
theorem Event.Refusal.untracked {e : Event} (h : e.Refusal video) : Untracked [e] := by
  refine untracked_single ?_
  cases e with
  | rejected _ => exact ⟨rfl, rfl, fun _ => ⟨rfl, rfl⟩⟩
  | threw _ _ => exact ⟨rfl, rfl, fun _ => ⟨rfl, rfl⟩⟩
  | started => cases h
  | running _ _ => cases h
  | unstarted _ => cases h
  | accepted _ _ => cases h
  | consumed _ _ => cases h
  | called _ _ => cases h
  | failed _ _ => cases h
  | reported _ => cases h
  | stopped => cases h

/-- A session begins. -/
theorem Tracked.started (h : Tracked history s) (hidle : s.owner = .idle) (hworkers : ∀ v, (s.tracks v).worker = none)
    (config : AvEncoderConfig) :
    Tracked (history ++ [.started]) { s with error := none, owner := .opening config } := by
  have hnone : s.session = none := h.settled (hidle ▸ rfl) hworkers
  have hcalls : ∀ v, AvEncoder.calls v (history ++ [.started]) = [] := fun _ => Sessions.select_opened rfl
  refine ⟨fun _ _ v => ⟨(started_nil history v).2.1, hcalls v⟩, fun _ hs => ?_, fun _ _ => hnone, fun v _ _ hw => ?_,
    fun _ hs => ?_, fun _ hs => ?_, fun _ _ _ p hp => ?_⟩
  · exact absurd (hnone.symm.trans hs) (by simp)
  · exact absurd ((hworkers v).symm.trans hw) (by simp)
  · exact absurd (hnone.symm.trans hs) (by simp)
  · exact absurd (hnone.symm.trans hs) (by simp)
  · rw [(started_nil history true).2.2.1] at hp
    cases hp

omit [Libav] in
/-- The workers of a session start outside `Video` and `Audio`. -/
theorem install_worker {codecs : Bool → Option Codec} (hworkers : ∀ v, (s.tracks v).worker = none)
    (failed : Option Bool) (v : Bool) {w : Worker}
    (hw : ((s.install config codecs filter failed).2.tracks v).worker = some w) : w = .entering := by
  have hif : (if config.enabled v ∧ failed ≠ some v ∧ failed ≠ some true then some Worker.entering
      else (s.tracks v).worker) = some w := by
    cases failed with
    | none => exact hw
    | some _ => exact hw
  split at hif
  · exact (Option.some.inj hif).symm
  · exact absurd ((hworkers v).symm.trans hif) (by simp)

/-- The session has what `Start` opened. -/
theorem Tracked.installed (h : Tracked history s) (hbooks : Books history s) {codecs : Bool → Option Codec}
    (howner : s.owner = .opening config) (hopen : openSession config = .ok (codecs, filter)) :
    Tracked (history ++ [.running config s.onError]) (s.install config codecs filter none).2 := by
  have hopened := openSession_ok hopen
  have hworkers : ∀ v, (s.tracks v).worker = none := fun v => (hbooks.coherent.tracks v).starting config howner
  have hopens : ∀ e ∈ [Event.running config s.onError], e.opens = false := fun e he => List.mem_singleton.mp he ▸ rfl
  have hconsumed : ∀ v, consumed v (history ++ [.running config s.onError]) = [] := fun v =>
    (Sessions.select_same hopens fun e he => List.mem_singleton.mp he ▸ rfl).trans (h.opening config howner v).1
  have hcalls : ∀ v, AvEncoder.calls v (history ++ [.running config s.onError]) = [] := fun v =>
    (Sessions.select_same hopens fun e he => List.mem_singleton.mp he ▸ rfl).trans (h.opening config howner v).2
  have hruns : runs (history ++ [.running config s.onError]) = [(config, s.onError)] := by
    rw [runs, Sessions.select_append hopens, ← runs, (hbooks.opening config howner).1]
    rfl
  refine ⟨fun _ hcontra => (by cases hcontra), fun config' hs p hp => ?_, fun _ hnone => ?_, fun v last place hw => ?_,
    fun config' hs v codec hcodec => ?_, fun config' hs graph hgraph => ?_, fun _ v _ p hp => ?_⟩
  · rw [hruns, List.mem_singleton] at hp
    rw [hp]
    exact Option.some.inj hs
  · obtain ⟨v, henabled⟩ := hopened.enabled
    have hworker : ((s.install config codecs filter none).2.tracks v).worker = some .entering :=
      if_pos ⟨henabled, by simp, by simp⟩
    exact absurd (hworker.symm.trans (hnone v)) (by simp)
  · cases install_worker hworkers none v hw
  · obtain rfl : config = config' := Option.some.inj hs
    rw [hcalls v]
    exact ⟨codec, hopened.codec v codec hcodec, .refl _⟩
  · obtain rfl : config = config' := Option.some.inj hs
    obtain ⟨codec, hcodec, hcreate⟩ := hopened.filter graph hgraph
    rw [hcalls false]
    exact ⟨codec, graph, hcodec, hcreate, .refl _⟩
  · rw [hruns, List.mem_singleton] at hp
    subst hp
    have hlast : ((s.install config codecs filter none).2.tracks v).last (history ++ [.running config s.onError]) v =
        false := by
      cases hworker : ((s.install config codecs filter none).2.tracks v).worker with
      | some w =>
        rw [Track.last, hworker, install_worker hworkers none v hworker]
        rfl
      | none =>
        have hdisabled : config.enabled v = false := by
          by_contra henabled
          have hentering : ((s.install config codecs filter none).2.tracks v).worker = some .entering :=
            if_pos ⟨Bool.not_eq_false _ |>.mp henabled, by simp, by simp⟩
          exact absurd (hentering.symm.trans hworker) (by simp)
        rw [Track.last, hworker, Option.elim_none, ran, hruns]
        exact (Bool.or_false _).trans hdisabled
    have hplace : ((s.install config codecs filter none).2.tracks v).worker.bind Worker.place? = none := by
      cases hworker : ((s.install config codecs filter none).2.tracks v).worker with
      | none => rfl
      | some w =>
        rw [install_worker hworkers none v hworker]
        rfl
    rw [hlast, hplace, hconsumed v, hcalls v]
    refine ⟨?_, ⟨[], .nil, rfl⟩, fun _ before frame after hcontra => ?_⟩
    · cases v <;> rfl
    · cases before <;> cases hcontra

/-- `Start` could not make its threads. -/
theorem Tracked.uninstalled (h : Tracked history s) (hbooks : Books history s) {codecs : Bool → Option Codec}
    (howner : s.owner = .opening config) (hopen : openSession config = .ok (codecs, filter)) (failed : Bool) :
    Tracked history (s.install config codecs filter (some failed)).2 := by
  have hopened := openSession_ok hopen
  have hworkers : ∀ v, (s.tracks v).worker = none := fun v => (hbooks.coherent.tracks v).starting config howner
  refine ⟨fun _ hcontra => (by cases hcontra), fun config' hs p hp => ?_, fun hcontra => (by cases hcontra),
    fun v last place hw => ?_, fun config' hs v codec hcodec => ?_, fun config' hs graph hgraph => ?_,
    fun hcontra => (by cases hcontra)⟩
  · rw [(hbooks.opening config howner).1] at hp
    cases hp
  · cases install_worker hworkers (some failed) v hw
  · obtain rfl : config = config' := Option.some.inj hs
    rw [(h.opening config howner v).2]
    exact ⟨codec, hopened.codec v codec hcodec, .refl _⟩
  · obtain rfl : config = config' := Option.some.inj hs
    obtain ⟨codec, hcodec, hcreate⟩ := hopened.filter graph hgraph
    rw [(h.opening config howner false).2]
    exact ⟨codec, graph, hcodec, hcreate, .refl _⟩

theorem Tracked.cleared (h : Tracked history s) (failure : Option Exception) :
    Tracked (history ++ if failure.isNone then [.stopped] else []) { s with
      tracks := fun video => { s.tracks video with frames := none, backpressured := false, codec := none }
      session := none
      filter := none
      owner := failure.elim .idle .resetting } := by
  have huntracked : Untracked (if failure.isNone then [.stopped] else []) := by
    cases failure with
    | none => exact untracked_single ⟨rfl, rfl, fun _ => ⟨rfl, rfl⟩⟩
    | some _ => exact untracked_nil
  obtain ⟨hruns, hsame⟩ := huntracked.same history
  refine ⟨fun config howner => ?_, fun _ hs => (by cases hs), fun _ _ => rfl, h.fits, fun _ hs => (by cases hs),
    fun _ hs => (by cases hs), fun hnone v hthrown p hp => ?_⟩
  · cases failure <;> cases howner
  · rw [last_same hruns, (hsame v).1, (hsame v).2]
    exact h.passed hnone v hthrown p (hruns ▸ hp)

/-- A worker is joined. -/
theorem Tracked.joined (h : Tracked history s) (hbooks : Books history s) {tracks : List Bool}
    {failure : Option Exception} (hworker : (s.tracks video).worker = none ∨ (s.tracks video).worker = some .done) :
    Tracked (history ++ []) { s.setWorker video none with owner := .stopping (.joining tracks) failure } := by
  refine h.same untracked_nil rfl rfl (setTrack_same Track.codec rfl) (fun _ howner => (by cases howner))
    (fun hset => (by cases hset)) id fun v => ?_
  rcases setTrack_cases s video v { s.tracks video with worker := none } with ⟨rfl, heq⟩ | ⟨-, heq⟩
  · have hnone : ((s.setWorker v none).tracks v).worker = none := congrArg Track.worker heq
    rcases hworker with hworker | hworker
    · exact .inl (hnone.trans hworker.symm)
    · refine .inr ⟨?_, fun herror => ⟨?_, fun worker hw => ?_, ?_⟩⟩
      · show ((s.setWorker v none).tracks v).worker.bind Worker.place? = none
        rw [hnone]
        rfl
      · rw [hworker]
        rfl
      · obtain rfl := Option.some.inj (hworker.symm.trans hw)
        rfl
      · show ((s.setWorker v none).tracks v).last history v = (s.tracks v).last history v
        rw [Track.last, hnone, Track.last, hworker]
        exact (hbooks.frames herror v).ran (by rw [hworker]; rfl)
  · exact .inl (congrArg Track.worker heq)

/-- A worker calls `Video` or `Audio`. -/
theorem Tracked.consumed (h : Tracked history s) (hc : Coherent s) {frame : Option Frame}
    (hworker : (s.tracks video).worker = some (.checking frame)) (herror : s.error = none) (backpressured : Bool) :
    Tracked (history ++ [.consumed video frame]) (s.setTrack video { s.tracks video with
      backpressured := backpressured, worker := some (.encoding frame.isNone (.enter video frame)) }) := by
  have hopens : ∀ e ∈ [Event.consumed video frame], e.opens = false := fun e he => List.mem_singleton.mp he ▸ rfl
  have hruns : runs (history ++ [.consumed video frame]) = runs history :=
    Sessions.select_same hopens fun e he => List.mem_singleton.mp he ▸ rfl
  have hcalls : ∀ v, AvEncoder.calls v (history ++ [.consumed video frame]) = AvEncoder.calls v history := fun v =>
    Sessions.select_same hopens fun e he => List.mem_singleton.mp he ▸ rfl
  have hconsumed : ∀ v, AvEncoder.consumed v (history ++ [.consumed video frame]) =
      AvEncoder.consumed v history ++ if video = v then [frame] else [] := by
    intro v
    rw [AvEncoder.consumed, Sessions.select_append hopens, ← AvEncoder.consumed, List.filterMap_cons, Event.consumed?]
    by_cases hv : video = v
    · rw [if_pos hv, if_pos hv]
      rfl
    · rw [if_neg hv, if_neg hv]
      rfl
  have hcases := fun v => setTrack_cases s video v { s.tracks video with
    backpressured := backpressured, worker := some (.encoding frame.isNone (.enter video frame)) }
  refine ⟨fun config howner => ?_, fun config hs p hp => h.session config hs p (hruns ▸ hp), fun _ hnone => ?_,
    fun v last place hw => ?_, fun config hs v codec hcodec => ?_, fun config hs graph hgraph => ?_,
    fun _ v hthrown p hp => ?_⟩
  · exact absurd ((hc.tracks video).starting config howner) (by simp [hworker])
  · have hnone' := hnone video
    rw [setTrack_self] at hnone'
    cases hnone'
  · rcases hcases v with ⟨rfl, heq⟩ | ⟨-, heq⟩
    · rw [heq] at hw
      obtain ⟨rfl, rfl⟩ := Worker.encoding.inj (Option.some.inj hw)
      exact enter_fits v frame
    · exact h.fits v last place (by rwa [heq] at hw)
  · have hsame : ((s.setTrack video { s.tracks video with
        backpressured := backpressured, worker := some (.encoding frame.isNone (.enter video frame)) }).tracks v).codec
          = (s.tracks v).codec := by
      refine setTrack_same Track.codec ?_ v
      rfl
    rw [hcalls v]
    exact h.codecs config hs v codec (hsame.symm.trans hcodec)
  · rw [hcalls false]
    exact h.filter config hs graph hgraph
  · rw [last_same hruns, hconsumed v, hcalls v]
    have hp' : p ∈ runs history := hruns ▸ hp
    rcases hcases v with ⟨rfl, heq⟩ | ⟨hne, heq⟩
    · have hbefore := h.passed herror v (fun worker hw => by
        obtain rfl := Option.some.inj (hworker.symm.trans hw)
        rfl) p hp'
      rw [Track.last, hworker, Option.bind_some] at hbefore
      rw [heq, Track.last, if_pos rfl, Option.bind_some]
      exact hbefore.enter frame
    · rw [heq, if_neg (fun hv => hne hv.symm), List.append_nil]
      exact h.passed herror v (fun worker hw => hthrown worker (by rw [heq]; exact hw)) p hp'

omit [Libav] [LibAudio] [LibCodec] in
theorem Flow.worker_place {place' : Option Place} (last : Bool) (hplace' : flow.place? = some place') :
    (flow.worker last).place? = place' := by
  cases flow with
  | goto place => exact Option.some.inj hplace'
  | returned =>
    obtain rfl := Option.some.inj hplace'
    cases last <;> rfl
  | thrown e => cases hplace'

omit [Libav] [LibAudio] [LibCodec] in
theorem Flow.worker_last (flow : Flow) (last : Bool) : (flow.worker last).last = last := by
  cases flow with
  | goto place => rfl
  | returned => cases last <;> rfl
  | thrown e => rfl

omit [Libav] [LibAudio] [LibCodec] in
theorem Flow.place_of_whole (last : Bool) (h : (flow.worker last).thrown = false) :
    ∃ place', flow.place? = some place' := by
  cases flow with
  | goto place => exact ⟨_, rfl⟩
  | returned => exact ⟨_, rfl⟩
  | thrown e => cases h

omit [Libav] [LibAudio] [LibCodec] in
theorem Flow.goto_of_encoding {last' : Bool} (h : flow.worker last = .encoding last' place) :
    last' = last ∧ flow = .goto place := by
  cases flow with
  | goto place' =>
    obtain ⟨rfl, rfl⟩ := Worker.encoding.inj h
    exact ⟨rfl, rfl⟩
  | returned => cases last <;> cases h
  | thrown e => cases h

/-- A step of a codec path of the video track leaves the filter alone. -/
theorem Advanced.filter_same (h : Advanced config codec filter place new flow codec' filter')
    (hfits : place.Fits true last) : filter' = filter := by
  cases h with
  | submitted hsubmit => cases hfits.1
  | closed hclose => cases hfits.1
  | filtered hget hflow => cases hfits.1
  | emptied hget => cases hfits.1
  | finished hget => cases hfits.1
  | threw e => rfl
  | prepared hprepared hflow => rfl
  | ended => rfl
  | sent hsend hflow => rfl
  | drained hsend hflow => rfl
  | received hreceive hflow => rfl

/-- A worker takes a step in `Video` or `Audio`. -/
theorem Tracked.encoded (h : Tracked history s) (hc : Coherent s)
    (hworker : (s.tracks video).worker = some (.encoding last place)) (hsession : s.session = some config)
    (hcodec : (s.tracks video).codec = some codec)
    (hadvance : advance config callback codec s.filter place = (new, flow, codec', filter')) :
    Tracked (history ++ new.map (.called video)) ({ s with filter := filter' }.setTrack video { s.tracks video with
      codec := some codec', worker := some (flow.worker last) }) := by
  have hadvanced := advance_cases hadvance
  have hfits := h.fits video last place hworker
  have hopens : ∀ e ∈ new.map (Event.called video), e.opens = false := fun e he => (uncounted_calls video new e he).1.1
  have hruns : runs (history ++ new.map (.called video)) = runs history :=
    Sessions.select_same hopens fun e he => (uncounted_calls video new e he).1.2.1
  have hconsumed : ∀ v, AvEncoder.consumed v (history ++ new.map (.called video)) = AvEncoder.consumed v history :=
    fun v => Sessions.select_same hopens fun e he => ((uncounted_calls video new e he).2 v).2
  have hcalls : ∀ v, AvEncoder.calls v (history ++ new.map (.called video)) =
      AvEncoder.calls v history ++ if video = v then new else [] := by
    intro v
    rw [AvEncoder.calls, Sessions.select_append hopens, ← AvEncoder.calls, List.filterMap_map]
    congr 1
    by_cases hv : video = v
    · rw [if_pos hv]
      refine (List.filterMap_congr fun call _ => ?_).trans List.filterMap_some
      exact if_pos hv
    · rw [if_neg hv]
      exact List.filterMap_eq_nil_iff.mpr fun call _ => if_neg hv
  have hcases := fun v => setTrack_cases { s with filter := filter' } video v { s.tracks video with
    codec := some codec', worker := some (flow.worker last) }
  refine ⟨fun config howner => ?_, fun config hs p hp => h.session config hs p (hruns ▸ hp), fun _ hnone => ?_,
    fun v last' place' hw => ?_, fun config' hs v codec₁ hcodec₁ => ?_, fun config' hs graph hgraph => ?_,
    fun herror v hthrown p hp => ?_⟩
  · exact absurd ((hc.tracks video).starting config howner) (by simp [hworker])
  · have hnone' := hnone video
    rw [setTrack_self] at hnone'
    cases hnone'
  · rcases hcases v with ⟨rfl, heq⟩ | ⟨-, heq⟩
    · rw [heq] at hw
      obtain ⟨rfl, hflow⟩ := Flow.goto_of_encoding (Option.some.inj hw)
      exact hadvanced.fits hfits hflow
    · exact h.fits v last' place' (by rwa [heq] at hw)
  · obtain rfl : config = config' := Option.some.inj (hsession.symm.trans hs)
    rw [hcalls v]
    rcases hcases v with ⟨rfl, heq⟩ | ⟨hne, heq⟩
    · rw [heq] at hcodec₁
      obtain rfl := Option.some.inj hcodec₁
      obtain ⟨opened, hopened, hrun⟩ := h.codecs config hsession v codec hcodec
      rw [if_pos rfl]
      exact ⟨opened, hopened, hrun.trans hadvanced.codec_run⟩
    · rw [if_neg (fun hv => hne hv.symm), List.append_nil]
      exact h.codecs config hsession v codec₁ (by rwa [heq] at hcodec₁)
  · obtain rfl : config = config' := Option.some.inj (hsession.symm.trans hs)
    have hgraph' : filter' = some graph := hgraph
    rw [hcalls false]
    cases video with
    | false =>
      obtain ⟨graph₀, hfilter, hnew⟩ := hadvanced.filter_run hgraph'
      obtain ⟨opened, created, hopened, hcreated, hrun⟩ := h.filter config hsession graph₀ hfilter
      rw [if_pos rfl]
      exact ⟨opened, created, hopened, hcreated, hrun.trans hnew⟩
    | true =>
      rw [if_neg (by decide), List.append_nil]
      exact h.filter config hsession graph ((hadvanced.filter_same hfits).symm.trans hgraph')
  · rw [last_same hruns, hconsumed v, hcalls v]
    have hp' : p ∈ runs history := hruns ▸ hp
    rcases hcases v with ⟨rfl, heq⟩ | ⟨hne, heq⟩
    · have hbefore := h.passed herror v (fun worker hw => by
        obtain rfl := Option.some.inj (hworker.symm.trans hw)
        rfl) p hp'
      rw [Track.last, hworker, Option.bind_some, h.session config hsession p hp'] at hbefore
      obtain ⟨place', hplace'⟩ := Flow.place_of_whole last (hthrown _ (congrArg Track.worker heq))
      rw [heq, Track.last, if_pos rfl, Option.bind_some, Flow.worker_place last hplace',
        h.session config hsession p hp']
      have hlast : (flow.worker last).last = last := flow.worker_last last
      rw [Option.elim_some, hlast]
      exact hadvanced.passed hbefore hfits hplace'
    · rw [heq, if_neg (fun hv => hne hv.symm), List.append_nil]
      exact h.passed herror v (fun worker hw => hthrown worker (by rw [heq]; exact hw)) p hp'

/-- A failure is recorded. -/
theorem Tracked.failed (h : Tracked history s) (hc : Coherent s) {e e' : Exception} (huntracked : Untracked events)
    (hworker : (s.tracks video).worker = some (.failing last e)) (queues : List Bool) (first : Bool) :
    Tracked (history ++ events) ({ s with error := some e', accepting := false }.setWorker video
      (some (.discarding first e false queues))) := by
  refine h.same huntracked rfl rfl (fun v => ?_) (fun config howner => ?_) (fun _ hnone => ?_)
    (fun hnone => (by cases hnone)) fun v => ?_
  · refine setTrack_same Track.codec ?_ v
    rfl
  · exact absurd ((hc.tracks video).starting config howner) (by simp [hworker])
  · have hnone' := hnone video
    rw [setWorker, setTrack_self] at hnone'
    cases hnone'
  · rcases setTrack_cases { s with error := some e', accepting := false } video v
      { s.tracks video with worker := some (.discarding first e false queues) } with ⟨rfl, heq⟩ | ⟨-, heq⟩
    · refine .inr ⟨?_, fun hnone => (by cases hnone)⟩
      exact congrArg (fun track : Track => track.worker.bind Worker.place?) heq
    · exact .inl (congrArg Track.worker heq)

/-- A worker, handling a failure, touches the queue of a track. -/
theorem Tracked.lowered (h : Tracked history s) (track : Bool) (frames : Option (BlockingQueue Frame)) :
    Tracked history (s.setFrames track frames) := by
  have hsame : ∀ {β : Type} (f : Track → β) (v : Bool), (∀ track : Track, f { track with frames := frames } = f track) →
      f ((s.setFrames track frames).tracks v) = f (s.tracks v) :=
    fun f v hf => setTrack_same f (hf _) v
  have hframe : Tracked (history ++ []) (s.setFrames track frames) :=
    h.frame untracked_nil rfl rfl (fun v => hsame Track.codec v fun _ => rfl) (fun _ howner => howner) id id
      fun v => hsame Track.worker v fun _ => rfl
  rwa [List.append_nil] at hframe

/-- `Start` reports its failure. -/
theorem Tracked.reset (h : Tracked history s) (e : Exception) :
    Tracked (history ++ [.unstarted e])
      { s with accepting := false, session := none, error := some e, owner := .idle } := by
  refine ⟨fun _ howner => (by cases howner), fun _ hs => (by cases hs), fun _ _ => rfl, h.fits,
    fun _ hs => (by cases hs), fun _ hs => (by cases hs), fun hnone => (by cases hnone)⟩

/-- **Every step keeps the calls of the session.** -/
theorem Tracked.step (h : Tracked history s) (hbooks : Books history s) (hstep : Stepped s events s') :
    Tracked (history ++ events) s' := by
  have hc := hbooks.coherent
  cases hstep with
  | configured hidle hworkers present =>
    exact h.frame untracked_nil rfl rfl (fun _ => rfl) (fun _ howner => howner) id id fun _ => rfl
  | same =>
    rw [List.append_nil]
    exact h
  | started hidle hworkers hfree config => exact h.started hidle hworkers config
  | stop hidle =>
    exact h.frame untracked_nil rfl rfl (fun _ => rfl) (fun _ howner => (by cases howner))
      (fun hset => (by cases hset)) id fun _ => rfl
  | unopened howner e =>
    exact h.frame untracked_nil rfl rfl (fun _ => rfl) (fun _ howner => (by cases howner))
      (fun hset => (by cases hset)) id fun _ => rfl
  | installed howner hopen hfree => exact h.installed hbooks howner hopen
  | uninstalled howner hopen hfree henabled =>
    rw [List.append_nil]
    exact h.uninstalled hbooks howner hopen _
  | entered howner hfree =>
    exact h.frame untracked_nil rfl rfl (fun _ => rfl) (fun _ howner => (by cases howner))
      (fun hset => (by cases hset)) id fun _ => rfl
  | @closed video queues failure howner =>
    refine (h.lowered video _).frame untracked_nil rfl rfl (fun _ => rfl) (fun _ howner => (by cases howner))
      (fun hset => (by cases hset)) id fun _ => rfl
  | joins howner =>
    exact h.frame untracked_nil rfl rfl (fun _ => rfl) (fun _ howner => (by cases howner))
      (fun hset => (by cases hset)) id fun _ => rfl
  | joined howner hworker => exact h.joined hbooks hworker
  | clears howner =>
    exact h.frame untracked_nil rfl rfl (fun _ => rfl) (fun _ howner => (by cases howner))
      (fun hset => (by cases hset)) id fun _ => rfl
  | cleared howner hfree => exact h.cleared _
  | reset howner hfree => exact h.reset _
  | refused hrefusal =>
    exact h.frame hrefusal.untracked rfl rfl (fun _ => rfl) (fun _ howner => howner) id id fun _ => rfl
  | full video =>
    exact h.frame (untracked_single ⟨rfl, rfl, fun _ => ⟨rfl, rfl⟩⟩) rfl rfl (setTrack_same Track.codec rfl)
      (fun _ howner => howner) id id (setTrack_same Track.worker rfl)
  | checked frame haccepting hsession hcodec hroom hfree =>
    exact h.frame untracked_nil rfl rfl (setTrack_same Track.codec rfl) (fun _ howner => howner) id id
      (setTrack_same Track.worker rfl)
  | pushed hproducer hframes hopen hroom =>
    exact h.frame (untracked_single ⟨rfl, rfl, fun _ => ⟨rfl, rfl⟩⟩) rfl rfl (setTrack_same Track.codec rfl)
      (fun _ howner => howner) id id (setTrack_same Track.worker rfl)
  | unpushed hproducer hrefusal =>
    exact h.frame hrefusal.untracked rfl rfl (setTrack_same Track.codec rfl) (fun _ howner => howner) id id
      (setTrack_same Track.worker rfl)
  | quit hworker hplace herror =>
    exact h.turn untracked_nil hworker rfl rfl rfl fun hnone => absurd hnone herror
  | ready hworker herror => exact h.turn untracked_nil hworker rfl rfl rfl fun _ => ⟨rfl, rfl, rfl⟩
  | popped hworker hframes hqueue => exact h.turn untracked_nil hworker rfl rfl rfl fun _ => ⟨rfl, rfl, rfl⟩
  | drained hworker hframes hqueue hclosed =>
    exact h.turn untracked_nil hworker rfl rfl rfl fun _ => ⟨rfl, rfl, rfl⟩
  | consumed hworker herror backpressured => exact h.consumed hc hworker herror backpressured
  | encoded hworker hsession hcodec hadvance => exact h.encoded hc hworker hsession hcodec hadvance
  | failed hworker hfree =>
    refine h.failed hc ?_ hworker _ _
    split
    · exact untracked_single ⟨rfl, rfl, fun _ => ⟨rfl, rfl⟩⟩
    · exact untracked_nil
  | @discardClosed video first e track queues queue hworker hframes =>
    have hworker' : ((s.setFrames track (some (queue.close []).2)).tracks video).worker =
        some (.discarding first e false (track :: queues)) := (setFrames_worker _ _).trans hworker
    exact (h.lowered track _).turn untracked_nil hworker' rfl rfl rfl fun hnone =>
      absurd hnone (hc.quiet_of_broken hworker rfl).1
  | discarded hworker hframes hqueue =>
    rw [List.append_nil]
    exact h.lowered _ _
  | discardedAll hworker hempty =>
    exact h.turn untracked_nil hworker rfl rfl rfl fun hnone => absurd hnone (hc.quiet_of_broken hworker rfl).1
  | reports hworker =>
    exact h.turn untracked_nil hworker rfl rfl rfl fun hnone => absurd hnone (hc.quiet_of_broken hworker rfl).1
  | reported hworker =>
    refine h.turn ?_ hworker rfl rfl rfl fun hnone => absurd hnone (hc.quiet_of_broken hworker rfl).1
    split
    · exact untracked_single ⟨rfl, rfl, fun _ => ⟨rfl, rfl⟩⟩
    · exact untracked_nil

omit [LibAudio] [LibCodec] in
/-- A codec path whose frames have all passed. -/
theorem Passed.delivered (h : Passed config video true none given calls) {frames : List Frame}
    (hgiven : given = frames.map some ++ [none]) : Delivered config video frames calls := by
  obtain ⟨submitted, houtputs, htook⟩ := h.taken
  refine ⟨?_, ⟨submitted, houtputs, ?_⟩, h.emptied rfl⟩
  · have hinputs := h.inputs
    rw [Option.elim_none, List.append_nil] at hinputs
    rw [← hinputs, hgiven, entering]
    cases video with
    | true =>
      rw [if_pos rfl, if_pos rfl, List.filter_append, List.append_nil, List.filter_eq_self.mpr fun frame hframe => ?_]
      · exact List.append_nil _
      · obtain ⟨frame, -, rfl⟩ := List.mem_map.mp hframe
        rfl
    | false => rfl
  · rw [Option.elim_none, if_pos rfl, Option.elim_none] at htook
    rw [htook, List.map_nil, List.append_nil]

end AvEncoder

namespace AvEncoder

attribute [local instance] Libav.reference LibAudio.reference LibCodec.reference

end AvEncoder

end MwStreamer
