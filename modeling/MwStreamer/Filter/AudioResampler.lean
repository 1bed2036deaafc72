import MwStreamer.Media.Frame

/-!
# The audio resampler

`AudioResampler`: a bounded queue of decoded audio and end-of-file marks, read one output at a time.  A read
converts through libswresample and, when a block size is set, reblocks through a libavfilter graph.  The
calls hold the mutex of the resampler from beginning to end, so each is one function of the state.

The two libraries are parameters.  The loop of `ReadFixed` has no bound of its own, so `turns` limits how many
of its turns a read may take; a read that needs more does not return, and what holds of the resampler holds
for every limit.
-/

namespace MwStreamer

/-- What the resampler and its reblocker call of libswresample and libavfilter. -/
class LibAudio where
  /-- `SwrContext`. -/
  SwrContext : Type
  /-- The graph of an `AudioFrameAdapter`. -/
  Graph : Type
  avGetBytesPerSample : ℤ → ℤ
  /-- `swr_alloc_set_opts2` and `swr_init`: the target layout, format and rate, then those of the source. -/
  swrAlloc : ChannelLayout → ℤ → ℤ → ChannelLayout → ℤ → ℤ → Except Exception SwrContext
  swrNextPts : SwrContext → ℤ → ℤ × SwrContext
  swrGetOutSamples : SwrContext → ℤ → ℤ
  /-- `swr_convert` into a buffer of the given capacity, from a frame or, to drain, from nothing: the number
  of samples or an error code, and what was written. -/
  swrConvert : SwrContext → ℤ → Option Frame → ℤ × Option Media × SwrContext
  /-- The graph of a format, a rate, a layout and a block size. -/
  graphCreate : ℤ → ℤ → ChannelLayout → ℤ → Except Exception Graph
  avBuffersrcWriteFrame : Graph → Frame → Except Exception Graph
  avBuffersrcClose : Graph → Except Exception Graph
  /-- `av_buffersink_get_frame` and the time base of the sink; `none` is `EAGAIN` or an end of file. -/
  avBuffersinkGetFrame : Graph → Except Exception (Option Frame × Graph)
  /-- After `EAGAIN` there is no frame before more input. -/
  avBuffersinkGetFrame_again : ∀ graph graph', avBuffersinkGetFrame graph = .ok (none, graph') →
    ∀ frame graph'', avBuffersinkGetFrame graph' ≠ .ok (some frame, graph'')
  /-- The samples of one storage from an offset, followed by silence. -/
  padded : Option Media → ℤ → ℤ → Option Media

export LibAudio (SwrContext Graph avGetBytesPerSample swrAlloc swrNextPts swrGetOutSamples swrConvert
  graphCreate avBuffersrcWriteFrame avBuffersrcClose avBuffersinkGetFrame padded)

/-- A graph that keeps a number of samples from a time stamp on. -/
structure FifoGraph where
  size : ℤ
  rate : ℤ
  frame : Frame := {}
  samples : ℤ := 0
  ended : Bool := false
  deriving DecidableEq, Repr

/-- The next block, or the tail of an ended graph. -/
def FifoGraph.get (graph : FifoGraph) : Except Exception (Option Frame × FifoGraph) :=
  if 0 < graph.samples ∧ (graph.size ≤ graph.samples ∨ graph.ended = true) then
    let samples := min graph.size graph.samples
    .ok (some { graph.frame with nbSamples := samples, timeBase := ⟨1, graph.rate⟩ },
      { graph with samples := graph.samples - samples, frame := { graph.frame with pts := graph.frame.pts + samples } })
  else .ok (none, graph)

theorem FifoGraph.get_again (graph graph' : FifoGraph) (h : graph.get = .ok (none, graph')) (frame : Frame)
    (graph'' : FifoGraph) : graph'.get ≠ .ok (some frame, graph'') := by
  unfold get at h
  split at h
  · simp at h
  · next hnone =>
    obtain ⟨-, rfl⟩ := Prod.mk.inj (Except.ok.inj h)
    unfold get
    rw [if_neg hnone]
    simp

/-- An executable implementation: a conversion that keeps the samples, and a first-in first-out graph. -/
@[reducible]
def LibAudio.reference : LibAudio where
  SwrContext := Unit
  Graph := FifoGraph
  avGetBytesPerSample format := if 0 ≤ format ∧ format < 12 then 4 else 0
  swrAlloc _ _ _ _ _ _ := .ok ()
  swrNextPts context pts := (pts, context)
  swrGetOutSamples _ samples := samples
  swrConvert context _ frame :=
    match frame with
    | some frame => (frame.nbSamples, frame.media, context)
    | none => (0, none, context)
  graphCreate _ rate _ size := .ok { size := size, rate := rate }
  avBuffersrcWriteFrame graph frame :=
    .ok
      { graph with
        frame := if graph.samples = 0 then frame else graph.frame
        samples := graph.samples + frame.nbSamples }
  avBuffersrcClose graph := .ok { graph with ended := true }
  avBuffersinkGetFrame := FifoGraph.get
  avBuffersinkGetFrame_again := FifoGraph.get_again
  padded media _ _ := media

/-- `AudioResamplerConfig`. -/
structure AudioResamplerConfig where
  sampleRate : ℤ := 48000
  sampleFormat : ℤ := 8
  channelLayout : ChannelLayout := ⟨2, 3⟩
  inputCapacity : ℕ := 8
  outputSamplesPerFrame : ℤ := 0
  deriving DecidableEq, Repr

section

variable [LibAudio]

/-- `AudioResampler::Impl` without its mutex, its log and its latency statistics. -/
structure AudioResampler where
  rate : ℤ
  format : ℤ
  capacity : ℕ
  outputSamplesPerFrame : ℤ
  layout : ChannelLayout
  turns : ℕ
  adapter : Option Graph := none
  blockPending : Option AvDecoderReadResult := none
  blockMetadata : AvDecoderReadResult := {}
  blockNextPts : Option ℤ := none
  blockEnding : Bool := false
  ptsPrecision : ℤ := 1
  generation : ℕ := 0
  blockGeneration : ℕ := 0
  context : Option SwrContext := none
  inputs : List AvDecoderReadResult := []
  lastInput : Option AvDecoderReadResult := none
  nextOutputPts : Option ℤ := none
  stopped : Bool := false
  failure : Option Exception := none

end

namespace AudioResampler

section

variable [Libav]

/-- `Rescale`. -/
def rescale (value : ℤ) (source target : AVRational) : Except Exception ℤ :=
  rescaleChecked "AudioResampler 时间戳超出可表示范围" value source target

/-- `av_rescale_q_rnd` of one tick, rounding up. -/
def tickUp (source target : AVRational) : ℤ :=
  -(-(source.num * target.den) / (source.den * target.num))

end

/-- `Multiply`. -/
def multiply (value multiplier : ℤ) : Except Exception ℤ :=
  if int64Max.tdiv multiplier < value ∨ value ≤ int64Min.tdiv multiplier then
    .error (.overflowError "AudioResampler 时间戳乘积超出可表示范围")
  else .ok (value * multiplier)

/-- `AddSamples`. -/
def addSamples (pts samples : ℤ) : Except Exception ℤ :=
  if int64Max - samples < pts then .error (.overflowError "AudioResampler 输出末尾时间超出可表示范围")
  else .ok (pts + samples)

/-- `FfmpegException::throwIfError`. -/
def throwIfError (result : ℤ) (operation : String) : Except Exception Unit :=
  if result < 0 then .error (.runtimeError operation) else .ok ()

variable [LibAudio]

def timeBase (impl : AudioResampler) : AVRational := ⟨1, impl.rate⟩

section

variable [Libav]

def create (config : AudioResamplerConfig) (turns : ℕ) : Except Exception AudioResampler :=
  if config.sampleRate ≤ 0 ∨ avGetBytesPerSample config.sampleFormat ≤ 0 ∨
      Libav.avChannelLayoutCheck config.channelLayout = false ∨ config.inputCapacity = 0 ∨
      config.outputSamplesPerFrame < 0 then
    .error (.invalidArgument "AudioResampler 目标音频格式和容量无效")
  else
    .ok
      { rate := config.sampleRate
        format := config.sampleFormat
        capacity := config.inputCapacity
        outputSamplesPerFrame := config.outputSamplesPerFrame
        layout := config.channelLayout
        turns := turns }

/-- `Validate`. -/
def validate (impl : AudioResampler) (input : AvDecoderReadResult) : Except Exception Unit :=
  if input.status = .eof then do
    if input.frame.isSome ∨ (input.endPts ≠ avNoptsValue ∧ ¬input.timeBase.Positive) then
      throw (.invalidArgument "AudioResampler EOF 参数无效")
    if input.endPts ≠ avNoptsValue then
      discard (rescale input.endPts input.timeBase impl.timeBase)
  else
    match input.status, input.frame with
    | .frame, some frame => do
      if frame.width ≠ 0 ∨ frame.height ≠ 0 ∨ frame.nbSamples ≤ 0 ∨ frame.sampleRate ≤ 0 ∨
          avGetBytesPerSample frame.format ≤ 0 ∨ Libav.avChannelLayoutCheck frame.chLayout = false ∨
          frame.pts = avNoptsValue ∨ ¬input.timeBase.Positive then
        throw (.invalidArgument "AudioResampler 需要有效 CPU 音频和时间戳")
      if frame.media = none then throw (.invalidArgument "AudioResampler 音频平面为空")
      let sourcePts ← rescale frame.pts input.timeBase ⟨1, frame.sampleRate⟩
      discard (multiply sourcePts impl.rate)
      discard (rescale frame.pts input.timeBase impl.timeBase)
    | _, _ => throw (.invalidArgument "AudioResampler 需要音频帧或 EOF")

/-- `TryPushFrame`: whether the input was queued.  An exception leaves the resampler as it was. -/
def tryPushFrame (impl : AudioResampler) (input : AvDecoderReadResult) :
    Except Exception (Bool × AudioResampler) :=
  if impl.stopped ∨ impl.failure.isSome then .ok (false, impl)
  else if impl.capacity ≤ impl.inputs.length then .ok (false, impl)
  else do
    impl.validate input
    return (true, { impl with inputs := impl.inputs ++ [input] })

/-! ### Conversion

A read that throws leaves the resampler failed, and only `Reset` leaves that state, so the functions below
return no state with an exception. -/

/-- `Matches`. -/
def matchesInput (last input : AvDecoderReadResult) : Bool :=
  match last.frame, input.frame with
  | some previous, some current =>
    decide (input.streamIndex = last.streamIndex) && decide (current.sampleRate = previous.sampleRate) &&
      decide (current.format = previous.format) &&
      decide (Libav.avChannelLayoutCompare current.chLayout previous.chLayout = 0)
  | _, _ => false

omit [Libav] in
def initializeConverter (impl : AudioResampler) (frame : Frame) : Except Exception AudioResampler := do
  let context ← swrAlloc impl.layout impl.format impl.rate frame.chLayout frame.format frame.sampleRate
  return { impl with generation := impl.generation + 1, context := some context }

omit [Libav] in
/-- `Allocate`: the properties of the source with the target format and room for `capacity` samples. -/
def allocate (impl : AudioResampler) (capacity : ℤ) (source : Frame) : Frame :=
  { source with
    media := none
    width := 0
    height := 0
    sampleRate := impl.rate
    format := impl.format
    nbSamples := capacity
    chLayout := impl.layout }

omit [Libav] in
/-- `Output`. -/
def output (impl : AudioResampler) (frame : Frame) (samples pts : ℤ) (last : AvDecoderReadResult) :
    Except Exception (AvDecoderReadResult × AudioResampler) :=
  if samples = 0 then .ok ({}, impl)
  else do
    let next ← addSamples pts samples
    let frame :=
      { frame with
        nbSamples := samples
        pts := pts
        pktDts := avNoptsValue
        bestEffortTimestamp := pts
        timeBase := impl.timeBase
        duration := samples }
    return ({ status := .frame, frame := some frame, streamIndex := last.streamIndex, timeBase := impl.timeBase },
      { impl with nextOutputPts := some next })

/-- `Convert`. -/
def convert (impl : AudioResampler) (context : SwrContext) (input : AvDecoderReadResult) (source : Frame) :
    Except Exception (AvDecoderReadResult × AudioResampler) := do
  let sourcePts ← rescale source.pts input.timeBase ⟨1, source.sampleRate⟩
  let pts ← multiply sourcePts impl.rate
  let next := swrNextPts context pts
  if next.1 = avNoptsValue then throw (.overflowError "AudioResampler 无法计算输出时间戳")
  let targetPts ← rescale next.1 ⟨1, source.sampleRate⟩ ⟨1, 1⟩
  let capacity := swrGetOutSamples next.2 source.nbSamples
  throwIfError capacity "计算重采样输出容量"
  let frame := impl.allocate (if 0 < capacity then capacity else 1) source
  let converted := swrConvert next.2 frame.nbSamples (some source)
  throwIfError converted.1 "转换音频采样"
  -- Adjacent rounded timestamps can differ by one source tick, and rate conversion rounds to a sample.
  let impl :=
    { impl with
      ptsPrecision := tickUp input.timeBase impl.timeBase + 1
      context := some converted.2.2
      lastInput := some input
      nextOutputPts := some targetPts }
  impl.output { frame with media := converted.2.1 } converted.1 targetPts input

omit [Libav] in
/-- `Drain`. -/
def drain (impl : AudioResampler) (context : SwrContext) (last : AvDecoderReadResult) :
    Except Exception (AvDecoderReadResult × AudioResampler) := do
  let capacity := swrGetOutSamples context 0
  throwIfError capacity "计算重采样排空容量"
  let frame := impl.allocate (if 0 < capacity then capacity else 1) (last.frame.getD {})
  let converted := swrConvert context frame.nbSamples none
  throwIfError converted.1 "排空音频重采样缓存"
  match impl.nextOutputPts with
  | none => throw .badOptional
  | some pts =>
    let impl := { impl with context := some converted.2.2 }
    impl.output { frame with media := converted.2.1 } converted.1 pts last

omit [Libav] in
def clearConverter (impl : AudioResampler) : AudioResampler :=
  { impl with context := none, lastInput := none, nextOutputPts := none }

/-- The front of a turn of `ReadConverted`: an old conversion is drained before an end of file or a new
format.  `none` goes on with the input. -/
def drainFirst (impl : AudioResampler) (input : AvDecoderReadResult) :
    Except Exception (Option AvDecoderReadResult × AudioResampler) :=
  match impl.context, impl.lastInput with
  | some context, some last =>
    if input.status = .eof ∨ matchesInput last input = false then do
      let (result, impl) ← impl.drain context last
      if result.status = .frame then .ok (some result, impl) else .ok (none, impl.clearConverter)
    else .ok (none, impl)
  | some _, none => .error .badOptional
  | none, _ => .ok (none, impl)

/-- The end of an end of file in the target time base. -/
def endPts (impl : AudioResampler) (input : AvDecoderReadResult) : Except Exception ℤ :=
  if input.endPts ≠ avNoptsValue then rescale input.endPts input.timeBase impl.timeBase
  else .ok input.endPts

omit [Libav] in
/-- The resampler with a converter for the format of the frame. -/
def withConverter (impl : AudioResampler) (frame : Frame) : Except Exception AudioResampler :=
  if impl.context.isNone then impl.initializeConverter frame else .ok impl

/-- The rest of a turn of `ReadConverted`, which pops the input; `none` continues the loop. -/
def convertFront (impl : AudioResampler) (input : AvDecoderReadResult) :
    Except Exception (Option AvDecoderReadResult × AudioResampler) :=
  if input.status = .eof then do
    let endPts ← impl.endPts input
    .ok (some { input with timeBase := impl.timeBase, endPts := endPts }, impl)
  else
    match input.frame with
    | none => .error .badOptional
    | some frame => do
      let impl ← impl.withConverter frame
      match impl.context with
      | none => throw .badOptional
      | some context =>
        let (result, impl) ← impl.convert context input frame
        if result.status = .frame then .ok (some result, impl) else .ok (none, impl)

/-- The loop of `ReadConverted` over the queue. -/
def readConverted : List AvDecoderReadResult → AudioResampler →
    Except Exception (AvDecoderReadResult × AudioResampler)
  | [], impl => .ok ({}, { impl with inputs := [] })
  | input :: rest, impl => do
    let (drained, impl) ← impl.drainFirst input
    match drained with
    | some result => .ok (result, { impl with inputs := input :: rest })
    | none =>
      let (converted, impl) ← impl.convertFront input
      match converted with
      | some result => .ok (result, { impl with inputs := rest })
      | none => readConverted rest impl

/-! ### Blocks -/

omit [Libav] in
/-- `BlockContinuous`. -/
def blockContinuous (impl : AudioResampler) (expected pts : ℤ) : Bool :=
  decide (|pts - expected| ≤ impl.ptsPrecision)

/-- `AudioFrameAdapter::Submit`. -/
def submit (graph : Graph) (rate : ℤ) (frame : Frame) : Except Exception Graph := do
  if frame.pts = avNoptsValue ∨ ¬frame.timeBase.Positive ∨ frame.duration < 0 then
    throw (.invalidArgument "音频适配输入需要有效的 PTS、时间基和非负时长")
  let pts := avRescaleQ frame.pts frame.timeBase ⟨1, rate⟩
  let duration := avRescaleQ frame.duration frame.timeBase ⟨1, rate⟩
  if pts = avNoptsValue ∨ pts = int64Max ∨ duration < 0 ∨ duration = int64Max then
    throw (.overflowError "音频适配输入时间基换算溢出")
  avBuffersrcWriteFrame graph { frame with pts := pts, duration := duration, timeBase := ⟨1, rate⟩ }

omit [Libav] in
/-- A block of the adapter as an output: a short tail is padded with silence. -/
def blockOutput (impl : AudioResampler) (frame : Frame) : AvDecoderReadResult :=
  let frame :=
    if frame.nbSamples < impl.outputSamplesPerFrame then
      { impl.allocate impl.outputSamplesPerFrame frame with
        media := padded frame.media frame.nbSamples impl.outputSamplesPerFrame }
    else frame
  { impl.blockMetadata with
    frame := some
      { frame with duration := frame.nbSamples, bestEffortTimestamp := frame.pts, pktDts := avNoptsValue } }

omit [Libav] in
/-- The front of a turn of `ReadFixed`: a block of the adapter is the output, and a drained adapter that is
ending goes away. -/
def receiveBlock (impl : AudioResampler) : Except Exception (Option AvDecoderReadResult × AudioResampler) :=
  match impl.adapter with
  | none => .ok (none, impl)
  | some graph => do
    let (frame, graph) ← avBuffersinkGetFrame graph
    match frame with
    | some frame => .ok (some (impl.blockOutput frame), { impl with adapter := some graph })
    | none =>
      if impl.blockEnding then
        .ok (none, { impl with adapter := none, blockEnding := false, blockNextPts := none })
      else .ok (none, { impl with adapter := some graph })

/-- The next converted input of `ReadFixed`. -/
def takeConverted (impl : AudioResampler) : Except Exception (AvDecoderReadResult × AudioResampler) :=
  match impl.blockPending with
  | some input => .ok (input, { impl with blockPending := none })
  | none => readConverted impl.inputs impl

omit [Libav] in
/-- Whether a converted input ends the block of the adapter. -/
def endsBlock (impl : AudioResampler) (input : AvDecoderReadResult) : Except Exception Bool :=
  if impl.adapter.isNone then .ok false
  else if input.status = .eof ∨ input.streamIndex ≠ impl.blockMetadata.streamIndex then .ok true
  else
    match impl.blockNextPts, input.frame with
    | some expected, some frame =>
      .ok (!impl.blockContinuous expected frame.pts || decide (impl.blockGeneration ≠ impl.generation))
    | _, _ => .error .badOptional

omit [Libav] in
/-- The adapter of the current block, or a new one. -/
def withAdapter (impl : AudioResampler) : Except Exception Graph :=
  match impl.adapter with
  | some graph => .ok graph
  | none => graphCreate impl.format impl.rate impl.layout impl.outputSamplesPerFrame

omit [Libav] in
/-- The end of the block, with the input kept for the next. -/
def endBlock (impl : AudioResampler) (graph : Graph) (input : AvDecoderReadResult) :
    Except Exception AudioResampler := do
  let graph ← avBuffersrcClose graph
  return { impl with adapter := some graph, blockPending := some input, blockEnding := true }

/-- The input goes into the adapter, on one sample clock within the precision of the source. -/
def submitBlock (impl : AudioResampler) (graph : Graph) (input : AvDecoderReadResult) (frame : Frame) :
    Except Exception AudioResampler := do
  let frame := { frame with pts := impl.blockNextPts.getD frame.pts }
  let graph ← submit graph impl.rate frame
  let next ← addSamples frame.pts frame.nbSamples
  return { impl with
    adapter := some graph
    blockGeneration := impl.generation
    blockNextPts := some next
    blockMetadata := { input with frame := none } }

/-- The rest of a turn of `ReadFixed` with a converted input; `none` continues the loop. -/
def placeConverted (impl : AudioResampler) (input : AvDecoderReadResult) :
    Except Exception (Option AvDecoderReadResult × AudioResampler) :=
  if input.status = .null then .ok (some {}, impl)
  else do
    let ends ← impl.endsBlock input
    match impl.adapter, ends with
    | some graph, true =>
      let impl ← impl.endBlock graph input
      .ok (none, impl)
    | _, _ =>
      if input.status = .eof then .ok (some input, impl)
      else
        match input.frame with
        | none => .error .badOptional
        | some frame => do
          let graph ← impl.withAdapter
          let impl ← impl.submitBlock graph input frame
          .ok (none, impl)

/-- The loop of `ReadFixed`; `none` when it takes more turns. -/
def readFixed : ℕ → AudioResampler → Option (Except Exception (AvDecoderReadResult × AudioResampler))
  | 0, _ => none
  | turns + 1, impl =>
    match impl.receiveBlock with
    | .error e => some (.error e)
    | .ok (some result, impl) => some (.ok (result, impl))
    | .ok (none, impl) =>
      match impl.takeConverted with
      | .error e => some (.error e)
      | .ok (input, impl) =>
        match impl.placeConverted input with
        | .error e => some (.error e)
        | .ok (some result, impl) => some (.ok (result, impl))
        | .ok (none, impl) => readFixed turns impl

/-- `TryReadFrame`; `none` when it does not return. -/
def tryReadFrame (impl : AudioResampler) : Option (Except Exception AvDecoderReadResult × AudioResampler) :=
  match impl.failure with
  | some e => some (.error e, impl)
  | none =>
    if impl.stopped then some (.ok {}, impl)
    else
      let read :=
        if 0 < impl.outputSamplesPerFrame then readFixed impl.turns impl
        else some (readConverted impl.inputs impl)
      read.map fun
        | .error e => (.error e, { impl with failure := some e })
        | .ok (result, impl) => (.ok result, impl)

end

def clearBlocks (impl : AudioResampler) : AudioResampler :=
  { impl with
    adapter := none
    blockPending := none
    blockMetadata := {}
    blockNextPts := none
    blockEnding := false }

def stop (impl : AudioResampler) : AudioResampler :=
  if impl.stopped then impl
  else { impl with stopped := true, inputs := [] }.clearConverter.clearBlocks

def reset (impl : AudioResampler) : AudioResampler :=
  { { impl with inputs := [] }.clearConverter.clearBlocks with failure := none, stopped := false }

end AudioResampler

end MwStreamer
