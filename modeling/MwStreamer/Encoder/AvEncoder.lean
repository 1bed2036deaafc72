import MwStreamer.Filter.AudioResampler
import MwStreamer.Library.Transition
import MwStreamer.Platform.BlockingQueue

/-!
# The encoder

`AvEncoder` has for each track a bounded queue that one producer fills and a worker of its own that takes the
frames to the codec.  A step is one critical section of `mutex_`, one call of a queue, which has a mutex of its
own, or one call of an external library.  `TryPush` holds `mutex_` from its checks to the end of the push, so a
producer between the two keeps every other section of `mutex_` waiting, but not the consumer of the queue.

The codecs and the filter graph are deterministic consumers.  Their loops have no bound, so a loop is a place of
the worker and each of its turns is a step.  A step emits the `Call`s it makes of them, with what they answered.
-/

namespace MwStreamer

/-- What the encoder calls of libavcodec. -/
class LibCodec [LibAudio] where
  Codec : Type
  /-- `OpenVideo` or `OpenAudio`. -/
  openCodec : AvEncoderConfig → Bool → Except Exception Codec
  /-- The constructor of `AudioFilter`. -/
  createFilter : AvEncoderConfig → Codec → Except Exception Graph
  /-- `PrepareVideoFrame`. -/
  prepareVideoFrame : Codec → Frame → Except Exception Frame
  avcodecSendFrame : Codec → Option Frame → ℤ × Codec
  /-- The result code; a packet when it is not negative. -/
  avcodecReceivePacket : Codec → ℤ × Codec

export LibCodec (Codec openCodec createFilter prepareVideoFrame avcodecSendFrame avcodecReceivePacket)

/-- A codec that counts its frames, of 1024 samples for audio, and has one packet for each. -/
@[reducible]
def LibCodec.reference [LibAudio] : LibCodec where
  Codec := ℕ × Bool
  openCodec _ _ := .ok (0, false)
  createFilter config _ :=
    graphCreate config.audioSampleFormat config.audioSampleRate config.audioChannelLayout 1024
  prepareVideoFrame _ frame := .ok frame
  avcodecSendFrame codec frame :=
    match frame with
    | some _ => (0, (codec.1 + 1, codec.2))
    | none => (0, (codec.1, true))
  avcodecReceivePacket codec :=
    match codec.1 with
    | n + 1 => (0, (n, codec.2))
    | 0 => (if codec.2 then averrorEof else averrorEagain, codec)

/-- The time base `OpenVideo` and `OpenAudio` set. -/
def AvEncoderConfig.codecTimeBase (config : AvEncoderConfig) (video : Bool) : AVRational :=
  if video then avInvQ config.fps else ⟨1, config.audioSampleRate⟩

namespace AvEncoder

/-- `kFrameCapacity`. -/
def frameCapacity : ℕ := 3

/-- `ValidateTiming`. -/
def validateTiming (frame : Frame) : Except Exception Unit :=
  if frame.pts = avNoptsValue ∨ ¬frame.timeBase.Positive ∨ frame.duration < 0 then
    .error (.invalidArgument "编码输入需要有效的 PTS、时间基和非负时长")
  else .ok ()

/-- `InTimeBase`. -/
def inTimeBase [Libav] (frame : Frame) (timeBase : AVRational) : Except Exception Frame :=
  let pts := avRescaleQ frame.pts frame.timeBase timeBase
  let duration := avRescaleQ frame.duration frame.timeBase timeBase
  if pts = avNoptsValue ∨ pts = int64Max ∨ duration < 0 ∨ duration = int64Max then
    .error (.overflowError "编码输入时间基换算溢出")
  else .ok { frame with pts := pts, duration := duration, timeBase := timeBase }

/-- `FfmpegException::throwIfError`. -/
def throwIfError (result : ℤ) (operation : String) : Except Exception Unit :=
  if result < 0 then .error (.ffmpeg result operation) else .ok ()

/-- What follows a `Receive`: `Encode` sends the frame again or is done, and so does `DrainCodec`.  After
`Encode` the loop of `Audio` goes on, or there is none. -/
inductive After where
  | resend (submitted : Frame) (loop : Option Bool)
  | sent (loop : Option Bool)
  | resendEof
  | drained
  deriving DecidableEq, Repr

/-- Where a worker is in `Video` or `Audio`; the loop of `Audio` remembers whether the input has ended. -/
inductive Place where
  | video (frame : Option Frame)
  | audio (frame : Option Frame)
  | filtering (ended : Bool)
  | sending (submitted : Frame) (loop : Option Bool)
  | draining
  | receiving (after : After)
  deriving DecidableEq, Repr

/-- What one step of `Video` or `Audio` leads to. -/
inductive Flow where
  | goto (place : Place)
  | returned
  | thrown (e : Exception)
  deriving DecidableEq, Repr

/-- A `do` block of the source that ends at another place. -/
def Flow.of : Except Exception Flow → Flow
  | .ok flow => flow
  | .error e => .thrown e

/-- Where `Run` is.  `checking` has popped a frame, or has found the queue closed; `encoding` and `failing`
remember whether the codec path was given the end of the stream; `discarding` has queues left to close and
empty. -/
inductive Worker where
  | entering
  | popping
  | checking (frame : Option Frame)
  | encoding (last : Bool) (place : Place)
  | failing (last : Bool) (e : Exception)
  | discarding (first : Bool) (e : Exception) (closed : Bool) (queues : List Bool)
  | reporting (first : Bool) (e : Exception)
  | done
  deriving DecidableEq, Repr

/-- Where `Stop` is. -/
inductive Stopping where
  | entering
  | closing (queues : List Bool)
  | joining (tracks : List Bool)
  | clearing
  deriving DecidableEq, Repr

/-- Where the owner is: in `Start`, in a `Stop`, which a failed `Start` calls with its failure, or in the section
a failed `Start` ends with. -/
inductive Owner where
  | idle
  | opening (config : AvEncoderConfig)
  | stopping (stage : Stopping) (failure : Option Exception)
  | resetting (failure : Exception)
  deriving DecidableEq, Repr

section

variable [LibAudio] [LibCodec]

/-- `Track`, with the codec of the session.  `producer` is a frame whose `TryPush` has passed the checks. -/
structure Track where
  worker : Option Worker := none
  frames : Option (BlockingQueue Frame) := none
  backpressured : Bool := false
  producer : Option Frame := none
  codec : Option Codec := none

end

end AvEncoder

open AvEncoder in
/-- `AvEncoder::Impl`, with the configuration and the filter of the session. -/
structure AvEncoder [LibAudio] [LibCodec] where
  tracks : Bool → Track := fun _ => {}
  onError : Bool := false
  accepting : Bool := false
  error : Option Exception := none
  session : Option AvEncoderConfig := none
  filter : Option Graph := none
  owner : Owner := .idle

namespace AvEncoder

/-- A call of an external library on a codec path, with what it answered.  `submitted` is a frame that went into the
filter graph, or its end; `filtered` is what the graph gave, nothing when it has nothing more; `sent` gives the codec a
frame, or the end of the stream, and `received` asks it for a packet. -/
inductive Call where
  | prepared (frame prepared : Frame)
  | submitted (frame : Option Frame)
  | filtered (frame : Option Frame)
  | sent (frame : Option Frame) (result : ℤ)
  | received (result : ℤ)
  deriving DecidableEq, Repr

/-- `started` is a `Start` that found no workers, `running` one that went through, with a registered `OnError` or
without; `consumed` is a call of `Video` or `Audio`, `called` a call it makes, `failed` the failure a worker recorded as
the first of the session. -/
inductive Event where
  | started
  | running (config : AvEncoderConfig) (onError : Bool)
  | unstarted (e : Exception)
  | accepted (video : Bool) (frame : Frame)
  | rejected (video : Bool)
  | threw (video : Bool) (e : Exception)
  | consumed (video : Bool) (frame : Option Frame)
  | called (video : Bool) (call : Call)
  | failed (video : Bool) (e : Exception)
  | reported (e : Exception)
  | stopped
  deriving DecidableEq, Repr

variable [Libav] [LibAudio] [LibCodec]

/-- Some producer holds `mutex_`. -/
def locked (s : AvEncoder) : Bool := (s.tracks true).producer.isSome || (s.tracks false).producer.isSome

def setTrack (s : AvEncoder) (video : Bool) (track : Track) : AvEncoder :=
  { s with tracks := fun v => if v = video then track else s.tracks v }

/-- `HasWorkers`. -/
def hasWorkers (s : AvEncoder) : Bool := (s.tracks true).worker.isSome || (s.tracks false).worker.isSome

def setWorker (s : AvEncoder) (video : Bool) (worker : Option Worker) : AvEncoder :=
  s.setTrack video { s.tracks video with worker := worker }

def setFrames (s : AvEncoder) (video : Bool) (frames : Option (BlockingQueue Frame)) : AvEncoder :=
  s.setTrack video { s.tracks video with frames := frames }

/-! ### `TryPush` -/

/-- The checks of the frame in `TryPush`; `present` tells that the session has the track. -/
def checkInput (config : AvEncoderConfig) (present : Bool) (frame : Frame) (video : Bool) :
    Except Exception Unit := do
  if present = false then throw (.invalidArgument "编码输入轨道未启用")
  if frame.media = none then throw (.invalidArgument "编码输入内容为空")
  if video = false ∧ (frame.nbSamples ≤ 0 ∨ frame.format ≠ config.audioSampleFormat ∨
      frame.sampleRate ≠ config.audioSampleRate ∨
      avChannelLayoutCompare frame.chLayout config.audioChannelLayout ≠ 0) then
    throw (.invalidArgument "编码音频内容或格式不匹配")
  validateTiming frame

/-- `TryPush` up to the push. -/
def tryPush (s : AvEncoder) (frame : Frame) (video : Bool) : List Event × AvEncoder :=
  match s.accepting, s.session with
  | true, some config =>
    match checkInput config (s.tracks video).codec.isSome frame video with
    | .error e => ([.threw video e], s)
    | .ok () =>
      if frameCapacity ≤ ((s.tracks video).frames.elim 0 fun queue => queue.queue.length) then
        ([.rejected video], s.setTrack video { s.tracks video with backpressured := true })
      else ([], s.setTrack video { s.tracks video with producer := some frame })
  | _, _ => ([.rejected video], s)

/-- The push of `TryPush`, whose timeout is zero, and its return; `throws` is what making the element throws. -/
def push (s : AvEncoder) (video : Bool) (throws : Option Exception) : Option (List Event × AvEncoder) := do
  let frame ← (s.tracks video).producer
  let queue ← (s.tracks video).frames
  let track := { s.tracks video with producer := none }
  match throws, queue.pushImpl [] frame true true throws.isSome with
  | none, (.notifying .success _, queue) =>
    return ([.accepted video frame], s.setTrack video { track with frames := some queue })
  | some e, _ => return ([.threw video e], s.setTrack video track)
  | none, _ => return ([.rejected video], s.setTrack video track)

/-! ### The codec path -/

/-- `Receive` returns `result`, which is `EAGAIN` or an end of file. -/
def received (result : ℤ) : After → Flow
  | .resend submitted loop => .goto (.sending submitted loop)
  | .sent none => .returned
  | .sent (some ended) => .goto (.filtering ended)
  | .resendEof => .goto .draining
  | .drained =>
    if result = averrorEof then .returned else .thrown (.runtimeError "编码器排空未到达 EOF")

/-- One step of `Video` or `Audio` with what it calls; `callback` is what the packet callback throws, if the step
calls it. -/
def advance (config : AvEncoderConfig) (callback : Option Exception) (codec : Codec) (filter : Option Graph) :
    Place → List Call × Flow × Codec × Option Graph
  | .video (some frame) =>
    match prepareVideoFrame codec frame with
    | .error e => ([], .thrown e, codec, filter)
    | .ok prepared =>
      ([.prepared frame prepared], Flow.of do
        let submitted ← inTimeBase prepared (config.codecTimeBase true)
        return .goto (.sending { submitted with pktDts := avNoptsValue } none), codec, filter)
  | .video none => ([], .goto .draining, codec, filter)
  | .audio frame =>
    match filter with
    | none => ([], .thrown .badOptional, codec, none)
    | some graph =>
      match frame.elim (avBuffersrcClose graph) (AudioResampler.submit graph config.audioSampleRate) with
      | .error e => ([], .thrown e, codec, some graph)
      | .ok graph => ([.submitted frame], .goto (.filtering frame.isNone), codec, some graph)
  | .filtering ended =>
    match filter with
    | none => ([], .thrown .badOptional, codec, none)
    | some graph =>
      match avBuffersinkGetFrame graph with
      | .error e => ([], .thrown e, codec, some graph)
      | .ok (some filtered, graph) =>
        ([.filtered (some filtered)], Flow.of do
          let submitted ← inTimeBase filtered (config.codecTimeBase false)
          return .goto (.sending submitted (some ended)), codec, some graph)
      | .ok (none, graph) =>
        ([.filtered none], if ended then .goto .draining else .returned, codec, some graph)
  | .sending submitted loop =>
    let (result, codec) := avcodecSendFrame codec (some submitted)
    if result = averrorEagain then
      ([.sent (some submitted) result], .goto (.receiving (.resend submitted loop)), codec, filter)
    else
      ([.sent (some submitted) result], Flow.of do
        throwIfError result "avcodec_send_frame"
        return .goto (.receiving (.sent loop)), codec, filter)
  | .draining =>
    let (result, codec) := avcodecSendFrame codec none
    if result = averrorEagain then ([.sent none result], .goto (.receiving .resendEof), codec, filter)
    else
      ([.sent none result], Flow.of do
        if result ≠ averrorEof then throwIfError result "avcodec_send_frame EOF"
        return .goto (.receiving .drained), codec, filter)
  | .receiving after =>
    let (result, codec) := avcodecReceivePacket codec
    if result = averrorEagain ∨ result = averrorEof then ([.received result], received result after, codec, filter)
    else
      ([.received result], Flow.of do
        throwIfError result "avcodec_receive_packet"
        match callback with
        | none => return .goto (.receiving after)
        | some e => throw e, codec, filter)

/-- The call of `Video` or `Audio`. -/
def Place.enter (video : Bool) (frame : Option Frame) : Place := if video then .video frame else .audio frame

/-- Where a step of the codec path leaves the worker. -/
def Flow.worker (last : Bool) : Flow → Worker
  | .goto place => .encoding last place
  | .returned => if last then .done else .popping
  | .thrown e => .failing last e

/-- One step of the codec path of a track. -/
def encode (s : AvEncoder) (video last : Bool) (place : Place) (callback : Option Exception) :
    Option (List Event × AvEncoder) := do
  let config ← s.session
  let codec ← (s.tracks video).codec
  let (calls, flow, codec, filter) := advance config callback codec s.filter place
  return (calls.map (.called video), { s with filter := filter }.setTrack video
    { s.tracks video with codec := some codec, worker := some (flow.worker last) })

/-! ### `Run` -/

/-- The first section of the `catch` block. -/
def recordFailure (s : AvEncoder) (video : Bool) (e : Exception) : List Event × AvEncoder :=
  let first := s.error.isNone
  (if first then [.failed video e] else [],
    { s with error := some (s.error.getD e), accepting := false }.setWorker video
      (some (.discarding first e false [true, false])))

/-- One turn of the loop over the two queues in the `catch` block. -/
def discardNext (s : AvEncoder) (video first : Bool) (e : Exception) (closed : Bool) : List Bool → AvEncoder
  | [] => s.setWorker video (some (.reporting first e))
  | track :: queues =>
    match (s.tracks track).frames with
    | none => s.setWorker video (some (.discarding first e false queues))
    | some queue =>
      if closed = false then
        (s.setFrames track (some (queue.close []).2)).setWorker video
          (some (.discarding first e true (track :: queues)))
      else
        match queue.popImpl [] false with
        | (.notifying (.value _) _, queue) => s.setFrames track (some queue)
        | _ => s.setWorker video (some (.discarding first e false queues))

/-- One step of a worker. -/
def work (s : AvEncoder) (video : Bool) (callback : Option Exception) : Option (List Event × AvEncoder) :=
  match (s.tracks video).worker with
  | none | some .done => none
  | some .entering =>
    if s.locked then none
    else some ([], s.setWorker video (some (if s.error.isSome then .done else .popping)))
  | some .popping =>
    match (s.tracks video).frames.map fun queue : BlockingQueue Frame => queue.pop [] false with
    | some (.notifying (.value frame) _, queue) =>
      some ([], s.setTrack video
        { s.tracks video with frames := some queue, worker := some (.checking (some frame)) })
    | some (.notifying _ _, _) => some ([], s.setWorker video (some (.checking none)))
    | _ => none
  | some (.checking frame) =>
    if s.locked then none
    else if s.error.isSome then some ([], s.setWorker video (some .done))
    else
      some ([.consumed video frame], s.setTrack video { s.tracks video with
        backpressured := (s.tracks video).backpressured && frame.isNone
        worker := some (.encoding frame.isNone (.enter video frame)) })
  | some (.encoding last place) => s.encode video last place callback
  | some (.failing _ e) => if s.locked then none else some (s.recordFailure video e)
  | some (.discarding first e closed queues) => some ([], s.discardNext video first e closed queues)
  | some (.reporting first e) =>
    some (if first && s.onError then [.reported e] else [], s.setWorker video (some .done))

/-! ### `Start` and `Stop` -/

/-- What `Start` makes for a session: the codecs and the filter. -/
def openSession (config : AvEncoderConfig) : Except Exception ((Bool → Option Codec) × Option Graph) := do
  if config.enabled true = false ∧ config.enabled false = false then
    throw (.invalidArgument "AvEncoder 需要至少一条轨道")
  if config.enabled true ∧ (config.fps.num ≤ 0 ∨ config.fps.den ≤ 0) then
    throw (.invalidArgument "AvEncoder 视频帧率无效")
  let video ← if config.enabled true then some <$> openCodec config true else pure none
  if config.enabled false then
    let audio ← openCodec config false
    let filter ← createFilter config audio
    return (fun track => if track then video else some audio, some filter)
  else return (fun track => if track then video else none, none)

/-- The second section of `Start`; `failed` is the track whose thread cannot be created.  The worker of the video
track exists when the thread of the audio track fails. -/
def install (s : AvEncoder) (config : AvEncoderConfig) (codecs : Bool → Option Codec) (filter : Option Graph)
    (failed : Option Bool) : List Event × AvEncoder :=
  let worker (video : Bool) : Option Worker :=
    if config.enabled video ∧ failed ≠ some video ∧ failed ≠ some true then some .entering
    else (s.tracks video).worker
  let s := { s with
    session := some config
    filter := filter
    tracks := fun video => { s.tracks video with
      codec := codecs video
      frames := if config.enabled video then some { capacity := frameCapacity } else (s.tracks video).frames
      worker := worker video } }
  match failed with
  | none => ([.running config s.onError], { s with accepting := true, owner := .idle })
  | some video =>
    let e := .runtimeError (if video then "启动 AvEncoder 视频线程失败" else "启动 AvEncoder 音频线程失败")
    ([], { s with accepting := false, error := some e, owner := .stopping .entering (some e) })

/-- The next step of the owner in `Start` or `Stop`. -/
def own (s : AvEncoder) (failed : Option Bool) : Option (List Event × AvEncoder) :=
  match s.owner with
  | .idle => none
  | .opening config =>
    match openSession config with
    | .error e => some ([], { s with owner := .stopping .entering (some e) })
    | .ok (codecs, filter) =>
      if s.locked || failed.any (!config.enabled ·) then none else some (s.install config codecs filter failed)
  | .stopping .entering failure =>
    if s.locked then none
    else some ([], { s with accepting := false, owner := .stopping (.closing [true, false]) failure })
  | .stopping (.closing []) failure => some ([], { s with owner := .stopping (.joining [true, false]) failure })
  | .stopping (.closing (video :: queues)) failure =>
    some ([], { s.setFrames video ((s.tracks video).frames.map fun queue => (queue.close []).2) with
      owner := .stopping (.closing queues) failure })
  | .stopping (.joining []) failure => some ([], { s with owner := .stopping .clearing failure })
  | .stopping (.joining (video :: tracks)) failure =>
    match (s.tracks video).worker with
    | none | some .done =>
      some ([], { s.setWorker video none with owner := .stopping (.joining tracks) failure })
    | _ => none
  | .stopping .clearing failure =>
    if s.locked then none
    else
      some (if failure.isNone then [.stopped] else [], { s with
        tracks := fun video => { s.tracks video with frames := none, backpressured := false, codec := none }
        session := none
        filter := none
        owner := failure.elim .idle .resetting })
  | .resetting e =>
    if s.locked then none
    else some ([.unstarted e], { s with accepting := false, session := none, error := some e, owner := .idle })

/-- The next step: the owner configures, calls `Start` or `Stop`, or goes on in it; the producer of a track calls
`TryPush` or ends it; or a worker takes a step. -/
inductive Act where
  | setOnError (present : Bool)
  | start (config : AvEncoderConfig)
  | stop
  | own (failed : Option Bool)
  | tryPush (video : Bool) (frame : Frame)
  | push (video : Bool) (throws : Option Exception)
  | work (video : Bool) (callback : Option Exception)
  deriving DecidableEq, Repr

def next (s : AvEncoder) : Act → Option (List Event × AvEncoder)
  | .setOnError present =>
    if s.owner = .idle ∧ s.hasWorkers = false then some ([], { s with onError := present }) else none
  | .start config =>
    if s.owner ≠ .idle then none
    else if s.hasWorkers then some ([], s)
    else if s.locked then none
    else some ([.started], { s with error := none, owner := .opening config })
  | .stop => if s.owner = .idle then some ([], { s with owner := .stopping .entering none }) else none
  | .own failed => s.own failed
  | .tryPush video frame => if s.locked then none else some (s.tryPush frame video)
  | .push video throws => s.push video throws
  | .work video callback => s.work video callback

def system : Transition AvEncoder Event where
  init s := s = {}
  step s events s' := ∃ act, s.next act = some (events, s')

end AvEncoder

end MwStreamer
