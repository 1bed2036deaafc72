import MwStreamer.Library.Transition
import MwStreamer.Media.Frame
import MwStreamer.Platform.BlockingQueue
import MwStreamer.Remuxer.PacketInterleaver

/-!
# The decoder

`AvDecoder` has a bounded queue of packets and control items that one producer fills, a worker that takes them to the
codec, and a bounded queue of frames that one consumer empties.  A step is one critical section of `mutex_`, one call
of a queue, which has a mutex of its own, or one call of the codec.

The codec keeps the contract of `avcodec_send_packet` and `avcodec_receive_frame`: it takes a packet when it is new,
was flushed, or has answered `EAGAIN`, it gives the frames of what it was sent in order and at any delay, and after an
end of stream all that are left.
-/

namespace MwStreamer

/-- The frames a codec makes of packets. -/
class LibDecoder where
  /-- All frames of a stream of packets. -/
  decode : List Packet → List Frame
  /-- How many of them the codec may give before it knows what follows. -/
  ready : List Packet → ℕ
  ready_stable : ∀ packets more, (decode packets).take (ready packets) <+: decode (packets ++ more)

export LibDecoder (decode ready)

/-- A codec that makes a frame of every packet and keeps the last one back. -/
@[reducible]
def LibDecoder.reference : LibDecoder where
  decode packets := packets.map fun packet => { pts := packet.pts, bestEffortTimestamp := packet.pts, duration := 1 }
  ready packets := packets.length - 1
  ready_stable packets more := by
    rw [List.map_append]
    exact (List.take_prefix _ _).trans (List.prefix_append _ _)

namespace AvDecoder

/-- A codec since it was opened or flushed: what it was sent and how many frames it gave.  `hungry` tells that it takes
a packet. -/
structure CodecState where
  sent : List Packet := []
  given : ℕ := 0
  ended : Bool := false
  hungry : Bool := true
  deriving DecidableEq, Repr

namespace CodecState

inductive Received where
  | frame (frame : Frame)
  | again
  | eof
  deriving DecidableEq, Repr

variable [LibDecoder]

/-- The next frame the codec may give. -/
def frame? (codec : CodecState) : Option Frame :=
  if codec.ended = true ∨ codec.given < ready codec.sent then (decode codec.sent)[codec.given]? else none

/-- `avcodec_receive_frame`; `delayed` withholds a frame, which a codec may do until the end of its stream. -/
def receive (codec : CodecState) (delayed : Bool) : Received × CodecState :=
  if delayed ∧ codec.ended = false then (.again, { codec with hungry := true })
  else
    match codec.frame? with
    | some frame => (.frame frame, { codec with given := codec.given + 1, hungry := false })
    | none => if codec.ended then (.eof, codec) else (.again, { codec with hungry := true })

omit [LibDecoder] in
/-- `avcodec_send_packet`. -/
def send (codec : CodecState) (packet : Option Packet) : ℤ × CodecState :=
  if codec.ended then (averrorEof, codec)
  else if !codec.hungry then (averrorEagain, codec)
  else
    match packet with
    | some packet => (0, { codec with sent := codec.sent ++ [packet], hungry := false })
    | none => (0, { codec with ended := true, hungry := false })

end CodecState

inductive CodecType where
  | video
  | audio
  | other
  deriving DecidableEq, Repr

/-- What `FrameEndPts` reads of the `AVCodecContext`. -/
structure CodecContext where
  codecType : CodecType := .other
  framerate : AVRational := ⟨0, 1⟩
  sampleRate : ℤ := 0
  deriving DecidableEq, Repr

/-- `Input`. -/
inductive Input where
  | packet (packet : Packet)
  | eof
  | reset
  deriving DecidableEq, Repr

/-- The packet of an input, which controls have not. -/
def Input.packet? : Input → Option Packet
  | .packet content => some content
  | _ => none

/-- What is left of the catch block of `Run`. -/
inductive Cleanup where
  | closePackets
  | closeFrames
  | discardInput
  deriving DecidableEq, Repr

/-- Where `Run` is.  `emitting` is blocked in `Emit`, with an end of file or a frame. -/
inductive Worker where
  | entering
  | receiving
  | emitting (result : AvDecoderReadResult)
  | popping
  | checking (input : Input)
  | sending (input : Input)
  | failing (e : Exception)
  | cleaning (left : List Cleanup)
  | done
  deriving DecidableEq, Repr

/-- The producer, inside a `Push` that waits, before and after the call of the queue. -/
inductive Producer where
  | idle
  | pushing (input : Input)
  | pushed (input : Input)
  deriving DecidableEq, Repr

inductive Reader where
  | idle
  | popping (wait : Bool)
  | holding (result : Option AvDecoderReadResult)
  deriving DecidableEq, Repr

/-- `emitted` is the entry of `Emit`; `failed` is an error of the codec, and `misused` one that the contract allows
because of the way it was called. -/
inductive Event where
  | accepted (input : Input)
  | refused
  | threw (e : Exception)
  | emitted (result : AvDecoderReadResult)
  | read (result : AvDecoderReadResult)
  | null
  | failed (e : Exception)
  | misused (e : Exception)
  | stopRequested
  deriving DecidableEq, Repr

end AvDecoder

open AvDecoder in
/-- `AvDecoder::Impl` with its three threads, and the locals of `Run`. -/
structure AvDecoder where
  streamIndex : ℤ
  timeBase : AVRational
  packets : BlockingQueue Input
  frames : BlockingQueue AvDecoderReadResult
  stopping : Bool := false
  submittedEof : Bool := false
  error : Option Exception := none
  codec : CodecState := {}
  started : Bool := false
  drained : Bool := false
  nextPts : ℤ := avNoptsValue
  worker : Worker := .entering
  producer : Producer := .idle
  reader : Reader := .idle
  deriving DecidableEq, Repr

namespace AvDecoder

variable (s : AvDecoder)

/-! ### The producer -/

/-- `PushPacket` checks the packet. -/
def misplaced : Input → Bool
  | .packet packet => packet.streamIndex != s.streamIndex
  | _ => false

/-- The section `Push` begins with, and all of a `Push` that does not wait. -/
def push (input : Input) (wait : Bool) : List Event × AvDecoder :=
  if s.misplaced input then ([.threw (.invalidArgument "AvDecoder Packet 为空或不属于当前轨道")], s)
  else if s.stopping || s.error.isSome then ([.refused], s)
  else if s.submittedEof && input != .reset then
    ([.threw (.logicError "AvDecoder 提交 EOF 后需要先 Reset 才能继续输入")], s)
  else if wait then ([], { s with producer := .pushing input })
  else if s.packets.capacity ≤ s.packets.queue.length then ([.refused], s)
  else
    match s.packets.offer input with
    | some (true, packets) => ([.accepted input], { s with packets := packets, submittedEof := input == .eof })
    | _ => ([.refused], s)

/-- A `Push` that waits goes on. -/
def produce : Option (List Event × AvDecoder) :=
  match s.producer with
  | .idle => none
  | .pushing input =>
    match s.packets.offer input with
    | some (true, packets) => some ([.accepted input], { s with packets := packets, producer := .pushed input })
    | some (false, _) => some ([.refused], { s with producer := .idle })
    | none => none
  | .pushed input => some ([], { s with submittedEof := input == .eof, producer := .idle })

/-! ### The reader -/

/-- The section `ReadFrame` begins with. -/
def read (wait : Bool) : List Event × AvDecoder :=
  if s.stopping then ([.null], s) else ([], { s with reader := .popping wait })

/-- `ReadFrame` goes on. -/
def consume : Option (List Event × AvDecoder) :=
  match s.reader with
  | .idle => none
  | .popping wait =>
    (s.frames.take wait).map fun (result, frames) => ([], { s with frames := frames, reader := .holding result })
  | .holding result =>
    let event := if s.stopping then .null else (result.map Event.read).getD .null
    some ([event], { s with reader := .idle })

/-! ### The worker -/

/-- The duration of a frame in `FrameEndPts`.  The nominal rate is the estimate when the decoded duration is
unavailable. -/
def frameDuration [Libav] (context : CodecContext) (timeBase : AVRational) (frame : Frame) : ℤ :=
  if 0 < frame.duration then frame.duration
  else if context.codecType = .video ∧ context.framerate.Positive then
    avRescaleQ 1 (avInvQ context.framerate) timeBase
  else if context.codecType = .audio ∧ 0 < context.sampleRate then
    avRescaleQ frame.nbSamples ⟨1, context.sampleRate⟩ timeBase
  else frame.duration

/-- `FrameEndPts`. -/
def frameEndPts [Libav] (context : CodecContext) (timeBase : AVRational) (frame : Frame) : ℤ :=
  if frame.pts = avNoptsValue then avNoptsValue
  else
    let duration := frameDuration context timeBase frame
    if duration ≤ 0 ∨ int64Max - duration < frame.pts then avNoptsValue else frame.pts + duration

/-- A decoded frame on the time line of the stream. -/
def stamped (timeBase : AVRational) (frame : Frame) : Frame :=
  { frame with pts := frame.bestEffortTimestamp, timeBase := timeBase }

def frameResult (frame : Frame) : AvDecoderReadResult where
  status := .frame
  frame := some (stamped s.timeBase frame)
  streamIndex := s.streamIndex
  timeBase := s.timeBase

def eofResult (endPts : ℤ) : AvDecoderReadResult where
  status := .eof
  streamIndex := s.streamIndex
  timeBase := s.timeBase
  endPts := endPts

/-- What a call of the codec does: it fails by itself with `failure`, or answers. -/
structure Answer where
  failure : Option Exception := none
  delayed : Bool := false
  context : CodecContext := {}
  deriving DecidableEq, Repr

variable [Libav] [LibDecoder]

/-- `avcodec_receive_frame` and what follows up to `Emit`. -/
def receive (answer : Answer) : List Event × AvDecoder :=
  match s.codec.receive answer.delayed with
  | (.eof, codec) =>
    ([.emitted (s.eofResult s.nextPts)], { s with codec := codec, worker := .emitting (s.eofResult s.nextPts) })
  | (.again, codec) => ([], { s with codec := codec, worker := .popping })
  | (.frame frame, codec) =>
    ([.emitted (s.frameResult frame)], { s with
      codec := codec
      nextPts := frameEndPts answer.context s.timeBase (stamped s.timeBase frame)
      worker := .emitting (s.frameResult frame) })

omit [Libav] [LibDecoder] in
/-- `avcodec_send_packet`. -/
def send (packet : Option Packet) : List Event × AvDecoder :=
  match s.codec.send packet with
  | (result, codec) =>
    if result < 0 then
      ([.misused (.ffmpeg result "avcodec_send_packet")],
        { s with worker := .failing (.ffmpeg result "avcodec_send_packet") })
    else ([], { s with codec := codec, started := true, worker := .entering })

omit [Libav] [LibDecoder] in
/-- The section after `Pop`, with a `Reset`, which only the worker sees. -/
def check (input : Input) : List Event × AvDecoder :=
  if s.stopping then ([], { s with worker := .done })
  else
    match input with
    | .reset =>
      ([], { s with codec := {}, started := false, drained := false, nextPts := avNoptsValue, worker := .entering })
    | input => ([], { s with worker := .sending input })

omit [Libav] [LibDecoder] in
/-- A step of the end of a failed `Run`. -/
def clean : Cleanup → AvDecoder
  | .closePackets => { s with packets := (s.packets.close []).2 }
  | .closeFrames => { s with frames := (s.frames.close []).2 }
  | .discardInput => { s with packets := { s.packets with queue := [] } }

/-- A step of `Run`. -/
def work (answer : Answer) : Option (List Event × AvDecoder) :=
  match s.worker with
  | .entering =>
    some ([], { s with
      worker := if s.stopping then .done else if s.started && !s.drained then .receiving else .popping })
  | .receiving =>
    match answer.failure with
    | some e => some ([.failed e], { s with worker := .failing e })
    | none => some (s.receive answer)
  | .emitting result =>
    match s.frames.offer result with
    | some (true, frames) =>
      some ([], { s with frames := frames, drained := s.drained || result.status == .eof, worker := .entering })
    | some (false, _) => some ([], { s with worker := .done })
    | none => none
  | .popping =>
    match s.packets.take true with
    | some (some input, packets) => some ([], { s with packets := packets, worker := .checking input })
    | some (none, _) => some ([], { s with worker := .done })
    | none => none
  | .checking input => some (s.check input)
  | .sending input =>
    match answer.failure with
    | some e => some ([.failed e], { s with worker := .failing e })
    | none => some (s.send input.packet?)
  | .failing e =>
    some ([], { s with error := some e, worker := .cleaning [.closePackets, .closeFrames, .discardInput] })
  | .cleaning [] => some ([], { s with worker := .done })
  | .cleaning (step :: left) => some ([], { s.clean step with worker := .cleaning left })
  | .done => none

/-! ### All threads -/

inductive Act where
  | push (input : Input) (wait : Bool)
  | produce
  | read (wait : Bool)
  | consume
  | work (answer : Answer)
  | requestStop
  | closePackets
  | closeFrames
  deriving DecidableEq, Repr

/-- `RequestStop` sets its flag and then closes the two queues. -/
def next : Act → Option (List Event × AvDecoder)
  | .push input wait => if s.producer = .idle then some (s.push input wait) else none
  | .produce => s.produce
  | .read wait => if s.reader = .idle then some (s.read wait) else none
  | .consume => s.consume
  | .work answer => s.work answer
  | .requestStop => some ([.stopRequested], { s with stopping := true })
  | .closePackets => if s.stopping then some ([], s.clean .closePackets) else none
  | .closeFrames => if s.stopping then some ([], s.clean .closeFrames) else none

/-- A decoder that was just made. -/
def Created : Prop :=
  ∃ streamIndex timeBase packetCapacity frameCapacity, 0 < packetCapacity ∧ 0 < frameCapacity ∧
    s = { streamIndex := streamIndex, timeBase := timeBase, packets := { capacity := packetCapacity },
          frames := { capacity := frameCapacity } }

def system : Transition AvDecoder Event where
  init := Created
  step s events s' := ∃ act, s.next act = some (events, s')

end AvDecoder

end MwStreamer
