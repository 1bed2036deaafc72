import Mathlib.Logic.Function.Basic
import MwStreamer.Input.AvInput
import MwStreamer.Library.Transition

/-!
# Forwarding of a remux pipeline

The packet worker of `RemuxPipeline` reads the input, attaches the time base of its track to every packet of the
two delivered tracks and submits it.  A packet of another connection, or one whose decoding time stamp jumps in a
source that is flagged for it, first starts a new output session.  An AAC track without configuration is
probed before that: the worker reads ahead into `pending`, from where the loop takes the results again.

`Worker.turn` is one pass of the loop, or one read of the probe; no stop is requested.  What the proxy, the
probe, the output and the callback answer is in `Answer`.  Descriptions are shared pointers and are compared by
address.  `Cursor.forward` is what the worker is for: the session boundaries as a fold over the selected packets,
without `pending`.
-/

namespace MwStreamer

/-- `AV_CODEC_ID_AAC`. -/
def avCodecIdAac : ℤ := 86018

/-- `AvInputReadStatus`. -/
inductive AvInputReadStatus where
  | packet
  | eof
  | null
  deriving DecidableEq, Repr

namespace RemuxForwarding

/-- A packet as the input reads it: its payload, and whether it carries `AV_PKT_DATA_NEW_EXTRADATA`. -/
structure SourcePacket extends Packet where
  duration : ℤ := 0
  data : List UInt8 := []
  newExtradata : Bool := false
  deriving DecidableEq, Repr

/-- `std::shared_ptr<const AvInputInfo>`. -/
structure Description where
  address : ℕ
  info : AvInputInfo
  deriving DecidableEq, Repr

/-- `AvInputProxyReadResult`. -/
structure ReadResult where
  status : AvInputReadStatus
  packet : Option SourcePacket := none
  info : Option Description := none
  deriving DecidableEq, Repr

/-- `PacketTime`. -/
structure PacketTime where
  dtsUs : ℤ
  durationUs : ℤ
  deriving DecidableEq, Repr

/-- What the worker's calls answer: `ReadPacket`, the error in the proxy's status, `AudioProbeTimeout` when it is
made and at `Finish`, `ProbeRemuxAudio`, `SameTracks`, `EnsureRemuxer` with `Remuxer::Start`, the callback, and
`SubmitPacket`. -/
structure Answer where
  read : ReadResult
  failure : Option Exception := none
  timer : Bool := true
  expired : Except Exception Bool := .ok false
  probe : Except Exception StreamInfo
  sameTracks : Bool := true
  starts : Except Exception Bool := .ok true
  callback : Option Exception := none
  accepts : Except Exception Bool := .ok true

inductive Event where
  /-- `ReadPacket` of the loop. -/
  | read (result : ReadResult)
  /-- `ReadPacket` of `PrepareStreams`. -/
  | ahead (result : ReadResult)
  /-- `PrepareStreams` is entered. -/
  | preparing (pending : List ReadResult)
  /-- `ProbeRemuxAudio` is given these packets, after so many bytes were cached. -/
  | probe (packets : List SourcePacket) (bytes : ℕ)
  /-- `Initialize` started an output session for a description. -/
  | session (address : ℕ)
  | callback (packet : SourcePacket)
  /-- `SubmitPacket` is called. -/
  | submit (packet : SourcePacket)
  /-- The loop acts on an end of input. -/
  | eof
  deriving DecidableEq, Repr

/-- The start-up packets collected so far: `packets` and `bytes` of `PrepareStreams`. -/
structure Sample where
  packets : List SourcePacket := []
  bytes : ℕ := 0
  deriving DecidableEq, Repr

def kAudioPackets : ℕ := 8
def kMaxBytes : ℕ := 16 * 1024 * 1024

/-- A selected packet in the hands of the loop: `input`, and its time. -/
structure Arrival where
  input : ReadResult
  description : Description
  packet : SourcePacket
  time : PacketTime
  deriving DecidableEq, Repr

/-- `PrepareStreams` between two reads. -/
structure Sampling where
  first : Arrival
  streams : List StreamInfo
  audio : StreamInfo
  sample : Sample
  deriving DecidableEq, Repr

inductive Stage where
  /-- At the head of the loop. -/
  | looping
  | sampling (sampling : Sampling)
  /-- Behind the loop, after the end of an input that is not looped. -/
  | draining
  | failed (error : Exception)
  deriving DecidableEq, Repr

/-- The packet worker: the variables of `Run`, and the fields only it uses. -/
structure Worker where
  loop : Bool
  stage : Stage := .looping
  pending : List ReadResult := []
  description : Option Description := none
  streams : List StreamInfo := []
  fixedStreams : List StreamInfo := []
  lastTimes : ℤ → Option PacketTime := fun _ => none

/-- `SelectedStreams`. -/
def selectedStreams (info : AvInputInfo) : Except Exception (List StreamInfo) :=
  let result := info.streams.filter fun stream =>
    stream.streamIndex == info.videoStreamIndex || stream.streamIndex == info.audioStreamIndex
  if result.isEmpty then .error (.invalidArgument "RemuxPipeline 输入没有音视频轨道") else .ok result

/-- The result of `Timing`. -/
def packetTime [Libav] (packet : SourcePacket) : PacketTime where
  dtsUs := avRescaleQ packet.dts packet.timeBase ⟨1, 1000000⟩
  durationUs := if 0 < packet.duration then avRescaleQ packet.duration packet.timeBase ⟨1, 1000000⟩ else 0

/-- `Timing`. -/
def timing [Libav] (packet : SourcePacket) : Except Exception PacketTime :=
  if packet.dts = avNoptsValue ∨ packet.pts = avNoptsValue ∨ ¬packet.timeBase.Positive then
    .error (.invalidArgument "RemuxPipeline 需要有效包时间戳和时间基")
  else .ok (packetTime packet)

/-- `Discontinuous`. -/
def discontinuous (lastTimes : ℤ → Option PacketTime) (streamIndex : ℤ) (time : PacketTime) : Bool :=
  match lastTimes streamIndex with
  | none => false
  | some previous =>
    let delta := time.dtsUs - previous.dtsUs
    let limit := max 1000000 (4 * max time.durationUs previous.durationUs)
    decide (delta < 0 ∨ limit < delta)

/-- An AAC track whose configuration has to be probed. -/
def unconfigured (audio : StreamInfo) : Bool :=
  match audio.codecParameters with
  | none => false
  | some parameters => parameters.codecId == avCodecIdAac && !decide (0 < parameters.extradataSize)

/-- The packet starts like an ADTS header. -/
def adts : List UInt8 → Bool
  | first :: second :: _ :: _ => first == 0xff && second &&& 0xf0 == 0xf0
  | _ => false

/-- `collect` of `PrepareStreams`: whether the packet brings a configuration. -/
def collect (audio : StreamInfo) (sample : Sample) (packet : Option SourcePacket) :
    Except Exception (Bool × Sample) :=
  match packet with
  | none => .ok (false, sample)
  | some packet =>
    let bytes := sample.bytes + packet.data.length
    if kMaxBytes < bytes then .error (.runtimeError "RemuxPipeline 音频探测缓存超过 16 MiB")
    else if packet.streamIndex ≠ audio.streamIndex then .ok (false, { sample with bytes := bytes })
    else
      .ok (packet.newExtradata || adts packet.data,
        { packets := sample.packets ++ [{ packet with timeBase := audio.timeBase }], bytes := bytes })

/-- The packet with the time base of its track. -/
def attach (description : Description) (packet : SourcePacket) : SourcePacket :=
  match description.info.streams.find? (·.streamIndex == packet.streamIndex) with
  | none => packet
  | some stream => { packet with timeBase := stream.timeBase }

/-- The loop from the checks of a packet to its time; nothing for a track that is not delivered. -/
def arrive [Libav] (input : ReadResult) : Except Exception (Option Arrival) :=
  match input.info, input.packet with
  | some description, some packet =>
    if !description.info.selects packet.toPacket then .ok none
    else if !description.info.streams.any (·.streamIndex == packet.streamIndex) then
      .error (.logicError "RemuxPipeline 缺少包对应的轨道描述")
    else do
      let packet := attach description packet
      let time ← timing packet
      return some ⟨input, description, packet, time⟩
  | _, _ => .error (.logicError "RemuxPipeline 缺少包或连接描述")

namespace Worker

def fail (self : Worker) (error : Exception) : Worker := { self with stage := .failed error }

/-- The loop after `Initialize`: the callback, the output, and the time of the packet. -/
def deliver (self : Worker) (arrival : Arrival) (answer : Answer) : List Event × Worker :=
  let packet := arrival.packet
  match answer.callback with
  | some error => ([.callback packet], self.fail error)
  | none =>
    match answer.accepts with
    | .error error => ([.callback packet, .submit packet], self.fail error)
    | .ok false => ([.callback packet, .submit packet], self.fail (.runtimeError "RemuxPipeline 输出拒绝编码包"))
    | .ok true =>
      ([.callback packet, .submit packet],
        { self with
          stage := .looping
          lastTimes := Function.update self.lastTimes packet.streamIndex (some arrival.time) })

/-- `Initialize`; the streams are those the loop hands it. -/
def startSession (self : Worker) (answer : Answer) : Except Exception Worker := do
  self.streams.forM fun stream => discard stream.validate
  if !self.fixedStreams.isEmpty && !answer.sameTracks then
    throw (.invalidArgument "RemuxPipeline 固定输入源的轨道配置发生变化")
  if !(← answer.starts) then
    throw (.runtimeError "RemuxPipeline Remuxer 启动失败")
  return { self with fixedStreams := self.streams, lastTimes := fun _ => none }

/-- The loop from `Initialize` on. -/
def renew (self : Worker) (arrival : Arrival) (answer : Answer) : List Event × Worker :=
  match self.startSession answer with
  | .error error => ([], self.fail error)
  | .ok started =>
    let (events, after) := { started with description := some arrival.description }.deliver arrival answer
    (.session arrival.description.address :: events, after)

/-- The end of `PrepareStreams`, from `ProbeRemuxAudio` on: `*audio` is assigned in `streams`. -/
def probe (self : Worker) (sampling : Sampling) (answer : Answer) : List Event × Worker :=
  let event := .probe sampling.sample.packets sampling.sample.bytes
  match answer.probe with
  | .error error => ([event], self.fail error)
  | .ok audio =>
    let position := sampling.streams.findIdx (·.streamIndex == sampling.first.description.info.audioStreamIndex)
    let (events, after) :=
      { self with streams := sampling.streams.set position audio }.renew sampling.first answer
    (event :: events, after)

/-- `PrepareStreams` after its reads, when it had a timer. -/
def finish (self : Worker) (sampling : Sampling) (answer : Answer) : List Event × Worker :=
  match answer.expired with
  | .error error => ([], self.fail error)
  | .ok true => ([], self.fail (.runtimeError "RemuxPipeline 音频探测等待超时"))
  | .ok false => self.probe sampling answer

/-- `PrepareStreams` up to its first read. -/
def prepare (self : Worker) (arrival : Arrival) (answer : Answer) : List Event × Worker :=
  match selectedStreams arrival.description.info with
  | .error error => ([], self.fail error)
  | .ok streams =>
    match streams.find? (·.streamIndex == arrival.description.info.audioStreamIndex) with
    | none => { self with streams := streams }.renew arrival answer
    | some audio =>
      if !unconfigured audio then { self with streams := streams }.renew arrival answer
      else
        match collect audio {} (some arrival.packet) with
        | .error error => ([], self.fail error)
        | .ok (true, sample) => self.probe ⟨arrival, streams, audio, sample⟩ answer
        | .ok (false, sample) =>
          if answer.timer then ([], { self with stage := .sampling ⟨arrival, streams, audio, sample⟩ })
          else ([], self.fail (.runtimeError "AAC 探测计时线程启动失败"))

/-- The loop with a packet of a delivered track. -/
def advance (self : Worker) (arrival : Arrival) (answer : Answer) : List Event × Worker :=
  if self.description.map (·.address) ≠ some arrival.description.address then
    let (events, after) := self.prepare arrival answer
    (.preparing self.pending :: events, after)
  else if arrival.description.info.timestampDiscontinuities &&
      discontinuous self.lastTimes arrival.packet.streamIndex arrival.time then
    self.renew arrival answer
  else self.deliver arrival answer

/-- One pass of the loop of `Run` with what it read. -/
def treat [Libav] (self : Worker) (input : ReadResult) (answer : Answer) : List Event × Worker :=
  match input.status with
  | .null => ([], self.fail (answer.failure.getD (.runtimeError "RemuxPipeline 输入意外停止")))
  | .eof => ([.eof], if self.loop then self else { self with stage := .draining })
  | .packet =>
    match arrive input with
    | .error error => ([], self.fail error)
    | .ok none => ([], self)
    | .ok (some arrival) => self.advance arrival answer

/-- One pass of the loop of `PrepareStreams`. -/
def sample (self : Worker) (sampling : Sampling) (answer : Answer) : List Event × Worker :=
  let input := answer.read
  match input.status with
  | .null =>
    match answer.expired with
    | .error error => ([], self.fail error)
    | .ok true => ([], self.fail (.runtimeError "RemuxPipeline 音频探测等待超时"))
    | .ok false => ([], self.fail (answer.failure.getD (.runtimeError "RemuxPipeline 音频探测未取得输入包")))
  | _ =>
    if input.info.map (·.address) ≠ some sampling.first.description.address ∨ input.status = .eof then
      { self with pending := self.pending ++ [input] }.finish sampling answer
    else
      match collect sampling.audio sampling.sample input.packet with
      | .error error => ([], self.fail error)
      | .ok (configured, sample) =>
        let self := { self with pending := self.pending ++ [input] }
        let sampling := { sampling with sample := sample }
        if configured || kAudioPackets ≤ sample.packets.length then self.finish sampling answer
        else ([], { self with stage := .sampling sampling })

/-- One pass of one of the two loops. -/
def turn [Libav] (self : Worker) (answer : Answer) : Option (List Event × Worker) :=
  match self.stage with
  | .looping =>
    match self.pending with
    | [] =>
      let (events, after) := self.treat answer.read answer
      some (.read answer.read :: events, after)
    | input :: rest => some ({ self with pending := rest }.treat input answer)
  | .sampling sampling =>
    let (events, after) := self.sample sampling answer
    some (.ahead answer.read :: events, after)
  | .draining | .failed _ => none

end Worker

/-- The packet worker from its start. -/
def system [Libav] (loop : Bool) : Transition Worker Event where
  init s := s = { loop := loop }
  step s es t := ∃ answer, s.turn answer = some (es, t)

/-! ### Session boundaries as a fold -/

/-- What the worker shall forward of a result: nothing unless it is a packet of a delivered track. -/
def ReadResult.selected? (result : ReadResult) : Option (Description × SourcePacket) :=
  match result.status, result.info, result.packet with
  | .packet, some description, some packet =>
    if description.info.selects packet.toPacket then some (description, attach description packet) else none
  | _, _, _ => none

inductive Output where
  | session (address : ℕ)
  | packet (packet : SourcePacket)
  deriving DecidableEq, Repr

def Output.packet? : Output → Option SourcePacket
  | .packet item => some item
  | .session _ => none

/-- The session that is open: its description, and the last packet of each track in it. -/
structure Cursor where
  description : Option ℕ := none
  lastTimes : ℤ → Option PacketTime := fun _ => none

namespace Cursor

variable [Libav]

/-- The packet begins a session: it is of another description than the last one, or it is discontinuous in a
flagged source. -/
def boundary (self : Cursor) (description : Description) (packet : SourcePacket) : Bool :=
  self.description != some description.address ||
    (description.info.timestampDiscontinuities &&
      discontinuous self.lastTimes packet.streamIndex (packetTime packet))

def forward (self : Cursor) (description : Description) (packet : SourcePacket) : List Output :=
  if self.boundary description packet then [.session description.address, .packet packet] else [.packet packet]

def after (self : Cursor) (description : Description) (packet : SourcePacket) : Cursor where
  description := some description.address
  lastTimes := Function.update (if self.boundary description packet then fun _ => none else self.lastTimes)
    packet.streamIndex (some (packetTime packet))

/-- The outputs for a list of selected packets. -/
def outputs (self : Cursor) : List (Description × SourcePacket) → List Output
  | [] => []
  | (description, packet) :: rest =>
    self.forward description packet ++ (self.after description packet).outputs rest

/-- The cursor behind a list of selected packets. -/
def behind (self : Cursor) : List (Description × SourcePacket) → Cursor
  | [] => self
  | (description, packet) :: rest => (self.after description packet).behind rest

theorem outputs_concat (self : Cursor) (items : List (Description × SourcePacket)) (description : Description)
    (packet : SourcePacket) :
    self.outputs (items ++ [(description, packet)]) =
      self.outputs items ++ (self.behind items).forward description packet := by
  induction items generalizing self with
  | nil => simp only [List.nil_append, outputs, behind, List.append_nil]
  | cons item rest ih =>
    obtain ⟨d, p⟩ := item
    simp only [List.cons_append, outputs, behind, ih, List.append_assoc]

theorem behind_concat (self : Cursor) (items : List (Description × SourcePacket)) (description : Description)
    (packet : SourcePacket) :
    self.behind (items ++ [(description, packet)]) = (self.behind items).after description packet := by
  induction items generalizing self with
  | nil => rfl
  | cons item rest ih =>
    obtain ⟨d, p⟩ := item
    simp only [List.cons_append, behind, ih]

/-- Each selected packet is forwarded once, in order. -/
theorem packets_outputs (self : Cursor) (items : List (Description × SourcePacket)) :
    (self.outputs items).filterMap Output.packet? = items.map (·.2) := by
  induction items generalizing self with
  | nil => rfl
  | cons item rest ih =>
    obtain ⟨description, packet⟩ := item
    rw [outputs, List.filterMap_append, ih, forward]
    split <;> rfl

end Cursor

end RemuxForwarding

end MwStreamer
