import Mathlib.Data.List.DropRight
import Mathlib.Data.List.Infix
import MwStreamer.Library.Transition
import MwStreamer.Remuxer.PacketInterleaver

/-!
# The recorder

`Recorder` queues the packets that any number of threads submit and writes them to a file from a thread of its
own.  What a method does under `mutex_` is one step; the owner serializes `Start` and `Stop`.  The worker waits
for a packet or for the end of the running state, and every write of either is followed by a notification, so a
wait is a step that is possible when its condition holds.  The file writer is outside: each of its operations
succeeds or throws.  The byte count of the queue is 64 bits wide, as `size_t` is; the two packet counters are
natural numbers, which leaves out 2^64 packets of one recording.
-/

namespace MwStreamer

/-- `sizeof(AVPacket)`. -/
def sizeofAVPacket : UInt64 := 104

/-- `AVPacket`, as far as the recorder reads it: `data` tells whether it points anywhere, `sideData` lists the
sizes. -/
structure EncodedPacket where
  streamIndex : ℤ
  pts : ℤ
  dts : ℤ
  size : ℤ
  data : Bool
  sideData : List UInt64 := []
  buffer : ℕ := 0
  deriving DecidableEq, Repr

/-- `PacketBytes`. -/
def EncodedPacket.bytes (packet : EncodedPacket) : UInt64 :=
  packet.sideData.foldl (· + ·) (sizeofAVPacket + UInt64.ofInt packet.size)

structure RecorderConfig where
  path : String := ""
  maxQueueBytes : UInt64 := 64 * 1024 * 1024
  deriving DecidableEq, Repr

inductive RecorderState where
  | stopped
  | running
  | stopping
  | failed
  deriving DecidableEq, Repr

/-- The text of `RecorderStatus::error`, or the exception whose text it is. -/
inductive RecorderError where
  | text (what : String)
  | thrown (e : Exception)
  deriving DecidableEq, Repr

structure RecorderStatus where
  state : RecorderState := .stopped
  queueBytes : UInt64 := 0
  writtenPackets : ℕ := 0
  droppedPackets : ℕ := 0
  error : Option RecorderError := none
  deriving DecidableEq, Repr

namespace Recorder

/-- `AV_CODEC_ID_H264`, `AV_CODEC_ID_HEVC` and `AV_CODEC_ID_AAC`. -/
def avCodecIdH264 : ℤ := 27
def avCodecIdHevc : ℤ := 173
def avCodecIdAac : ℤ := 0x15002

/-- `std::filesystem::path::filename`. -/
def filename (path : List Char) : List Char := path.rtakeWhile (· ≠ '/')

/-- `std::filesystem::path::extension`. -/
def extension (path : List Char) : List Char :=
  let name := filename path
  let suffix := name.rtakeWhile (· ≠ '.')
  if name = ['.', '.'] ∨ name.length ≤ suffix.length + 1 then [] else '.' :: suffix

/-- The loop of `Validate` over the tracks; `seen` are those before the current one. -/
def checkTracks (seen : List StreamInfo) (video audio : Bool) : List StreamInfo → Except Exception Unit
  | [] => .ok ()
  | stream :: streams => do
    let codec ← stream.validate
    let (video, audio) ←
      if codec.codecType = .video ∧ video = false ∧ (codec.codecId = avCodecIdH264 ∨ codec.codecId = avCodecIdHevc) then
        .ok (true, audio)
      else if codec.codecType = .audio ∧ audio = false ∧ codec.codecId = avCodecIdAac then .ok (video, true)
      else .error (.invalidArgument "Recorder 仅支持单路 H264/H265 视频和 AAC 音频")
    if seen.any (·.streamIndex == stream.streamIndex) then .error (.invalidArgument "Recorder 轨道索引重复")
    else checkTracks (seen ++ [stream]) video audio streams

/-- `Validate`. -/
def validate (streams : List StreamInfo) (config : RecorderConfig) : Except Exception Unit :=
  let path := config.path.toList
  if path = [] ∨ path.contains '\x00' ∨ [':', '/', '/'] <:+: path ∨ extension path ≠ ".mp4".toList ∨
      config.maxQueueBytes = 0 then
    .error (.invalidArgument "Recorder 需要本地 .mp4 路径和非零队列上限")
  else if streams = [] ∨ 2 < streams.length then .error (.invalidArgument "Recorder 需要一至两条音视频轨道")
  else checkTracks [] false false streams

/-- Where `Run` is.  A failing worker remembers the packet whose write failed until the failure is recorded. -/
inductive Worker where
  | opening
  | waiting
  | writing (packet : EncodedPacket)
  | written (packet : EncodedPacket)
  | finishing
  | concluding
  | failing (packet : Option EncodedPacket) (e : Exception)
  | reporting (callback : Option ℕ) (e : Exception)
  | done
  deriving DecidableEq, Repr

end Recorder

open Recorder in
/-- `Recorder::Impl`.  The worker is there until `Join`; `joining` tells that the owner waits for it in `Stop`. -/
structure Recorder where
  queue : List EncodedPacket := []
  streams : List StreamInfo := []
  config : RecorderConfig := {}
  status : RecorderStatus := {}
  onError : Option ℕ := none
  worker : Option Worker := none
  joining : Bool := false
  deriving DecidableEq, Repr

namespace Recorder

/-- `started` is a `Start` that set up a session, whether or not the thread was created. -/
inductive Event where
  | started (created : Bool)
  | accepted (packet : EncodedPacket)
  | overflowed (packet : EncodedPacket)
  | refused
  | threw (e : Exception)
  | written (packet : EncodedPacket)
  | failed (e : Exception)
  | reported (callback : ℕ) (e : Exception)
  | stopped
  deriving DecidableEq, Repr

/-- `Start`. -/
def start (self : Recorder) (streams : List StreamInfo) (config : RecorderConfig) (created : Bool) :
    List Event × Recorder :=
  if self.worker.isSome then ([.refused], self)
  else
    match validate streams config with
    | .error e => ([.threw e], self)
    | .ok () =>
      let self := { self with streams := streams, config := config, status := { state := .running } }
      if created then ([.started true], { self with worker := some .opening })
      else
        ([.started false], { self with
          status := { self.status with state := .failed, error := some (.text "Recorder 无法创建写入线程") } })

/-- The test of `TrySubmitPacket`. -/
def valid (self : Recorder) (packet : EncodedPacket) : Bool :=
  decide (0 < packet.size) && packet.data && !(packet.dts == avNoptsValue && packet.pts == avNoptsValue) &&
    self.streams.any (·.streamIndex == packet.streamIndex)

/-- The packet does not fit into what the limit leaves. -/
def overflows (self : Recorder) (packet : EncodedPacket) : Bool :=
  decide (self.config.maxQueueBytes - self.status.queueBytes < packet.bytes)

/-- `TrySubmitPacket`; `throws` tells that the reference to the packet cannot be made. -/
def trySubmitPacket (self : Recorder) (packet : Option EncodedPacket) (throws : Option Exception) :
    List Event × Recorder :=
  if self.status.state ≠ .running then ([.refused], self)
  else
    match packet.filter self.valid with
    | none => ([.threw (.invalidArgument "Recorder 编码包、时间戳或轨道索引无效")], self)
    | some packet =>
      if self.overflows packet then
        ([.overflowed packet],
          { self with status := { self.status with droppedPackets := self.status.droppedPackets + 1 } })
      else
        match throws with
        | some e => ([.threw e], self)
        | none =>
          ([.accepted packet], { self with
            queue := self.queue ++ [packet]
            status := { self.status with queueBytes := self.status.queueBytes + packet.bytes } })

/-- `Drain`. -/
def drain (self : Recorder) : Recorder :=
  if self.status.state = .running then { self with status := { self.status with state := .stopping } } else self

/-- The wait of `Run` and what follows it under the lock. -/
def take (self : Recorder) : Option Recorder :=
  match self.queue with
  | [] => if self.status.state = .running then none else some { self with worker := some .finishing }
  | packet :: queue =>
    some { self with
      queue := queue
      status := { self.status with queueBytes := self.status.queueBytes - packet.bytes }
      worker := some (.writing packet) }

/-- `++written_packets`. -/
def count (self : Recorder) : Recorder :=
  { self with
    status := { self.status with writtenPackets := self.status.writtenPackets + 1 }, worker := some .waiting }

/-- The end of a `Run` that did not fail. -/
def conclude (self : Recorder) : Recorder :=
  { self with status := { self.status with state := .stopped }, worker := some .done }

/-- `Fail` under the lock. -/
def fail (self : Recorder) (e : Exception) : Recorder :=
  { self with
    queue := []
    status := { self.status with state := .failed, error := some (.thrown e), queueBytes := 0 }
    worker := some (.reporting self.onError e) }

/-- The next step: a call of any thread, of the owner (`start`, `stop` and the end of its `join`), or of the
worker, whose file operations end with or without an exception. -/
inductive Act where
  | setOnError (callback : Option ℕ)
  | start (streams : List StreamInfo) (config : RecorderConfig) (created : Bool)
  | submit (packet : Option EncodedPacket) (throws : Option Exception)
  | drain
  | stop
  | join
  | openFile (error : Option Exception)
  | take
  | write (error : Option Exception)
  | count
  | finish (error : Option Exception)
  | conclude
  | fail
  | report
  deriving DecidableEq, Repr

def next (s : Recorder) : Act → Option (List Event × Recorder)
  | .setOnError callback => some ([], { s with onError := callback })
  | .start streams config created => if s.joining then none else some (s.start streams config created)
  | .submit packet throws => some (s.trySubmitPacket packet throws)
  | .drain => some ([], s.drain)
  | .stop => if s.joining then none else some ([], { s.drain with joining := true })
  | .join =>
    if s.joining ∧ (s.worker = none ∨ s.worker = some .done) then
      some ([.stopped], { s with worker := none, joining := false })
    else none
  | .openFile error =>
    match s.worker with
    | some .opening =>
      match error with
      | none => some ([], { s with worker := some .waiting })
      | some e => some ([], { s with worker := some (.failing none e) })
    | _ => none
  | .take =>
    match s.worker with
    | some .waiting => s.take.map fun s => ([], s)
    | _ => none
  | .write error =>
    match s.worker with
    | some (.writing packet) =>
      match error with
      | none => some ([], { s with worker := some (.written packet) })
      | some e => some ([], { s with worker := some (.failing (some packet) e) })
    | _ => none
  | .count =>
    match s.worker with
    | some (.written packet) => some ([.written packet], s.count)
    | _ => none
  | .finish error =>
    match s.worker with
    | some .finishing =>
      match error with
      | none => some ([], { s with worker := some .concluding })
      | some e => some ([], { s with worker := some (.failing none e) })
    | _ => none
  | .conclude =>
    match s.worker with
    | some .concluding => some ([], s.conclude)
    | _ => none
  | .fail =>
    match s.worker with
    | some (.failing _ e) => some ([.failed e], s.fail e)
    | _ => none
  | .report =>
    match s.worker with
    | some (.reporting callback e) =>
      some (callback.toList.map fun c => .reported c e, { s with worker := some .done })
    | _ => none

def system : Transition Recorder Event where
  init s := s = {}
  step s events s' := ∃ act, s.next act = some (events, s')

end Recorder

end MwStreamer
