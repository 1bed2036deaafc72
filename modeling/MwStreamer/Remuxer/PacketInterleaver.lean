import MwStreamer.Media.Libav

/-!
# The packet interleaver

`PacketInterleaver` merges the encoded packets of a session into one list in native decoding order, and
`MediaTimestampConverter` checks the packets and turns their timestamps into milliseconds.  A packet goes behind its
equals in the queue; it leaves when every track has a packet in the queue, when the queue spans more than ten seconds,
or when the session is flushed.  Calls are serialized by the caller, so each is one function of the state.
-/

namespace MwStreamer

/-- `AVMediaType`. -/
inductive AVMediaType where
  | unknown
  | video
  | audio
  | data
  | subtitle
  | attachment
  deriving DecidableEq, Repr

/-- `CodecParameters`, as far as they are checked.  Codec `0` is `AV_CODEC_ID_NONE`. -/
structure CodecParameters where
  codecType : AVMediaType
  codecId : ℤ := 1
  extradataSize : ℤ := 0
  extradata : Bool := false
  deriving DecidableEq, Repr

/-- `StreamInfo`. -/
structure StreamInfo where
  streamIndex : ℤ := -1
  codecParameters : Option CodecParameters := none
  timeBase : AVRational := ⟨0, 1⟩
  deriving DecidableEq, Repr

def StreamInfo.validate (stream : StreamInfo) : Except Exception CodecParameters :=
  match stream.codecParameters with
  | none => .error (.invalidArgument "FFmpeg StreamInfo 参数无效")
  | some parameters =>
    if stream.streamIndex < 0 ∨ ¬stream.timeBase.Positive ∨ parameters.codecId = 0 ∨
        (parameters.codecType ≠ .audio ∧ parameters.codecType ≠ .video) ∨
        parameters.extradataSize < 0 ∨ (0 < parameters.extradataSize ∧ ¬parameters.extradata) then
      .error (.invalidArgument "FFmpeg StreamInfo 参数无效")
    else .ok parameters

/-- `AVPacket`: its stream, its timestamps and the buffer it refers to. -/
structure Packet where
  streamIndex : ℤ
  pts : ℤ
  dts : ℤ
  timeBase : AVRational
  buffer : ℕ := 0
  deriving DecidableEq, Repr

/-- `MediaTimestamps`. -/
structure MediaTimestamps where
  ptsMs : ℕ
  dtsMs : ℕ
  deriving DecidableEq, Repr

/-- `MediaTimestampConverter`: the streams packets are checked against, and the shift of all tracks once it is
known. -/
structure MediaTimestampConverter where
  streams : List StreamInfo
  shiftMs : Option ℤ := none
  deriving DecidableEq, Repr

namespace MediaTimestampConverter

/-- The loop of the constructor; `seen` are the streams before the current one. -/
def checkStreams (seen : List StreamInfo) : List StreamInfo → Except Exception Unit
  | [] => .ok ()
  | stream :: streams => do
    discard stream.validate
    if seen.any (·.streamIndex == stream.streamIndex) then
      throw (.invalidArgument "媒体轨道索引重复")
    checkStreams (seen ++ [stream]) streams

def create (streams : List StreamInfo) : Except Exception MediaTimestampConverter :=
  if streams.isEmpty then .error (.invalidArgument "媒体轨道不能为空")
  else do
    checkStreams [] streams
    return { streams := streams }

/-- `Validate`; `none` is a packet object without a packet. -/
def validate [Libav] (converter : MediaTimestampConverter) (packet : Option Packet) :
    Except Exception Packet :=
  match packet with
  | none => .error (.invalidArgument "媒体包需要有效 PTS 和 DTS")
  | some input =>
    if input.pts = avNoptsValue ∨ input.dts = avNoptsValue then
      .error (.invalidArgument "媒体包需要有效 PTS 和 DTS")
    else
      match converter.streams.find? (·.streamIndex == input.streamIndex) with
      | none => .error (.invalidArgument "媒体包轨道或时间基不匹配")
      | some track =>
        if ¬input.timeBase.Positive ∨ avCmpQ input.timeBase track.timeBase ≠ 0 then
          .error (.invalidArgument "媒体包轨道或时间基不匹配")
        else .ok input

/-- `Milliseconds`. -/
def milliseconds [Libav] (value : ℤ) (timeBase : AVRational) : Except Exception ℤ :=
  rescaleChecked "媒体毫秒时间戳超出表示范围" value timeBase ⟨1, 1000⟩

/-- The loop of `Initialize`, `minimum` being the smallest stamp so far. -/
def smallest [Libav] (converter : MediaTimestampConverter) (minimum : ℤ) :
    List Packet → Except Exception ℤ
  | [] => .ok minimum
  | packet :: packets => do
    discard (converter.validate (some packet))
    let pts ← milliseconds packet.pts packet.timeBase
    let dts ← milliseconds packet.dts packet.timeBase
    smallest converter (min (min minimum pts) dts) packets

/-- `Initialize`. -/
def initializeShift [Libav] (converter : MediaTimestampConverter) (firstPackets : List Packet) :
    Except Exception MediaTimestampConverter :=
  if converter.shiftMs.isSome then .ok converter
  else do
    let minimum ← converter.smallest 0 firstPackets
    return { converter with shiftMs := some (-minimum) }

/-- `Shift`; the sum is cast to `uint64_t`. -/
def shift (shiftMs value : ℤ) : Except Exception ℕ :=
  if value < -shiftMs then .error (.invalidArgument "媒体时间戳早于共同输出起点")
  else if int64Max - shiftMs < value then .error (.overflowError "媒体共同偏移溢出")
  else .ok ((value + shiftMs) % 2 ^ 64).toNat

def convert [Libav] (converter : MediaTimestampConverter) (packet : Packet) :
    Except Exception MediaTimestamps := do
  discard (converter.validate (some packet))
  match converter.shiftMs with
  | none => throw (.logicError "媒体共同偏移尚未确定")
  | some shiftMs =>
    let pts ← milliseconds packet.pts packet.timeBase
    let ptsMs ← shift shiftMs pts
    let dts ← milliseconds packet.dts packet.timeBase
    let dtsMs ← shift shiftMs dts
    return { ptsMs := ptsMs, dtsMs := dtsMs }

end MediaTimestampConverter

/-- `PacketInterleaver::Track`. -/
structure InterleaverTrack where
  index : ℤ
  type : AVMediaType
  timeBase : AVRational
  highest : Option ℤ := none
  deriving DecidableEq, Repr

/-- `PacketInterleaver`.  An item of the queue is its packet. -/
structure PacketInterleaver where
  validation : MediaTimestampConverter
  tracks : List InterleaverTrack
  queue : List Packet := []
  initialized : Bool := false
  flushed : Bool := false
  deriving DecidableEq, Repr

namespace PacketInterleaver

/-- The loop of the constructor over the streams, `tracks` being those made so far. -/
def addTracks (tracks : List InterleaverTrack) : List StreamInfo → Except Exception (List InterleaverTrack)
  | [] => .ok tracks
  | stream :: streams =>
    match stream.codecParameters with
    | none => .error .badOptional
    | some parameters =>
      if tracks.any (·.type == parameters.codecType) then
        .error (.invalidArgument "交织器只支持一条视频和一条音频轨道")
      else
        addTracks (tracks ++ [⟨stream.streamIndex, parameters.codecType, stream.timeBase, none⟩]) streams

def create (streams : List StreamInfo) : Except Exception PacketInterleaver := do
  let validation ← MediaTimestampConverter.create streams
  let tracks ← addTracks [] streams
  return { validation := validation, tracks := tracks }

/-- `TrackOrder`: the position of the track, or the number of tracks. -/
def trackOrder (tracks : List InterleaverTrack) (index : ℤ) : ℕ := tracks.findIdx (·.index == index)

def allTracksBuffered (tracks : List InterleaverTrack) (queue : List Packet) : Bool :=
  tracks.all fun track => queue.any (·.streamIndex == track.index)

section

variable [Libav]

/-- The order of the queue: decoding time, then the order in which the tracks were created. -/
def precedes (tracks : List InterleaverTrack) (left right : Packet) : Bool :=
  let comparison := avCompareTs left.dts left.timeBase right.dts right.timeBase
  if comparison ≠ 0 then decide (comparison < 0)
  else decide (trackOrder tracks left.streamIndex < trackOrder tracks right.streamIndex)

/-- `std::upper_bound` and `insert`: in front of the first packet that comes after the new one.  The queue is
sorted, so its binary search ends where this scan does. -/
def insertItem (tracks : List InterleaverTrack) (packet : Packet) (queue : List Packet) : List Packet :=
  queue.takeWhile (fun item => !precedes tracks packet item)
    ++ packet :: queue.dropWhile (fun item => !precedes tracks packet item)

def push (impl : PacketInterleaver) (packet : Option Packet) : Except Exception Unit × PacketInterleaver :=
  if impl.flushed then (.error (.logicError "交织器已经排空"), impl)
  else
    match impl.validation.validate packet with
    | .error e => (.error e, impl)
    | .ok packet =>
      match impl.tracks.find? (·.index == packet.streamIndex) with
      | none => (.error .badOptional, impl)
      | some track =>
        if track.highest.any fun highest => packet.dts < highest then
          (.error (.invalidArgument "编码包 DTS 回退"), impl)
        else
          (.ok (),
            { impl with
              queue := insertItem impl.tracks packet impl.queue
              tracks := impl.tracks.map fun t =>
                if t.index = packet.streamIndex then { t with highest := some packet.dts } else t })

/-- `ExceedsDelta`: whether the queue spans more than ten seconds, in microseconds. -/
def exceedsDelta (queue : List Packet) : Bool :=
  match queue with
  | [] | [_] => false
  | first :: second :: rest =>
    let last := (second :: rest).getLast (List.cons_ne_nil _ _)
    let firstUs := avRescaleQ first.dts first.timeBase ⟨1, 1000000⟩
    let lastUs := avRescaleQ last.dts last.timeBase ⟨1, 1000000⟩
    decide (firstUs < lastUs) && decide (10000000 < lastUs - firstUs)

/-- The loop of `PopReady`: what leaves the queue and what stays. -/
def popLoop (tracks : List InterleaverTrack) (flush : Bool) : List Packet → List Packet × List Packet
  | [] => ([], [])
  | first :: rest =>
    if flush || allTracksBuffered tracks (first :: rest) || exceedsDelta (first :: rest) then
      let (result, queue) := popLoop tracks flush rest
      (first :: result, queue)
    else ([], first :: rest)

def popReady (impl : PacketInterleaver) (flush : Bool) :
    Except Exception (List Packet) × PacketInterleaver :=
  let impl := if flush then { impl with flushed := true } else impl
  let allTracksSeen := impl.tracks.all (·.highest.isSome)
  if !flush && !impl.initialized && !allTracksSeen && exceedsDelta impl.queue then
    (.error (.runtimeError "ZLM 启动超过 10 秒仍缺少轨道首包"), impl)
  else
    let impl := { impl with initialized := impl.initialized || flush || allTracksSeen }
    if !impl.initialized then (.ok [], impl)
    else
      let (result, queue) := popLoop impl.tracks flush impl.queue
      (.ok result, { impl with queue := queue })

end

/-- `FirstPackets`: the first packet of each track that has one in the queue. -/
def firstPackets (impl : PacketInterleaver) : List Packet :=
  impl.tracks.filterMap fun track => impl.queue.find? (·.streamIndex == track.index)

end PacketInterleaver

end MwStreamer
