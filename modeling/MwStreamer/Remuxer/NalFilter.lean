import MwStreamer.Remuxer.NalFraming
import MwStreamer.Remuxer.PacketInterleaver

/-!
# Converting video packets

`Convert` brings a packet into Annex B, looks at the header of every NAL and, where one is invalid, leaves the
packet to FFmpeg's `filter_units`.  Buffers are blocks of a memory: a packet and a frame hold the number of theirs,
and a new buffer is a new block.
-/

namespace MwStreamer

/-- `filter_units` with every type passed: what `av_bsf_receive_packet` answers, `none` for `EAGAIN`. -/
class FilterUnits where
  receivePacket : VideoCodec → List UInt8 → Except ℤ (Option (List UInt8))

namespace PacketConverter

open StateExcept

/-! ### NALs of an Annex B buffer -/

/-- `memfind`, which does not look at the last place. -/
def memfind (buffer sought : List UInt8) : Option ℕ :=
  (List.range (buffer.length - sought.length)).find? fun i => (buffer.drop i).take sought.length == sought

/-- What `splitH264` hands to its callback: a NAL with the start code before it, and the size of that. -/
structure NalSpan where
  bytes : List UInt8
  nalPrefix : ℕ
  deriving DecidableEq, Repr

def NalSpan.nal (span : NalSpan) : List UInt8 := span.bytes.drop span.nalPrefix

/-- The loop of `splitH264`; `start` is behind the start code. -/
def splitFrom (data : List UInt8) : ℕ → ℕ → ℕ → Except Fault (List NalSpan)
  | 0, _, _ => .error .unfinished
  | turns + 1, start, nalPrefix =>
    match memfind (data.drop start) [0, 0, 1] with
    | none => .ok [⟨data.drop (start - nalPrefix), nalPrefix⟩]
    | some found => do
      let before ← byteAt data (start + found - 1)
      let nextStart := if before = 0 then start + found - 1 else start + found
      let nextPrefix := if before = 0 then 4 else 3
      let later ← splitFrom data turns (nextStart + nextPrefix) nextPrefix
      return ⟨(data.drop (start - nalPrefix)).take (nextStart + nalPrefix - start), nalPrefix⟩ :: later

/-- `splitH264`, with more turns than the buffer has bytes. -/
def splitH264 (data : List UInt8) (nalPrefix : ℕ) : Except Fault (List NalSpan) :=
  splitFrom data (data.length + 1) nalPrefix nalPrefix

/-- `HasInvalidNalHeader`. -/
def hasInvalidNalHeader (codec : VideoCodec) (data : List UInt8) : Except Fault Bool :=
  if prefixSize data = 0 then invalidArgument "视频包缺少 Annex B 起始码"
  else do
    let spans ← splitH264 data (prefixSize data)
    spans.foldlM (fun invalid span => do
      let valid ← validNalHeader codec span.nal
      return invalid || !valid) false

/-! ### Convert -/

/-- `PacketConverter::Stream` of a video track. -/
structure VideoStream where
  index : ℤ
  timeBase : AVRational
  codec : VideoCodec
  nalLengthSize : ℕ
  deriving DecidableEq, Repr

/-- The frame a packet is converted to; `pts` is what its `pts()` returns. -/
structure VideoFrame where
  index : ℤ
  codec : VideoCodec
  dts : ℕ
  pts : ℕ
  buffer : ℕ
  deriving DecidableEq, Repr

abbrev Memory := List (List UInt8)

abbrev Run := EStateM Fault Memory

def load (buffer : ℕ) : Run (List UInt8) := do
  match (← get)[buffer]? with
  | some bytes => return bytes
  | none => throw .outOfBounds

/-- A new buffer. -/
def allocate (bytes : List UInt8) : Run ℕ := do
  let memory ← get
  set (memory ++ [bytes])
  return memory.length

/-- The buffer in Annex B: that of the packet itself, unless it is rewritten. -/
def annexBuffer (stream : VideoStream) (buffer : ℕ) : Run ℕ := do
  let data ← load buffer
  let recognised ← attempt (lengthPrefixed stream.codec data stream.nalLengthSize)
  if recognised || prefixSize data == 0 then
    if stream.nalLengthSize = 0 then
      throw (.thrown (.invalidArgument "视频包需要 Annex B 格式或编码配置中的 NAL 长度"))
    let (annexB, _) ← attempt (appendNals stream.codec data stream.nalLengthSize data.length ([], 0))
    allocate annexB
  else return buffer

/-- `FilterInvalidNals`: `av_new_packet` copies the buffer. -/
def filterInvalidNals [FilterUnits] (codec : VideoCodec) (buffer : ℕ) : Run (Option ℕ) := do
  let data ← load buffer
  match FilterUnits.receivePacket codec data with
  | .error error => throw (.thrown (.ffmpeg error "过滤视频 NAL 头部"))
  | .ok none => return none
  | .ok (some bytes) =>
    let filtered ← allocate bytes
    return some filtered

/-- `getFrameFromBuffer`, with the index and, for a decoding time that is not zero, a presentation time of zero. -/
def makeFrame (stream : VideoStream) (buffer dtsMs ptsMs : ℕ) : VideoFrame where
  index := stream.index
  codec := stream.codec
  dts := dtsMs
  pts := if ptsMs = 0 ∧ dtsMs ≠ 0 then 0 else if ptsMs = 0 then dtsMs else ptsMs
  buffer := buffer

/-- `Convert`. -/
def convert [Libav] [FilterUnits] (streams : List VideoStream) (packet : Packet) (dtsMs ptsMs : ℕ) :
    Run (Option VideoFrame) := do
  let memory ← get
  if (memory[packet.buffer]?.getD []).isEmpty then throw (.thrown (.invalidArgument "Remuxer 需要非空编码包"))
  match streams.find? fun stream => stream.index == packet.streamIndex with
  | none => throw (.thrown (.invalidArgument "Remuxer 编码包轨道或时间基不匹配"))
  | some stream =>
    if packet.timeBase.num ≤ 0 ∨ packet.timeBase.den ≤ 0 ∨ avCmpQ packet.timeBase stream.timeBase ≠ 0 then
      throw (.thrown (.invalidArgument "Remuxer 编码包轨道或时间基不匹配"))
    let buffer ← annexBuffer stream packet.buffer
    let data ← load buffer
    let invalid ← attempt (hasInvalidNalHeader stream.codec data)
    if invalid then
      match ← filterInvalidNals stream.codec buffer with
      | none => return none
      | some buffer => return some (makeFrame stream buffer dtsMs ptsMs)
    else return some (makeFrame stream buffer dtsMs ptsMs)

end PacketConverter

end MwStreamer
