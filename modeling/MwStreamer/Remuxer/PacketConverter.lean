import MwStreamer.Library.LengthPrefix
import MwStreamer.Library.StateExcept
import MwStreamer.Media.Libav

/-!
# Reading length-prefixed video

`PacketConverter` reads the configuration record of a video track and turns length-prefixed packets into Annex B.
A buffer is the list of its bytes and an offset into it; a read outside the buffer, which the source does not
check for, is a fault of its own, as is a loop that is cut off.
-/

namespace MwStreamer

/-- The video codecs of `mediakit::CodecId`. -/
inductive VideoCodec where
  | h264
  | h265
  deriving DecidableEq, Repr

/-- The least size of a NAL. -/
def VideoCodec.minimum : VideoCodec → ℕ
  | .h264 => 2
  | .h265 => 3

namespace PacketConverter

/-- How a function ends without a result. -/
inductive Fault where
  | thrown (e : Exception)
  | outOfBounds
  | unfinished
  deriving DecidableEq, Repr

def invalidArgument {α : Type} (what : String) : Except Fault α := .error (.thrown (.invalidArgument what))

/-- `data[offset]`. -/
def byteAt (data : List UInt8) (offset : ℕ) : Except Fault UInt8 :=
  match data[offset]? with
  | some byte => .ok byte
  | none => .error .outOfBounds

/-- The bytes from `data + offset` on. -/
def bytesAt (data : List UInt8) (offset length : ℕ) : Except Fault (List UInt8) :=
  if offset + length ≤ data.length then .ok ((data.drop offset).take length) else .error .outOfBounds

/-- `mediakit::prefixSize`. -/
def prefixSize : List UInt8 → ℕ
  | a :: b :: c :: d :: _ =>
    if a ≠ 0 ∨ b ≠ 0 then 0
    else if c = 0 ∧ d = 1 then 4
    else if c = 1 then 3
    else 0
  | _ => 0

def startCode : List UInt8 := [0, 0, 0, 1]

/-- `ValidNalHeader`. -/
def validNalHeader (codec : VideoCodec) (nal : List UInt8) : Except Fault Bool := do
  if nal.length < codec.minimum then invalidArgument "视频 NAL 负载截断"
  let first ← byteAt nal 0
  if first.toNat &&& 0x80 ≠ 0 then return false
  match codec with
  | .h264 =>
    let type := first.toNat &&& 0x1f
    if type = 0 ∨ 24 ≤ type then invalidArgument "H264 NAL 类型无效" else return true
  | .h265 =>
    let second ← byteAt nal 1
    return second.toNat &&& 0x07 != 0

/-- `ValidateNal`. -/
def validateNal (codec : VideoCodec) (nal : List UInt8) : Except Fault Unit := do
  let valid ← validNalHeader codec nal
  if valid then return () else invalidArgument "视频 NAL 头部无效"

/-- `length = (length << 8) | byte` of a `uint32_t`. -/
def shiftIn (length : ℕ) (byte : UInt8) : ℕ := (length <<< 8 ||| byte.toNat) % 2 ^ 32

/-- The loop over the bytes of a length: the length, and the offset behind it. -/
def readBytes (data : List UInt8) : ℕ → ℕ → ℕ → Except Fault (ℕ × ℕ)
  | 0, offset, length => .ok (length, offset)
  | width + 1, offset, length => do
    let byte ← byteAt data offset
    readBytes data width (offset + 1) (shiftIn length byte)

/-- `ReadLength`. -/
def readLength (data : List UInt8) (offset width : ℕ) : Except Fault (ℕ × ℕ) :=
  if data.length - offset < width then invalidArgument "视频 NAL 长度字段截断" else readBytes data width offset 0

/-- One turn of the loop of `LengthPrefixed`: the next offset, or nothing for `return false`. -/
def skipNal (codec : VideoCodec) (data : List UInt8) (width offset : ℕ) : Except Fault (Option ℕ) :=
  if data.length - offset < width then .ok none
  else do
    let (length, offset) ← readBytes data width offset 0
    if length < codec.minimum ∨ data.length - offset < length then return none
    return some (offset + length)

def lengthPrefixedFrom (codec : VideoCodec) (data : List UInt8) (width : ℕ) : ℕ → ℕ → Except Fault Bool
  | 0, offset => if offset < data.length then .error .unfinished else .ok true
  | turns + 1, offset =>
    if offset < data.length then do
      match ← skipNal codec data width offset with
      | none => return false
      | some offset => lengthPrefixedFrom codec data width turns offset
    else .ok true

/-- `LengthPrefixed`, with as many turns as the buffer has bytes. -/
def lengthPrefixed (codec : VideoCodec) (data : List UInt8) (width : ℕ) : Except Fault Bool :=
  if width = 0 then .ok false else lengthPrefixedFrom codec data width data.length 0

/-- `AppendNal`; the pair is the output and the offset. -/
def appendNal (codec : VideoCodec) (data : List UInt8) (width : ℕ) (validateHeader : Bool)
    (state : List UInt8 × ℕ) : Except Fault (List UInt8 × ℕ) := do
  let (length, offset) ← readLength data state.2 width
  if length < codec.minimum ∨ data.length - offset < length then invalidArgument "视频 NAL 负载截断"
  else do
    let nal ← bytesAt data offset length
    if validateHeader then validateNal codec nal
    return (state.1 ++ startCode ++ nal, offset + length)

/-- The loop of `Convert`. -/
def appendNals (codec : VideoCodec) (data : List UInt8) (width : ℕ) :
    ℕ → List UInt8 × ℕ → Except Fault (List UInt8 × ℕ)
  | 0, state => if state.2 < data.length then .error .unfinished else .ok state
  | turns + 1, state =>
    if state.2 < data.length then do
      let state ← appendNal codec data width false state
      appendNals codec data width turns state
    else .ok state

/-- `Convert` up to the check of the NAL headers: the buffer in Annex B. -/
def toAnnexB (codec : VideoCodec) (nalLengthSize : ℕ) (buffer : List UInt8) : Except Fault (List UInt8) := do
  let recognised ← lengthPrefixed codec buffer nalLengthSize
  if recognised || prefixSize buffer == 0 then
    if nalLengthSize = 0 then invalidArgument "视频包需要 Annex B 格式或编码配置中的 NAL 长度"
    else do
      let (annexB, _) ← appendNals codec buffer nalLengthSize buffer.length ([], 0)
      return annexB
  else return buffer

/-- `count` calls of `AppendNal` in a configuration record. -/
def appendCount (codec : VideoCodec) (data : List UInt8) : ℕ → List UInt8 × ℕ → Except Fault (List UInt8 × ℕ)
  | 0, state => .ok state
  | count + 1, state => do
    let state ← appendNal codec data 2 true state
    appendCount codec data count state

/-- The arrays of an hvcC record. -/
def appendArrays (codec : VideoCodec) (data : List UInt8) : ℕ → List UInt8 × ℕ → Except Fault (List UInt8 × ℕ)
  | 0, state => .ok state
  | arrays + 1, state =>
    if state.2 = data.length then invalidArgument "hvcC 数组字段截断"
    else do
      let (count, offset) ← readLength data (state.2 + 1) 2
      let state ← appendCount codec data count (state.1, offset)
      appendArrays codec data arrays state

/-- `Configuration`: the NAL length width and the parameter sets in Annex B. -/
def configuration (codec : VideoCodec) (data : List UInt8) : Except Fault (ℕ × List UInt8) := do
  if data.length < (match codec with | .h264 => 7 | .h265 => 23) then invalidArgument "视频编码配置记录无效"
  let version ← byteAt data 0
  if version ≠ 1 then invalidArgument "视频编码配置记录无效"
  match codec with
  | .h264 => do
    let lengthWidth := ((← byteAt data 4).toNat &&& 0x03) + 1
    let spsCount := (← byteAt data 5).toNat &&& 0x1f
    let (annexB, offset) ← appendCount codec data spsCount ([], 6)
    if offset = data.length then invalidArgument "avcC 缺少 PPS 字段"
    let ppsCount := (← byteAt data offset).toNat
    let (annexB, _) ← appendCount codec data ppsCount (annexB, offset + 1)
    return (lengthWidth, annexB)
  | .h265 => do
    let lengthWidth := ((← byteAt data 21).toNat &&& 0x03) + 1
    let arrays := (← byteAt data 22).toNat
    let (annexB, offset) ← appendArrays codec data arrays ([], 23)
    if offset ≠ data.length then invalidArgument "hvcC 存在多余数据"
    return (lengthWidth, annexB)

end PacketConverter

end MwStreamer
