import MwStreamer.Media.Libav

/-!
# Frames and decoder read results

The items that travel from the decoders through the filters and the syncer.  A frame is its header plus
a reference to storage it shares read-only with every other reference, so `Frame::Ref` is the identity on
this type and changing a header never touches the storage.
-/

namespace MwStreamer

/-- The storage a frame refers to: what a source or callback supplied, or what the syncer allocated. -/
inductive Media where
  | stored (id : ℕ)
  | silence
  | black
  deriving DecidableEq, Repr

/-- `AVFrame`: the fields the streamer reads or writes.  `media = none` is an empty `data[0]`. -/
structure Frame where
  media : Option Media := none
  pts : ℤ := avNoptsValue
  bestEffortTimestamp : ℤ := avNoptsValue
  pktDts : ℤ := avNoptsValue
  timeBase : AVRational := ⟨0, 1⟩
  duration : ℤ := 0
  width : ℤ := 0
  height : ℤ := 0
  nbSamples : ℤ := 0
  format : ℤ := -1
  sampleRate : ℤ := 0
  chLayout : ChannelLayout := ⟨0, 0⟩
  /-- Whether `AV_FRAME_DATA_A53_CC` side data is attached. -/
  a53Cc : Bool := false
  deriving DecidableEq, Repr

/-- `AvDecoderReadStatus`. -/
inductive AvDecoderReadStatus where
  | frame
  | eof
  | null
  deriving DecidableEq, Repr

/-- `AvDecoderReadResult`: a frame, an end of file or nothing. -/
structure AvDecoderReadResult where
  status : AvDecoderReadStatus := .null
  frame : Option Frame := none
  streamIndex : ℤ := -1
  timeBase : AVRational := ⟨0, 1⟩
  endPts : ℤ := avNoptsValue
  deriving DecidableEq, Repr

instance : Inhabited AvDecoderReadResult := ⟨{}⟩

/-- `AvEncoderConfig`: the part that fixes the target format of each track.  Format `-1` is `NONE`. -/
structure AvEncoderConfig where
  width : ℤ := 0
  height : ℤ := 0
  fps : AVRational := ⟨30, 1⟩
  videoPixelFormat : ℤ := 23
  audioSampleRate : ℤ := 48000
  audioSampleFormat : ℤ := 8
  audioChannelLayout : ChannelLayout := ⟨2, 3⟩
  deriving DecidableEq, Repr

/-- Whether the configuration enables the track. -/
def AvEncoderConfig.enabled (config : AvEncoderConfig) (video : Bool) : Bool :=
  if video then config.videoPixelFormat != -1 else config.audioSampleFormat != -1

end MwStreamer
