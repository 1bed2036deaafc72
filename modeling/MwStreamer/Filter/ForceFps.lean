import MwStreamer.Media.Frame

/-!
# The constant frame rate filter

`ForceFps`: a bounded queue of decoded pictures and end-of-file marks, read one output at a time.  A picture is
rescaled to the inverse frame rate; a read returns it in its own slot, repeats the picture before it in the
slots between, or drops it when its slot is taken.  The calls hold the mutex of the filter from beginning to
end, so each is one function of the state.
-/

namespace MwStreamer

/-- The largest `int`. -/
def intMax : ℤ := 2147483647

/-- `ForceFpsConfig`. -/
structure ForceFpsConfig where
  fps : AVRational := ⟨25, 1⟩
  inputCapacity : ℕ := 8
  deriving DecidableEq, Repr

/-- `ForceFps::Impl` without its mutex, its log and its latency statistics. -/
structure ForceFps where
  capacity : ℕ
  timeBase : AVRational := ⟨0, 1⟩
  stopped : Bool := false
  inputs : List AvDecoderReadResult := []
  last : Option AvDecoderReadResult := none
  lastUsed : Bool := false
  lastInputPts : Option ℤ := none
  nextPts : Option ℤ := none
  deriving DecidableEq, Repr

namespace ForceFps

def create (config : ForceFpsConfig) : Except Exception ForceFps :=
  if ¬config.fps.Positive ∨ config.inputCapacity = 0 then
    .error (.invalidArgument "ForceFps 帧率和输入容量必须为正")
  else .ok { capacity := config.inputCapacity, timeBase := avReduce config.fps.den config.fps.num }

section

variable [Libav]

def rescale (impl : ForceFps) (pts : ℤ) (source : AVRational) : Except Exception ℤ :=
  rescaleChecked "ForceFps 时间戳超出可表示范围" pts source impl.timeBase

/-- The checks of `TryPushFrame` on an input there is room for. -/
def checkInput (impl : ForceFps) (input : AvDecoderReadResult) : Except Exception Unit :=
  match input.status with
  | .frame =>
    match input.frame with
    | none => .error (.invalidArgument "ForceFps 需要有效的视频帧和时间戳")
    | some frame => do
      if frame.nbSamples ≠ 0 ∨ frame.width ≤ 0 ∨ frame.height ≤ 0 ∨ frame.pts = avNoptsValue ∨
          ¬input.timeBase.Positive then
        throw (.invalidArgument "ForceFps 需要有效的视频帧和时间戳")
      discard (impl.rescale frame.pts input.timeBase)
  | .eof => do
    if input.frame.isSome ∨ (input.endPts ≠ avNoptsValue ∧ ¬input.timeBase.Positive) then
      throw (.invalidArgument "ForceFps EOF 参数无效")
    if input.endPts ≠ avNoptsValue then
      discard (impl.rescale input.endPts input.timeBase)
  | .null => .error (.invalidArgument "ForceFps 不接受空读取结果")

/-- `TryPushFrame`: whether the input was queued.  An exception leaves the filter as it was. -/
def tryPushFrame (impl : ForceFps) (input : AvDecoderReadResult) :
    Except Exception (Bool × ForceFps) :=
  if impl.stopped then .ok (false, impl)
  else if impl.capacity ≤ impl.inputs.length then .ok (false, impl)
  else do
    impl.checkInput input
    return (true, { impl with inputs := impl.inputs ++ [input] })

/-- The answer of `IsDiscontinuity` when an input was emitted in slot `last`. -/
def discontinuous (timeBase : AVRational) (last pts : ℤ) : Bool :=
  if pts < last then true
  else
    let delta := pts - last
    if int64Max < delta then true
    else decide (1 < delta) && decide (0 < avCompareTs (delta - 1) timeBase 1 ⟨1, 2⟩)

def isDiscontinuity (impl : ForceFps) (pts : ℤ) : Bool :=
  match impl.lastInputPts with
  | none => false
  | some last => discontinuous impl.timeBase last pts

omit [Libav] in
/-- `Output`: the input with the header of slot `pts`. -/
def output (impl : ForceFps) (input : AvDecoderReadResult) (pts : ℤ) (duplicate : Bool) :
    AvDecoderReadResult :=
  { input with
    frame := input.frame.map fun frame =>
      { frame with
        pts := pts
        bestEffortTimestamp := pts
        pktDts := avNoptsValue
        timeBase := impl.timeBase
        duration := 1
        -- Closed captions belong to the source frame, not to every repeated copy.
        a53Cc := !duplicate && frame.a53Cc }
    timeBase := impl.timeBase }

omit [Libav] in
def remember (impl : ForceFps) (input : AvDecoderReadResult) (used : Bool) : ForceFps :=
  { impl with last := some input, lastUsed := used }

omit [Libav] in
def clearHistory (impl : ForceFps) : ForceFps :=
  { impl with last := none, lastUsed := false, lastInputPts := none, nextPts := none }

/-- A turn of the loop of `TryReadFrame` for an end of file in front of `rest`. -/
def readEof (impl : ForceFps) (input : AvDecoderReadResult) (rest : List AvDecoderReadResult) :
    Except Exception (Option AvDecoderReadResult × ForceFps) := do
  let endPts ←
    if input.endPts ≠ avNoptsValue then impl.rescale input.endPts input.timeBase
    else pure input.endPts
  return (some { input with endPts := endPts, timeBase := impl.timeBase },
    { impl with inputs := rest }.clearHistory)

/-- A turn of the loop of `TryReadFrame` for a picture in front of `rest`; `none` continues the loop. -/
def readPicture (impl : ForceFps) (input : AvDecoderReadResult) (frame : Frame)
    (rest : List AvDecoderReadResult) : Except Exception (Option AvDecoderReadResult × ForceFps) := do
  let pts ← impl.rescale frame.pts input.timeBase
  let emit : Except Exception (Option AvDecoderReadResult × ForceFps) :=
    .ok (some (impl.output input pts false),
      { impl.remember input true with
        lastInputPts := some pts, nextPts := some (pts + 1), inputs := rest })
  match impl.nextPts with
  | none => emit
  | some next =>
    if impl.isDiscontinuity pts then emit
    else if pts < next then
      .ok (none, { impl.remember input false with inputs := rest })
    else if next < pts then
      match impl.last with
      | none => .error .badOptional
      | some last =>
        .ok (some (impl.output last next impl.lastUsed),
          { impl with lastUsed := true, nextPts := some (next + 1) })
    else emit

def readFront (impl : ForceFps) (input : AvDecoderReadResult) (rest : List AvDecoderReadResult) :
    Except Exception (Option AvDecoderReadResult × ForceFps) :=
  if input.status = .eof then impl.readEof input rest
  else
    match input.frame with
    | none => .error .badOptional
    | some frame => impl.readPicture input frame rest

/-- The loop of `TryReadFrame` over the queue. -/
def readLoop : ForceFps → List AvDecoderReadResult → Except Exception AvDecoderReadResult × ForceFps
  | impl, [] => (.ok {}, impl)
  | impl, input :: rest =>
    match impl.readFront input rest with
    | .error e => (.error e, impl)
    | .ok (some result, impl) => (.ok result, impl)
    | .ok (none, impl) => readLoop impl rest

def tryReadFrame (impl : ForceFps) : Except Exception AvDecoderReadResult × ForceFps :=
  if impl.stopped then (.ok {}, impl) else impl.readLoop impl.inputs

end

def stop (impl : ForceFps) : ForceFps :=
  if impl.stopped then impl else { impl with stopped := true, inputs := [] }.clearHistory

def reset (impl : ForceFps) : ForceFps :=
  { { impl with inputs := [] }.clearHistory with stopped := false }

end ForceFps

end MwStreamer
