import Mathlib.Data.List.Chain
import MwStreamer.Filter.ResamplerReads
import MwStreamer.Library.Blocks
import MwStreamer.Library.Transition

/-!
# What fixed-size audio blocks are

The converted stream is a list of chunks and end-of-file marks, the events of a `Converter` that takes the inputs one
after the other.  A `Partition` cuts it into parts: each end of file is a part of its own, and a segment is a chunk with
the chunks that continue it on its sample clock.  A segment that has
ended gives blocks of one size, the last one filled up with silence; the last segment gives its complete blocks so far.
-/

namespace MwStreamer

/-- What is known of the samples of a storage and of the graph of an `AudioFrameAdapter` with a frame size.  The graph
keeps the samples that were written; `clock` is the PTS of the first of them. -/
class FifoReblocker [LibAudio] where
  Sample : Type
  silence : Sample
  /-- The samples of a storage. -/
  content : Option Media → ℕ → Sample
  content_padded : ∀ media (samples size : ℤ) (i : ℕ), (i : ℤ) < size →
    content (padded media samples size) i = if (i : ℤ) < samples then content media i else silence
  stock : Graph → List Sample
  clock : Graph → ℤ
  size : Graph → ℤ
  closed : Graph → Bool
  graphCreate_ok : ∀ format rate layout frameSize graph, graphCreate format rate layout frameSize = .ok graph →
    stock graph = [] ∧ size graph = frameSize ∧ closed graph = false
  write_ok : ∀ graph frame graph', avBuffersrcWriteFrame graph frame = .ok graph' → closed graph = false →
    stock graph' = stock graph ++ (List.range frame.nbSamples.toNat).map (content frame.media) ∧
      size graph' = size graph ∧ closed graph' = false
  /-- Frames that follow one another without a gap. -/
  write_clock : ∀ graph frame graph', avBuffersrcWriteFrame graph frame = .ok graph' → closed graph = false →
    (stock graph = [] → clock graph' = frame.pts) ∧
      (stock graph ≠ [] → frame.pts = clock graph + (stock graph).length → clock graph' = clock graph)
  close_ok : ∀ graph graph', avBuffersrcClose graph = .ok graph' →
    stock graph' = stock graph ∧ clock graph' = clock graph ∧ size graph' = size graph ∧ closed graph' = true
  /-- A block, or the tail of an ended graph. -/
  get_some : ∀ graph frame graph', avBuffersinkGetFrame graph = .ok (some frame, graph') → 0 < size graph →
    stock graph ≠ [] ∧ (size graph ≤ (stock graph).length ∨ closed graph = true) ∧
      frame.nbSamples = min (size graph) (stock graph).length ∧ frame.pts = clock graph ∧
      (List.range frame.nbSamples.toNat).map (content frame.media) = (stock graph).take frame.nbSamples.toNat ∧
      stock graph' = (stock graph).drop frame.nbSamples.toNat ∧ clock graph' = clock graph + frame.nbSamples ∧
      size graph' = size graph ∧ closed graph' = closed graph
  get_none : ∀ graph graph', avBuffersinkGetFrame graph = .ok (none, graph') → 0 < size graph →
    ((stock graph).length : ℤ) < size graph ∧ (closed graph = true → stock graph = []) ∧
      stock graph' = stock graph ∧ clock graph' = clock graph ∧ size graph' = size graph ∧ closed graph' = closed graph

export FifoReblocker (Sample silence content stock)

namespace AudioResampler

variable [LibAudio] [FifoReblocker]

/-- The samples of a frame. -/
def samplesOf (frame : Frame) : List Sample := (List.range frame.nbSamples.toNat).map (content frame.media)

/-! ### The converted stream -/

/-- A converted frame, with the number of converters so far and the precision of the source at that moment. -/
structure Chunk where
  stream : ℤ
  generation : ℕ
  precision : ℤ
  pts : ℤ
  samples : List Sample

inductive Item where
  | chunk (chunk : Chunk)
  | eof (result : AvDecoderReadResult)

def chunkOf (impl : AudioResampler) (stream : ℤ) (frame : Frame) : Chunk where
  stream := stream
  generation := impl.generation
  precision := impl.ptsPrecision
  pts := frame.pts
  samples := samplesOf frame

/-- What `ReadConverted` returned, with the resampler after it. -/
def itemOf (impl : AudioResampler) (result : AvDecoderReadResult) : Item :=
  match result.status, result.frame with
  | .frame, some frame => .chunk (impl.chunkOf result.streamIndex frame)
  | _, _ => .eof result

theorem itemOf_frame {impl : AudioResampler} {result : AvDecoderReadResult} {frame : Frame} (h : result.status = .frame)
    (hframe : result.frame = some frame) : impl.itemOf result = .chunk (impl.chunkOf result.streamIndex frame) := by
  rw [itemOf, h, hframe]

theorem itemOf_eof {impl : AudioResampler} {result : AvDecoderReadResult} (h : result.status = .eof) :
    impl.itemOf result = .eof result := by
  rw [itemOf, h]

/-- An end of file in the target time base. -/
def eofOf [Libav] (rate : ℤ) (input : AvDecoderReadResult) : AvDecoderReadResult :=
  { input with
    timeBase := ⟨1, rate⟩
    endPts := if input.endPts ≠ avNoptsValue then avRescaleQ input.endPts input.timeBase ⟨1, rate⟩ else input.endPts }

/-- A conversion: the inputs it has not taken, the converter, the input that went through it last, and the PTS after
what it gave.  `generation` counts the converters, and `precision` is that of the last input. -/
structure Converter where
  inputs : List AvDecoderReadResult := []
  context : Option SwrContext := none
  last : Option AvDecoderReadResult := none
  next : Option ℤ := none
  generation : ℕ := 0
  precision : ℤ := 1

namespace Converter

/-- Samples that the converter wrote. -/
def chunk (c : Converter) (stream pts samples : ℤ) (media : Option Media) : Chunk where
  stream := stream
  generation := c.generation
  precision := c.precision
  pts := pts
  samples := (List.range samples.toNat).map (content media)

/-- What a call of `swr_convert` gives: it may keep the samples for later. -/
def wrote (c : Converter) (stream pts samples : ℤ) (media : Option Media) : List Item :=
  if samples = 0 then [] else [.chunk (c.chunk stream pts samples media)]

/-- The conversion after an input went through the converter. -/
def after [Libav] (target : Target) (c : Converter) (input : AvDecoderReadResult) (rest : List AvDecoderReadResult)
    (context : SwrContext) (next : ℤ) : Converter where
  inputs := rest
  context := some context
  last := some input
  next := some next
  generation := c.generation
  precision := tickUp input.timeBase ⟨1, target.rate⟩ + 1

/-- An end of file, another stream and another format end what the converter is for. -/
def Outlived [Libav] (last input : AvDecoderReadResult) : Prop := input.status = .eof ∨ matchesInput last input = false

/-- The space for what the converter may give. -/
def space (context : SwrContext) (samples : ℤ) : ℤ := max (swrGetOutSamples context samples) 1

/-- The steps of a conversion.  A converter that the next input ends is drained and then goes away; a frame that finds
no converter makes a new one. -/
inductive Step [Libav] (target : Target) : Converter → List Item → Converter → Prop where
  | drained {c : Converter} {context context' : SwrContext} {last input : AvDecoderReadResult} {pts samples : ℤ}
      {media : Option Media} (hcontext : c.context = some context) (hlast : c.last = some last)
      (hinput : input ∈ c.inputs.head?) (houtlived : Outlived last input) (hnext : c.next = some pts)
      (hconvert : swrConvert context (space context 0) none = (samples, media, context')) (hsamples : 0 < samples) :
      Step target c [.chunk (c.chunk last.streamIndex pts samples media)]
        { c with context := some context', next := some (pts + samples) }
  | closed {c : Converter} {context : SwrContext} {last input : AvDecoderReadResult}
      (hcontext : c.context = some context) (hlast : c.last = some last) (hinput : input ∈ c.inputs.head?)
      (houtlived : Outlived last input) (hempty : (swrConvert context (space context 0) none).1 = 0) :
      Step target c [] { c with context := none, last := none, next := none }
  | ended {c : Converter} {input : AvDecoderReadResult} {rest : List AvDecoderReadResult}
      (hcontext : c.context = none) (hinputs : c.inputs = input :: rest) (heof : input.status = .eof) :
      Step target c [.eof (eofOf target.rate input)] { c with inputs := rest }
  | initialized {c : Converter} {context : SwrContext} {input : AvDecoderReadResult} {frame : Frame}
      (hcontext : c.context = none) (hinput : input ∈ c.inputs.head?) (hstatus : input.status ≠ .eof)
      (hframe : input.frame = some frame)
      (halloc : swrAlloc target.layout target.format target.rate frame.chLayout frame.format frame.sampleRate =
        .ok context) :
      Step target c [] { c with context := some context, last := none, generation := c.generation + 1 }
  | converted {c : Converter} {context context' : SwrContext} {input : AvDecoderReadResult}
      {rest : List AvDecoderReadResult} {frame : Frame} {sourcePts pts targetPts samples : ℤ} {media : Option Media}
      (hcontext : c.context = some context) (hinputs : c.inputs = input :: rest) (hstatus : input.status ≠ .eof)
      (hgoing : ∀ last, c.last = some last → ¬Outlived last input) (hframe : input.frame = some frame)
      (hsource : rescale frame.pts input.timeBase ⟨1, frame.sampleRate⟩ = .ok sourcePts)
      (hpts : multiply sourcePts target.rate = .ok pts) (hknown : (swrNextPts context pts).1 ≠ avNoptsValue)
      (htarget : rescale (swrNextPts context pts).1 ⟨1, frame.sampleRate⟩ ⟨1, 1⟩ = .ok targetPts)
      (hconvert : swrConvert (swrNextPts context pts).2 (space (swrNextPts context pts).2 frame.nbSamples)
        (some frame) = (samples, media, context'))
      (hsamples : 0 ≤ samples) :
      Step target c
        ((c.after target input rest context' (targetPts + samples)).wrote input.streamIndex targetPts samples media)
        (c.after target input rest context' (targetPts + samples))

end Converter

/-- The conversions to a target.  Every chunk and every end of file is an event. -/
def conversion [Libav] (target : Target) : Transition Converter Item where
  init c := ∃ inputs, c = { inputs := inputs }
  step := Converter.Step target

/-- The conversion of a resampler. -/
def converter (impl : AudioResampler) : Converter where
  inputs := impl.inputs
  context := impl.context
  last := impl.context.bind fun _ => impl.lastInput
  next := impl.nextOutputPts
  generation := impl.generation
  precision := impl.ptsPrecision

/-! ### Segments and blocks -/

/-- Chunks on one sample clock. -/
structure Segment where
  first : Chunk
  rest : List Chunk := []

namespace Segment

def chunks (segment : Segment) : List Chunk := segment.first :: segment.rest

def samples (segment : Segment) : List Sample := segment.chunks.flatMap Chunk.samples

/-- The PTS after the last sample. -/
def next (segment : Segment) : ℤ := segment.first.pts + segment.samples.length

/-- The chunk is of the same stream and converter and lies on the clock, within the precision of the source. -/
def Continues (segment : Segment) (chunk : Chunk) : Prop :=
  chunk.stream = segment.first.stream ∧ chunk.generation = segment.first.generation ∧
    |chunk.pts - segment.next| ≤ chunk.precision

def add (segment : Segment) (chunk : Chunk) : Segment := { segment with rest := segment.rest ++ [chunk] }

/-- Every chunk continues those before it. -/
def Coherent (segment : Segment) : Prop :=
  ∀ before chunk after, segment.rest = before ++ chunk :: after →
    Continues { first := segment.first, rest := before } chunk

end Segment

/-- What a read returns: a block of samples, or an end of file. -/
inductive Output where
  | block (stream pts : ℤ) (samples : List Sample)
  | eof (result : AvDecoderReadResult)

def outputOf (result : AvDecoderReadResult) : Output :=
  match result.status, result.frame with
  | .frame, some frame => .block result.streamIndex frame.pts (samplesOf frame)
  | _, _ => .eof result

theorem outputOf_eof {result : AvDecoderReadResult} (h : result.status = .eof) : outputOf result = .eof result := by
  rw [outputOf, h]

/-- Block `k` of a segment. -/
def Segment.block (segment : Segment) (size k : ℕ) : Output :=
  .block segment.first.stream (segment.first.pts + k * size) (Blocks.block size silence segment.samples k)

def Segment.blocks (segment : Segment) (size n : ℕ) : List Output := (List.range n).map (segment.block size)

inductive Part where
  | segment (segment : Segment)
  | eof (result : AvDecoderReadResult)

namespace Part

def items : Part → List Item
  | .segment seg => seg.chunks.map .chunk
  | .eof result => [.eof result]

/-- The outputs of a part that has ended. -/
def outputs (size : ℕ) : Part → List Output
  | .segment seg => seg.blocks size (Blocks.total size seg.samples)
  | .eof result => [.eof result]

def Coherent : Part → Prop
  | .segment seg => seg.Coherent
  | .eof _ => True

/-- A segment ends at an end of file and at a chunk that does not continue it. -/
def Ends : Part → Part → Prop
  | .segment seg, .segment later => ¬seg.Continues later.first
  | _, _ => True

/-- The part that an item begins. -/
def begun : Item → Part
  | .chunk chunk => .segment { first := chunk }
  | .eof result => .eof result

end Part

structure Partition (items : List Item) (parts : List Part) : Prop where
  items : parts.flatMap Part.items = items
  coherent : ∀ part ∈ parts, part.Coherent
  ends : parts.IsChain Part.Ends

/-- The outputs of a partition: a last segment has not ended. -/
def outputs (size : ℕ) : List Part → List Output
  | [] => []
  | [.segment segment] => segment.blocks size (Blocks.complete size segment.samples)
  | part :: parts => part.outputs size ++ outputs size parts

variable {items : List Item}

theorem Partition.nil : Partition [] [] := ⟨rfl, fun _ h => absurd h List.not_mem_nil, .nil⟩

theorem coherent_begun (item : Item) : (Part.begun item).Coherent := by
  cases item with
  | chunk chunk =>
    intro before chunk' after h
    cases before <;> cases h
  | eof result => trivial

/-- An item begins a part. -/
theorem Partition.begin {parts : List Part} (h : Partition items parts) {item : Item}
    (hends : ∀ last ∈ parts.getLast?, Part.Ends last (.begun item)) :
    Partition (items ++ [item]) (parts ++ [.begun item]) where
  items := by
    rw [List.flatMap_append, h.items]
    cases item with
    | chunk chunk => rfl
    | eof result => rfl
  coherent part hpart := by
    rcases List.mem_append.mp hpart with hold | hnew
    · exact h.coherent part hold
    · rw [List.mem_singleton.mp hnew]
      exact coherent_begun item
  ends := h.ends.append (List.isChain_singleton _) fun last hlast next hnext => by
    obtain rfl := Option.some.inj hnext
    exact hends last hlast

theorem Segment.samples_add (segment : Segment) (chunk : Chunk) :
    (segment.add chunk).samples = segment.samples ++ chunk.samples := by
  show ((segment.first :: (segment.rest ++ [chunk])).flatMap Chunk.samples) = _
  rw [← List.cons_append, List.flatMap_append]
  show _ ++ (chunk.samples ++ []) = _
  rw [List.append_nil]
  rfl

theorem Segment.next_add (segment : Segment) (chunk : Chunk) :
    (segment.add chunk).next = segment.next + chunk.samples.length := by
  show segment.first.pts + ((segment.add chunk).samples.length : ℤ) = segment.first.pts + segment.samples.length + _
  rw [Segment.samples_add, List.length_append, Nat.cast_add, add_assoc]

theorem Segment.Coherent.add {segment : Segment} {chunk : Chunk} (h : segment.Coherent)
    (hcontinues : segment.Continues chunk) : (segment.add chunk).Coherent := by
  intro before chunk' after heq
  have heq' : segment.rest ++ [chunk] = before ++ chunk' :: after := heq
  rcases List.eq_nil_or_concat after with rfl | ⟨after, last, rfl⟩
  · obtain ⟨hrest, hlast⟩ := List.append_inj' heq' rfl
    obtain rfl := (List.cons.inj hlast).1
    rw [← hrest]
    exact hcontinues
  · rw [List.concat_eq_append, ← List.cons_append, ← List.append_assoc] at heq'
    obtain ⟨hrest, -⟩ := List.append_inj' heq' rfl
    exact h before chunk' after hrest

theorem Part.ends_first {part : Part} {segment segment' : Segment} (hfirst : segment'.first = segment.first)
    (h : part.Ends (.segment segment)) : part.Ends (.segment segment') := by
  cases part with
  | segment earlier =>
    show ¬earlier.Continues segment'.first
    rw [hfirst]
    exact h
  | eof result => trivial

/-- A chunk continues the last segment. -/
theorem Partition.add {parts : List Part} {segment : Segment} (h : Partition items (parts ++ [.segment segment]))
    {chunk : Chunk} (hcontinues : segment.Continues chunk) :
    Partition (items ++ [.chunk chunk]) (parts ++ [.segment (segment.add chunk)]) where
  items := by
    rw [← h.items, List.flatMap_append, List.flatMap_append, List.append_assoc]
    congr 1
    show (segment.first :: (segment.rest ++ [chunk])).map Item.chunk ++ [] = segment.chunks.map Item.chunk ++ [] ++ _
    rw [List.append_nil, List.append_nil, ← List.cons_append, List.map_append]
    rfl
  coherent part hpart := by
    rcases List.mem_append.mp hpart with hold | hnew
    · exact h.coherent part (List.mem_append_left _ hold)
    · rw [List.mem_singleton.mp hnew]
      have hsegment : segment.Coherent := h.coherent (.segment segment)
          (List.mem_append_right _ (List.mem_singleton.mpr rfl))
      exact hsegment.add hcontinues
  ends := by
    obtain ⟨hparts, -, hends⟩ := List.isChain_append.mp h.ends
    refine hparts.append (List.isChain_singleton _) fun last hlast next hnext => ?_
    obtain rfl := Option.some.inj hnext
    exact Part.ends_first (show (segment.add chunk).first = segment.first from rfl) (hends last hlast _ rfl)

theorem outputs_append {size : ℕ} (parts : List Part) (last : Part) :
    outputs size (parts ++ [last]) = parts.flatMap (Part.outputs size) ++ outputs size [last] := by
  induction parts with
  | nil => rfl
  | cons part parts ih =>
    have hcons : outputs size (part :: (parts ++ [last])) = part.outputs size ++ outputs size (parts ++ [last]) := by
      cases parts with
      | nil => cases part <;> rfl
      | cons next parts => cases part <;> rfl
    rw [List.cons_append, hcons, ih, List.flatMap_cons, List.append_assoc]

theorem outputs_closed {size : ℕ} {parts : List Part} (h : ∀ segment, parts.getLast? ≠ some (.segment segment)) :
    outputs size parts = parts.flatMap (Part.outputs size) := by
  rcases List.eq_nil_or_concat parts with rfl | ⟨parts, last, rfl⟩
  · rfl
  · rw [List.concat_eq_append] at h ⊢
    rw [outputs_append, List.flatMap_append, List.flatMap_cons, List.flatMap_nil, List.append_nil]
    cases last with
    | segment segment => exact absurd List.getLast?_concat (h segment)
    | eof result => rfl

/-- What has been returned of a segment is a part of what it gives. -/
theorem Segment.blocks_prefix (segment : Segment) (size : ℕ) {k n : ℕ} (h : k ≤ n) :
    ∃ rest, segment.blocks size n = segment.blocks size k ++ rest := by
  obtain ⟨m, rfl⟩ := Nat.exists_eq_add_of_le h
  refine ⟨(List.range m).map fun i => segment.block size (k + i), ?_⟩
  rw [Segment.blocks, List.range_add, List.map_append, List.map_map]
  rfl

theorem Segment.blocks_succ (segment : Segment) (size k : ℕ) :
    segment.blocks size (k + 1) = segment.blocks size k ++ [segment.block size k] := by
  rw [Segment.blocks, List.range_succ, List.map_append]
  rfl

/-- The complete blocks stay what they are. -/
theorem Segment.blocks_add (segment : Segment) (chunk : Chunk) {size k : ℕ} (h : k * size ≤ segment.samples.length) :
    (segment.add chunk).blocks size k = segment.blocks size k := by
  refine List.map_congr_left fun i hi => ?_
  have hlt : (i + 1) * size ≤ k * size := Nat.mul_le_mul_right _ (List.mem_range.mp hi)
  rw [Nat.succ_mul] at hlt
  show Output.block _ _ (Blocks.block size silence (segment.add chunk).samples i) = Output.block _ _ _
  rw [Segment.samples_add, Blocks.block_append (hlt.trans h)]
  rfl

/-! ### Pushes and reads -/

inductive Event where
  | pushed (input : AvDecoderReadResult)
  | converted (item : Item)
  | returned (result : AvDecoderReadResult)
  | null

def Event.pushed? : Event → Option AvDecoderReadResult
  | .pushed input => some input
  | _ => none

def Event.converted? : Event → Option Item
  | .converted item => some item
  | _ => none

def Event.returned? : Event → Option AvDecoderReadResult
  | .returned result => some result
  | _ => none

variable [Libav]

/-- What the turns of a read get from `ReadConverted`. -/
def pulled : ℕ → AudioResampler → List Item
  | 0, _ => []
  | turns + 1, impl =>
    match impl.receiveBlock with
    | .ok (none, impl) =>
      match impl.takeConverted with
      | .ok (input, taken) =>
        let items := if impl.blockPending.isSome ∨ input.status = .null then [] else [taken.itemOf input]
        match taken.placeConverted input with
        | .ok (none, placed) => items ++ pulled turns placed
        | _ => items
      | .error _ => []
    | _ => []

/-- What a read that returns an item emits. -/
def emitted (impl : AudioResampler) (item : AvDecoderReadResult) : List Event :=
  (pulled impl.turns impl).map .converted ++ [if item.status = .null then .null else .returned item]

inductive Act where
  | push (input : AvDecoderReadResult)
  | read

/-- A call of the producer or the reader; calls that are rejected or throw emit nothing. -/
def perform (impl : AudioResampler) : Act → Option (List Event × AudioResampler)
  | .push input =>
    match impl.tryPushFrame input with
    | .ok (true, impl') => some ([.pushed input], impl')
    | _ => some ([], impl)
  | .read =>
    match impl.tryReadFrame with
    | none => none
    | some (.error _, impl') => some ([], impl')
    | some (.ok result, impl') => some (impl.emitted result, impl')

def calls : Transition AudioResampler Event where
  init impl := ∃ config turns, 0 < config.outputSamplesPerFrame ∧ create config turns = .ok impl
  step impl events impl' := ∃ act, impl.perform act = some (events, impl')

end AudioResampler

end MwStreamer
