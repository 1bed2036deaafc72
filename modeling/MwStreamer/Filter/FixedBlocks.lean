import Mathlib.Data.List.GetD
import Mathlib.Logic.Equiv.List
import MwStreamer.Filter.ConvertedStream

/-!
# Fixed-size audio blocks partition the converted stream

`Stage` relates the adapter and the pending item to a partition of what was converted and to what was returned.  Each
turn of a read keeps it, and a read takes a bounded number of turns.
-/

namespace MwStreamer

namespace AudioResampler

open StateExcept (bind_ok)

variable [Libav] [LibAudio] [FifoReblocker] {impl impl' : AudioResampler} {items : List Item}

/-! ### The adapter -/

/-- The graph has what the first `k` blocks leave of a segment. -/
structure Holds (graph : Graph) (segment : Segment) (size k : ℕ) : Prop where
  sized : FifoReblocker.size graph = size
  kept : stock graph = segment.samples.drop (k * size)
  clocked : stock graph ≠ [] → FifoReblocker.clock graph = segment.first.pts + k * size

omit [LibAudio] [FifoReblocker] in
theorem rescale_same {value rate : ℤ} (hrate : 0 < rate) (hnopts : avRescaleQ value ⟨1, rate⟩ ⟨1, rate⟩ ≠ avNoptsValue)
    (hmax : avRescaleQ value ⟨1, rate⟩ ⟨1, rate⟩ ≠ int64Max) : avRescaleQ value ⟨1, rate⟩ ⟨1, rate⟩ = value := by
  have hbase : AVRational.Positive ⟨1, rate⟩ := ⟨Int.one_pos, hrate⟩
  have hscaled : scaled value ⟨1, rate⟩ ⟨1, rate⟩ = value := by
    rw [scaled, one_mul, mul_one]
    exact Rounding.roundNear_mul_self hrate
  by_cases hrange : int64Min < value ∧ value < int64Max
  · rw [Libav.avRescaleQ_exact _ _ _ hbase hbase (hscaled.symm ▸ hrange.1) (hscaled.symm ▸ hrange.2), hscaled]
  · rcases Libav.avRescaleQ_failure value _ _ hbase hbase (by rwa [hscaled]) with h | h
    · exact absurd h hnopts
    · exact absurd h hmax

omit [FifoReblocker] in
/-- `Submit` keeps the time stamp of a frame in the time base of the adapter. -/
theorem submit_ok {graph graph' : Graph} {rate : ℤ} {frame : Frame} (hrate : 0 < rate)
    (hbase : frame.timeBase = ⟨1, rate⟩) (h : submit graph rate frame = .ok graph') :
    ∃ submitted : Frame, avBuffersrcWriteFrame graph submitted = .ok graph' ∧ submitted.pts = frame.pts ∧
      submitted.nbSamples = frame.nbSamples ∧ submitted.media = frame.media := by
  unfold submit at h
  split at h
  · cases h
  dsimp only at h
  split at h
  · cases h
  · rename_i hrange
    rw [not_or, not_or, hbase] at hrange
    rw [hbase, rescale_same hrate hrange.1 hrange.2.1] at h
    exact ⟨_, h, rfl, rfl, rfl⟩

omit [Libav] in
/-- The samples of a padded storage. -/
theorem samples_padded (media : Option Media) {samples size : ℕ} (h : samples ≤ size) :
    (List.range size).map (content (padded media samples size)) =
      (List.range samples).map (content media) ++ List.replicate (size - samples) silence := by
  obtain ⟨rest, rfl⟩ := Nat.exists_eq_add_of_le h
  rw [List.range_add, List.map_append, List.map_map, Nat.add_sub_cancel_left]
  congr 1
  · refine List.map_congr_left fun i hi => ?_
    have hlt := List.mem_range.mp hi
    rw [FifoReblocker.content_padded _ _ _ _ (by push_cast; omega), if_pos (by exact_mod_cast hlt)]
  · refine List.eq_replicate_iff.mpr ⟨by rw [List.length_map, List.length_range], fun sample hsample => ?_⟩
    obtain ⟨i, hi, rfl⟩ := List.mem_map.mp hsample
    have hlt := List.mem_range.mp hi
    show content (padded media samples ((samples + rest : ℕ) : ℤ)) (samples + i) = silence
    rw [FifoReblocker.content_padded _ _ _ _ (by push_cast; omega), if_neg (by push_cast; omega)]

/-- The blocks are of the stream of the segment. -/
structure Labelled (impl : AudioResampler) (segment : Segment) (size : ℕ) : Prop where
  size : impl.outputSamplesPerFrame = size
  status : impl.blockMetadata.status = .frame
  stream : impl.blockMetadata.streamIndex = segment.first.stream

omit [Libav] in
theorem Labelled.same {segment : Segment} {size : ℕ} (h : impl.Labelled segment size)
    (hsize : impl'.outputSamplesPerFrame = impl.outputSamplesPerFrame)
    (hmetadata : impl'.blockMetadata = impl.blockMetadata) : impl'.Labelled segment size :=
  ⟨hsize.trans h.size, hmetadata ▸ h.status, hmetadata ▸ h.stream⟩

omit [Libav] in
/-- A block of the graph is the next block of the segment. -/
theorem Holds.received {graph graph' : Graph} {segment : Segment} {size k : ℕ} (h : Holds graph segment size k)
    (hsize : 0 < size) {frame : Frame} (hget : avBuffersinkGetFrame graph = .ok (some frame, graph'))
    (hlabelled : impl.Labelled segment size) :
    k * size < segment.samples.length ∧
      (k * size + size ≤ segment.samples.length ∨ FifoReblocker.closed graph = true) ∧
      Holds graph' segment size (k + 1) ∧ FifoReblocker.closed graph' = FifoReblocker.closed graph ∧
      outputOf (impl.blockOutput frame) = segment.block size k ∧ (impl.blockOutput frame).status = .frame ∧
      ∃ out, (impl.blockOutput frame).frame = some out ∧ out.nbSamples = size := by
  obtain ⟨hne, hready, hsamples, hpts, hcontent, hstock, hclock, hsized, hclosed⟩ :=
    FifoReblocker.get_some _ _ _ hget (by rw [h.sized]; exact_mod_cast hsize)
  rw [h.sized] at hready hsamples hsized
  have hlength : (stock graph).length = segment.samples.length - k * size := by rw [h.kept, List.length_drop]
  have hlt : k * size < segment.samples.length := by
    have hpos := List.length_pos_iff.mpr hne
    omega
  have hclock' : FifoReblocker.clock graph = segment.first.pts + k * size := h.clocked hne
  have hcontent' : samplesOf frame = (segment.samples.drop (k * size)).take frame.nbSamples.toNat := by
    rw [samplesOf, hcontent, h.kept]
  refine ⟨hlt, ?_, ⟨hsized, ?_, fun hne' => ?_⟩, hclosed, ?_, hlabelled.status, ?_⟩
  · rcases hready with hfull | hended
    · exact .inl (by omega)
    · exact .inr hended
  · rw [hstock, h.kept, List.drop_drop, Nat.succ_mul]
    by_cases hfull : size ≤ (stock graph).length
    · have htaken : frame.nbSamples.toNat = size := by omega
      rw [htaken]
    · rw [List.drop_eq_nil_of_le (by omega), List.drop_eq_nil_of_le (by omega)]
  · rw [hstock] at hne'
    have hrest := List.length_pos_iff.mpr hne'
    rw [List.length_drop] at hrest
    rw [hclock, hclock']
    push_cast
    rw [add_mul, one_mul]
    omega
  · unfold blockOutput
    rw [hlabelled.size]
    by_cases hfull : size ≤ (stock graph).length
    · have hlong : ¬frame.nbSamples < size := by omega
      have htaken : frame.nbSamples.toNat = size := by omega
      dsimp only
      rw [if_neg hlong, outputOf]
      dsimp only
      rw [hlabelled.status]
      show Output.block _ frame.pts (samplesOf frame) = Output.block _ _ _
      rw [hlabelled.stream, hpts, hclock', hcontent', htaken, Blocks.block_complete (by omega)]
    · have hshort : frame.nbSamples < size := by omega
      have htaken : frame.nbSamples.toNat = (stock graph).length := by omega
      have hint : frame.nbSamples = ((stock graph).length : ℤ) := by omega
      dsimp only
      rw [if_pos hshort, outputOf]
      dsimp only
      rw [hlabelled.status]
      show Output.block _ frame.pts
        ((List.range (size : ℤ).toNat).map (content (padded frame.media frame.nbSamples size))) = Output.block _ _ _
      have hsame : (List.range (stock graph).length).map (content frame.media) = samplesOf frame := by
        rw [samplesOf, htaken]
      rw [hlabelled.stream, hpts, hclock', hint, Int.toNat_natCast, samples_padded _ (by omega), hsame, hcontent',
        htaken, Blocks.block_tail hlt.le (by omega), List.take_of_length_le (by rw [List.length_drop]; omega), hlength]
      congr 3
      omega
  · unfold blockOutput
    rw [hlabelled.size]
    dsimp only
    by_cases hshort : frame.nbSamples < size
    · rw [if_pos hshort]
      exact ⟨_, rfl, rfl⟩
    · rw [if_neg hshort]
      exact ⟨_, rfl, by show frame.nbSamples = size; omega⟩

omit [Libav] in
/-- A graph without a block. -/
theorem Holds.again {graph graph' : Graph} {segment : Segment} {size k : ℕ} (h : Holds graph segment size k)
    (hsize : 0 < size) (hget : avBuffersinkGetFrame graph = .ok (none, graph')) :
    segment.samples.length < k * size + size ∧
      (FifoReblocker.closed graph = true → segment.samples.length ≤ k * size) ∧
      Holds graph' segment size k ∧ FifoReblocker.closed graph' = FifoReblocker.closed graph := by
  obtain ⟨hshort, hended, hstock, hclock, hsized, hclosed⟩ :=
    FifoReblocker.get_none _ _ hget (by rw [h.sized]; exact_mod_cast hsize)
  have hlength : (stock graph).length = segment.samples.length - k * size := by rw [h.kept, List.length_drop]
  rw [h.sized] at hshort
  refine ⟨by omega, fun hclosed => ?_, ⟨hsized.trans h.sized, hstock.trans h.kept, ?_⟩, hclosed⟩
  · have hnil := hended hclosed
    rw [hnil, List.length_nil] at hlength
    omega
  · rw [hstock, hclock]
    exact h.clocked

omit [Libav] in
/-- The first chunk of a segment goes into a new graph. -/
theorem holds_first {graph graph' : Graph} {frame : Frame} (chunk : Chunk) {size : ℕ}
    (hstock : stock graph = []) (hsized : FifoReblocker.size graph = size) (hopen : FifoReblocker.closed graph = false)
    (hwrite : avBuffersrcWriteFrame graph frame = .ok graph') (hpts : frame.pts = chunk.pts)
    (hsamples : samplesOf frame = chunk.samples) :
    Holds graph' { first := chunk } size 0 ∧ FifoReblocker.closed graph' = false := by
  obtain ⟨hkept, hsize, hclosed⟩ := FifoReblocker.write_ok _ _ _ hwrite hopen
  have hclock := (FifoReblocker.write_clock _ _ _ hwrite hopen).1 hstock
  refine ⟨⟨hsize.trans hsized, ?_, fun _ => ?_⟩, hclosed⟩
  · rw [hkept, hstock, List.nil_append, Nat.zero_mul, List.drop_zero]
    show samplesOf frame = chunk.samples ++ []
    rw [List.append_nil, hsamples]
  · rw [hclock, hpts, Nat.cast_zero, zero_mul, add_zero]

omit [Libav] in
/-- A chunk goes behind a segment on the clock of the segment. -/
theorem Holds.written {graph graph' : Graph} {segment : Segment} {size k : ℕ} (h : Holds graph segment size k)
    (hbound : k * size ≤ segment.samples.length) (hopen : FifoReblocker.closed graph = false) {frame : Frame}
    (chunk : Chunk) (hwrite : avBuffersrcWriteFrame graph frame = .ok graph') (hpts : frame.pts = segment.next)
    (hsamples : samplesOf frame = chunk.samples) :
    Holds graph' (segment.add chunk) size k ∧ FifoReblocker.closed graph' = false := by
  obtain ⟨hkept, hsize, hclosed⟩ := FifoReblocker.write_ok _ _ _ hwrite hopen
  obtain ⟨hempty, hgoing⟩ := FifoReblocker.write_clock _ _ _ hwrite hopen
  have hlength : (stock graph).length = segment.samples.length - k * size := by rw [h.kept, List.length_drop]
  refine ⟨⟨hsize.trans h.sized, ?_, fun _ => ?_⟩, hclosed⟩
  · have hnew : (List.range frame.nbSamples.toNat).map (content frame.media) = chunk.samples := hsamples
    rw [hkept, hnew, h.kept, Segment.samples_add, List.drop_append_of_le_length hbound]
  · show FifoReblocker.clock graph' = segment.first.pts + k * size
    have hnext : segment.next = segment.first.pts + segment.samples.length := rfl
    by_cases hnil : stock graph = []
    · have hexact : segment.samples.length = k * size := by
        rw [hnil, List.length_nil] at hlength
        omega
      rw [hempty hnil, hpts, hnext, hexact, Nat.cast_mul]
    · have hclock := h.clocked hnil
      have hsum : frame.pts = FifoReblocker.clock graph + ((stock graph).length : ℤ) := by
        rw [hpts, hnext, hclock, hlength, Nat.cast_sub hbound]
        push_cast
        ring
      rw [hgoing hnil hsum, hclock]

/-! ### Stages of the blocks -/

/-- No segment is open. -/
structure Idle (impl : AudioResampler) : Prop where
  adapter : impl.adapter = none
  blockNextPts : impl.blockNextPts = none
  blockEnding : impl.blockEnding = false

/-- The last segment is in the adapter, which has given `k` of its blocks. -/
structure Fills (impl : AudioResampler) (graph : Graph) (segment : Segment) (size k : ℕ) : Prop where
  adapter : impl.adapter = some graph
  holds : Holds graph segment size k
  labelled : impl.Labelled segment size

/-- The last segment takes more chunks. -/
structure Open (impl : AudioResampler) (graph : Graph) (segment : Segment) (size k : ℕ) : Prop
    extends Fills impl graph segment size k where
  bound : k * size ≤ segment.samples.length
  blockPending : impl.blockPending = none
  blockNextPts : impl.blockNextPts = some segment.next
  blockEnding : impl.blockEnding = false
  blockGeneration : impl.blockGeneration = segment.first.generation
  closed : FifoReblocker.closed graph = false

/-- The last segment has ended, and `input` is the next. -/
structure Ending (impl : AudioResampler) (graph : Graph) (segment : Segment) (size k : ℕ)
    (input : AvDecoderReadResult) : Prop extends Fills impl graph segment size k where
  bound : k ≤ Blocks.total size segment.samples
  blockPending : impl.blockPending = some input
  blockEnding : impl.blockEnding = true
  closed : FifoReblocker.closed graph = true
  converts : impl.Converts input

inductive Stage (impl : AudioResampler) (size : ℕ) (items : List Item) (returned : List Output) : Prop where
  | idle {parts : List Part} (hidle : impl.Idle) (hpending : impl.blockPending = none) (hparts : Partition items parts)
      (hlast : ∀ segment, parts.getLast? ≠ some (.segment segment))
      (hreturned : returned = parts.flatMap (Part.outputs size))
  | filling {parts : List Part} {segment : Segment} {graph : Graph} {k : ℕ} (hopen : impl.Open graph segment size k)
      (hparts : Partition items (parts ++ [.segment segment]))
      (hreturned : returned = parts.flatMap (Part.outputs size) ++ segment.blocks size k)
  | ending {parts : List Part} {segment : Segment} {graph : Graph} {k : ℕ} {input : AvDecoderReadResult}
      (hending : impl.Ending graph segment size k input)
      (hparts : Partition items (parts ++ [.segment segment] ++ [.begun (impl.itemOf input)]))
      (hreturned : returned = parts.flatMap (Part.outputs size) ++ segment.blocks size k)

variable {size : ℕ} {returned : List Output}

omit [Libav] in
/-- A read gets a block. -/
theorem Stage.receive (h : Stage impl size items returned) (hsize : 0 < size) {result : AvDecoderReadResult}
    (hreceive : impl.receiveBlock = .ok (some result, impl')) :
    Stage impl' size items (returned ++ [outputOf result]) ∧ result.status = .frame ∧
      ∃ frame, result.frame = some frame ∧ frame.nbSamples = size := by
  unfold receiveBlock at hreceive
  cases h with
  | idle hidle hpending hparts hlast hreturned =>
    rw [hidle.adapter] at hreceive
    simp at hreceive
  | @filling parts segment graph k hopen hparts hreturned =>
    rw [hopen.adapter] at hreceive
    obtain ⟨⟨frame, graph'⟩, hget, hreceive⟩ := bind_ok hreceive
    cases frame with
    | none =>
      dsimp only at hreceive
      rw [hopen.blockEnding] at hreceive
      simp at hreceive
    | some frame =>
      obtain ⟨rfl, rfl⟩ := by simpa using hreceive
      obtain ⟨-, hready, hholds, hclosed, hblock, hstatus, hframe⟩ := hopen.holds.received hsize hget hopen.labelled
      have hbound : (k + 1) * size ≤ segment.samples.length := by
        rw [Nat.succ_mul]
        exact hready.resolve_right fun hcontra => absurd (hopen.closed.symm.trans hcontra) (by decide)
      refine ⟨.filling ⟨⟨rfl, hholds, hopen.labelled.same rfl rfl⟩, hbound, hopen.blockPending, hopen.blockNextPts,
        hopen.blockEnding, hopen.blockGeneration, hclosed.trans hopen.closed⟩ hparts ?_, hstatus, hframe⟩
      rw [hreturned, hblock, Segment.blocks_succ, List.append_assoc]
  | @ending parts segment graph k input hending hparts hreturned =>
    rw [hending.adapter] at hreceive
    obtain ⟨⟨frame, graph'⟩, hget, hreceive⟩ := bind_ok hreceive
    cases frame with
    | none =>
      dsimp only at hreceive
      rw [hending.blockEnding] at hreceive
      simp at hreceive
    | some frame =>
      obtain ⟨rfl, rfl⟩ := by simpa using hreceive
      obtain ⟨hlt, -, hholds, hclosed, hblock, hstatus, hframe⟩ := hending.holds.received hsize hget hending.labelled
      refine ⟨.ending ⟨⟨rfl, hholds, hending.labelled.same rfl rfl⟩, (Blocks.total_lt_iff hsize).mpr hlt,
        hending.blockPending, hending.blockEnding, hclosed.trans hending.closed, hending.converts⟩ hparts ?_,
        hstatus, hframe⟩
      rw [hreturned, hblock, Segment.blocks_succ, List.append_assoc]

/-- How many turns a read takes at most: a turn ends a segment or adds to what the adapter keeps. -/
def room (impl : AudioResampler) (size : ℕ) : ℕ :=
  match impl.adapter with
  | none => size + 1
  | some graph =>
    let kept := (stock graph).length
    if impl.blockEnding then if kept = 0 then size + 1 else 1
    else if size ≤ kept then 1
    else if kept = 0 then size + 2 else size - kept + 1

omit [Libav] in
theorem room_none (h : impl.adapter = none) : impl.room size = size + 1 := by
  rw [room, h]

omit [Libav] in
theorem Fills.length {graph : Graph} {segment : Segment} {k : ℕ} (h : impl.Fills graph segment size k) :
    (stock graph).length = segment.samples.length - k * size := by
  rw [h.holds.kept, List.length_drop]

omit [Libav] in
theorem Open.room {graph : Graph} {segment : Segment} {k : ℕ} (h : impl.Open graph segment size k) :
    impl.room size = if size ≤ segment.samples.length - k * size then 1
      else if segment.samples.length - k * size = 0 then size + 2
      else size - (segment.samples.length - k * size) + 1 := by
  rw [AudioResampler.room, h.adapter]
  dsimp only
  rw [h.blockEnding, h.length]
  rfl

omit [Libav] in
theorem Ending.room {graph : Graph} {segment : Segment} {k : ℕ} {input : AvDecoderReadResult}
    (h : impl.Ending graph segment size k input) :
    impl.room size = if segment.samples.length - k * size = 0 then size + 1 else 1 := by
  rw [AudioResampler.room, h.adapter]
  dsimp only
  rw [h.blockEnding, h.length]
  rfl

omit [Libav] in
theorem Stage.room_pos (h : Stage impl size items returned) : 0 < impl.room size ∧ impl.room size ≤ size + 2 := by
  cases h with
  | idle hidle hpending hparts hlast hreturned =>
    rw [room_none hidle.adapter]
    omega
  | filling hopen hparts hreturned =>
    rw [hopen.room]
    split_ifs <;> omega
  | ending hending hparts hreturned =>
    rw [hending.room]
    split_ifs <;> omega

/-- The adapter has no block to give. -/
inductive Rested (impl : AudioResampler) (size : ℕ) (items : List Item) (returned : List Output) : Prop where
  | idle {parts : List Part} (hidle : impl.Idle) (hpending : impl.blockPending = none) (hparts : Partition items parts)
      (hlast : ∀ segment, parts.getLast? ≠ some (.segment segment))
      (hreturned : returned = parts.flatMap (Part.outputs size))
  | resuming {parts : List Part} {input : AvDecoderReadResult} (hidle : impl.Idle)
      (hpending : impl.blockPending = some input) (hconverts : impl.Converts input)
      (hparts : Partition items (parts ++ [.begun (impl.itemOf input)]))
      (hreturned : returned = parts.flatMap (Part.outputs size))
  | filling {parts : List Part} {segment : Segment} {graph : Graph} {k : ℕ} (hopen : impl.Open graph segment size k)
      (hshort : segment.samples.length < k * size + size) (hparts : Partition items (parts ++ [.segment segment]))
      (hreturned : returned = parts.flatMap (Part.outputs size) ++ segment.blocks size k)

omit [Libav] in
theorem Stage.rested (h : Stage impl size items returned) (hsize : 0 < size)
    (hreceive : impl.receiveBlock = .ok (none, impl')) :
    Rested impl' size items returned ∧ impl'.room size ≤ impl.room size := by
  unfold receiveBlock at hreceive
  cases h with
  | idle hidle hpending hparts hlast hreturned =>
    rw [hidle.adapter] at hreceive
    obtain rfl := by simpa using hreceive
    exact ⟨.idle hidle hpending hparts hlast hreturned, Nat.le_refl _⟩
  | @filling parts segment graph k hopen hparts hreturned =>
    rw [hopen.adapter] at hreceive
    obtain ⟨⟨frame, graph'⟩, hget, hreceive⟩ := bind_ok hreceive
    cases frame with
    | some frame => simp at hreceive
    | none =>
      dsimp only at hreceive
      rw [hopen.blockEnding] at hreceive
      obtain rfl := by simpa using hreceive
      obtain ⟨hshort, -, hholds, hclosed⟩ := hopen.holds.again hsize hget
      have hopen' : Open { impl with adapter := some graph', blockEnding := false } graph' segment size k :=
        ⟨⟨rfl, hholds, hopen.labelled.same rfl rfl⟩, hopen.bound, hopen.blockPending, hopen.blockNextPts, rfl,
          hopen.blockGeneration, hclosed.trans hopen.closed⟩
      exact ⟨.filling hopen' hshort hparts hreturned, (hopen'.room.trans hopen.room.symm).le⟩
  | @ending parts segment graph k input hending hparts hreturned =>
    rw [hending.adapter] at hreceive
    obtain ⟨⟨frame, graph'⟩, hget, hreceive⟩ := bind_ok hreceive
    cases frame with
    | some frame => simp at hreceive
    | none =>
      dsimp only at hreceive
      rw [hending.blockEnding] at hreceive
      obtain rfl := by simpa using hreceive
      obtain ⟨-, hended, -, -⟩ := hending.holds.again hsize hget
      have htotal : k = Blocks.total size segment.samples := by
        refine Nat.le_antisymm hending.bound (Nat.le_of_not_lt fun hlt => ?_)
        exact absurd ((Blocks.total_lt_iff hsize).mp hlt) (Nat.not_lt.mpr (hended hending.closed))
      refine ⟨.resuming ⟨rfl, rfl, rfl⟩ hending.blockPending hending.converts hparts ?_, ?_⟩
      · rw [hreturned, htotal, List.flatMap_append, List.flatMap_cons, List.flatMap_nil, List.append_nil]
        rfl
      · rw [room_none rfl, hending.room, if_pos (Nat.sub_eq_zero_of_le (hended hending.closed))]

/-- A converted item in the hand of the reader. -/
inductive Held (impl : AudioResampler) (size : ℕ) (input : AvDecoderReadResult) (items : List Item)
    (returned : List Output) : Prop where
  | fresh {parts : List Part} (hidle : impl.Idle) (hpending : impl.blockPending = none)
      (hconverts : impl.Converts input) (hparts : Partition items (parts ++ [.begun (impl.itemOf input)]))
      (hreturned : returned = parts.flatMap (Part.outputs size))
  | filling {before : List Item} {parts : List Part} {segment : Segment} {graph : Graph} {k : ℕ}
      (hopen : impl.Open graph segment size k) (hshort : segment.samples.length < k * size + size)
      (hconverts : impl.Converts input) (hparts : Partition before (parts ++ [.segment segment]))
      (hitems : items = before ++ [impl.itemOf input])
      (hreturned : returned = parts.flatMap (Part.outputs size) ++ segment.blocks size k)

omit [Libav] [FifoReblocker] in
theorem Converts.same {input : AvDecoderReadResult} (h : impl.Converts input) (hsame : SameBlocks impl impl') :
    impl'.Converts input := by
  rw [Converts, hsame.rate]
  exact h

omit [Libav] [FifoReblocker] in
theorem Idle.same (h : impl.Idle) (hsame : SameBlocks impl impl') : impl'.Idle :=
  ⟨hsame.adapter.trans h.adapter, hsame.blockNextPts.trans h.blockNextPts, hsame.blockEnding.trans h.blockEnding⟩

omit [Libav] in
theorem Open.same {graph : Graph} {segment : Segment} {k : ℕ} (h : impl.Open graph segment size k)
    (hsame : SameBlocks impl impl') : impl'.Open graph segment size k :=
  ⟨⟨hsame.adapter.trans h.adapter, h.holds, h.labelled.same hsame.outputSamplesPerFrame hsame.blockMetadata⟩, h.bound,
    hsame.blockPending.trans h.blockPending, hsame.blockNextPts.trans h.blockNextPts,
    hsame.blockEnding.trans h.blockEnding, hsame.blockGeneration.trans h.blockGeneration, h.closed⟩

omit [Libav] in
/-- After a read that found nothing everything that was converted has been returned. -/
theorem Rested.delivered (h : Rested impl size items returned) (hsize : 0 < size)
    (hpending : impl.blockPending = none) : ∃ parts, Partition items parts ∧ returned = outputs size parts := by
  cases h with
  | @idle parts hidle hpending' hparts hlast hreturned =>
    exact ⟨parts, hparts, hreturned.trans (outputs_closed hlast).symm⟩
  | resuming hidle hsome => simp [hpending] at hsome
  | @filling parts segment graph k hopen hshort hparts hreturned =>
    refine ⟨_, hparts, ?_⟩
    have hcomplete : k = Blocks.complete size segment.samples := by
      refine Nat.le_antisymm ((Nat.le_div_iff_mul_le hsize).mpr hopen.bound) (Nat.le_of_not_lt fun hlt => ?_)
      exact absurd ((Blocks.complete_lt_iff hsize).mp hlt) (by omega)
    rw [outputs_append, hreturned, hcomplete]
    rfl

/-- What comes to the hand: an item, or nothing when the queue is empty. -/
theorem Rested.take (h : Rested impl size items returned) {input : AvDecoderReadResult}
    (htake : impl.takeConverted = .ok (input, impl')) :
    (input.status = .null ∧ impl.blockPending = none ∧ Stage impl' size items returned) ∨
    (input.status ≠ .null ∧ Held impl' size input
      (items ++ if impl.blockPending.isSome ∨ input.status = .null then [] else [impl'.itemOf input]) returned) := by
  unfold takeConverted at htake
  cases h with
  | resuming hidle hpending hconverts hparts hreturned =>
    rw [hpending] at htake
    obtain ⟨rfl, rfl⟩ := Prod.mk.inj (Except.ok.inj htake)
    refine .inr ⟨hconverts.status_ne, ?_⟩
    rw [hpending, if_pos (.inl rfl), List.append_nil]
    exact .fresh ⟨hidle.adapter, hidle.blockNextPts, hidle.blockEnding⟩ rfl hconverts hparts hreturned
  | idle hidle hpending hparts hlast hreturned =>
    rw [hpending] at htake
    have hsame := (readConverted_same htake).1
    rcases (readConverted_run htake).2 with hnull | hitem
    · exact .inl ⟨hnull, hpending, .idle (hidle.same hsame) (hsame.blockPending.trans hpending) hparts hlast hreturned⟩
    · refine .inr ⟨hitem.status_ne, ?_⟩
      rw [hpending, if_neg (by simp [hitem.status_ne])]
      refine .fresh (hidle.same hsame) (hsame.blockPending.trans hpending) (hitem.same hsame)
        (hparts.begin fun last hmem => ?_) hreturned
      cases last with
      | segment segment => exact absurd hmem (hlast segment)
      | eof result => trivial
  | filling hopen hshort hparts hreturned =>
    rw [hopen.blockPending] at htake
    have hsame := (readConverted_same htake).1
    rcases (readConverted_run htake).2 with hnull | hitem
    · exact .inl ⟨hnull, hopen.blockPending, .filling (hopen.same hsame) hparts hreturned⟩
    · refine .inr ⟨hitem.status_ne, .filling (hopen.same hsame) hshort (hitem.same hsame) hparts ?_ hreturned⟩
      rw [hopen.blockPending, if_neg (by simp [hitem.status_ne])]

omit [Libav] in
theorem length_samplesOf {frame : Frame} (h : 0 < frame.nbSamples) :
    ((samplesOf frame).length : ℤ) = frame.nbSamples := by
  rw [samplesOf, List.length_map, List.length_range, Int.toNat_of_nonneg h.le]

omit [Libav] [LibAudio] [FifoReblocker] in
theorem addSamples_ok {pts samples next : ℤ} (h : addSamples pts samples = .ok next) : next = pts + samples := by
  unfold addSamples at h
  split at h
  · cases h
  · exact (Except.ok.inj h).symm

/-- What `submitBlock` writes, and the state after it. -/
theorem submitBlock_ok {graph : Graph} {input : AvDecoderReadResult} {frame : Frame} {placed : AudioResampler}
    (hrate : 0 < impl.rate) (hbase : frame.timeBase = ⟨1, impl.rate⟩)
    (h : impl.submitBlock graph input frame = .ok placed) : ∃ graph' submitted,
      avBuffersrcWriteFrame graph submitted = .ok graph' ∧ submitted.pts = impl.blockNextPts.getD frame.pts ∧
      samplesOf submitted = samplesOf frame ∧ placed = { impl with
        adapter := some graph'
        blockGeneration := impl.generation
        blockNextPts := some (impl.blockNextPts.getD frame.pts + frame.nbSamples)
        blockMetadata := { input with frame := none } } := by
  unfold submitBlock at h
  obtain ⟨graph', hgraph, h⟩ := bind_ok h
  obtain ⟨next, hnext, h⟩ := bind_ok h
  have hbase' : Frame.timeBase { frame with pts := impl.blockNextPts.getD frame.pts } = ⟨1, impl.rate⟩ := hbase
  obtain ⟨submitted, hwrite, hpts, hsamples, hmedia⟩ := submit_ok hrate hbase' hgraph
  refine ⟨graph', submitted, hwrite, hpts, by rw [samplesOf, hsamples, hmedia]; rfl, ?_⟩
  rw [addSamples_ok hnext] at h
  exact (Except.ok.inj h).symm

omit [Libav] in
/-- Whether an item ends the segment in the adapter. -/
theorem Open.ends {graph : Graph} {segment : Segment} {k : ℕ} (h : impl.Open graph segment size k)
    {input : AvDecoderReadResult} (hconverts : impl.Converts input) {ends : Bool}
    (hends : impl.endsBlock input = .ok ends) :
    (ends = true ∧ Part.Ends (.segment segment) (.begun (impl.itemOf input))) ∨
      (ends = false ∧ input.status = .frame ∧ ∃ frame, input.frame = some frame ∧ 0 < frame.nbSamples ∧
        frame.timeBase = ⟨1, impl.rate⟩ ∧ segment.Continues (impl.chunkOf input.streamIndex frame)) := by
  unfold endsBlock at hends
  rw [h.adapter, if_neg (by simp), h.blockNextPts, h.labelled.stream, h.blockGeneration] at hends
  rcases hconverts with heof | ⟨hframe, frame, hsome, hpos, hbase⟩
  · rw [if_pos (.inl heof)] at hends
    exact .inl ⟨(Except.ok.inj hends).symm, by rw [itemOf_eof heof]; trivial⟩
  · rw [itemOf_frame hframe hsome]
    rw [hsome] at hends
    by_cases hstream : input.streamIndex = segment.first.stream
    · rw [if_neg (by simp [hframe, hstream])] at hends
      by_cases hcontinues : segment.Continues (impl.chunkOf input.streamIndex frame)
      · obtain ⟨-, hgeneration, hnear⟩ := hcontinues
        have hsame : segment.first.generation = impl.generation := hgeneration.symm
        have hclock : impl.blockContinuous segment.next frame.pts = true := decide_eq_true hnear
        refine .inr ⟨?_, hframe, frame, hsome, hpos, hbase, hstream, hgeneration, hnear⟩
        rw [← Except.ok.inj hends, hclock, hsame]
        simp
      · refine .inl ⟨?_, hcontinues⟩
        have hor : ¬(|frame.pts - segment.next| ≤ impl.ptsPrecision) ∨ segment.first.generation ≠ impl.generation := by
          by_contra hnone
          rw [not_or, not_not, not_not] at hnone
          exact hcontinues ⟨hstream, hnone.2.symm, hnone.1⟩
        rw [← Except.ok.inj hends, blockContinuous, Bool.or_eq_true, Bool.not_eq_true', decide_eq_false_iff_not,
          decide_eq_true_iff]
        exact hor
    · rw [if_pos (.inr hstream)] at hends
      exact .inl ⟨(Except.ok.inj hends).symm, fun hcontinues => hstream hcontinues.1⟩

/-- A converted item goes where it belongs: to the reader, into a new or into the old adapter, or it waits for the end
of the block. -/
theorem Held.placed {input : AvDecoderReadResult} (h : Held impl size input items returned) (hsize : 0 < size)
    (hrate : 0 < impl.rate) (hsamples : impl.outputSamplesPerFrame = size) {result : Option AvDecoderReadResult}
    (hstatus : input.status ≠ .null) (hplace : impl.placeConverted input = .ok (result, impl')) :
    (result = none ∧ Stage impl' size items returned ∧ impl'.room size < impl.room size) ∨
      (result = some input ∧ input.status = .eof ∧ Stage impl' size items (returned ++ [outputOf input])) := by
  unfold placeConverted at hplace
  rw [if_neg hstatus] at hplace
  obtain ⟨ends, hends, hplace⟩ := bind_ok hplace
  cases h with
  | @fresh parts hidle hpending hconverts hparts hreturned =>
    rw [hidle.adapter] at hplace
    dsimp only at hplace
    rcases hconverts with heof | ⟨hframe, frame, hsome, hpos, hbase⟩
    · rw [if_pos heof] at hplace
      obtain ⟨rfl, rfl⟩ := Prod.mk.inj (Except.ok.inj hplace)
      rw [itemOf_eof heof] at hparts
      refine .inr ⟨rfl, heof, .idle hidle hpending hparts (fun segment hcontra => ?_) ?_⟩
      · rw [List.getLast?_concat] at hcontra
        cases hcontra
      · rw [hreturned, outputOf_eof heof, List.flatMap_append]
        rfl
    · rw [if_neg (by rw [hframe]; decide), hsome] at hplace
      obtain ⟨graph, hcreate, hplace⟩ := bind_ok hplace
      obtain ⟨submitted, hsubmit, hplace⟩ := bind_ok hplace
      obtain ⟨rfl, rfl⟩ := Prod.mk.inj (Except.ok.inj hplace)
      unfold withAdapter at hcreate
      rw [hidle.adapter] at hcreate
      obtain ⟨hstock, hsized, hopen⟩ := FifoReblocker.graphCreate_ok _ _ _ _ _ hcreate
      obtain ⟨graph', written, hwrite, hpts, hcontent, rfl⟩ := submitBlock_ok hrate hbase hsubmit
      rw [hidle.blockNextPts] at hpts
      obtain ⟨hholds, hclosed⟩ := holds_first (impl.chunkOf input.streamIndex frame) hstock (hsized.trans hsamples)
        hopen hwrite hpts hcontent
      rw [itemOf_frame hframe hsome] at hparts
      have hnext : impl.blockNextPts.getD frame.pts + frame.nbSamples =
          Segment.next { first := impl.chunkOf input.streamIndex frame } := by
        rw [hidle.blockNextPts, ← length_samplesOf hpos]
        show _ = _ + (((samplesOf frame ++ []).length : ℕ) : ℤ)
        rw [List.append_nil]
        rfl
      rw [hnext]
      have hopen' : Open { impl with
          adapter := some graph'
          blockGeneration := impl.generation
          blockNextPts := some (Segment.next { first := impl.chunkOf input.streamIndex frame })
          blockMetadata := { input with frame := none } } graph'
            { first := impl.chunkOf input.streamIndex frame } size 0 :=
        ⟨⟨rfl, hholds, ⟨hsamples, hframe, rfl⟩⟩, (Nat.zero_mul size).symm ▸ Nat.zero_le _, hpending, rfl,
          hidle.blockEnding, rfl, hclosed⟩
      refine .inl ⟨rfl, .filling hopen' hparts (by rw [hreturned]; exact (List.append_nil _).symm), ?_⟩
      have hlength : Segment.samples { first := impl.chunkOf input.streamIndex frame } = samplesOf frame :=
        List.append_nil _
      have hsome' := length_samplesOf hpos
      rw [hopen'.room, room_none hidle.adapter, hlength]
      split_ifs <;> omega
  | @filling before parts segment graph k hopen hshort hconverts hparts hitems hreturned =>
    rw [hopen.adapter] at hplace
    rcases hopen.ends hconverts hends with ⟨rfl, hboundary⟩ | ⟨rfl, hframe, frame, hsome, hpos, hbase, hcontinues⟩
    · -- The segment ends; the item waits until its last block has been read.
      obtain ⟨ended, hend, hplace⟩ := bind_ok hplace
      obtain ⟨rfl, rfl⟩ := Prod.mk.inj (Except.ok.inj hplace)
      unfold endBlock at hend
      obtain ⟨graph', hclose, hend⟩ := bind_ok hend
      obtain rfl := Except.ok.inj hend
      obtain ⟨hstock, hclock, hsized, hclosed⟩ := FifoReblocker.close_ok _ _ hclose
      have hholds : Holds graph' segment size k :=
        ⟨hsized.trans hopen.holds.sized, hstock.trans hopen.holds.kept,
          by rw [hstock, hclock]; exact hopen.holds.clocked⟩
      have htotal : k ≤ Blocks.total size segment.samples := by
        refine Nat.le_of_not_lt fun hlt => ?_
        have hle := mt (Blocks.total_lt_iff hsize).mpr (Nat.lt_irrefl (Blocks.total size segment.samples))
        have hmul : (Blocks.total size segment.samples + 1) * size ≤ k * size := Nat.mul_le_mul_right _ hlt
        rw [Nat.succ_mul] at hmul
        have hbound := hopen.bound
        omega
      have hending : Ending { impl with adapter := some graph', blockPending := some input, blockEnding := true } graph'
          segment size k input :=
        ⟨⟨rfl, hholds, hopen.labelled.same rfl rfl⟩, htotal, rfl, rfl, hclosed, hconverts⟩
      have hlast : Partition items (parts ++ [.segment segment] ++ [.begun (impl.itemOf input)]) := by
        rw [hitems]
        refine hparts.begin fun last hlast => ?_
        rw [List.getLast?_concat] at hlast
        obtain rfl := Option.some.inj hlast
        exact hboundary
      refine .inl ⟨rfl, .ending hending hlast hreturned, ?_⟩
      rw [hending.room, hopen.room]
      split_ifs <;> omega
    · -- The chunk goes on the clock of the segment.
      dsimp only at hplace
      rw [if_neg (by rw [hframe]; decide), hsome] at hplace
      obtain ⟨graph', hadapter, hplace⟩ := bind_ok hplace
      obtain ⟨submitted, hsubmit, hplace⟩ := bind_ok hplace
      obtain ⟨rfl, rfl⟩ := Prod.mk.inj (Except.ok.inj hplace)
      unfold withAdapter at hadapter
      rw [hopen.adapter] at hadapter
      obtain rfl := Except.ok.inj hadapter
      obtain ⟨graph', written, hwrite, hpts, hcontent, rfl⟩ := submitBlock_ok hrate hbase hsubmit
      rw [hopen.blockNextPts] at hpts
      obtain ⟨hholds, hclosed⟩ := hopen.holds.written hopen.bound hopen.closed (impl.chunkOf input.streamIndex frame)
        hwrite hpts hcontent
      have hnext : impl.blockNextPts.getD frame.pts + frame.nbSamples =
          (segment.add (impl.chunkOf input.streamIndex frame)).next := by
        rw [hopen.blockNextPts, Segment.next_add, ← length_samplesOf hpos]
        rfl
      have hlength : (segment.add (impl.chunkOf input.streamIndex frame)).samples.length =
          segment.samples.length + (samplesOf frame).length := by
        rw [Segment.samples_add, List.length_append]
        rfl
      have hbound : k * size ≤ (segment.add (impl.chunkOf input.streamIndex frame)).samples.length := by
        rw [hlength]
        exact hopen.bound.trans (Nat.le_add_right _ _)
      rw [hnext]
      have hopen' : Open { impl with
          adapter := some graph'
          blockGeneration := impl.generation
          blockNextPts := some (segment.add (impl.chunkOf input.streamIndex frame)).next
          blockMetadata := { input with frame := none } } graph'
            (segment.add (impl.chunkOf input.streamIndex frame)) size k :=
        ⟨⟨rfl, hholds, ⟨hsamples, hframe, hcontinues.1⟩⟩, hbound, hopen.blockPending, rfl, hopen.blockEnding,
          hcontinues.2.1, hclosed⟩
      have hadded : Partition items (parts ++ [.segment (segment.add (impl.chunkOf input.streamIndex frame))]) := by
        rw [hitems, itemOf_frame hframe hsome]
        exact hparts.add hcontinues
      refine .inl ⟨rfl, .filling hopen' hadded (by rw [hreturned, Segment.blocks_add _ _ hopen.bound]), ?_⟩
      have hsome' := length_samplesOf hpos
      rw [hopen'.room, hopen.room, hlength]
      have hkept := hopen.bound
      split_ifs <;> omega

/-! ### A read -/

/-- What no part of a read changes. -/
structure Kept (impl impl' : AudioResampler) : Prop where
  target : impl'.target = impl.target
  outputSamplesPerFrame : impl'.outputSamplesPerFrame = impl.outputSamplesPerFrame
  turns : impl'.turns = impl.turns
  stopped : impl'.stopped = impl.stopped
  failure : impl'.failure = impl.failure

omit [Libav] [FifoReblocker] in
theorem Kept.rate (h : Kept impl impl') : impl'.rate = impl.rate := congrArg Target.rate h.target

omit [Libav] [FifoReblocker] in
theorem Kept.trans {impl'' : AudioResampler} (h : Kept impl impl') (h' : Kept impl' impl'') : Kept impl impl'' :=
  ⟨h'.target.trans h.target, h'.outputSamplesPerFrame.trans h.outputSamplesPerFrame, h'.turns.trans h.turns,
    h'.stopped.trans h.stopped, h'.failure.trans h.failure⟩

omit [Libav] [FifoReblocker] in
theorem SameBlocks.kept (h : SameBlocks impl impl') : Kept impl impl' :=
  ⟨h.target, h.outputSamplesPerFrame, h.turns, h.stopped, h.failure⟩

omit [Libav] [FifoReblocker] in
theorem receiveBlock_kept {result : Option AvDecoderReadResult} (h : impl.receiveBlock = .ok (result, impl')) :
    Kept impl impl' := by
  unfold receiveBlock at h
  split at h
  · obtain ⟨-, rfl⟩ := Prod.mk.inj (Except.ok.inj h)
    exact ⟨rfl, rfl, rfl, rfl, rfl⟩
  · obtain ⟨⟨frame, graph⟩, -, h⟩ := bind_ok h
    cases frame with
    | some frame =>
      obtain ⟨-, rfl⟩ := Prod.mk.inj (Except.ok.inj h)
      exact ⟨rfl, rfl, rfl, rfl, rfl⟩
    | none =>
      dsimp only at h
      split at h <;>
        · obtain ⟨-, rfl⟩ := Prod.mk.inj (Except.ok.inj h)
          exact ⟨rfl, rfl, rfl, rfl, rfl⟩

omit [FifoReblocker] in
theorem takeConverted_kept {input : AvDecoderReadResult} (h : impl.takeConverted = .ok (input, impl')) :
    Kept impl impl' := by
  unfold takeConverted at h
  split at h
  · obtain ⟨-, rfl⟩ := Prod.mk.inj (Except.ok.inj h)
    exact ⟨rfl, rfl, rfl, rfl, rfl⟩
  · exact (readConverted_same h).1.kept

omit [FifoReblocker] in
theorem placeConverted_kept {input : AvDecoderReadResult} {result : Option AvDecoderReadResult}
    (h : impl.placeConverted input = .ok (result, impl')) : Kept impl impl' ∧ impl'.converter = impl.converter := by
  unfold placeConverted at h
  split at h
  · obtain ⟨-, rfl⟩ := Prod.mk.inj (Except.ok.inj h)
    exact ⟨⟨rfl, rfl, rfl, rfl, rfl⟩, rfl⟩
  · obtain ⟨ends, -, h⟩ := bind_ok h
    split at h
    · obtain ⟨ended, hend, h⟩ := bind_ok h
      obtain ⟨-, rfl⟩ := Prod.mk.inj (Except.ok.inj h)
      unfold endBlock at hend
      obtain ⟨graph, -, hend⟩ := bind_ok hend
      obtain rfl := Except.ok.inj hend
      exact ⟨⟨rfl, rfl, rfl, rfl, rfl⟩, rfl⟩
    · split at h
      · obtain ⟨-, rfl⟩ := Prod.mk.inj (Except.ok.inj h)
        exact ⟨⟨rfl, rfl, rfl, rfl, rfl⟩, rfl⟩
      · split at h
        · cases h
        · obtain ⟨graph, -, h⟩ := bind_ok h
          obtain ⟨submitted, hsubmit, h⟩ := bind_ok h
          obtain ⟨-, rfl⟩ := Prod.mk.inj (Except.ok.inj h)
          unfold submitBlock at hsubmit
          obtain ⟨_, -, hsubmit⟩ := bind_ok hsubmit
          obtain ⟨_, -, hsubmit⟩ := bind_ok hsubmit
          obtain rfl := Except.ok.inj hsubmit
          exact ⟨⟨rfl, rfl, rfl, rfl, rfl⟩, rfl⟩

/-- The conversion gives these items. -/
def Consumes (impl impl' : AudioResampler) (new : List Item) : Prop :=
  (conversion impl.target).Run impl.converter new impl'.converter

theorem Consumes.nil (h : impl'.converter = impl.converter) : Consumes impl impl' [] := by
  rw [Consumes, h]
  exact .refl _

theorem Consumes.trans {impl'' : AudioResampler} {new new' : List Item} (h : Consumes impl impl' new)
    (htarget : impl'.target = impl.target) (h' : Consumes impl' impl'' new') : Consumes impl impl'' (new ++ new') := by
  rw [Consumes, htarget] at h'
  exact Transition.Run.trans h h'

omit [Libav] [FifoReblocker] in
theorem receiveBlock_converter {result : Option AvDecoderReadResult} (h : impl.receiveBlock = .ok (result, impl')) :
    impl'.converter = impl.converter := by
  unfold receiveBlock at h
  split at h
  · obtain ⟨-, rfl⟩ := Prod.mk.inj (Except.ok.inj h)
    rfl
  · obtain ⟨⟨frame, graph⟩, -, h⟩ := bind_ok h
    cases frame with
    | some frame =>
      obtain ⟨-, rfl⟩ := Prod.mk.inj (Except.ok.inj h)
      rfl
    | none =>
      dsimp only at h
      split at h <;>
        · obtain ⟨-, rfl⟩ := Prod.mk.inj (Except.ok.inj h)
          rfl

theorem takeConverted_consumes {input : AvDecoderReadResult} (h : impl.takeConverted = .ok (input, impl')) :
    Consumes impl impl' (if impl.blockPending.isSome ∨ input.status = .null then [] else [impl'.itemOf input]) := by
  unfold takeConverted at h
  split at h
  · rename_i hpending
    obtain ⟨-, rfl⟩ := Prod.mk.inj (Except.ok.inj h)
    rw [if_pos (.inl (by rw [hpending]; rfl))]
    exact .nil rfl
  · rename_i hpending
    have hitems : (if impl.blockPending.isSome ∨ input.status = .null then [] else [impl'.itemOf input]) =
        impl'.given input := by
      rw [given, hpending]
      exact if_congr (by simp) rfl rfl
    rw [hitems]
    exact (readConverted_run h).1

omit [FifoReblocker] in
theorem takeConverted_null {input : AvDecoderReadResult} (hpending : impl.blockPending = none)
    (h : impl.takeConverted = .ok (input, impl')) (hnull : input.status = .null) : impl'.inputs = [] := by
  unfold takeConverted at h
  rw [hpending] at h
  exact (readConverted_same h).2 hnull

theorem takeConverted_room {input : AvDecoderReadResult} (h : impl.takeConverted = .ok (input, impl')) :
    impl'.room size = impl.room size := by
  unfold takeConverted at h
  split at h
  · obtain ⟨-, rfl⟩ := Prod.mk.inj (Except.ok.inj h)
    rfl
  · have hsame := (readConverted_same h).1
    rw [room, room, hsame.adapter, hsame.blockEnding]

/-- What a read leaves: the items it pulled are placed, and what it returns is the next output. -/
structure Serves (size : ℕ) (items : List Item) (returned : List Output) (impl impl' : AudioResampler) (new : List Item)
    (item : AvDecoderReadResult) : Prop where
  kept : Kept impl impl'
  consumes : Consumes impl impl' new
  stage : Stage impl' size (items ++ new) (returned ++ if item.status = .null then [] else [outputOf item])
  sized : item.status = .frame → ∃ frame, item.frame = some frame ∧ frame.nbSamples = size
  delivered : item.status = .null → impl'.inputs = [] ∧ ∃ parts, Partition (items ++ new) parts ∧
    returned = outputs size parts

theorem readFixed_serves {turns : ℕ} {item : AvDecoderReadResult} (h : Stage impl size items returned)
    (hsize : 0 < size) (hrate : 0 < impl.rate) (hsamples : impl.outputSamplesPerFrame = size)
    (hread : readFixed turns impl = some (.ok (item, impl'))) :
    Serves size items returned impl impl' (pulled turns impl) item := by
  induction turns generalizing impl items with
  | zero => cases hread
  | succ turns ih =>
    unfold readFixed at hread
    rw [pulled]
    cases hreceive : impl.receiveBlock with
    | error e =>
      rw [hreceive] at hread
      cases hread
    | ok received =>
      obtain ⟨block, received⟩ := received
      rw [hreceive] at hread
      have hkept := receiveBlock_kept hreceive
      have hreceived := receiveBlock_converter hreceive
      cases block with
      | some block =>
        obtain ⟨rfl, rfl⟩ := by simpa using hread
        obtain ⟨hstage, hframe, hsized⟩ := h.receive hsize hreceive
        refine ⟨hkept, .nil hreceived, ?_, fun _ => hsized, fun hnull => ?_⟩
        · rw [hframe, if_neg (by decide)]
          dsimp only
          rw [List.append_nil]
          exact hstage
        · rw [hframe] at hnull
          cases hnull
      | none =>
        dsimp only at hread ⊢
        obtain ⟨hrested, -⟩ := h.rested hsize hreceive
        cases htake : received.takeConverted with
        | error e =>
          rw [htake] at hread
          cases hread
        | ok taken =>
          obtain ⟨input, taken⟩ := taken
          rw [htake] at hread
          dsimp only at hread ⊢
          have hkept' := hkept.trans (takeConverted_kept htake)
          have hconsumes := Consumes.trans (.nil hreceived) hkept.target (takeConverted_consumes htake)
          rw [List.nil_append] at hconsumes
          cases hplace : taken.placeConverted input with
          | error e =>
            rw [hplace] at hread
            cases hread
          | ok placed =>
            obtain ⟨result, placed⟩ := placed
            rw [hplace] at hread
            obtain ⟨hplaced, hsame⟩ := placeConverted_kept hplace
            rcases hrested.take htake with ⟨hnull, hpending, hstage⟩ | ⟨hstatus, hheld⟩
            · -- The queue is empty.
              have hnone : taken.placeConverted input = .ok (some {}, taken) := if_pos hnull
              obtain ⟨rfl, rfl⟩ := Prod.mk.inj (Except.ok.inj (hplace.symm.trans hnone))
              obtain ⟨rfl, rfl⟩ := by simpa using hread
              rw [if_pos (.inr hnull)] at hconsumes ⊢
              refine ⟨hkept', hconsumes, ?_, fun hframe => (by cases hframe), fun _ => ⟨?_, ?_⟩⟩
              · rw [if_pos rfl, List.append_nil, List.append_nil]
                exact hstage
              · exact takeConverted_null hpending htake hnull
              · rw [List.append_nil]
                exact hrested.delivered hsize hpending
            · have hrate' : 0 < taken.rate := hkept'.rate ▸ hrate
              have hsamples' : taken.outputSamplesPerFrame = size := hkept'.outputSamplesPerFrame.trans hsamples
              rcases hheld.placed hsize hrate' hsamples' hstatus hplace with ⟨rfl, hstage, -⟩ | ⟨rfl, heof, hstage⟩
              · -- Another turn.
                have hrate'' : placed.rate = impl.rate := hplaced.rate.trans hkept'.rate
                have hrest := ih hstage (hrate''.symm ▸ hrate)
                  (hplaced.outputSamplesPerFrame.trans hsamples') hread
                refine ⟨(hkept'.trans hplaced).trans hrest.kept, ?_, ?_, hrest.sized, fun hnull => ?_⟩
                · rw [Consumes, ← hsame] at hconsumes
                  exact Consumes.trans hconsumes (hkept'.trans hplaced).target hrest.consumes
                · rw [← List.append_assoc]
                  exact hrest.stage
                · rw [← List.append_assoc]
                  exact hrest.delivered hnull
              · -- An end of file between two segments.
                obtain ⟨rfl, rfl⟩ := by simpa using hread
                refine ⟨hkept'.trans hplaced, ?_, ?_, fun hframe => ?_, fun hnull => absurd hnull hstatus⟩
                · rw [Consumes, ← hsame] at hconsumes
                  exact hconsumes
                · rw [if_neg hstatus]
                  exact hstage
                · rw [heof] at hframe
                  cases hframe

/-- A read has turns enough. -/
theorem readFixed_returns {turns : ℕ} (h : Stage impl size items returned) (hsize : 0 < size) (hrate : 0 < impl.rate)
    (hsamples : impl.outputSamplesPerFrame = size) (hturns : impl.room size ≤ turns) : readFixed turns impl ≠ none := by
  induction turns generalizing impl items with
  | zero => exact absurd h.room_pos.1 (Nat.not_lt.mpr hturns)
  | succ turns ih =>
    unfold readFixed
    cases hreceive : impl.receiveBlock with
    | error e => simp
    | ok received =>
      obtain ⟨block, received⟩ := received
      cases block with
      | some block => simp
      | none =>
        dsimp only
        obtain ⟨hrested, hroom⟩ := h.rested hsize hreceive
        have hkept := receiveBlock_kept hreceive
        cases htake : received.takeConverted with
        | error e => simp
        | ok taken =>
          obtain ⟨input, taken⟩ := taken
          dsimp only
          have hkept' := hkept.trans (takeConverted_kept htake)
          have hroom' : taken.room size = received.room size := takeConverted_room htake
          cases hplace : taken.placeConverted input with
          | error e => simp
          | ok placed =>
            obtain ⟨result, placed⟩ := placed
            obtain ⟨hplaced, -⟩ := placeConverted_kept hplace
            have hrate' : 0 < taken.rate := hkept'.rate ▸ hrate
            have hsamples' : taken.outputSamplesPerFrame = size := hkept'.outputSamplesPerFrame.trans hsamples
            rcases hrested.take htake with ⟨hnull, -, -⟩ | ⟨hstatus, hheld⟩
            · have hnone : taken.placeConverted input = .ok (some {}, taken) := if_pos hnull
              obtain ⟨rfl, rfl⟩ := Prod.mk.inj (Except.ok.inj (hplace.symm.trans hnone))
              simp
            · rcases hheld.placed hsize hrate' hsamples' hstatus hplace with ⟨rfl, hstage, hless⟩ | ⟨rfl, -, -⟩
              · exact ih hstage (hplaced.rate.symm ▸ hrate') (hplaced.outputSamplesPerFrame.trans hsamples') (by omega)
              · simp

/-! ### Runs -/

def converted (history : List Event) : List Item := history.filterMap Event.converted?

def returnedBy (history : List Event) : List AvDecoderReadResult := history.filterMap Event.returned?

structure Accounted (start : AudioResampler) (size : ℕ) (history : List Event) (impl : AudioResampler) : Prop where
  samples : impl.outputSamplesPerFrame = size
  target : impl.target = start.target
  turns : impl.turns = start.turns
  going : impl.stopped = false
  stage : Stage impl size (converted history) ((returnedBy history).map outputOf)
  consumed : (conversion start.target).Run
    { inputs := history.filterMap Event.pushed? } (converted history) impl.converter
  sized : ∀ result ∈ returnedBy history, result.status = .frame → ∃ frame, result.frame = some frame ∧
    frame.nbSamples = size
  drained : history.getLast? = some .null → impl.inputs = [] ∧
    ∃ parts, Partition (converted history) parts ∧ (returnedBy history).map outputOf = outputs size parts

omit [Libav] in
/-- The queue and the failure are no part of a stage. -/
theorem Stage.other (h : Stage impl size items returned) (inputs : List AvDecoderReadResult)
    (failure : Option Exception) : Stage { impl with inputs := inputs, failure := failure } size items returned := by
  cases h with
  | idle hidle hpending hparts hlast hreturned =>
    exact .idle ⟨hidle.adapter, hidle.blockNextPts, hidle.blockEnding⟩ hpending hparts hlast hreturned
  | filling hopen hparts hreturned =>
    exact .filling ⟨⟨hopen.adapter, hopen.holds, hopen.labelled.same rfl rfl⟩, hopen.bound, hopen.blockPending,
      hopen.blockNextPts, hopen.blockEnding, hopen.blockGeneration, hopen.closed⟩ hparts hreturned
  | ending hending hparts hreturned =>
    exact .ending ⟨⟨hending.adapter, hending.holds, hending.labelled.same rfl rfl⟩, hending.bound, hending.blockPending,
      hending.blockEnding, hending.closed, hending.converts⟩ hparts hreturned

variable {history events : List Event} {start : AudioResampler}

theorem Accounted.rate (h : Accounted start size history impl) : impl.rate = start.rate :=
  congrArg Target.rate h.target

theorem Accounted.push (h : Accounted start size history impl) (input : AvDecoderReadResult) :
    Accounted start size (history ++ [.pushed input]) { impl with inputs := impl.inputs ++ [input] } := by
  have hconverted : converted (history ++ [.pushed input]) = converted history := by
    rw [converted, List.filterMap_append]
    exact List.append_nil _
  have hreturned : returnedBy (history ++ [.pushed input]) = returnedBy history := by
    rw [returnedBy, List.filterMap_append]
    exact List.append_nil _
  refine ⟨h.samples, h.target, h.turns, h.going, ?_, ?_, ?_, fun hlast => ?_⟩
  · rw [hconverted, hreturned]
    exact h.stage.other _ impl.failure
  · rw [List.filterMap_append, hconverted]
    exact conversion_push h.consumed [input]
  · rw [hreturned]
    exact h.sized
  · rw [List.getLast?_concat] at hlast
    cases hlast

theorem Accounted.fail (h : Accounted start size history impl) (failure : Option Exception) :
    Accounted start size history { impl with failure := failure } :=
  ⟨h.samples, h.target, h.turns, h.going, h.stage.other impl.inputs failure, h.consumed, h.sized, h.drained⟩

theorem Accounted.read (h : Accounted start size history impl) (hsize : 0 < size) (hrate : 0 < start.rate)
    {item : AvDecoderReadResult} (hread : impl.tryReadFrame = some (.ok item, impl')) :
    Accounted start size (history ++ impl.emitted item) impl' := by
  have hserves : Serves size (converted history) ((returnedBy history).map outputOf) impl impl'
      (pulled impl.turns impl) item := by
    rcases tryReadFrame_ok hread with ⟨hstopped, -, -⟩ | ⟨-, hfixed⟩ | ⟨hmode, -⟩
    · exact absurd (h.going.symm.trans hstopped) (by decide)
    · exact readFixed_serves h.stage hsize (h.rate.symm ▸ hrate) h.samples hfixed
    · rw [h.samples] at hmode
      exact absurd (by exact_mod_cast hsize) hmode
  have hconverted : converted (history ++ impl.emitted item) = converted history ++ pulled impl.turns impl := by
    have hmap : ((pulled impl.turns impl).map Event.converted).filterMap Event.converted? = pulled impl.turns impl := by
      rw [List.filterMap_map]
      exact List.filterMap_some
    have hlast : [if item.status = .null then Event.null else .returned item].filterMap Event.converted? = [] := by
      split <;> rfl
    rw [converted, emitted, List.filterMap_append, List.filterMap_append, hmap, hlast, List.append_nil]
    rfl
  have hreturned : returnedBy (history ++ impl.emitted item) =
      returnedBy history ++ if item.status = .null then [] else [item] := by
    have hmap : ((pulled impl.turns impl).map Event.converted).filterMap Event.returned? = [] := by
      rw [List.filterMap_map]
      exact List.filterMap_eq_nil_iff.mpr fun _ _ => rfl
    have hlast : [if item.status = .null then Event.null else .returned item].filterMap Event.returned? =
        if item.status = .null then [] else [item] := by
      split <;> rfl
    rw [returnedBy, emitted, List.filterMap_append, List.filterMap_append, hmap, hlast, List.nil_append]
    rfl
  have hpushed : (history ++ impl.emitted item).filterMap Event.pushed? = history.filterMap Event.pushed? := by
    have hmap : ((pulled impl.turns impl).map Event.converted).filterMap Event.pushed? = [] := by
      rw [List.filterMap_map]
      exact List.filterMap_eq_nil_iff.mpr fun _ _ => rfl
    have hlast : [if item.status = .null then Event.null else .returned item].filterMap Event.pushed? = [] := by
      split <;> rfl
    rw [emitted, List.filterMap_append, List.filterMap_append, hmap, hlast, List.append_nil, List.append_nil]
  have houtputs : ((returnedBy history ++ if item.status = .null then [] else [item]).map outputOf) =
      (returnedBy history).map outputOf ++ if item.status = .null then [] else [outputOf item] := by
    rw [List.map_append]
    split <;> rfl
  refine ⟨hserves.kept.outputSamplesPerFrame.trans h.samples, hserves.kept.target.trans h.target,
    hserves.kept.turns.trans h.turns, hserves.kept.stopped.trans h.going, ?_, ?_, ?_, fun hlast => ?_⟩
  · rw [hconverted, hreturned, houtputs]
    exact hserves.stage
  · have hnew := hserves.consumes
    rw [Consumes, h.target] at hnew
    rw [hconverted, hpushed]
    exact h.consumed.trans hnew
  · intro result hresult
    rw [hreturned] at hresult
    rcases List.mem_append.mp hresult with hold | hnew
    · exact h.sized result hold
    · split at hnew
      · cases hnew
      · rw [List.mem_singleton.mp hnew]
        exact hserves.sized
  · have hnull : item.status = .null := by
      rw [emitted, ← List.append_assoc, List.getLast?_concat] at hlast
      split at hlast
      · assumption
      · cases hlast
    obtain ⟨hinputs, hparts⟩ := hserves.delivered hnull
    rw [hconverted, hreturned, if_pos hnull, List.append_nil]
    exact ⟨hinputs, hparts⟩

omit [FifoReblocker] in
theorem tryReadFrame_error {e : Exception} (h : impl.tryReadFrame = some (.error e, impl')) :
    ∃ failure, impl' = { impl with failure := failure } := by
  unfold tryReadFrame at h
  split at h
  · rename_i failure hfailure
    obtain ⟨-, rfl⟩ := Prod.mk.inj (Option.some.inj h)
    exact ⟨impl.failure, rfl⟩
  · split at h
    · cases Prod.mk.inj (Option.some.inj h) |>.1
    · obtain ⟨read, -, hresult⟩ := Option.map_eq_some_iff.mp h
      cases read with
      | error e' =>
        obtain ⟨-, rfl⟩ := Prod.mk.inj hresult
        exact ⟨_, rfl⟩
      | ok read => cases (Prod.mk.inj hresult).1

theorem Accounted.step (h : Accounted start size history impl) (hsize : 0 < size) (hrate : 0 < start.rate)
    (hstep : calls.step impl events impl') :
    Accounted start size (history ++ events) impl' := by
  obtain ⟨act, hact⟩ := hstep
  cases act with
  | push input =>
    rw [perform] at hact
    split at hact
    · rename_i pushed hpush
      obtain ⟨rfl, rfl⟩ := Prod.mk.inj (Option.some.inj hact)
      rcases tryPushFrame_ok hpush with ⟨hcontra, -⟩ | ⟨-, rfl⟩
      · cases hcontra
      · exact h.push input
    · obtain ⟨rfl, rfl⟩ := Prod.mk.inj (Option.some.inj hact)
      rw [List.append_nil]
      exact h
  | read =>
    rw [perform] at hact
    split at hact
    · cases hact
    · rename_i e failed hread
      obtain ⟨rfl, rfl⟩ := Prod.mk.inj (Option.some.inj hact)
      obtain ⟨failure, rfl⟩ := tryReadFrame_error hread
      rw [List.append_nil]
      exact h.fail failure
    · rename_i result read hread
      obtain ⟨rfl, rfl⟩ := Prod.mk.inj (Option.some.inj hact)
      exact h.read hsize hrate hread

theorem create_accounted {config : AudioResamplerConfig} {turns size : ℕ} (hcreate : create config turns = .ok start)
    (hsamples : config.outputSamplesPerFrame = size) :
    Accounted start size [] start ∧ 0 < start.rate ∧
      start.target = ⟨config.sampleRate, config.sampleFormat, config.channelLayout⟩ ∧ start.turns = turns := by
  unfold create at hcreate
  split at hcreate
  · cases hcreate
  · rename_i hvalid
    obtain rfl := Except.ok.inj hcreate
    rw [not_or] at hvalid
    refine ⟨⟨hsamples, rfl, rfl, rfl, ?_, .refl _, fun _ hresult => ?_, fun hlast => ?_⟩, Int.not_le.mp hvalid.1,
      rfl, rfl⟩
    · refine .idle ⟨rfl, rfl, rfl⟩ rfl .nil (fun _ hcontra => ?_) rfl
      cases hcontra
    · cases hresult
    · cases hlast

omit [Libav] in
/-- What a read returns next is known from what was converted. -/
theorem Stage.backlog (h : Stage impl size items returned) (hsize : 0 < size) :
    ∃ parts backlog, Partition items parts ∧ returned ++ backlog = outputs size parts := by
  cases h with
  | @idle parts hidle hpending hparts hlast hreturned =>
    refine ⟨parts, [], hparts, ?_⟩
    rw [List.append_nil, hreturned, outputs_closed hlast]
  | @filling parts segment graph k hopen hparts hreturned =>
    obtain ⟨rest, hrest⟩ := segment.blocks_prefix size ((Nat.le_div_iff_mul_le hsize).mpr hopen.bound)
    refine ⟨_, rest, hparts, ?_⟩
    rw [outputs_append, hreturned, List.append_assoc, ← hrest]
    rfl
  | @ending parts segment graph k input hending hparts hreturned =>
    obtain ⟨rest, hrest⟩ := segment.blocks_prefix size hending.bound
    refine ⟨_, rest ++ outputs size [.begun (impl.itemOf input)], hparts, ?_⟩
    rw [outputs_append, hreturned, List.flatMap_append, List.append_assoc, List.append_assoc,
      ← List.append_assoc _ rest, ← hrest, List.flatMap_cons, List.flatMap_nil, List.append_nil]
    rfl

/-- **Fixed-size audio blocks partition the converted stream.** -/
theorem fixed_blocks {config : AudioResamplerConfig} {turns size : ℕ} {s : AudioResampler}
    (hsize : 0 < size) (hsamples : config.outputSamplesPerFrame = size) (hcreate : create config turns = .ok start)
    (hrun : calls.Run start history s) :
    (∀ result ∈ returnedBy history, result.status = .frame →
      ∃ frame, result.frame = some frame ∧ frame.nbSamples = size) ∧
    (conversion ⟨config.sampleRate, config.sampleFormat, config.channelLayout⟩).Run
      { inputs := history.filterMap Event.pushed? } (converted history) s.converter ∧
    (∃ parts backlog, Partition (converted history) parts ∧
      (returnedBy history).map outputOf ++ backlog = outputs size parts) ∧
    (history.getLast? = some .null → s.inputs = [] ∧
      ∃ parts, Partition (converted history) parts ∧ (returnedBy history).map outputOf = outputs size parts) ∧
    (∀ segment : Segment, ∃ rest < size,
      ((List.range (Blocks.total size segment.samples)).map (Blocks.block size silence segment.samples)).flatten =
        segment.samples ++ List.replicate rest silence) ∧
    (size + 2 ≤ turns → s.tryReadFrame ≠ none) := by
  obtain ⟨hstart, hrate, hbase, hturns⟩ := create_accounted hcreate hsamples
  have hinit : calls.init start := ⟨config, turns, by rw [hsamples]; exact_mod_cast hsize, hcreate⟩
  have h : Accounted start size history s :=
    hrun.induct (.init hinit) hstart fun _ _ _ _ _ haccounted hstep => haccounted.step hsize hrate hstep
  refine ⟨h.sized, ?_, h.stage.backlog hsize, h.drained, fun segment => Blocks.flatten_total hsize, fun hmany => ?_⟩
  · rw [← hbase]
    exact h.consumed
  · have hpositive : 0 < s.outputSamplesPerFrame := by
      rw [h.samples]
      exact_mod_cast hsize
    have hreturns := readFixed_returns h.stage hsize (h.rate.symm ▸ hrate) h.samples
      (h.stage.room_pos.2.trans (by rw [h.turns, hturns]; exact hmany) : s.room size ≤ s.turns)
    unfold tryReadFrame
    split
    · simp
    · rw [h.going, if_neg (by decide)]
      dsimp only
      rw [if_pos hpositive]
      cases hread : readFixed s.turns s with
      | none => exact absurd hread hreturns
      | some read => simp

end AudioResampler

namespace AudioResampler

/-! ### Storages with samples -/

/-- The samples of a storage, as a list of numbers under its name. -/
def sampleOf (media : Option Media) (i : ℕ) : ℕ :=
  match media with
  | some (.stored id) => (Denumerable.ofNat (List ℕ) id).getD i 0
  | _ => 0

def storageOf (samples : List ℕ) : Option Media := some (.stored (Encodable.encode samples))

theorem sampleOf_storageOf (samples : List ℕ) (i : ℕ) : sampleOf (storageOf samples) i = samples.getD i 0 := by
  show (Denumerable.ofNat (List ℕ) (Encodable.encode samples)).getD i 0 = _
  rw [Denumerable.ofNat_encode]

theorem map_sampleOf_storageOf {samples : List ℕ} {n : ℕ} (h : samples.length = n) :
    (List.range n).map (sampleOf (storageOf samples)) = samples := by
  subst h
  refine List.ext_getElem (by rw [List.length_map, List.length_range]) fun i hi hi' => ?_
  rw [List.getElem_map, List.getElem_range, sampleOf_storageOf, List.getD_eq_getElem _ _ hi']

/-- A graph that keeps samples from a time stamp on. -/
structure SampleGraph where
  size : ℤ
  stock : List ℕ := []
  clock : ℤ := 0
  closed : Bool := false

/-- The next block, or the tail of an ended graph. -/
def SampleGraph.get (graph : SampleGraph) : Except Exception (Option Frame × SampleGraph) :=
  if graph.stock ≠ [] ∧ (graph.size ≤ graph.stock.length ∨ graph.closed = true) then
    let samples := min graph.size graph.stock.length
    .ok (some { media := storageOf (graph.stock.take samples.toNat), pts := graph.clock, nbSamples := samples },
      { graph with stock := graph.stock.drop samples.toNat, clock := graph.clock + samples })
  else .ok (none, graph)

theorem SampleGraph.get_none {graph graph' : SampleGraph} (h : graph.get = .ok (none, graph')) :
    graph' = graph ∧ ¬(graph.stock ≠ [] ∧ (graph.size ≤ graph.stock.length ∨ graph.closed = true)) := by
  unfold get at h
  split at h
  · simp at h
  · rename_i hnone
    exact ⟨(Prod.mk.inj (Except.ok.inj h)).2.symm, hnone⟩

theorem SampleGraph.get_some {graph graph' : SampleGraph} {frame : Frame} (h : graph.get = .ok (some frame, graph'))
    (hsize : 0 < graph.size) : graph.stock ≠ [] ∧ (graph.size ≤ graph.stock.length ∨ graph.closed = true) ∧
      frame.nbSamples = min graph.size graph.stock.length ∧ frame.pts = graph.clock ∧
      (List.range frame.nbSamples.toNat).map (sampleOf frame.media) = graph.stock.take frame.nbSamples.toNat ∧
      graph'.stock = graph.stock.drop frame.nbSamples.toNat ∧ graph'.clock = graph.clock + frame.nbSamples ∧
      graph'.size = graph.size ∧ graph'.closed = graph.closed := by
  unfold get at h
  split at h
  · rename_i hready
    obtain ⟨hframe, rfl⟩ := Prod.mk.inj (Except.ok.inj h)
    obtain rfl := Option.some.inj hframe
    refine ⟨hready.1, hready.2, rfl, rfl, map_sampleOf_storageOf ?_, rfl, rfl, rfl, rfl⟩
    show (graph.stock.take (min graph.size graph.stock.length).toNat).length = (min graph.size graph.stock.length).toNat
    rw [List.length_take]
    omega
  · simp at h

/-- A conversion that keeps the samples, and a graph that keeps them too. -/
@[reducible]
def sampledAudio : LibAudio where
  SwrContext := Unit
  Graph := SampleGraph
  avGetBytesPerSample format := if 0 ≤ format ∧ format < 12 then 4 else 0
  swrAlloc _ _ _ _ _ _ := .ok ()
  swrNextPts context pts := (pts, context)
  swrGetOutSamples _ samples := samples
  swrConvert context _ frame :=
    match frame with
    | some frame => (frame.nbSamples, frame.media, context)
    | none => (0, none, context)
  graphCreate _ _ _ size := .ok { size := size }
  avBuffersrcWriteFrame graph frame :=
    .ok
      { graph with
        stock := graph.stock ++ (List.range frame.nbSamples.toNat).map (sampleOf frame.media)
        clock := if graph.stock = [] then frame.pts else graph.clock }
  avBuffersrcClose graph := .ok { graph with closed := true }
  avBuffersinkGetFrame := SampleGraph.get
  avBuffersinkGetFrame_again graph graph' h frame graph'' hagain := by
    obtain ⟨rfl, -⟩ := SampleGraph.get_none h
    rw [h] at hagain
    cases hagain
  padded media samples size :=
    storageOf ((List.range size.toNat).map fun (i : ℕ) => if (i : ℤ) < samples then sampleOf media i else 0)

/-- The samples of the storages and of the graph. -/
@[reducible]
def sampledFifo : @FifoReblocker sampledAudio :=
  @FifoReblocker.mk sampledAudio ℕ 0 sampleOf
    (by
      intro media samples size i hi
      have hlt : i < ((List.range size.toNat).map fun (i : ℕ) =>
          if (i : ℤ) < samples then sampleOf media i else 0).length := by
        rw [List.length_map, List.length_range]
        omega
      show sampleOf (storageOf _) i = _
      rw [sampleOf_storageOf, List.getD_eq_getElem _ _ hlt, List.getElem_map, List.getElem_range])
    SampleGraph.stock SampleGraph.clock SampleGraph.size SampleGraph.closed
    (by
      intro format rate layout frameSize graph h
      obtain rfl := Except.ok.inj h
      exact ⟨rfl, rfl, rfl⟩)
    (by
      intro graph frame graph' h hopen
      obtain rfl := Except.ok.inj h
      exact ⟨rfl, rfl, hopen⟩)
    (by
      intro graph frame graph' h hopen
      obtain rfl := Except.ok.inj h
      exact ⟨fun hnil => if_pos hnil, fun hne _ => if_neg hne⟩)
    (by
      intro graph graph' h
      obtain rfl := Except.ok.inj h
      exact ⟨rfl, rfl, rfl, rfl⟩)
    (by
      intro graph frame graph' h hsize
      exact SampleGraph.get_some h hsize)
    (by
      intro graph graph' h hsize
      obtain ⟨rfl, hnone⟩ := SampleGraph.get_none h
      refine ⟨?_, fun hclosed => ?_, rfl, rfl, rfl, rfl⟩
      · by_contra hlong
        have hlong' : graph'.size ≤ graph'.stock.length := Int.not_lt.mp hlong
        refine hnone ⟨fun hnil => ?_, .inl hlong'⟩
        rw [hnil] at hlong'
        exact absurd hsize (Int.not_lt.mpr hlong')
      · by_contra hne
        exact hnone ⟨hne, .inr hclosed⟩)

section

attribute [local instance] Libav.reference sampledAudio sampledFifo

/-- Blocks of two samples. -/
def pairs : AudioResamplerConfig := { outputSamplesPerFrame := 2 }

/-- Audio of the given samples. -/
def sound (stream pts : ℤ) (samples : List ℕ) : AvDecoderReadResult where
  status := .frame
  frame := some
    { media := storageOf samples, pts := pts, timeBase := ⟨1, 48000⟩, nbSamples := samples.length, format := 8,
      sampleRate := 48000, chLayout := ⟨2, 3⟩ }
  streamIndex := stream
  timeBase := ⟨1, 48000⟩

def ending : AvDecoderReadResult := { status := .eof }

theorem fixed_blocks_pairs : ∃ start s history, create pairs 8 = .ok start ∧ calls.Run start history s ∧
    (returnedBy history).length = 4 ∧ s.generation = 2 ∧
    (conversion ⟨48000, 8, ⟨2, 3⟩⟩).Run { inputs := [sound 0 0 [1, 2, 3], sound 1 3 [4, 5], ending] }
      (converted history) s.converter ∧
    ∃ parts, Partition (converted history) parts ∧ (returnedBy history).map outputOf = outputs 2 parts := by
  have hacts : ∃ start s history, create pairs 8 = .ok start ∧ Transition.execute perform start
      [.push (sound 0 0 [1, 2, 3]), .push (sound 1 3 [4, 5]), .push ending, .read, .read, .read, .read, .read] =
        some (history, s) ∧
      history.filterMap Event.pushed? = [sound 0 0 [1, 2, 3], sound 1 3 [4, 5], ending] ∧
      (returnedBy history).length = 4 ∧ s.generation = 2 ∧ history.getLast? = some .null := by
    refine ⟨_, _, _, rfl, rfl, ?_, ?_, ?_, ?_⟩
    · rfl
    · rfl
    · rfl
    · rfl
  obtain ⟨start, s, history, hcreate, hacts, hpushed, hlength, hgeneration, hlast⟩ := hacts
  have hrun : calls.Run start history s := Transition.execute_run (T := calls) (fun _ act _ _ h => ⟨act, h⟩) hacts
  obtain ⟨-, hconversion, -, hdrained, -, -⟩ := fixed_blocks (by decide : 0 < 2) rfl hcreate hrun
  rw [hpushed] at hconversion
  exact ⟨start, s, history, hcreate, hrun, hlength, hgeneration, hconversion, (hdrained hlast).2⟩

end

end AudioResampler

end MwStreamer
