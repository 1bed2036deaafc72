import MwStreamer.Filter.AudioResampler
import MwStreamer.Library.StateExcept

/-!
# Reads of the audio resampler

What each part of a read does to the state.  The conversion leaves the blocks alone, and a read that returns
nothing leaves nothing.
-/

namespace MwStreamer

namespace AudioResampler

open StateExcept (bind_ok)

variable [Libav] [LibAudio]

/-- What waits for the end of a block is an item, and so is what a block is made of. -/
structure Valid (impl : AudioResampler) : Prop where
  pending : ∀ input, impl.blockPending = some input → input.status ≠ .null
  metadata : ∀ graph, impl.adapter = some graph → impl.blockMetadata.status ≠ .null

/-- What a converter converts to. -/
structure Target where
  rate : ℤ
  format : ℤ
  layout : ChannelLayout

def target (impl : AudioResampler) : Target := ⟨impl.rate, impl.format, impl.layout⟩

/-- The front of a turn changes nothing but the conversion. -/
structure SameBlocks (impl impl' : AudioResampler) : Prop where
  adapter : impl'.adapter = impl.adapter
  blockPending : impl'.blockPending = impl.blockPending
  blockMetadata : impl'.blockMetadata = impl.blockMetadata
  blockEnding : impl'.blockEnding = impl.blockEnding
  blockNextPts : impl'.blockNextPts = impl.blockNextPts
  blockGeneration : impl'.blockGeneration = impl.blockGeneration
  outputSamplesPerFrame : impl'.outputSamplesPerFrame = impl.outputSamplesPerFrame
  turns : impl'.turns = impl.turns
  stopped : impl'.stopped = impl.stopped
  failure : impl'.failure = impl.failure
  target : impl'.target = impl.target

omit [Libav] in
theorem SameBlocks.rate {impl impl' : AudioResampler} (h : SameBlocks impl impl') : impl'.rate = impl.rate :=
  congrArg Target.rate h.target

omit [Libav] in
theorem SameBlocks.refl (impl : AudioResampler) : SameBlocks impl impl :=
  ⟨rfl, rfl, rfl, rfl, rfl, rfl, rfl, rfl, rfl, rfl, rfl⟩

omit [Libav] in
theorem SameBlocks.trans {impl impl' impl'' : AudioResampler} (h : SameBlocks impl impl')
    (h' : SameBlocks impl' impl'') : SameBlocks impl impl'' where
  adapter := h'.adapter.trans h.adapter
  blockPending := h'.blockPending.trans h.blockPending
  blockMetadata := h'.blockMetadata.trans h.blockMetadata
  blockEnding := h'.blockEnding.trans h.blockEnding
  blockNextPts := h'.blockNextPts.trans h.blockNextPts
  blockGeneration := h'.blockGeneration.trans h.blockGeneration
  outputSamplesPerFrame := h'.outputSamplesPerFrame.trans h.outputSamplesPerFrame
  turns := h'.turns.trans h.turns
  stopped := h'.stopped.trans h.stopped
  failure := h'.failure.trans h.failure
  target := h'.target.trans h.target

omit [Libav] in
theorem SameBlocks.clearConverter (impl : AudioResampler) : SameBlocks impl impl.clearConverter :=
  ⟨rfl, rfl, rfl, rfl, rfl, rfl, rfl, rfl, rfl, rfl, rfl⟩

omit [Libav] in
theorem SameBlocks.inputs (impl : AudioResampler) (inputs : List AvDecoderReadResult) :
    SameBlocks impl { impl with inputs := inputs } :=
  ⟨rfl, rfl, rfl, rfl, rfl, rfl, rfl, rfl, rfl, rfl, rfl⟩

omit [Libav] in
theorem withConverter_same {impl impl' : AudioResampler} {frame : Frame}
    (h : impl.withConverter frame = .ok impl') : SameBlocks impl impl' := by
  unfold withConverter at h
  split at h
  · unfold initializeConverter at h
    obtain ⟨context, -, h⟩ := bind_ok h
    cases h
    exact ⟨rfl, rfl, rfl, rfl, rfl, rfl, rfl, rfl, rfl, rfl, rfl⟩
  · cases h
    exact .refl _

omit [Libav] in
theorem output_same {impl impl' : AudioResampler} {frame : Frame} {samples pts : ℤ}
    {last result : AvDecoderReadResult} (h : impl.output frame samples pts last = .ok (result, impl')) :
    SameBlocks impl impl' := by
  unfold output at h
  split at h
  · cases h
    exact .refl _
  · obtain ⟨next, -, h⟩ := bind_ok h
    cases h
    exact ⟨rfl, rfl, rfl, rfl, rfl, rfl, rfl, rfl, rfl, rfl, rfl⟩

theorem convert_same {impl impl' : AudioResampler} {context : SwrContext} {input result : AvDecoderReadResult}
    {source : Frame} (h : impl.convert context input source = .ok (result, impl')) : SameBlocks impl impl' := by
  unfold convert at h
  obtain ⟨sourcePts, -, h⟩ := bind_ok h
  obtain ⟨pts, -, h⟩ := bind_ok h
  dsimp only at h
  split at h
  · cases h
  · obtain ⟨targetPts, -, h⟩ := bind_ok h
    obtain ⟨_, -, h⟩ := bind_ok h
    obtain ⟨_, -, h⟩ := bind_ok h
    refine .trans ?_ (output_same h)
    exact ⟨rfl, rfl, rfl, rfl, rfl, rfl, rfl, rfl, rfl, rfl, rfl⟩

omit [Libav] in
theorem drain_same {impl impl' : AudioResampler} {context : SwrContext} {last result : AvDecoderReadResult}
    (h : impl.drain context last = .ok (result, impl')) : SameBlocks impl impl' := by
  unfold drain at h
  obtain ⟨_, -, h⟩ := bind_ok h
  obtain ⟨_, -, h⟩ := bind_ok h
  split at h
  · cases h
  · refine .trans ?_ (output_same h)
    exact ⟨rfl, rfl, rfl, rfl, rfl, rfl, rfl, rfl, rfl, rfl, rfl⟩

theorem drainFirst_same {impl impl' : AudioResampler} {input : AvDecoderReadResult}
    {result : Option AvDecoderReadResult} (h : impl.drainFirst input = .ok (result, impl')) :
    SameBlocks impl impl' ∧ ∀ item, result = some item → item.status = .frame := by
  unfold drainFirst at h
  split at h
  · split at h
    · obtain ⟨⟨drained, after⟩, hdrain, h⟩ := bind_ok h
      have hsame := drain_same hdrain
      dsimp only at h
      split at h
      · next hframe =>
        obtain ⟨rfl, rfl⟩ := Prod.mk.inj (Except.ok.inj h)
        refine ⟨hsame, fun item hitem => ?_⟩
        rw [← Option.some.inj hitem]
        exact hframe
      · obtain ⟨rfl, rfl⟩ := Prod.mk.inj (Except.ok.inj h)
        exact ⟨hsame.trans (.clearConverter _), by simp⟩
    · obtain ⟨rfl, rfl⟩ := Prod.mk.inj (Except.ok.inj h)
      exact ⟨.refl _, by simp⟩
  · cases h
  · obtain ⟨rfl, rfl⟩ := Prod.mk.inj (Except.ok.inj h)
    exact ⟨.refl _, by simp⟩

theorem convertFront_same {impl impl' : AudioResampler} {input : AvDecoderReadResult}
    {result : Option AvDecoderReadResult} (h : impl.convertFront input = .ok (result, impl')) :
    SameBlocks impl impl' ∧ ∀ item, result = some item → item.status ≠ .null := by
  unfold convertFront at h
  split at h
  · next heof =>
    obtain ⟨endPts, -, h⟩ := bind_ok h
    obtain ⟨rfl, rfl⟩ := Prod.mk.inj (Except.ok.inj h)
    refine ⟨.refl _, fun item hitem => ?_⟩
    rw [← Option.some.inj hitem]
    show input.status ≠ .null
    rw [heof]
    decide
  · split at h
    · cases h
    · obtain ⟨ready, hready, h⟩ := bind_ok h
      have hsame := withConverter_same hready
      split at h
      · cases h
      · obtain ⟨⟨converted, after⟩, hconvert, h⟩ := bind_ok h
        have hconverted := hsame.trans (convert_same hconvert)
        dsimp only at h
        split at h
        · next hframe =>
          obtain ⟨rfl, rfl⟩ := Prod.mk.inj (Except.ok.inj h)
          refine ⟨hconverted, fun item hitem => ?_⟩
          rw [← Option.some.inj hitem, hframe]
          decide
        · obtain ⟨rfl, rfl⟩ := Prod.mk.inj (Except.ok.inj h)
          exact ⟨hconverted, by simp⟩

/-- A conversion that returns nothing emptied the queue. -/
theorem readConverted_same {inputs : List AvDecoderReadResult} {impl impl' : AudioResampler}
    {item : AvDecoderReadResult} (h : readConverted inputs impl = .ok (item, impl')) :
    SameBlocks impl impl' ∧ (item.status = .null → impl'.inputs = []) := by
  induction inputs generalizing impl with
  | nil =>
    obtain ⟨rfl, rfl⟩ := Prod.mk.inj (Except.ok.inj h)
    exact ⟨.inputs impl [], fun _ => rfl⟩
  | cons input rest ih =>
    unfold readConverted at h
    obtain ⟨⟨result, drained⟩, hdrain, h⟩ := bind_ok h
    obtain ⟨hsame, hframe⟩ := drainFirst_same hdrain
    dsimp only at h
    cases result with
    | some result =>
      obtain ⟨rfl, rfl⟩ := Prod.mk.inj (Except.ok.inj h)
      refine ⟨hsame.trans (.inputs _ _), fun hnull => ?_⟩
      rw [hframe result rfl] at hnull
      cases hnull
    | none =>
      obtain ⟨⟨result, converted⟩, hconvert, h⟩ := bind_ok h
      obtain ⟨hsame', hitem⟩ := convertFront_same hconvert
      dsimp only at h
      cases result with
      | some result =>
        obtain ⟨rfl, rfl⟩ := Prod.mk.inj (Except.ok.inj h)
        exact ⟨(hsame.trans hsame').trans (.inputs _ _), fun hnull => absurd hnull (hitem result rfl)⟩
      | none =>
        obtain ⟨hrest, hempty⟩ := ih h
        exact ⟨(hsame.trans hsame').trans hrest, hempty⟩

/-- A resampler that returned nothing: the adapter has no block, nothing waits and nothing is queued. -/
structure Empty (impl : AudioResampler) : Prop where
  receive : ∀ item impl', impl.receiveBlock ≠ .ok (some item, impl')
  blockPending : impl.blockPending = none
  inputs : impl.inputs = []

omit [Libav] in
/-- The front of a turn; a turn without a block leaves an adapter without a block. -/
theorem receiveBlock_ok {impl impl' : AudioResampler} {result : Option AvDecoderReadResult} (hv : impl.Valid)
    (h : impl.receiveBlock = .ok (result, impl')) :
    impl'.Valid ∧ impl'.blockPending = impl.blockPending ∧ (∀ item, result = some item → item.status ≠ .null) ∧
      (result = none → ∀ after : AudioResampler, after.adapter = impl'.adapter →
        ∀ item impl'', after.receiveBlock ≠ .ok (some item, impl'')) := by
  unfold receiveBlock at h
  split at h
  · next hnone =>
    obtain ⟨rfl, rfl⟩ := Prod.mk.inj (Except.ok.inj h)
    refine ⟨hv, rfl, by simp, fun _ after hafter item impl'' hread => ?_⟩
    simp only [receiveBlock, hafter, hnone] at hread
    simp at hread
  · next graph hsome =>
    have hmetadata := hv.metadata graph hsome
    obtain ⟨⟨frame, graph'⟩, hget, h⟩ := bind_ok h
    dsimp only at h
    cases frame with
    | some frame =>
      obtain ⟨rfl, rfl⟩ := Prod.mk.inj (Except.ok.inj h)
      refine ⟨⟨hv.pending, fun _ _ => hmetadata⟩, rfl, fun item hitem => ?_, by simp⟩
      rw [← Option.some.inj hitem]
      exact hmetadata
    | none =>
      dsimp only at h
      split at h
      · obtain ⟨rfl, rfl⟩ := Prod.mk.inj (Except.ok.inj h)
        refine ⟨⟨hv.pending, by simp⟩, rfl, by simp, fun _ after hafter item impl'' hread => ?_⟩
        simp only [receiveBlock, hafter] at hread
        simp at hread
      · obtain ⟨rfl, rfl⟩ := Prod.mk.inj (Except.ok.inj h)
        refine ⟨⟨hv.pending, fun _ _ => hmetadata⟩, rfl, by simp, fun _ after hafter item impl'' hread => ?_⟩
        simp only [receiveBlock, hafter] at hread
        obtain ⟨⟨frame, graph''⟩, hagain, hread⟩ := bind_ok hread
        cases frame with
        | some frame => exact LibAudio.avBuffersinkGetFrame_again _ _ hget _ _ hagain
        | none =>
          dsimp only at hread
          split at hread <;> simp at hread

omit [Libav] in
theorem receiveBlock_inputs {impl impl' : AudioResampler} {result : Option AvDecoderReadResult}
    (h : impl.receiveBlock = .ok (result, impl')) : impl'.inputs = impl.inputs := by
  unfold receiveBlock at h
  split at h
  · obtain ⟨-, rfl⟩ := Prod.mk.inj (Except.ok.inj h)
    rfl
  · obtain ⟨⟨frame, graph⟩, -, h⟩ := bind_ok h
    cases frame with
    | some frame =>
      obtain ⟨-, rfl⟩ := Prod.mk.inj (Except.ok.inj h)
      rfl
    | none =>
      dsimp only at h
      split at h <;>
        · obtain ⟨-, rfl⟩ := Prod.mk.inj (Except.ok.inj h)
          rfl

theorem takeConverted_ok {impl impl' : AudioResampler} {item : AvDecoderReadResult} (hv : impl.Valid)
    (h : impl.takeConverted = .ok (item, impl')) :
    impl'.Valid ∧ impl'.adapter = impl.adapter ∧ impl'.blockPending = none ∧
      (item.status = .null → impl'.inputs = []) := by
  unfold takeConverted at h
  split at h
  · next input hpending =>
    obtain ⟨rfl, rfl⟩ := Prod.mk.inj (Except.ok.inj h)
    exact ⟨⟨by simp, hv.metadata⟩, rfl, rfl, fun hnull => absurd hnull (hv.pending _ hpending)⟩
  · next hpending =>
    obtain ⟨hsame, hempty⟩ := readConverted_same h
    refine ⟨⟨?_, ?_⟩, hsame.adapter, hsame.blockPending.trans hpending, hempty⟩
    · rw [hsame.blockPending]
      exact hv.pending
    · rw [hsame.adapter, hsame.blockMetadata]
      exact hv.metadata

theorem placeConverted_ok {impl impl' : AudioResampler} {input : AvDecoderReadResult}
    {result : Option AvDecoderReadResult} (hv : impl.Valid)
    (h : impl.placeConverted input = .ok (result, impl')) :
    impl'.Valid ∧ (∀ item, result = some item → item.status = .null → input.status = .null ∧ impl' = impl) := by
  unfold placeConverted at h
  split at h
  · next hnull =>
    obtain ⟨rfl, rfl⟩ := Prod.mk.inj (Except.ok.inj h)
    exact ⟨hv, fun _ _ _ => ⟨hnull, rfl⟩⟩
  · next hitem =>
    obtain ⟨ends, -, h⟩ := bind_ok h
    split at h
    · next graph _ hsome =>
      obtain ⟨ended, hend, h⟩ := bind_ok h
      obtain ⟨rfl, rfl⟩ := Prod.mk.inj (Except.ok.inj h)
      unfold endBlock at hend
      obtain ⟨graph, -, hend⟩ := bind_ok hend
      cases hend
      refine ⟨⟨fun item hpending => ?_, fun _ _ => hv.metadata _ hsome⟩, by simp⟩
      rw [← Option.some.inj hpending]
      exact hitem
    · split at h
      · obtain ⟨rfl, rfl⟩ := Prod.mk.inj (Except.ok.inj h)
        refine ⟨hv, fun item hresult hnull => ?_⟩
        rw [← Option.some.inj hresult] at hnull
        exact absurd hnull hitem
      · split at h
        · cases h
        · obtain ⟨graph, -, h⟩ := bind_ok h
          obtain ⟨submitted, hsubmit, h⟩ := bind_ok h
          obtain ⟨rfl, rfl⟩ := Prod.mk.inj (Except.ok.inj h)
          unfold submitBlock at hsubmit
          obtain ⟨_, -, hsubmit⟩ := bind_ok hsubmit
          obtain ⟨_, -, hsubmit⟩ := bind_ok hsubmit
          cases hsubmit
          exact ⟨⟨hv.pending, fun _ _ => hitem⟩, by simp⟩

/-- A read of blocks that returns nothing leaves nothing. -/
theorem readFixed_ok {turns : ℕ} {impl impl' : AudioResampler} {item : AvDecoderReadResult} (hv : impl.Valid)
    (h : readFixed turns impl = some (.ok (item, impl'))) :
    impl'.Valid ∧ (item.status = .null → impl'.Empty) := by
  induction turns generalizing impl with
  | zero => cases h
  | succ turns ih =>
    unfold readFixed at h
    cases hreceive : impl.receiveBlock with
    | error e =>
      rw [hreceive] at h
      simp at h
    | ok received =>
      obtain ⟨block, received⟩ := received
      rw [hreceive] at h
      obtain ⟨hreceived, -, hblock, hnone⟩ := receiveBlock_ok hv hreceive
      cases block with
      | some block =>
        obtain ⟨rfl, rfl⟩ := by simpa using h
        exact ⟨hreceived, fun hnull => absurd hnull (hblock _ rfl)⟩
      | none =>
        dsimp only at h
        cases htake : received.takeConverted with
        | error e =>
          rw [htake] at h
          simp at h
        | ok taken =>
          obtain ⟨input, taken⟩ := taken
          rw [htake] at h
          dsimp only at h
          obtain ⟨htakenValid, hadapter, hpending, hempty⟩ := takeConverted_ok hreceived htake
          cases hplace : taken.placeConverted input with
          | error e =>
            rw [hplace] at h
            simp at h
          | ok placed =>
            obtain ⟨result, placed⟩ := placed
            rw [hplace] at h
            obtain ⟨hplaced, hnull⟩ := placeConverted_ok htakenValid hplace
            cases result with
            | none => exact ih hplaced h
            | some result =>
              obtain ⟨rfl, rfl⟩ := by simpa using h
              refine ⟨hplaced, fun hitem => ?_⟩
              obtain ⟨hinput, rfl⟩ := hnull _ rfl hitem
              exact ⟨hnone rfl _ hadapter, hpending, hempty hinput⟩

theorem readFixed_empty {turns : ℕ} {impl impl' : AudioResampler} {item : AvDecoderReadResult} (he : impl.Empty)
    (hv : impl.Valid) (h : readFixed turns impl = some (.ok (item, impl'))) : item.status = .null := by
  cases turns with
  | zero => cases h
  | succ turns =>
    unfold readFixed at h
    cases hreceive : impl.receiveBlock with
    | error e =>
      rw [hreceive] at h
      simp at h
    | ok received =>
      obtain ⟨block, received⟩ := received
      cases block with
      | some block => exact absurd hreceive (he.receive _ _)
      | none =>
        obtain ⟨-, hpending, -, -⟩ := receiveBlock_ok hv hreceive
        have hinputs : received.inputs = [] := by
          rw [receiveBlock_inputs hreceive]
          exact he.inputs
        -- Nothing waits and nothing is queued, so the conversion returns nothing.
        have htake : received.takeConverted = .ok ({}, { received with inputs := [] }) := by
          simp only [takeConverted, hpending, he.blockPending, hinputs, readConverted]
        rw [hreceive] at h
        simp only [htake, placeConverted, if_true, Option.some.injEq, Except.ok.injEq, Prod.mk.injEq] at h
        rw [← h.1]

/-- A resampler that returns nothing: the loop of its mode finds nothing. -/
def Exhausted (impl : AudioResampler) : Prop :=
  impl.stopped = true ∨ impl.Empty ∨ (impl.inputs = [] ∧ ¬0 < impl.outputSamplesPerFrame)

/-- What a read does: its mode's loop. -/
theorem tryReadFrame_ok {impl impl' : AudioResampler} {item : AvDecoderReadResult}
    (h : impl.tryReadFrame = some (.ok item, impl')) :
    (impl.stopped = true ∧ item.status = .null ∧ impl' = impl) ∨
      (0 < impl.outputSamplesPerFrame ∧ readFixed impl.turns impl = some (.ok (item, impl'))) ∨
      (¬0 < impl.outputSamplesPerFrame ∧ readConverted impl.inputs impl = .ok (item, impl')) := by
  unfold tryReadFrame at h
  split at h
  · simp at h
  · split at h
    · next hstopped =>
      obtain ⟨rfl, rfl⟩ := by simpa using h
      exact .inl ⟨hstopped, rfl, rfl⟩
    · obtain ⟨read, hread, hresult⟩ := Option.map_eq_some_iff.mp h
      cases read with
      | error e => simp at hresult
      | ok read =>
        obtain ⟨hitem, rfl⟩ := Prod.mk.inj hresult
        obtain rfl := Except.ok.inj hitem
        split at hread
        · exact .inr (.inl ⟨‹_›, hread⟩)
        · exact .inr (.inr ⟨‹_›, Option.some.inj hread⟩)

/-- A read that returns nothing exhausts the resampler. -/
theorem tryReadFrame_null {impl impl' : AudioResampler} {item : AvDecoderReadResult} (hv : impl.Valid)
    (h : impl.tryReadFrame = some (.ok item, impl')) : impl'.Valid ∧ (item.status = .null → impl'.Exhausted) := by
  rcases tryReadFrame_ok h with ⟨hstopped, -, rfl⟩ | ⟨-, hread⟩ | ⟨hmode, hread⟩
  · exact ⟨hv, fun _ => .inl hstopped⟩
  · obtain ⟨hvalid, hempty⟩ := readFixed_ok hv hread
    exact ⟨hvalid, fun hnull => .inr (.inl (hempty hnull))⟩
  · obtain ⟨hsame, hempty⟩ := readConverted_same hread
    refine ⟨⟨?_, ?_⟩, fun hnull => .inr (.inr ⟨hempty hnull, ?_⟩)⟩
    · rw [hsame.blockPending]
      exact hv.pending
    · rw [hsame.adapter, hsame.blockMetadata]
      exact hv.metadata
    · rw [hsame.outputSamplesPerFrame]
      exact hmode

/-- An exhausted resampler returns nothing. -/
theorem Exhausted.read {impl impl' : AudioResampler} {item : AvDecoderReadResult} (he : impl.Exhausted)
    (hv : impl.Valid) (h : impl.tryReadFrame = some (.ok item, impl')) : item.status = .null := by
  rcases tryReadFrame_ok h with ⟨-, hnull, -⟩ | ⟨hmode, hread⟩ | ⟨-, hread⟩
  · exact hnull
  · rcases he with hstopped | hempty | ⟨-, hother⟩
    · unfold tryReadFrame at h
      split at h
      · simp at h
      · rw [if_pos hstopped] at h
        obtain ⟨rfl, -⟩ := by simpa using h
        rfl
    · exact readFixed_empty hempty hv hread
    · exact absurd hmode hother
  · have hinputs : impl.stopped = true ∨ impl.inputs = [] := by
      rcases he with hstopped | hempty | ⟨hinputs, -⟩
      · exact .inl hstopped
      · exact .inr hempty.inputs
      · exact .inr hinputs
    rcases hinputs with hstopped | hinputs
    · unfold tryReadFrame at h
      split at h
      · simp at h
      · rw [if_pos hstopped] at h
        obtain ⟨rfl, -⟩ := by simpa using h
        rfl
    · rw [hinputs] at hread
      obtain ⟨rfl, -⟩ := Prod.mk.inj (Except.ok.inj hread)
      rfl

theorem tryPushFrame_ok {impl impl' : AudioResampler} {input : AvDecoderReadResult} {accepted : Bool}
    (h : impl.tryPushFrame input = .ok (accepted, impl')) :
    (accepted = false ∧ impl' = impl) ∨ (accepted = true ∧ impl' = { impl with inputs := impl.inputs ++ [input] }) := by
  unfold tryPushFrame at h
  split at h
  · cases h
    exact .inl ⟨rfl, rfl⟩
  · split at h
    · cases h
      exact .inl ⟨rfl, rfl⟩
    · obtain ⟨_, -, h⟩ := bind_ok h
      cases h
      exact .inr ⟨rfl, rfl⟩

end AudioResampler

end MwStreamer
