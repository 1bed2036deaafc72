import MwStreamer.Filter.BlockPartition

/-!
# What the conversion of the audio resampler returns

`readConverted_run` says that one call of `ReadConverted` is a run of the `Converter` of the resampler, and that the
run gives what the call returns: nothing, or one item.
-/

namespace MwStreamer

namespace AudioResampler

open StateExcept (bind_ok)

variable [Libav] [LibAudio] [FifoReblocker] {impl impl' : AudioResampler}

/-! ### The steps of a conversion -/

/-- What is pushed behind the inputs changes no step. -/
theorem Converter.Step.push {target : Target} {c c' : Converter} {items : List Item} (h : Step target c items c')
    (more : List AvDecoderReadResult) :
    Step target { c with inputs := c.inputs ++ more } items { c' with inputs := c'.inputs ++ more } := by
  have hhead : ∀ {input}, input ∈ c.inputs.head? → input ∈ (c.inputs ++ more).head? := by
    intro input hinput
    rw [List.head?_append_of_ne_nil]
    · exact hinput
    · intro hnil
      rw [hnil] at hinput
      cases hinput
  have hcons : ∀ {input rest}, c.inputs = input :: rest → c.inputs ++ more = input :: (rest ++ more) := by
    intro input rest hinputs
    rw [hinputs]
    rfl
  cases h with
  | drained hcontext hlast hinput houtlived hnext hconvert hsamples =>
    exact .drained hcontext hlast (hhead hinput) houtlived hnext hconvert hsamples
  | closed hcontext hlast hinput houtlived hempty => exact .closed hcontext hlast (hhead hinput) houtlived hempty
  | ended hcontext hinputs heof => exact .ended hcontext (hcons hinputs) heof
  | initialized hcontext hinput hstatus hframe halloc =>
    exact .initialized hcontext (hhead hinput) hstatus hframe halloc
  | converted hcontext hinputs hstatus hgoing hframe hsource hpts hknown htarget hconvert hsamples =>
    exact Step.converted (c := { c with inputs := c.inputs ++ more }) hcontext (hcons hinputs) hstatus hgoing hframe
      hsource hpts hknown htarget hconvert hsamples

/-- A run takes its inputs from the front of the queue. -/
theorem conversion_push {target : Target} {c c' : Converter} {items : List Item}
    (h : (conversion target).Run c items c') (more : List AvDecoderReadResult) :
    (conversion target).Run { c with inputs := c.inputs ++ more } items { c' with inputs := c'.inputs ++ more } := by
  induction h with
  | refl => exact .refl _
  | snoc _ hstep ih => exact .snoc ih (Converter.Step.push hstep more)

/-! ### Calls of the converter -/

/-- A converted frame with samples on the target time base. -/
def Sounds (rate : ℤ) (result : AvDecoderReadResult) : Prop :=
  ∃ frame, result.frame = some frame ∧ 0 < frame.nbSamples ∧ frame.timeBase = ⟨1, rate⟩

/-- An item that `ReadConverted` returns. -/
def Converts (impl : AudioResampler) (input : AvDecoderReadResult) : Prop :=
  input.status = .eof ∨ input.status = .frame ∧ Sounds impl.rate input

omit [Libav] [FifoReblocker] in
theorem Converts.status_ne {input : AvDecoderReadResult} (h : impl.Converts input) : input.status ≠ .null := by
  rcases h with heof | ⟨hframe, -⟩
  · rw [heof]
    decide
  · rw [hframe]
    decide

omit [Libav] [LibAudio] [FifoReblocker] in
theorem throwIfError_ok {value : ℤ} {operation : String} {u : Unit} (h : throwIfError value operation = .ok u) :
    0 ≤ value := by
  unfold throwIfError at h
  split at h
  · cases h
  · omega

omit [Libav] [FifoReblocker] in
theorem allocate_space (context : SwrContext) (samples : ℤ) (source : Frame) :
    (impl.allocate (if 0 < swrGetOutSamples context samples then swrGetOutSamples context samples else 1)
      source).nbSamples = Converter.space context samples := by
  show (if _ then _ else _) = max _ _
  split <;> omega

omit [FifoReblocker] in
theorem endPts_ok {input : AvDecoderReadResult} {value : ℤ} (h : impl.endPts input = .ok value) :
    value = (eofOf impl.rate input).endPts := by
  unfold endPts at h
  show value =
    if input.endPts ≠ avNoptsValue then avRescaleQ input.endPts input.timeBase ⟨1, impl.rate⟩ else input.endPts
  split at h
  · rename_i hknown
    rw [if_pos hknown]
    unfold rescale rescaleChecked at h
    dsimp only at h
    split at h
    · cases h
    · exact (Except.ok.inj h).symm
  · rename_i hunknown
    rw [if_neg hunknown]
    exact (Except.ok.inj h).symm

/-- What `Output` returns of `samples` written samples. -/
structure Gives (impl : AudioResampler) (media : Option Media) (samples pts stream : ℤ) (result : AvDecoderReadResult)
    (out : Frame) : Prop where
  status : result.status = .frame
  frame : result.frame = some out
  stream : result.streamIndex = stream
  samples : out.nbSamples = samples
  pts : out.pts = pts
  media : out.media = media
  timeBase : out.timeBase = ⟨1, impl.rate⟩

omit [Libav] in
theorem Gives.item {media : Option Media} {samples pts stream : ℤ} {result : AvDecoderReadResult} {out : Frame}
    (h : impl.Gives media samples pts stream result out) (after : AudioResampler) :
    after.itemOf result = .chunk (after.converter.chunk stream pts samples media) := by
  rw [itemOf_frame h.status h.frame, h.stream, ← h.pts, ← h.samples, ← h.media]
  rfl

omit [Libav] [FifoReblocker] in
theorem Gives.sounds {media : Option Media} {samples pts stream : ℤ} {result : AvDecoderReadResult} {out : Frame}
    (h : impl.Gives media samples pts stream result out) (hsamples : 0 < samples) : Sounds impl.rate result :=
  ⟨out, h.frame, h.samples ▸ hsamples, h.timeBase⟩

omit [Libav] [FifoReblocker] in
theorem output_ok {frame : Frame} {samples pts : ℤ} {last result : AvDecoderReadResult}
    (h : impl.output frame samples pts last = .ok (result, impl')) :
    (samples = 0 ∧ result.status = .null ∧ impl' = impl) ∨
      (samples ≠ 0 ∧ impl' = { impl with nextOutputPts := some (pts + samples) } ∧
        ∃ out, impl.Gives frame.media samples pts last.streamIndex result out) := by
  unfold output at h
  split at h
  · rename_i hzero
    obtain ⟨rfl, rfl⟩ := Prod.mk.inj (Except.ok.inj h)
    exact .inl ⟨hzero, rfl, rfl⟩
  · rename_i hne
    obtain ⟨next, hnext, h⟩ := bind_ok h
    obtain ⟨rfl, rfl⟩ := Prod.mk.inj (Except.ok.inj h)
    rw [addSamples] at hnext
    split at hnext
    · cases hnext
    · obtain rfl := Except.ok.inj hnext
      exact .inr ⟨hne, rfl, _, rfl, rfl, rfl, rfl, rfl, rfl, rfl⟩

/-- The converter is drained into one chunk, or it is empty. -/
theorem drain_step {context : SwrContext} {last input result : AvDecoderReadResult} (rest : List AvDecoderReadResult)
    (hcontext : impl.context = some context) (hlast : impl.lastInput = some last)
    (houtlived : Converter.Outlived last input) (h : impl.drain context last = .ok (result, impl')) :
    (result.status = .frame ∧ Sounds impl.rate result ∧
        Converter.Step impl.target { impl with inputs := input :: rest }.converter [impl'.itemOf result]
          { impl' with inputs := input :: rest }.converter) ∨
      (result.status ≠ .frame ∧ Converter.Step impl.target { impl with inputs := input :: rest }.converter []
        { impl'.clearConverter with inputs := input :: rest }.converter) := by
  have hused : ({ impl with inputs := input :: rest }.converter).last = some last := by
    show impl.context.bind (fun _ => impl.lastInput) = some last
    rw [hcontext]
    exact hlast
  unfold drain at h
  obtain ⟨_, -, h⟩ := bind_ok h
  obtain ⟨_, hwritten, h⟩ := bind_ok h
  rw [allocate_space] at h hwritten
  have hsamples : 0 ≤ (swrConvert context (Converter.space context 0) none).1 := throwIfError_ok hwritten
  split at h
  · cases h
  · rename_i pts hnext
    rcases output_ok h with ⟨hzero, hnull, rfl⟩ | ⟨hne, rfl, out, hgives⟩
    · exact .inr ⟨by rw [hnull]; decide, .closed hcontext hused rfl houtlived hzero⟩
    · have hpos : 0 < (swrConvert context (Converter.space context 0) none).1 := lt_of_le_of_ne hsamples (Ne.symm hne)
      refine .inl ⟨hgives.status, hgives.sounds hpos, ?_⟩
      rw [hgives.item]
      have hstep : Converter.Step impl.target _ _ _ := .drained hcontext hused rfl houtlived hnext rfl hpos
      simp only [converter, hcontext, hlast, Option.bind_some] at hstep ⊢
      exact hstep

/-- The converter is for the next input. -/
def Fit (impl : AudioResampler) (input : AvDecoderReadResult) : Prop :=
  impl.context.isSome → ∃ last, impl.lastInput = some last ∧ ¬Converter.Outlived last input

/-- The front of a turn. -/
theorem drainFirst_run {input : AvDecoderReadResult} {result : Option AvDecoderReadResult}
    (rest : List AvDecoderReadResult) (h : impl.drainFirst input = .ok (result, impl')) :
    (conversion impl.target).Run { impl with inputs := input :: rest }.converter (result.toList.map impl'.itemOf)
        { impl' with inputs := input :: rest }.converter ∧
      (∀ item, result = some item → item.status = .frame ∧ Sounds impl.rate item) ∧
      (result = none → impl'.Fit input) := by
  unfold drainFirst at h
  split at h
  · rename_i context last hcontext hlast
    split at h
    · rename_i houtlived
      obtain ⟨⟨drained, after⟩, hdrain, h⟩ := bind_ok h
      dsimp only at h
      rcases drain_step rest hcontext hlast houtlived hdrain with ⟨hframe, hsounds, hstep⟩ | ⟨hempty, hstep⟩
      · rw [if_pos hframe] at h
        obtain ⟨rfl, rfl⟩ := Prod.mk.inj (Except.ok.inj h)
        refine ⟨.single hstep, fun item hitem => ?_, fun hnone => (by cases hnone)⟩
        rw [← Option.some.inj hitem]
        exact ⟨hframe, hsounds⟩
      · rw [if_neg hempty] at h
        obtain ⟨rfl, rfl⟩ := Prod.mk.inj (Except.ok.inj h)
        exact ⟨.single hstep, fun item hitem => (by cases hitem), fun _ hsome => (by cases hsome)⟩
    · rename_i hgoing
      obtain ⟨rfl, rfl⟩ := Prod.mk.inj (Except.ok.inj h)
      exact ⟨.refl _, fun item hitem => (by cases hitem), fun _ _ => ⟨last, hlast, hgoing⟩⟩
  · cases h
  · rename_i hcontext
    obtain ⟨rfl, rfl⟩ := Prod.mk.inj (Except.ok.inj h)
    refine ⟨.refl _, fun item hitem => (by cases hitem), fun _ hsome => ?_⟩
    rw [hcontext] at hsome
    cases hsome

/-- A frame goes through the converter. -/
theorem convert_step {context : SwrContext} {input result : AvDecoderReadResult} {rest : List AvDecoderReadResult}
    {source : Frame} {c : Converter} (hcontext : c.context = some context) (hinputs : c.inputs = input :: rest)
    (hgeneration : c.generation = impl.generation) (hstatus : input.status ≠ .eof)
    (hgoing : ∀ last, c.last = some last → ¬Converter.Outlived last input) (hframe : input.frame = some source)
    (h : impl.convert context input source = .ok (result, impl')) :
    Converter.Step impl.target c (if result.status = .frame then [impl'.itemOf result] else [])
        { impl' with inputs := rest }.converter ∧
      (result.status = .frame → Sounds impl.rate result) := by
  unfold convert at h
  obtain ⟨sourcePts, hsource, h⟩ := bind_ok h
  obtain ⟨pts, hpts, h⟩ := bind_ok h
  dsimp only at h
  split at h
  · cases h
  · rename_i hknown
    obtain ⟨targetPts, htarget, h⟩ := bind_ok h
    obtain ⟨_, -, h⟩ := bind_ok h
    obtain ⟨_, hwritten, h⟩ := bind_ok h
    rw [allocate_space] at h hwritten
    obtain ⟨samples, media, context', hconvert⟩ : ∃ samples media context',
        swrConvert (swrNextPts context pts).2 (Converter.space (swrNextPts context pts).2 source.nbSamples)
          (some source) = (samples, media, context') := ⟨_, _, _, rfl⟩
    rw [hconvert] at h hwritten
    dsimp only at h hwritten
    have hsamples := throwIfError_ok hwritten
    have hstep : Converter.Step impl.target _ _ _ :=
      .converted hcontext hinputs hstatus hgoing hframe hsource hpts hknown htarget hconvert hsamples
    rw [Converter.after, hgeneration] at hstep
    rcases output_ok h with ⟨rfl, hnull, rfl⟩ | ⟨hne, rfl, out, hgives⟩
    · rw [Converter.wrote, if_pos rfl, add_zero] at hstep
      refine ⟨?_, fun hcontra => (by rw [hnull] at hcontra; cases hcontra)⟩
      rw [hnull, if_neg (by decide)]
      exact hstep
    · have hpos : 0 < samples := lt_of_le_of_ne hsamples (Ne.symm hne)
      rw [Converter.wrote, if_neg hne] at hstep
      refine ⟨?_, fun _ => hgives.sounds hpos⟩
      rw [if_pos hgives.status, hgives.item]
      exact hstep

/-- A frame that finds no converter makes one. -/
theorem withConverter_run {input : AvDecoderReadResult} {frame : Frame} {context : SwrContext}
    (rest : List AvDecoderReadResult) (hfit : impl.Fit input) (hstatus : input.status ≠ .eof)
    (hframe : input.frame = some frame) (h : impl.withConverter frame = .ok impl')
    (hcontext : impl'.context = some context) :
    ∃ c, (conversion impl.target).Run { impl with inputs := input :: rest }.converter [] c ∧ c.context = some context ∧
      c.inputs = input :: rest ∧ c.generation = impl'.generation ∧
      ∀ last, c.last = some last → ¬Converter.Outlived last input := by
  unfold withConverter at h
  split at h
  · rename_i hnone
    unfold initializeConverter at h
    obtain ⟨context', halloc, h⟩ := bind_ok h
    obtain rfl := Except.ok.inj h
    obtain rfl := Option.some.inj hcontext
    have hstep : Converter.Step impl.target _ _ _ :=
      .initialized (c := { impl with inputs := input :: rest }.converter)
        (Option.isNone_iff_eq_none.mp hnone) rfl hstatus hframe halloc
    exact ⟨_, .single hstep, rfl, rfl, rfl, fun last hcontra => (by cases hcontra)⟩
  · obtain rfl := Except.ok.inj h
    refine ⟨_, .refl _, hcontext, rfl, rfl, fun last hlast => ?_⟩
    obtain ⟨last', hlast', hgoing⟩ := hfit (by rw [hcontext]; rfl)
    have hused : impl.context.bind (fun _ => impl.lastInput) = some last := hlast
    rw [hcontext, Option.bind_some, hlast'] at hused
    rw [← Option.some.inj hused]
    exact hgoing

/-- The rest of a turn takes the input. -/
theorem convertFront_run {input : AvDecoderReadResult} {result : Option AvDecoderReadResult}
    (rest : List AvDecoderReadResult) (hfit : impl.Fit input) (h : impl.convertFront input = .ok (result, impl')) :
    (conversion impl.target).Run { impl with inputs := input :: rest }.converter (result.toList.map impl'.itemOf)
        { impl' with inputs := rest }.converter ∧
      ∀ item, result = some item → impl.Converts item := by
  unfold convertFront at h
  split at h
  · rename_i heof
    obtain ⟨value, hvalue, h⟩ := bind_ok h
    obtain ⟨rfl, rfl⟩ := Prod.mk.inj (Except.ok.inj h)
    have hnone : impl.context = none := by
      by_contra hsome
      obtain ⟨last, -, hgoing⟩ := hfit (Option.isSome_iff_ne_none.mpr hsome)
      exact hgoing (.inl heof)
    have hstep : Converter.Step impl.target _ _ _ :=
      .ended (c := { impl with inputs := input :: rest }.converter) hnone rfl heof
    rw [endPts_ok hvalue]
    refine ⟨?_, fun item hitem => ?_⟩
    · show (conversion impl.target).Run _ [impl.itemOf (eofOf impl.rate input)] _
      rw [itemOf_eof (show (eofOf impl.rate input).status = .eof from heof)]
      exact .single hstep
    · rw [← Option.some.inj hitem]
      exact .inl heof
  · rename_i hstatus
    split at h
    · cases h
    · rename_i frame hframe
      obtain ⟨ready, hready, h⟩ := bind_ok h
      split at h
      · cases h
      · rename_i context hcontext
        obtain ⟨⟨converted, after⟩, hconvert, h⟩ := bind_ok h
        dsimp only at h
        have hsame := withConverter_same hready
        obtain ⟨c, hrun, hused, hinputs, hgeneration, hgoing⟩ :=
          withConverter_run rest hfit hstatus hframe hready hcontext
        obtain ⟨hstep, hsounds⟩ := convert_step hused hinputs hgeneration hstatus hgoing hframe hconvert
        rw [hsame.target] at hstep
        have hconverted := hrun.trans (.single hstep)
        rw [List.nil_append] at hconverted
        split at h
        · rename_i hresult
          obtain ⟨rfl, rfl⟩ := Prod.mk.inj (Except.ok.inj h)
          rw [if_pos hresult] at hconverted
          refine ⟨hconverted, fun item hitem => ?_⟩
          rw [← Option.some.inj hitem]
          exact .inr ⟨hresult, hsame.rate ▸ hsounds hresult⟩
        · rename_i hresult
          obtain ⟨rfl, rfl⟩ := Prod.mk.inj (Except.ok.inj h)
          rw [if_neg hresult] at hconverted
          exact ⟨hconverted, fun item hitem => (by cases hitem)⟩

/-- What a call of `ReadConverted` gives. -/
def given (impl : AudioResampler) (result : AvDecoderReadResult) : List Item :=
  if result.status = .null then [] else [impl.itemOf result]

/-- One call of `ReadConverted` is a run of the conversion. -/
theorem readConverted_run {inputs : List AvDecoderReadResult} {item : AvDecoderReadResult}
    (h : readConverted inputs impl = .ok (item, impl')) :
    (conversion impl.target).Run { impl with inputs := inputs }.converter (impl'.given item) impl'.converter ∧
      (item.status = .null ∨ impl.Converts item) := by
  induction inputs generalizing impl with
  | nil =>
    obtain ⟨rfl, rfl⟩ := Prod.mk.inj (Except.ok.inj h)
    exact ⟨.refl _, .inl rfl⟩
  | cons input rest ih =>
    unfold readConverted at h
    obtain ⟨⟨result, drained⟩, hdrain, h⟩ := bind_ok h
    have hsame := (drainFirst_same hdrain).1
    obtain ⟨hrun, hitem, hfit⟩ := drainFirst_run rest hdrain
    dsimp only at h
    cases result with
    | some result =>
      obtain ⟨rfl, rfl⟩ := Prod.mk.inj (Except.ok.inj h)
      obtain ⟨hframe, hsounds⟩ := hitem _ rfl
      rw [given, if_neg (by rw [hframe]; decide)]
      exact ⟨hrun, .inr (.inr ⟨hframe, hsounds⟩)⟩
    | none =>
      obtain ⟨⟨result, converted⟩, hconvert, h⟩ := bind_ok h
      have hsame' := (convertFront_same hconvert).1
      obtain ⟨hrun', hitem'⟩ := convertFront_run rest (hfit rfl) hconvert
      rw [hsame.target] at hrun'
      have hboth := hrun.trans hrun'
      dsimp only at h
      cases result with
      | some result =>
        obtain ⟨rfl, rfl⟩ := Prod.mk.inj (Except.ok.inj h)
        have hconverts : impl.Converts result := by
          rw [Converts, ← hsame.rate]
          exact hitem' _ rfl
        rw [given, if_neg hconverts.status_ne]
        exact ⟨hboth, .inr hconverts⟩
      | none =>
        obtain ⟨hrest, hlast⟩ := ih h
        rw [hsame'.target, hsame.target] at hrest
        refine ⟨hboth.trans hrest, ?_⟩
        rw [Converts, hsame'.rate, hsame.rate] at hlast
        exact hlast

end AudioResampler

end MwStreamer
