import MwStreamer.Filter.ListSpec
import MwStreamer.Filter.ResamplerReads
import MwStreamer.Scheduler.Delivery

/-!
# Conversion is drained before more input

The driver asks the source for more when the worker reports that it needs input, which is when it has nothing
pending and nothing to return.  For video the worker returns what the converter returned, so it needs input
only when the converter is drained.  For audio the business callback stands between the two: where it returns
nothing for a frame, the worker reports that it needs input whatever the resampler still holds.
-/

namespace MwStreamer

/-! ### The converters -/

/-- What drained means to a converter: only a push ends it. -/
structure Scheduler.Drains {κ : Type} [Converter κ] (Valid : κ → Prop) : Prop where
  push : ∀ c item accepted c', Valid c → tryPushFrame c item = some (accepted, c') → Valid c'
  read : ∀ c item c', Valid c → tryReadFrame c = some (item, c') → Valid c'
  refused : ∀ (c : κ) item c', tryPushFrame c item = some (false, c') → c' = c
  null : ∀ c item c', Valid c → tryReadFrame c = some (item, c') → item.status = .null → Scheduler.Drained c'

namespace ForceFps

variable [Libav]

theorem tryPushFrame_ok {impl impl' : ForceFps} {input : AvDecoderReadResult} {accepted : Bool}
    (h : impl.tryPushFrame input = .ok (accepted, impl')) :
    (accepted = false ∧ impl' = impl) ∨
      (accepted = true ∧ impl.checkInput input = .ok () ∧
        impl' = { impl with inputs := impl.inputs ++ [input] }) := by
  unfold tryPushFrame at h
  split at h
  · cases h
    exact .inl ⟨rfl, rfl⟩
  · split at h
    · cases h
      exact .inl ⟨rfl, rfl⟩
    · cases hcheck : impl.checkInput input with
      | error e =>
        rw [hcheck] at h
        cases h
      | ok u =>
        rw [hcheck] at h
        cases h
        exact .inr ⟨rfl, rfl, rfl⟩

theorem Valid.push {impl impl' : ForceFps} {input : AvDecoderReadResult} {accepted : Bool} (hv : impl.Valid)
    (h : impl.tryPushFrame input = .ok (accepted, impl')) : impl'.Valid := by
  rcases tryPushFrame_ok h with ⟨-, rfl⟩ | ⟨-, hcheck, rfl⟩
  · exact hv
  · refine ⟨hv.timeBase, hv.running, ?_, hv.slot, hv.next, hv.lastFrame⟩
    intro x hx
    rcases List.mem_append.mp hx with hx | hx
    · exact hv.accepted x hx
    · rw [List.mem_singleton.mp hx]
      exact checkInput_ok hv.timeBase hcheck

/-- A filter with an empty queue returns nothing. -/
theorem tryReadFrame_empty {impl : ForceFps} (h : impl.inputs = []) : impl.tryReadFrame = (.ok {}, impl) := by
  unfold tryReadFrame
  split
  · rfl
  · rw [h]
    rfl

end ForceFps

namespace Scheduler

/-- The converter of a track: `ForceFps` for video, `AudioResampler` for audio. -/
inductive TrackConverter [LibAudio] where
  | video (forceFps : ForceFps)
  | audio (resampler : AudioResampler)

/-- A call of a converter, when it returns. -/
def returned {α σ : Type} (call : Except Exception α × σ) : Option (α × σ) :=
  match call.1 with
  | .ok a => some (a, call.2)
  | .error _ => none

section

variable [Libav] [LibAudio]

instance : Converter TrackConverter where
  tryPushFrame
    | .video forceFps, item => (forceFps.tryPushFrame item).toOption.map fun r => (r.1, .video r.2)
    | .audio resampler, item => (resampler.tryPushFrame item).toOption.map fun r => (r.1, .audio r.2)
  tryReadFrame
    | .video forceFps => (returned forceFps.tryReadFrame).map fun r => (r.1, .video r.2)
    | .audio resampler => (resampler.tryReadFrame.bind returned).map fun r => (r.1, .audio r.2)

def TrackConverter.Valid : TrackConverter → Prop
  | .video forceFps => forceFps.Valid
  | .audio resampler => resampler.Valid

omit [Libav] [LibAudio] in
theorem returned_ok {α σ : Type} {call : Except Exception α × σ} {a : α} {s : σ}
    (h : returned call = some (a, s)) : call = (.ok a, s) := by
  obtain ⟨result, after⟩ := call
  cases result with
  | error e => cases h
  | ok b =>
    obtain ⟨rfl, rfl⟩ := Prod.mk.inj (Option.some.inj h)
    rfl

omit [Libav] [LibAudio] in
theorem toOption_ok {ε α : Type} {x : Except ε α} {a : α} (h : x.toOption = some a) : x = .ok a := by
  cases x with
  | error e => cases h
  | ok b =>
    obtain rfl := Option.some.inj h
    rfl

theorem video_read {forceFps : ForceFps} {item : AvDecoderReadResult} {c : TrackConverter}
    (h : tryReadFrame (.video forceFps : TrackConverter) = some (item, c)) :
    ∃ after, forceFps.tryReadFrame = (.ok item, after) ∧ c = .video after := by
  obtain ⟨r, hr, heq⟩ := Option.map_eq_some_iff.mp h
  obtain ⟨rfl, rfl⟩ := Prod.mk.inj heq
  exact ⟨r.2, returned_ok hr, rfl⟩

theorem audio_read {resampler : AudioResampler} {item : AvDecoderReadResult} {c : TrackConverter}
    (h : tryReadFrame (.audio resampler : TrackConverter) = some (item, c)) :
    ∃ after, resampler.tryReadFrame = some (.ok item, after) ∧ c = .audio after := by
  obtain ⟨r, hr, heq⟩ := Option.map_eq_some_iff.mp h
  obtain ⟨rfl, rfl⟩ := Prod.mk.inj heq
  obtain ⟨call, hcall, hreturned⟩ := Option.bind_eq_some_iff.mp hr
  exact ⟨r.2, by rw [hcall, returned_ok hreturned], rfl⟩

/-- **The converters of both tracks.** -/
theorem drains : Drains TrackConverter.Valid where
  push := by
    intro c item accepted c' hv h
    cases c with
    | video forceFps =>
      obtain ⟨r, hr, heq⟩ := Option.map_eq_some_iff.mp h
      obtain ⟨rfl, rfl⟩ := Prod.mk.inj heq
      exact ForceFps.Valid.push hv (toOption_ok hr)
    | audio resampler =>
      obtain ⟨r, hr, heq⟩ := Option.map_eq_some_iff.mp h
      obtain ⟨rfl, rfl⟩ := Prod.mk.inj heq
      rcases AudioResampler.tryPushFrame_ok (toOption_ok hr) with ⟨-, hsame⟩ | ⟨-, hsame⟩
      · rw [hsame]
        exact hv
      · rw [hsame]
        exact ⟨hv.pending, hv.metadata⟩
  read := by
    intro c item c' hv h
    cases c with
    | video forceFps =>
      obtain ⟨after, hread, rfl⟩ := video_read h
      obtain ⟨result, impl, hend, hvalid⟩ := ForceFps.tryReadFrame_end hv
      rw [hread] at hend
      obtain ⟨-, rfl⟩ := Prod.mk.inj hend
      exact hvalid.valid
    | audio resampler =>
      obtain ⟨after, hread, rfl⟩ := audio_read h
      exact (AudioResampler.tryReadFrame_null hv hread).1
  refused := by
    intro c item c' h
    cases c with
    | video forceFps =>
      obtain ⟨r, hr, heq⟩ := Option.map_eq_some_iff.mp h
      obtain ⟨hfalse, rfl⟩ := Prod.mk.inj heq
      rcases ForceFps.tryPushFrame_ok (toOption_ok hr) with ⟨-, hsame⟩ | ⟨htrue, -⟩
      · rw [hsame]
      · rw [hfalse] at htrue
        cases htrue
    | audio resampler =>
      obtain ⟨r, hr, heq⟩ := Option.map_eq_some_iff.mp h
      obtain ⟨hfalse, rfl⟩ := Prod.mk.inj heq
      rcases AudioResampler.tryPushFrame_ok (toOption_ok hr) with ⟨-, hsame⟩ | ⟨htrue, -⟩
      · rw [hsame]
      · rw [hfalse] at htrue
        cases htrue
  null := by
    intro c item c' hv h hnull item' c'' hagain
    cases c with
    | video forceFps =>
      obtain ⟨after, hread, rfl⟩ := video_read h
      obtain ⟨again, hread', -⟩ := video_read hagain
      obtain ⟨result, impl, hend, hvalid⟩ := ForceFps.tryReadFrame_end hv
      rw [hread] at hend
      obtain ⟨hitem, rfl⟩ := Prod.mk.inj hend
      obtain rfl := Except.ok.inj hitem
      rw [ForceFps.tryReadFrame_empty (hvalid.empty hnull)] at hread'
      obtain ⟨hitem', -⟩ := Prod.mk.inj hread'
      rw [← Except.ok.inj hitem']
    | audio resampler =>
      obtain ⟨after, hread, rfl⟩ := audio_read h
      obtain ⟨again, hread', -⟩ := audio_read hagain
      obtain ⟨hvalid, hexhausted⟩ := AudioResampler.tryReadFrame_null hv hread
      exact (hexhausted hnull).read hvalid hread'

end

/-! ### The worker and the driver -/

section

variable {κ : Type} [Converter κ] {Valid : κ → Prop} {video : Bool} {d d' : Driver} {t t' : Track}
  {w w' : Worker} {c c' : κ} {es : List Event}

/-- What the worker finds at its place: the converter is drained where a task that has input begins, and where the
output is nothing. -/
def WorkerPc.FindsDrained (c : κ) : WorkerPc → Prop
  | .filtering input => input.status ≠ .null → Drained c
  | .filteringOutput output => output.status = .null → Drained c
  | .publishing output => output.status = .null → Drained c
  | _ => True

/-- **What is drained when.**  A track that waits for input, a task that has some and a worker that has it find
the converter drained, and so does an output that is nothing. -/
structure Draining (t : Track) (w : Worker) (c : κ) : Prop where
  idle : t.busy = false → t.needsInput = true → Drained c ∧ w.pending.status = .null
  task : t.task.status ≠ .null → Drained c
  pending : w.pending.status ≠ .null → Drained c
  place : w.pc.FindsDrained c

/-- A step of the worker inside its job. -/
theorem Draining.of_working (hs : Handshake video d t w) (hw : w.pc.Working)
    (hpending : w'.pending.status ≠ .null → Drained c') (hplace : w'.pc.FindsDrained c') : Draining t w' c' := by
  obtain ⟨hbusy, hrequested⟩ := hs.working hw
  refine ⟨fun hidle => ?_, fun htask => ?_, hpending, hplace⟩
  · rw [hbusy] at hidle
    cases hidle
  · exact absurd (hs.task hrequested) htask

/-- **A worker step.** -/
theorem WorkerStep.draining {stopping : Bool} (hd : Drains Valid) (hv : Valid c) (hs : Handshake video d t w)
    (h : WorkerStep video stopping w t c es w' t' c') (hkept : .at video (.swallowed true) ∉ es)
    (hdraining : Draining t w c) : Draining t' w' c' ∧ Valid c' := by
  have hplace := hdraining.place
  cases h
  case stop hpc hstop => exact ⟨⟨hdraining.idle, hdraining.task, hdraining.pending, trivial⟩, hv⟩
  case fetch hpc hgo hrequested =>
    exact ⟨⟨hdraining.idle, fun htask => absurd rfl htask, hdraining.pending, hdraining.task⟩, hv⟩
  case filterNothing input hpc hinput =>
    exact ⟨.of_working hs (by rw [hpc]; trivial) hdraining.pending trivial, hv⟩
  case filterVideo input pending hpc hinput hvideo =>
    rw [hpc] at hplace
    exact ⟨.of_working hs (by rw [hpc]; trivial) (fun _ => hplace hinput) trivial, hv⟩
  case filterAudio input hpc hinput hvideo =>
    rw [hpc] at hplace
    exact ⟨.of_working hs (by rw [hpc]; trivial) (fun _ => hplace hinput) trivial, hv⟩
  case pushNothing hpc hpending =>
    exact ⟨.of_working hs (by rw [hpc]; trivial) hdraining.pending trivial, hv⟩
  case pushRefused hpc hpending hpush =>
    obtain rfl := hd.refused _ _ _ hpush
    exact ⟨.of_working hs (by rw [hpc]; trivial) hdraining.pending trivial, hv⟩
  case push hpc hpending hpush =>
    exact ⟨.of_working hs (by rw [hpc]; trivial) (fun hnew => absurd rfl hnew) trivial, hd.push _ _ _ _ hv hpush⟩
  case read output hpc hread =>
    refine ⟨.of_working hs (by rw [hpc]; trivial) (fun hpending => ?_) fun hitem => ?_, hd.read _ _ _ hv hread⟩
    · -- A drained converter stays drained.
      exact hd.null _ _ _ hv hread (hdraining.pending hpending _ _ hread)
    · exact hd.null _ _ _ hv hread hitem
  case outputKept output hpc hside =>
    rw [hpc] at hplace
    exact ⟨.of_working hs (by rw [hpc]; trivial) hdraining.pending hplace, hv⟩
  case outputFiltered output result hpc hvideo houtput =>
    refine ⟨.of_working hs (by rw [hpc]; trivial) hdraining.pending fun hitem => ?_, hv⟩
    -- The callback returned nothing, and the event tells whether the converter was drained.
    rw [if_pos hitem] at hkept
    by_contra hleft
    exact hkept (by simp [hleft])
  case publish output hpc =>
    obtain ⟨-, hrequested⟩ := hs.working (by rw [hpc]; trivial)
    rw [hpc] at hplace
    refine ⟨⟨fun _ hneeds => ?_, fun htask => ?_, hdraining.pending, trivial⟩, hv⟩
    · have hneeds : (decide (w.pending.status = .null) && decide (output.status = .null)) = true := hneeds
      simp only [Bool.and_eq_true, decide_eq_true_eq] at hneeds
      exact ⟨hplace hneeds.2, hneeds.1⟩
    · exact absurd (hs.task hrequested) htask
  case notify hpc => exact ⟨⟨hdraining.idle, hdraining.task, hdraining.pending, trivial⟩, hv⟩

/-- What a driver step does to the job of its track. -/
theorem DriverStep.job [Libav] {shared : Shared} (h : DriverStep shared d t es d' t') :
    (∃ input, d.pc = .dispatching input ∧ t' = t.dispatch input) ∨
      (t'.busy = t.busy ∧ t'.needsInput = t.needsInput ∧ t'.task = t.task) := by
  cases h
  case complete =>
    right
    unfold Track.complete
    split <;> exact ⟨rfl, rfl, rfl⟩
  case stepping now space step hpc =>
    have hsame := SameJob.deliver t space step shared.now
    exact .inr ⟨hsame.busy, hsame.needsInput, hsame.task⟩
  case dispatch input hpc hgo => exact .inl ⟨input, hpc, rfl⟩
  all_goals exact .inr ⟨rfl, rfl, rfl⟩

/-- **A driver step.** -/
theorem DriverStep.draining [Libav] {shared : Shared} (h : DriverStep shared d t es d' t')
    (hs : Handshake d.video d t w) (hdraining : Draining t w c) : Draining t' w c := by
  rcases h.job with ⟨input, hpc, rfl⟩ | ⟨hbusy, hneeds, htask⟩
  · have hidle := hs.idle rfl (by rw [hpc]; trivial)
    refine { hdraining with idle := fun hb => ?_, task := fun hinput => ?_ }
    · cases hb
    · have hasking := hs.asking rfl (by rw [hpc]; exact hinput)
      exact (hdraining.idle hidle.1 hasking).1
  · refine { hdraining with idle := ?_, task := ?_ }
    · rw [hbusy, hneeds]
      exact hdraining.idle
    · rw [htask]
      exact hdraining.task

end

section

variable {κ : Type} [Converter κ] [Libav] {Valid : κ → Prop} {Fresh : (Bool → κ) → Prop} {s s' : State κ}
  {es : List Event}

omit [Converter κ] [Libav] in
theorem State.fail_converter (s : State κ) (e : Exception) : (s.fail e).converter = s.converter := by
  unfold State.fail
  split <;> rfl

/-- **A step in which no callback swallows a frame.** -/
theorem Step.draining (hd : Drains Valid) (h : Step s es s')
    (hs : ∀ v, Handshake v s.driver (s.track v) (s.worker v)) (hkept : ∀ v, .at v (.swallowed true) ∉ es)
    (hdraining : ∀ v, Draining (s.track v) (s.worker v) (s.converter v) ∧ Valid (s.converter v)) (v : Bool) :
    Draining (s'.track v) (s'.worker v) (s'.converter v) ∧ Valid (s'.converter v) := by
  cases h
  case driver d t h =>
    show Draining (Function.update s.track s.driver.video t v) _ _ ∧ _
    by_cases hv : v = s.driver.video
    · subst hv
      rw [Function.update_self]
      exact ⟨h.draining (hs _) (hdraining _).1, (hdraining _).2⟩
    · rw [Function.update_of_ne hv]
      exact hdraining v
  case driverThrows e hpc =>
    show Draining ((s.fail e).track v) ((s.fail e).worker v) ((s.fail e).converter v) ∧ Valid ((s.fail e).converter v)
    rw [State.fail_track, State.fail_worker, State.fail_converter]
    exact hdraining v
  case worker v' w t c h =>
    show Draining (Function.update s.track v' t v) (Function.update s.worker v' w v)
      (Function.update s.converter v' c v) ∧ Valid (Function.update s.converter v' c v)
    by_cases hv : v = v'
    · subst hv
      rw [Function.update_self, Function.update_self, Function.update_self]
      exact h.draining hd (hdraining v).2 (hs v) (hkept v) (hdraining v).1
    · rw [Function.update_of_ne hv, Function.update_of_ne hv, Function.update_of_ne hv]
      exact hdraining v
  case workerThrows v' e hpc =>
    show Draining ((s.fail e).track v) (Function.update s.worker v' _ v) ((s.fail e).converter v) ∧
      Valid ((s.fail e).converter v)
    rw [State.fail_track, State.fail_converter]
    by_cases hv : v = v'
    · subst hv
      rw [Function.update_self]
      obtain ⟨hold, hvalid⟩ := hdraining v
      exact ⟨⟨hold.idle, hold.task, hold.pending, trivial⟩, hvalid⟩
    · rw [Function.update_of_ne hv]
      exact hdraining v
  all_goals exact hdraining v

theorem run_draining (hd : Drains Valid) (hfresh : ∀ c, Fresh c → ∀ v, Drained (c v) ∧ Valid (c v))
    (hs : (system Fresh).init s) (hrun : (system Fresh).Run s es s') (hkept : ∀ v, .at v (.swallowed true) ∉ es)
    (v : Bool) : Draining (s'.track v) (s'.worker v) (s'.converter v) ∧ Valid (s'.converter v) := by
  induction hrun generalizing v with
  | refl =>
    obtain ⟨hdrained, hvalid⟩ := hfresh _ hs.2 v
    rw [hs.1.worker v]
    exact ⟨⟨fun _ _ => ⟨hdrained, rfl⟩, fun _ => hdrained, fun _ => hdrained, trivial⟩, hvalid⟩
  | @snoc t u es fs hrun hstep ih =>
    have ht : (system Fresh).Reachable t := .run (.init hs) hrun
    have hbefore := ih fun v hmem => hkept v (List.mem_append_left _ hmem)
    exact Step.draining hd hstep (reachable_handshake ht) (fun v hmem => hkept v (List.mem_append_right _ hmem))
      hbefore v

/-- What a request for input finds: everything of the inputs before is delivered. -/
structure Requested (v : Bool) (s : State κ) : Prop where
  head : (s.track v).head.status = .null
  result : (s.track v).result.status = .null
  pending : (s.worker v).pending.status = .null
  drained : Drained (s.converter v)

/-- The driver is about to ask for input. -/
theorem Step.asks {v : Bool} {item : AvDecoderReadResult} (h : Step s es s')
    (hs : Handshake v s.driver (s.track v) (s.worker v))
    (hmem : .at v (.read item) ∈ es ∨ .at v (.dispatched item) ∈ es) :
    (s.track v).busy = false ∧ (s.track v).completed = false ∧ (s.track v).head.status = .null ∧
      (s.track v).needsInput = true := by
  cases h with
  | driver es d t h =>
    cases h
    case prepareRead now hpc hhead hneeds hsource read hread =>
      obtain ⟨rfl, -⟩ := by simpa using hmem
      obtain ⟨hbusy, hcompleted⟩ := hs.idle rfl (by rw [hpc]; trivial)
      exact ⟨hbusy, hcompleted, hhead, hneeds⟩
    case dispatch input hpc hgo =>
      have hinput : input.status ≠ .null := by
        intro hnull
        simp [itemEvent, hnull] at hmem
      have hv : s.driver.video = v := by
        simp only [itemEvent, if_neg hinput] at hmem
        obtain ⟨rfl, -⟩ := by simpa using hmem
        rfl
      have hasking : s.driver.pc.Asking := by
        rw [hpc]
        exact hinput
      obtain ⟨hbusy, hcompleted⟩ := hs.idle hv hasking.unheld.preparing
      exact ⟨hbusy, hcompleted, hs.unheld hv hasking.unheld, hs.asking hv hasking⟩
    all_goals simp at hmem
  | worker v' es w t c h => cases h <;> simp [itemEvent] at hmem
  | _ => simp at hmem

/-- The worker hands an item to the converter. -/
theorem Step.pushes {v : Bool} {item : AvDecoderReadResult} (h : Step s es s') (hmem : .at v (.pushed item) ∈ es) :
    (s.worker v).pending.status ≠ .null := by
  cases h with
  | driver es d t h => cases h <;> simp [itemEvent] at hmem
  | worker v' es w t c h =>
    cases h
    case push hpc hpending hpush =>
      obtain ⟨rfl, -⟩ := by simpa using hmem
      exact hpending
    all_goals simp [itemEvent] at hmem
  | _ => simp at hmem

end

section

variable [Libav] [LibAudio]

/-- The converters after `Reset`; the frame rate of the filter was checked when it was made. -/
def Reset (converter : Bool → TrackConverter) : Prop :=
  (∃ forceFps : ForceFps, forceFps.timeBase.Positive ∧ converter true = .video forceFps.reset) ∧
    ∃ resampler : AudioResampler, converter false = .audio resampler.reset

theorem Reset.drained {converter : Bool → TrackConverter} (h : Reset converter) (v : Bool) :
    Drained (converter v) ∧ (converter v).Valid := by
  obtain ⟨⟨forceFps, hbase, hvideo⟩, resampler, haudio⟩ := h
  cases v with
  | true =>
    have hvalid : forceFps.reset.Valid := by
      refine ⟨hbase, rfl, fun input hinput => ?_, rfl, rfl, fun input hinput => ?_⟩
      · cases hinput
      · cases hinput
    rw [hvideo]
    refine ⟨fun item c' hread => ?_, hvalid⟩
    obtain ⟨after, hread, -⟩ := video_read hread
    rw [ForceFps.tryReadFrame_empty rfl] at hread
    rw [← Except.ok.inj (Prod.mk.inj hread).1]
  | false =>
    have hvalid : resampler.reset.Valid := ⟨by simp [AudioResampler.reset, AudioResampler.clearBlocks],
      by simp [AudioResampler.reset, AudioResampler.clearBlocks]⟩
    have hempty : resampler.reset.Empty := by
      refine ⟨fun item impl' hread => ?_, rfl, rfl⟩
      simp [AudioResampler.receiveBlock, AudioResampler.reset, AudioResampler.clearBlocks] at hread
    rw [haudio]
    refine ⟨fun item c' hread => ?_, hvalid⟩
    obtain ⟨after, hread, -⟩ := audio_read hread
    exact AudioResampler.Exhausted.read (.inr (.inl hempty)) hvalid hread

/-- **Conversion is drained before more input.**  In every run in which the audio callback never returns nothing
for a frame while the resampler holds more, a source item is read and dispatched only when everything of the
items before has been delivered, and a converter is given an item only when it holds nothing. -/
theorem conversion_drained {s s' s'' : State TrackConverter} {es fs : List Event} (hs : (system Reset).init s)
    (hrun : (system Reset).Run s es s') (hkept : ∀ v, .at v (.swallowed true) ∉ es) (hstep : Step s' fs s'')
    (v : Bool) (item : AvDecoderReadResult) :
    (.at v (.read item) ∈ fs ∨ .at v (.dispatched item) ∈ fs → Requested v s') ∧
      (.at v (.pushed item) ∈ fs → Drained (s'.converter v)) := by
  have hreach : (system Reset).Reachable s' := .run (.init hs) hrun
  have hhand := reachable_handshake hreach v
  obtain ⟨hdraining, -⟩ := run_draining drains (fun c hc => Reset.drained hc) hs hrun hkept v
  refine ⟨fun hmem => ?_, fun hmem => hdraining.pending (Step.pushes hstep hmem)⟩
  obtain ⟨hbusy, hcompleted, hhead, hneeds⟩ := Step.asks hstep hhand hmem
  obtain ⟨hdrained, hpending⟩ := hdraining.idle hbusy hneeds
  exact ⟨hhead, hhand.result hcompleted, hpending, hdrained⟩

end

section

attribute [local instance] Libav.reference LibAudio.reference

/-- A resampler to stereo at 48 kHz in blocks of 1024 samples. -/
def blocks : AudioResampler :=
  { rate := 48000, format := 8, capacity := 8, outputSamplesPerFrame := 1024, layout := ⟨2, 3⟩, turns := 8 }

def avStart : State TrackConverter :=
  start (fun video => !video) fun video =>
    if video then .video (ForceFps.reset { capacity := 8, timeBase := ⟨1, 25⟩ }) else .audio blocks.reset

/-- Audio of the given length. -/
def audio (pts samples : ℤ) : AvDecoderReadResult :=
  { status := .frame
    frame := some
      { media := some (.stored 0), pts := pts, timeBase := ⟨1, 48000⟩, nbSamples := samples, format := 8,
        sampleRate := 48000, chLayout := ⟨2, 3⟩ }
    timeBase := ⟨1, 48000⟩ }

/-- The driver reads and dispatches audio, and goes on until it waits. -/
def dispatchAudio (pts samples : ℤ) : List Choice :=
  List.replicate 15 (.driver {}) ++
    [.driver { item := audio pts samples }, .driver { decision := { ready := true } }] ++
    List.replicate 5 (.driver {})

/-- The worker runs once; the callback answers `item`. -/
def processAudio (item : AvDecoderReadResult) : List Choice := List.replicate 7 (.worker false item)

/-- The driver wakes, delivers and comes to the source. -/
def toSource : List Choice :=
  List.replicate 9 (.driver {}) ++ List.replicate 7 (.driver { step := { consumed := true } })

/-- Two blocks in one input, and a callback that returns nothing for the first. -/
def swallowedRun : List Event × State TrackConverter :=
  Transition.replay execute avStart (dispatchAudio 0 2048 ++ processAudio {} ++ toSource)

/-- One block in one input, taken back by the callback, and a second run that finds nothing more. -/
def deliveredRun : List Event × State TrackConverter :=
  Transition.replay execute avStart (dispatchAudio 0 1024 ++ processAudio (audio 0 1024) ++ toSource ++
    List.replicate 6 (.driver {}) ++ processAudio {} ++ toSource)

theorem avStart_init : (system Reset).init avStart := by
  refine ⟨start_started _ _, ⟨_, ?_, rfl⟩, _, rfl⟩
  exact ⟨by decide, by decide⟩

/-- The next source item is read although the callback has returned nothing for the first block of the input
before and the resampler holds the second. -/
theorem conversion_not_drained :
    ∃ (s s' s'' : State TrackConverter) (es fs : List Event), (system Reset).init s ∧ (system Reset).Run s es s' ∧
      Step s' fs s'' ∧ .at false (.read (audio 2048 2048)) ∈ fs ∧ ¬Drained (s'.converter false) := by
  have hrun := execute_run Reset avStart (dispatchAudio 0 2048 ++ processAudio {} ++ toSource)
  have hstep := execute_step swallowedRun.2 (.driver { item := audio 2048 2048 })
  exact ⟨_, _, _, _, _, avStart_init, hrun, hstep, by decide +kernel, by decide +kernel⟩

theorem conversion_drained_block :
    .at false (.returned (audio 0 1024)) ∈ deliveredRun.1 ∧ Requested false deliveredRun.2 := by
  have hrun := execute_run Reset avStart (dispatchAudio 0 1024 ++ processAudio (audio 0 1024) ++ toSource ++
    List.replicate 6 (.driver {}) ++ processAudio {} ++ toSource)
  have hstep := execute_step deliveredRun.2 (.driver { item := audio 1024 1024 })
  refine ⟨by decide +kernel, ?_⟩
  exact (conversion_drained avStart_init hrun (by decide +kernel) hstep false (audio 1024 1024)).1
    (.inl (by decide +kernel))

end

end Scheduler

end MwStreamer
