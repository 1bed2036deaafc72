import MwStreamer.Pipeline.ForwardingRuns
import MwStreamer.Pipeline.RemuxPipeline

/-!
# The packet worker among the other threads

`RemuxForwarding.Worker` says what the packet worker does with packets, `RemuxPipeline.Worker` where it is while the
other threads run.  The second follows the first: through every turn it starts the same sessions and makes the same
calls of the callback and of `SubmitPacket`, in the same order, and stands afterwards where `Stage.place` says.  So
every run of a worker that forwards packets is part of a run of the pipeline.
-/

namespace MwStreamer.RemuxForwarding

open RemuxPipeline (Pc Task)
open StateExcept

/-- What both models tell of the worker: a session that is started, a call of the callback, one of `SubmitPacket`. -/
inductive Effect where
  | session
  | callback
  | submit
  deriving DecidableEq, Repr

def Event.effect? : Event → Option Effect
  | .session _ => some .session
  | .callback _ => some .callback
  | .submit _ => some .submit
  | _ => none

/-- What the step from a place of the pipeline's worker does. -/
def effectAt : Pc → Option Effect
  | .sessionStarted => some .session
  | .calling => some .callback
  | .submitting _ => some .submit
  | _ => none

/-- Steps of the packet worker and their effects, oldest first. -/
inductive Works : RemuxPipeline → List Effect → RemuxPipeline → Prop where
  | refl (p : RemuxPipeline) : Works p [] p
  | step {p q r : RemuxPipeline} {worker : RemuxPipeline.Worker} {answer : RemuxPipeline.Answer}
      {events : List RemuxPipeline.Event} {effects : List Effect} (h : p.worker = some worker)
      (hnext : p.next (.work answer) = some (events, q)) (hrest : Works q effects r) :
      Works p ((effectAt worker.pc).toList ++ effects) r

theorem Works.trans {p q r : RemuxPipeline} {effects after : List Effect} (h : Works p effects q)
    (hafter : Works q after r) : Works p (effects ++ after) r := by
  induction h with
  | refl => exact hafter
  | step h hnext _ ih =>
    rw [List.append_assoc]
    exact .step h hnext (ih hafter)

/-- They are a run of the pipeline. -/
theorem Works.run {p q : RemuxPipeline} {effects : List Effect} (h : Works p effects q) :
    ∃ events, RemuxPipeline.system.Run p events q := by
  induction h with
  | refl p => exact ⟨[], .refl p⟩
  | step _ hnext _ ih =>
    obtain ⟨events, hrun⟩ := ih
    have hstep : RemuxPipeline.system.step _ _ _ := ⟨_, hnext⟩
    exact ⟨_, (Transition.Run.single hstep).trans hrun⟩

/-! ### Where the worker stands -/

/-- Where the pipeline's worker is between two turns. -/
def Stage.place : Stage → RemuxPipeline.Worker
  | .looping => { pc := .looping }
  | .sampling _ => { pc := .preparing }
  | .draining => { pc := .leaving, eof := true }
  | .failed _ => { pc := .leaving }

/-- What it is bound to do there: a failure is reported by `Fail`. -/
def Stage.bound : Stage → List Task
  | .failed e => [.fail e]
  | _ => []

/-- The worker is at this place, and no stop is requested. -/
structure At (p : RemuxPipeline) (worker : RemuxPipeline.Worker) (bound : List Task) (loop : Bool) : Prop where
  worker : p.worker = some worker
  bound : p.todo .worker = bound
  going : p.stopping = false
  loop : p.loop = loop

/-- The pipeline is where the worker is between two turns; a session of the worker has an output. -/
structure Placed (p : RemuxPipeline) (w : Worker) : Prop extends At p w.stage.place w.stage.bound w.loop where
  current : w.stage = .looping → w.description.isSome → p.current.isSome

/-- The pipeline's worker comes with these effects to where `w` is. -/
def Follows (p : RemuxPipeline) (effects : List Effect) (w : Worker) : Prop :=
  ∃ q, Works p effects q ∧ Placed q w

namespace At

variable {p q : RemuxPipeline} {worker : RemuxPipeline.Worker} {bound : List Task} {loop : Bool}

theorem goto (h : At p worker bound loop) (pc : Pc) :
    At (p.goto worker pc) { worker with pc := pc } bound loop :=
  ⟨rfl, h.bound, h.going, h.loop⟩

theorem caught (h : At p worker bound loop) (e : Exception) :
    At (p.caught worker e) { worker with pc := .leaving } [.fail e] loop := by
  refine ⟨rfl, ?_, h.going, h.loop⟩
  show Function.update p.todo .worker [.fail e] .worker = [.fail e]
  rw [Function.update_self]

/-- A step of the worker, and what follows it. -/
theorem step {effects : List Effect} {w : Worker} (h : At p worker [] loop) (answer : RemuxPipeline.Answer)
    (events : List RemuxPipeline.Event) (hwork : p.work worker answer = some (events, q)) (hq : Follows q effects w) :
    Follows p ((effectAt worker.pc).toList ++ effects) w := by
  obtain ⟨r, hworks, hplaced⟩ := hq
  have hnext : p.next (.work answer) = some (events, q) := by
    simp only [RemuxPipeline.next, h.worker, h.bound, List.isEmpty_nil, if_true, hwork]
  exact ⟨r, .step h.worker hnext hworks, hplaced⟩

/-- A step that goes elsewhere when a stop is requested. -/
theorem goes {pc stopped : Pc} {effects : List Effect} {w : Worker} (h : At p worker [] loop)
    (answer : RemuxPipeline.Answer)
    (hwork : p.work worker answer = some ([], p.goto worker (if p.stopping then stopped else pc)))
    (hq : Follows (p.goto worker pc) effects w) : Follows p ((effectAt worker.pc).toList ++ effects) w := by
  rw [h.going] at hwork
  exact h.step answer [] hwork hq

/-- A step that comes to where the worker is after its turn. -/
theorem last {w : Worker} (h : At p worker [] loop) (answer : RemuxPipeline.Answer)
    (events : List RemuxPipeline.Event) (hwork : p.work worker answer = some (events, q)) (hq : Placed q w) :
    Follows p (effectAt worker.pc).toList w := by
  have hfollows := h.step answer events hwork ⟨q, .refl q, hq⟩
  rwa [List.append_nil] at hfollows

end At

theorem Placed.follows {p : RemuxPipeline} {w : Worker} (h : Placed p w) : Follows p [] w := ⟨p, .refl p, h⟩

/-- A thrown error is caught around the loop. -/
theorem caught_placed {p : RemuxPipeline} {pc : Pc} {bound : List Task} {w : Worker}
    (h : At p { pc := pc } bound w.loop) (e : Exception) : Placed (p.caught { pc := pc } e) (w.fail e) :=
  { h.caught e with current := fun hstage => by cases hstage }

/-! ### The phases of a turn -/

section Phases

variable {p : RemuxPipeline} {w : Worker}

/-- From `SubmitPacket` on, with the output that was the current one. -/
theorem submit_follows (arrival : Arrival) {answer : Answer} (hcallback : answer.callback = none) {output : Option ℕ}
    (h : At p { pc := .submitting output } [] w.loop) (hcurrent : p.current.isSome) (houtput : output.isSome) :
    Follows p [.submit] (w.deliver arrival answer).2 := by
  simp only [Worker.deliver, hcallback]
  cases haccepts : answer.accepts with
  | error e =>
    have hsubmit : p.work { pc := .submitting output } { thrown := some e } =
        some ([], p.caught { pc := .submitting output } e) := rfl
    exact h.last _ _ hsubmit (caught_placed h e)
  | ok accepts =>
    have hsubmit : p.work { pc := .submitting output } { accepts := accepts } =
        some ([], p.goto { pc := .submitting output } (if accepts then .submitted else .rejected)) := by
      simp only [RemuxPipeline.work, houtput, Bool.true_and]
    cases accepts with
    | false =>
      have hrejected := h.goto .rejected
      refine h.step _ _ hsubmit (hrejected.last {} [] ?_ (caught_placed hrejected _))
      simp only [RemuxPipeline.work, hrejected.going, Bool.false_eq_true, if_false]
    | true =>
      have hsubmitted := h.goto .submitted
      refine h.step _ _ hsubmit (hsubmitted.last {} _ rfl ?_)
      exact { hsubmitted.goto .looping with current := fun _ _ => hcurrent }

/-- From the wait for its time on: the callback and the output. -/
theorem deliver_follows (arrival : Arrival) (answer : Answer) (h : At p { pc := .pacing } [] w.loop)
    (hcurrent : p.current.isSome) :
    Follows p ((w.deliver arrival answer).1.filterMap Event.effect?) (w.deliver arrival answer).2 := by
  have hcalling := h.goto .calling
  refine h.goes {} rfl ?_
  cases hcallback : answer.callback with
  | some e =>
    rw [Worker.deliver, hcallback]
    exact hcalling.last { thrown := some e } _ rfl (caught_placed hcalling e)
  | none =>
    have hevents : (w.deliver arrival answer).1.filterMap Event.effect? = [.callback] ++ [.submit] := by
      simp only [Worker.deliver, hcallback]
      split <;> rfl
    have hchecking := hcalling.goto .submitChecking
    have hcapturing := hchecking.goto .capturing
    rw [hevents]
    refine hcalling.step {} _ rfl (hchecking.goes {} rfl (hcapturing.step {} _ rfl ?_))
    exact submit_follows arrival hcallback (hcapturing.goto (.submitting p.current)) hcurrent hcurrent

/-- `Initialize` fails before the current session is closed, or when the output is started. -/
theorem startSession_error {answer : Answer} {e : Exception} (h : w.startSession answer = .error e) :
    (w.streams.forM (fun stream => discard stream.validate) = .error e ∨ answer.sameTracks = false) ∨
      answer.starts = .error e ∨
        answer.starts = .ok false ∧ e = .runtimeError "RemuxPipeline Remuxer 启动失败" := by
  rw [Worker.startSession] at h
  cases hvalid : w.streams.forM fun stream => discard stream.validate with
  | error e' =>
    rw [hvalid] at h
    cases h
    exact .inl (.inl rfl)
  | ok =>
    rw [hvalid] at h
    cases hsame : answer.sameTracks with
    | false => exact .inl (.inr rfl)
    | true =>
      refine .inr ?_
      cases hstarts : answer.starts with
      | error e' =>
        rw [hsame, hstarts, Bool.not_true, Bool.and_false] at h
        cases h
        exact .inl rfl
      | ok accepts =>
        rw [hsame, hstarts, Bool.not_true, Bool.and_false] at h
        cases accepts with
        | false =>
          cases h
          exact .inr ⟨rfl, rfl⟩
        | true => cases h

/-- `CloseCurrent` of `Initialize`. -/
theorem close_follows {effects : List Effect} (h : At p { pc := .closingSession } [] w.loop) {v : Worker}
    (hnext : ∀ q, At q { pc := .sessionChecking } [] w.loop → Follows q effects v) : Follows p effects v := by
  by_cases hstarted : p.sessionStarted = true
  · have hretired : At (p.retire.2.goto { pc := .closingSession } .sessionChecking) { pc := .sessionChecking } []
        w.loop := by
      rw [RemuxPipeline.retire]
      cases p.current <;> exact ⟨rfl, h.bound, h.going, h.loop⟩
    refine h.step {} p.retire.1 ?_ (hnext _ hretired)
    simp only [RemuxPipeline.work, hstarted, if_true]
  · refine h.step {} [] ?_ (hnext _ (h.goto .sessionChecking))
    simp only [RemuxPipeline.work, hstarted, Bool.false_eq_true, if_false]

/-- `EnsureRemuxer` makes an output unless there is one. -/
theorem ensure_at (h : At p { pc := .ensuring } [] w.loop) :
    At (p.ensureRemuxer.goto { pc := .ensuring } .startingOutput) { pc := .startingOutput } [] w.loop ∧
      p.ensureRemuxer.current.isSome := by
  rw [RemuxPipeline.ensureRemuxer]
  cases hcurrent : p.current with
  | none => exact ⟨⟨rfl, h.bound, h.going, h.loop⟩, rfl⟩
  | some id => exact ⟨h.goto .startingOutput, by rw [hcurrent]; rfl⟩

/-- `Initialize` once its checks are passed, up to the start of the output. -/
theorem open_follows {effects : List Effect} {v : Worker} (h : At p { pc := .preparing } [] w.loop)
    (hnext : ∀ q, At q { pc := .startingOutput } [] w.loop → q.current.isSome → Follows q effects v) :
    Follows p effects v := by
  refine h.goes {} rfl (close_follows (h.goto .closingSession) fun q hq => ?_)
  refine hq.goes {} rfl ?_
  obtain ⟨hat, hcurrent⟩ := ensure_at (hq.goto .ensuring)
  exact (hq.goto .ensuring).step {} _ rfl (hnext _ hat hcurrent)

/-- The output starts, and the session is there. -/
theorem start_follows {effects : List Effect} {v : Worker} (h : At p { pc := .startingOutput } [] w.loop)
    (hcurrent : p.current.isSome)
    (hnext : ∀ q, At q { pc := .pacing } [] w.loop → q.current.isSome → Follows q effects v) :
    Follows p (.session :: effects) v := by
  obtain ⟨id, hid⟩ := Option.isSome_iff_exists.mp hcurrent
  have hstarted : At ({ p.setOutput id { live := true, draining := false } with sessionStarted := true }.goto
      { pc := .startingOutput } .sessionStarted) { pc := .sessionStarted } [] w.loop :=
    ⟨rfl, h.bound, h.going, h.loop⟩
  refine h.step {} [] ?_ (hstarted.step {} _ rfl (hnext _ ?_ hcurrent))
  · simp only [RemuxPipeline.work, hid, if_true]
  · exact ⟨rfl, h.bound, h.going, h.loop⟩

/-- From `Initialize` on. -/
theorem renew_follows (arrival : Arrival) (answer : Answer) (h : At p { pc := .preparing } [] w.loop) :
    Follows p ((w.renew arrival answer).1.filterMap Event.effect?) (w.renew arrival answer).2 := by
  rw [Worker.renew]
  cases hstart : w.startSession answer with
  | error e =>
    rcases startSession_error hstart with _ | hfailed
    · exact h.last { thrown := some e } _ rfl (caught_placed h e)
    · refine open_follows h fun q hq hcurrent => ?_
      obtain ⟨id, hid⟩ := Option.isSome_iff_exists.mp hcurrent
      have hlive : At (q.setOutput id { live := true, draining := false }) { pc := .startingOutput } [] w.loop :=
        ⟨hq.worker, hq.bound, hq.going, hq.loop⟩
      rcases hfailed with _ | ⟨_, rfl⟩
      · refine hq.last { thrown := some e } [] ?_ (caught_placed hlive e)
        simp only [RemuxPipeline.work, hid]
      · refine hq.last { accepts := false } [] ?_ (caught_placed hlive _)
        simp only [RemuxPipeline.work, hid, Bool.false_eq_true, if_false]
  | ok started =>
    have hstarted := startSession_ok hstart
    refine open_follows h fun q hq hcurrent => start_follows hq hcurrent fun r hr hrcurrent => ?_
    have hloop : started.loop = w.loop := by rw [hstarted]
    exact deliver_follows (w := { started with description := some arrival.description }) arrival answer
      (hloop ▸ hr) hrcurrent

/-- From `ProbeRemuxAudio` on. -/
theorem probe_follows (sampling : Sampling) (answer : Answer) (h : At p { pc := .preparing } [] w.loop) :
    Follows p ((w.probe sampling answer).1.filterMap Event.effect?) (w.probe sampling answer).2 := by
  rw [Worker.probe]
  cases answer.probe with
  | error e => exact h.last { thrown := some e } _ rfl (caught_placed h e)
  | ok audio => exact renew_follows (w := { w with streams := _ }) sampling.first answer h

/-- An error of `PrepareStreams`. -/
theorem fail_follows (h : At p { pc := .preparing } [] w.loop) (e : Exception) : Follows p [] (w.fail e) :=
  h.last { thrown := some e } _ rfl (caught_placed h e)

theorem finish_follows (sampling : Sampling) (answer : Answer) (h : At p { pc := .preparing } [] w.loop) :
    Follows p ((w.finish sampling answer).1.filterMap Event.effect?) (w.finish sampling answer).2 := by
  rw [Worker.finish]
  split
  · exact fail_follows h _
  · exact fail_follows h _
  · exact probe_follows sampling answer h

theorem prepare_follows (arrival : Arrival) (answer : Answer) (h : At p { pc := .preparing } [] w.loop) :
    Follows p ((w.prepare arrival answer).1.filterMap Event.effect?) (w.prepare arrival answer).2 := by
  rw [Worker.prepare]
  split
  · exact fail_follows h _
  · split
    · exact renew_follows (w := { w with streams := _ }) arrival answer h
    · split
      · exact renew_follows (w := { w with streams := _ }) arrival answer h
      · split
        · exact fail_follows h _
        · exact probe_follows _ answer h
        · split
          · exact Placed.follows { h with current := fun hstage => by cases hstage }
          · exact fail_follows h _

/-- One read of the probe. -/
theorem sample_follows (sampling : Sampling) (answer : Answer) (h : At p { pc := .preparing } [] w.loop) :
    Follows p ((w.sample sampling answer).1.filterMap Event.effect?) (w.sample sampling answer).2 := by
  rw [Worker.sample]
  split
  · split
    · exact fail_follows h _
    · exact fail_follows h _
    · exact fail_follows h _
  · split
    · exact finish_follows (w := { w with pending := _ }) sampling answer h
    · split
      · exact fail_follows h _
      · simp only
        split
        · exact finish_follows (w := { w with pending := _ }) _ answer h
        · exact Placed.follows { h with current := fun hstage => by cases hstage }

/-! ### Turns and runs -/

/-- The loop with a packet of a delivered track, once it is read. -/
theorem advance_follows (arrival : Arrival) (answer : Answer) (h : At p { pc := .reading } [] w.loop)
    (hcurrent : w.description.isSome → p.current.isSome) :
    Follows p ((w.advance arrival answer).1.filterMap Event.effect?) (w.advance arrival answer).2 := by
  have hboundary : p.work { pc := .reading } { read := .boundary } =
      some ([], p.goto { pc := .reading } .preparing) := by
    simp only [RemuxPipeline.work, h.going, Bool.false_eq_true, if_false]
  have hpacket : p.work { pc := .reading } { read := .packet } = some ([], p.goto { pc := .reading } .pacing) := by
    simp only [RemuxPipeline.work, h.going, Bool.false_eq_true, if_false]
  rw [Worker.advance]
  split
  · exact h.step _ _ hboundary (prepare_follows arrival answer (h.goto .preparing))
  · rename_i hsame
    split
    · exact h.step _ _ hboundary (renew_follows arrival answer (h.goto .preparing))
    · refine h.step _ _ hpacket (deliver_follows arrival answer (h.goto .pacing) (hcurrent ?_))
      cases hd : w.description with
      | none => exact absurd (by simp [hd]) hsame
      | some description => rfl

/-- The loop with what it read. -/
theorem read_follows [Libav] (input : ReadResult) (answer : Answer) (hstage : w.stage = .looping)
    (h : At p { pc := .reading } [] w.loop) (hcurrent : w.description.isSome → p.current.isSome) :
    Follows p ((w.treat input answer).1.filterMap Event.effect?) (w.treat input answer).2 := by
  have hplaced : Placed (p.goto { pc := .reading } .looping) w := by
    refine { toAt := ?_, current := fun _ => hcurrent }
    rw [hstage]
    exact h.goto .looping
  rw [Worker.treat]
  cases input.status with
  | null =>
    have hnull (e : Exception) : p.work { pc := .reading } { read := .null e } =
        some ([], p.caught { pc := .reading } e) := by
      simp only [RemuxPipeline.work, h.going, Bool.false_eq_true, if_false]
    exact h.last _ _ (hnull _) (caught_placed h _)
  | eof =>
    have hend : p.work { pc := .reading } { read := .eof } =
        some ([], p.goto { pc := .reading } (if w.loop then .looping else .endReached)) := by
      simp only [RemuxPipeline.work, h.going, h.loop, Bool.false_eq_true, if_false]
    simp only
    split
    · rename_i hloop
      rw [if_pos hloop] at hend
      exact h.last _ _ hend hplaced
    · rename_i hloop
      rw [if_neg hloop] at hend
      refine h.step _ _ hend ((h.goto .endReached).last {} _ rfl ?_)
      exact {
        worker := rfl
        bound := h.bound
        going := h.going
        loop := h.loop
        current := fun hstage => by cases hstage }
  | packet =>
    cases arrive input with
    | error e =>
      refine h.last { thrown := some e } [] ?_ (caught_placed h e)
      simp only [RemuxPipeline.work, h.going, Bool.false_eq_true, if_false]
    | ok arrival =>
      cases arrival with
      | none =>
        refine h.last { read := .other } [] ?_ hplaced
        simp only [RemuxPipeline.work, h.going, Bool.false_eq_true, if_false]
      | some arrival => exact advance_follows arrival answer h hcurrent

/-- One pass of the loop, with a result of `ReadPacket` or of `pending`. -/
theorem treat_follows [Libav] (input : ReadResult) (answer : Answer) (hstage : w.stage = .looping) (h : Placed p w) :
    Follows p ((w.treat input answer).1.filterMap Event.effect?) (w.treat input answer).2 := by
  have hat : At p { pc := .looping } [] w.loop := by
    have hat := h.toAt
    rwa [hstage] at hat
  exact hat.goes {} rfl (read_follows input answer hstage (hat.goto .reading) (h.current hstage))

/-- **A turn.**  Whatever the calls answer, the pipeline's worker can follow the turn, with the same effects. -/
theorem turn_follows [Libav] {w' : Worker} {events : List Event} (answer : Answer) (h : Placed p w)
    (hturn : w.turn answer = some (events, w')) : Follows p (events.filterMap Event.effect?) w' := by
  rw [Worker.turn] at hturn
  cases hstage : w.stage with
  | looping =>
    rw [hstage] at hturn
    cases hpending : w.pending with
    | nil =>
      rw [hpending] at hturn
      cases hturn
      exact treat_follows answer.read answer hstage h
    | cons input rest =>
      rw [hpending] at hturn
      have hfollows := treat_follows (w := { w with pending := rest }) input answer hstage { h with }
      rwa [hstage, Option.some.inj hturn] at hfollows
  | sampling sampling =>
    rw [hstage] at hturn
    cases hturn
    have hat := h.toAt
    rw [hstage] at hat
    exact sample_follows sampling answer hat
  | draining =>
    rw [hstage] at hturn
    cases hturn
  | failed e =>
    rw [hstage] at hturn
    cases hturn

end Phases

/-- **Every run.**  From a place where both models agree, the pipeline's worker can follow every run of the worker
that forwards packets, with the same effects in the same order, and they agree again. -/
theorem run_follows [Libav] {loop : Bool} {w w' : Worker} {events : List Event} {p : RemuxPipeline} (h : Placed p w)
    (hrun : (system loop).Run w events w') : Follows p (events.filterMap Event.effect?) w' := by
  induction hrun with
  | refl => exact h.follows
  | snoc _ hstep ih =>
    obtain ⟨q, hworks, hplaced⟩ := ih
    obtain ⟨answer, hturn⟩ := hstep
    obtain ⟨r, hnext, hplaced⟩ := turn_follows answer hplaced hturn
    rw [List.filterMap_append]
    exact ⟨r, hworks.trans hnext, hplaced⟩

/-- `Start`, and the packet worker up to its loop. -/
def startActs : List RemuxPipeline.Act :=
  [.start, .own none, .own none, .own none, .work {}, .work {}, .work {}]

theorem started_placed [Libav] (loop : Bool) :
    ∃ p, RemuxPipeline.system.Reachable p ∧ ∀ w, (system loop).init w → Placed p w := by
  have hinit : RemuxPipeline.system.init { loop := loop } := ⟨loop, rfl⟩
  have hrun := Transition.execute_run (T := RemuxPipeline.system) (fun _ act _ _ h => ⟨act, h⟩)
    (rfl : Transition.execute RemuxPipeline.next { loop := loop } startActs = some (_, _))
  refine ⟨_, .run (.init hinit) hrun, ?_⟩
  intro w hw
  cases hw
  exact {
    worker := rfl
    bound := rfl
    going := rfl
    loop := rfl
    current := fun _ hnone => by cases hnone }

/-- **Two models of one worker.**  Every run of the worker that forwards packets is followed by a run of the
pipeline from its construction. -/
theorem forwarding_followed [Libav] {loop : Bool} {w w' : Worker} {events : List Event}
    (hinit : (system loop).init w) (hrun : (system loop).Run w events w') :
    ∃ p q, RemuxPipeline.system.Reachable p ∧ RemuxPipeline.system.Reachable q ∧
      Works p (events.filterMap Event.effect?) q ∧ Placed q w' := by
  obtain ⟨p, hp, hplaced⟩ := started_placed loop
  obtain ⟨q, hworks, hq⟩ := run_follows (hplaced w hinit) hrun
  obtain ⟨_, hsteps⟩ := hworks.run
  exact ⟨p, q, hp, hp.run hsteps, hworks, hq⟩

end MwStreamer.RemuxForwarding
