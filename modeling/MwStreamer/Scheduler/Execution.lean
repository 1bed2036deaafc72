import MwStreamer.Scheduler.Model

/-!
# Executing the scheduler

The step relation as a function of who moves and what the component it calls answers.  `execute_run` turns a
list of choices into a run from `start`.
-/

namespace MwStreamer.Scheduler

/-- What the source, the realtime decision and the syncer answer. -/
structure Answer where
  item : AvDecoderReadResult := {}
  decision : RealtimeDecision := {}
  step : SyncerStep := {}

/-- Who moves. -/
inductive Choice where
  | driver (answer : Answer)
  | worker (video : Bool) (item : AvDecoderReadResult)
  | requestStop
  | wakeAll
  | sourceReady
  | notify (video : Bool)
  | notifyWake (video : Bool)
  | time (now : ℤ)

section

variable [Libav]

/-- The driver step an answer leads to. -/
def driverNext (shared : Shared) (d : Driver) (t : Track) (answer : Answer) :
    Option (List Event × Driver × Track) :=
  match d.pc with
  | .top =>
    if shared.stopping then some ([], { d with pc := .stopped }, t) else some ([], { d with pc := .observe }, t)
  | .observe => some ([.observed], { d with pc := .checkSource, observed := shared.signal }, t)
  | .checkSource => some ([], { d with pc := .complete, video := true, wake := kNoWake }, t)
  | .complete =>
    if t.enabled then some ([], { d with pc := .deliver }, t.complete shared.now)
    else some ([], { d with pc := .drain 0 }, t)
  | .drain count =>
    if kDiscardBatch ≤ count then some ([], { d with pc := .delivered, wake := shared.now }, t)
    else if answer.item.status = .null then some ([], { d with pc := .delivered }, t)
    else some ([], { d with pc := .drain (count + 1) }, t)
  | .deliver => some ([], { d with pc := .look shared.now }, t)
  | .look now =>
    if t.skipsDelivery shared.space now then some ([], { d with pc := .delivered }, t)
    else
      some ([.at d.video (.looked shared.space)], { d with pc := .stepping now shared.space },
        { t with outputBlocked := false })
  | .stepping _ space =>
    some ([.at d.video (.stepped t.stepHead answer.step.consumed answer.step.blocked)],
      { d with pc := .delivered }, t.deliver space answer.step shared.now)
  | .delivered =>
    if shared.stopping then some ([], { d with pc := .stopped }, t)
    else if d.video then some ([], { d with pc := .complete, video := false }, t)
    else some ([], { d with pc := .prepare, video := true }, t)
  | .prepare =>
    if t.enabled then some ([], { d with pc := .prepareLocked shared.now }, t)
    else some ([], { d with pc := .prepared }, t)
  | .prepareLocked now =>
    if t.busy = true ∨ t.completed = true then some ([], { d with pc := .wakeRevision }, t)
    else some ([], { d with pc := .prepareHead now }, t)
  | .prepareHead now =>
    if t.head.status ≠ .null then some ([], { d with pc := .wakeRevision }, t)
    else if t.needsInput = false then some ([], { d with pc := .dispatching {} }, t)
    else if t.sourceHead.status ≠ .null then some ([], { d with pc := .prepareReady now }, t)
    else if answer.item.status = .null then
      some ([], { d with pc := .wakeRevision }, { t with sourceHead := answer.item })
    else
      some ([.at d.video (.read answer.item)], { d with pc := .prepareReady now },
        { t with sourceHead := answer.item })
  | .prepareReady now =>
    if t.sourceHead.status = .frame then
      match inputPts t.sourceHead with
      | .error _ => none
      | .ok _ =>
        if answer.decision.discard then
          some ([.at d.video (.discarded t.sourceHead)],
            { d with pc := .wakeRevision, wake := min d.wake now }, { t with sourceHead := {} })
        else if answer.decision.ready then
          some ([], { d with pc := .dispatching t.sourceHead }, { t with sourceHead := {} })
        else some ([], { d with pc := .wakeRevision, wake := min d.wake answer.decision.wakeUs }, t)
    else some ([], { d with pc := .dispatching t.sourceHead }, { t with sourceHead := {} })
  | .dispatching input =>
    if shared.stopping then some ([], { d with pc := .wakeRevision }, t)
    else some (itemEvent d.video .dispatched input, { d with pc := .wakeRevision }, t.dispatch input)
  | .wakeRevision =>
    some ([], { d with pc := .wakeDeadline (t.outputBlocked && t.blockedRevision == shared.space) }, t)
  | .wakeDeadline blocked =>
    some ([],
      { d with
        pc := .prepared
        wake := min d.wake
          (if t.outputBlocked then (if blocked then t.outputRetryUs else shared.now) else t.syncerWakeUs) }, t)
  | .prepared =>
    if d.video then some ([], { d with pc := .prepare, video := false }, t)
    else some ([], { d with pc := .checkStop }, t)
  | .checkStop =>
    if shared.stopping then some ([], { d with pc := .stopped }, t) else some ([], { d with pc := .waiting }, t)
  | .waiting =>
    if shared.signal ≠ d.observed ∨ (d.wake ≠ kNoWake ∧ d.wake ≤ shared.now) then
      some ([], { d with pc := .top }, t)
    else none
  | .stopped => none

theorem driverNext_step {shared : Shared} {d d' : Driver} {t t' : Track} {answer : Answer} {es : List Event}
    (h : driverNext shared d t answer = some (es, d', t')) : DriverStep shared d t es d' t' := by
  unfold driverNext at h
  split at h
  case h_1 hpc =>
    split at h <;> cases h
    · exact .topStop d t hpc ‹_›
    · exact .top d t hpc (eq_false_of_ne_true ‹_›)
  case h_2 hpc =>
    cases h
    exact .observe d t hpc
  case h_3 hpc =>
    cases h
    exact .checkSource d t hpc
  case h_4 hpc =>
    split at h <;> cases h
    · exact .complete d t hpc ‹_›
    · exact .completeDisabled d t hpc (eq_false_of_ne_true ‹_›)
  case h_5 count hpc =>
    split at h
    · cases h
      exact .drainFull d t count hpc ‹_›
    · have hmore : count < kDiscardBatch := by omega
      split at h <;> cases h
      · exact .drainEmpty d t count hpc hmore
      · exact .drainItem d t count hpc hmore
  case h_6 hpc =>
    cases h
    exact .deliver d t hpc
  case h_7 now hpc =>
    split at h <;> cases h
    · exact .lookSkip d t now hpc ‹_›
    · exact .look d t now hpc (eq_false_of_ne_true ‹_›)
  case h_8 now space hpc =>
    cases h
    exact .stepping d t now space answer.step hpc
  case h_9 hpc =>
    split at h
    · cases h
      exact .deliveredStop d t hpc ‹_›
    · have hgo : shared.stopping = false := eq_false_of_ne_true ‹_›
      split at h <;> cases h
      · exact .deliveredNext d t hpc hgo ‹_›
      · exact .deliveredLast d t hpc hgo (eq_false_of_ne_true ‹_›)
  case h_10 hpc =>
    split at h <;> cases h
    · exact .prepare d t hpc ‹_›
    · exact .prepareDisabled d t hpc (eq_false_of_ne_true ‹_›)
  case h_11 now hpc =>
    split at h <;> cases h
    · exact .prepareBusy d t now hpc ‹_›
    · next hidle =>
      rw [not_or] at hidle
      exact .prepareIdle d t now hpc (by simpa using hidle.1) (by simpa using hidle.2)
  case h_12 now hpc =>
    split at h
    · cases h
      exact .prepareHeld d t now hpc ‹_›
    · have hhead : t.head.status = .null := not_not.mp ‹_›
      split at h
      · cases h
        exact .prepareDrain d t now hpc hhead ‹_›
      · have hneeds : t.needsInput = true := eq_true_of_ne_false ‹_›
        split at h
        · cases h
          exact .prepareKept d t now hpc hhead hneeds ‹_›
        · have hsource : t.sourceHead.status = .null := not_not.mp ‹_›
          split at h <;> cases h
          · exact .prepareEmpty d t now hpc hhead hneeds hsource answer.item ‹_›
          · exact .prepareRead d t now hpc hhead hneeds hsource answer.item ‹_›
  case h_13 now hpc =>
    split at h
    · split at h
      · cases h
      · split at h
        · cases h
          exact .prepareDiscard d t now _ answer.decision hpc ‹_› ‹_› ‹_›
        · have hdiscard : answer.decision.discard = false := eq_false_of_ne_true ‹_›
          split at h <;> cases h
          · exact .prepareReady d t now _ answer.decision hpc ‹_› ‹_› hdiscard ‹_›
          · exact .prepareWait d t now _ answer.decision hpc ‹_› ‹_› hdiscard (eq_false_of_ne_true ‹_›)
    · cases h
      exact .prepareEof d t now hpc ‹_›
  case h_14 input hpc =>
    split at h <;> cases h
    · exact .dispatchStopped d t input hpc ‹_›
    · exact .dispatch d t input hpc (eq_false_of_ne_true ‹_›)
  case h_15 hpc =>
    cases h
    exact .wakeRevision d t hpc
  case h_16 blocked hpc =>
    cases h
    exact .wakeDeadline d t blocked hpc
  case h_17 hpc =>
    split at h <;> cases h
    · exact .preparedNext d t hpc ‹_›
    · exact .preparedLast d t hpc (eq_false_of_ne_true ‹_›)
  case h_18 hpc =>
    split at h <;> cases h
    · exact .checkStopStop d t hpc ‹_›
    · exact .checkStop d t hpc (eq_false_of_ne_true ‹_›)
  case h_19 hpc =>
    split at h
    · cases h
      exact .awake d t hpc ‹_›
    · cases h
  case h_20 hpc => cases h

end

section

variable {κ : Type} [Converter κ]

/-- The worker step a filter's answer leads to. -/
def workerNext (video stopping : Bool) (w : Worker) (t : Track) (c : κ) (item : AvDecoderReadResult) :
    Option (List Event × Worker × Track × κ) :=
  match w.pc with
  | .waiting =>
    if stopping then some ([], { w with pc := .stopped }, t, c)
    else if t.requested then
      some ([], { w with pc := .filtering t.task }, { t with task := {}, requested := false }, c)
    else none
  | .filtering input =>
    if input.status = .null then some ([], { w with pc := .pushing }, t, c)
    else if video then
      some (.at video (.received input) :: itemEvent video .filtered item, ⟨.pushing, item⟩, t, c)
    else some ([.at video (.received input), .at video (.filtered input)], ⟨.pushing, input⟩, t, c)
  | .pushing =>
    if w.pending.status = .null then some ([], { w with pc := .reading }, t, c)
    else
      match tryPushFrame c w.pending with
      | none => none
      | some (false, c') => some ([], { w with pc := .reading }, t, c')
      | some (true, c') => some ([.at video (.pushed w.pending)], ⟨.reading, {}⟩, t, c')
  | .reading =>
    match tryReadFrame c with
    | none => none
    | some (output, c') => some ([], { w with pc := .filteringOutput output }, t, c')
  | .filteringOutput output =>
    if video = true ∨ output.status = .null then some ([], { w with pc := .publishing output }, t, c)
    else
      some (if item.status = .null then [.at video (.swallowed !(decide (Drained c)))] else [],
        { w with pc := .publishing item }, t, c)
  | .publishing output =>
    some (itemEvent video .returned output, { w with pc := .notifying }, t.publish w.pending output, c)
  | .notifying => some ([.signalled], { w with pc := .waiting }, t, c)
  | .stopped => none

theorem workerNext_step {video stopping : Bool} {w w' : Worker} {t t' : Track} {c c' : κ}
    {item : AvDecoderReadResult} {es : List Event}
    (h : workerNext video stopping w t c item = some (es, w', t', c')) :
    WorkerStep video stopping w t c es w' t' c' := by
  unfold workerNext at h
  split at h
  case h_1 hpc =>
    split at h
    · cases h
      exact .stop w t c hpc ‹_›
    · split at h <;> cases h
      exact .fetch w t c hpc (eq_false_of_ne_true ‹_›) ‹_›
  case h_2 input hpc =>
    split at h
    · cases h
      exact .filterNothing w t c input hpc ‹_›
    · split at h <;> cases h
      · exact .filterVideo w t c input item hpc ‹_› ‹_›
      · exact .filterAudio w t c input hpc ‹_› (eq_false_of_ne_true ‹_›)
  case h_3 hpc =>
    split at h
    · cases h
      exact .pushNothing w t c hpc ‹_›
    · split at h <;> cases h
      · exact .pushRefused w t c c' hpc ‹_› ‹_›
      · exact .push w t c c' hpc ‹_› ‹_›
  case h_4 hpc =>
    split at h <;> cases h
    exact .read w t c c' _ hpc ‹_›
  case h_5 output hpc =>
    split at h
    · cases h
      exact .outputKept w t c output hpc ‹_›
    · next hkept =>
      rw [not_or] at hkept
      cases h
      exact .outputFiltered w t c output item hpc (by simpa using hkept.1) hkept.2
  case h_6 output hpc =>
    cases h
    exact .publish w t c output hpc
  case h_7 hpc =>
    cases h
    exact .notify w t c hpc
  case h_8 hpc => cases h

variable [Libav]

/-- The step a choice leads to; a thread that cannot move stays. -/
def execute (s : State κ) : Choice → List Event × State κ
  | .driver answer =>
    match driverNext s.shared s.driver (s.track s.driver.video) answer with
    | none => ([], s)
    | some (es, d, t) => (es, { s with driver := d, track := Function.update s.track s.driver.video t })
  | .worker video item =>
    match workerNext video s.stopping (s.worker video) (s.track video) (s.converter video) item with
    | none => ([], s)
    | some (es, w, t, c) =>
      (es,
        { s with
          worker := Function.update s.worker video w
          track := Function.update s.track video t
          converter := Function.update s.converter video c
          signal := if .signalled ∈ es then s.signal + 1 else s.signal })
  | .requestStop => ([], { s with stopping := true, waking := s.waking + 1 })
  | .wakeAll =>
    if 0 < s.waking then ([.signalled], { s with signal := s.signal + 1, waking := s.waking - 1 })
    else ([], s)
  | .sourceReady => ([.signalled], { s with signal := s.signal + 1 })
  | .notify video =>
    ([.at video .notified],
      { s with
        space := Function.update s.space video (s.space video + 1)
        notifying := Function.update s.notifying video (s.notifying video + 1) })
  | .notifyWake video =>
    if 0 < s.notifying video then
      ([.signalled],
        { s with
          signal := s.signal + 1
          notifying := Function.update s.notifying video (s.notifying video - 1) })
    else ([], s)
  | .time now => ([], { s with now := max s.now now })

theorem execute_step (s : State κ) (choice : Choice) :
    Step s (execute s choice).1 (execute s choice).2 := by
  cases choice with
  | driver answer =>
    simp only [execute]
    split
    · exact .time s s.now le_rfl
    · exact .driver s _ _ _ (driverNext_step ‹_›)
  | worker video item =>
    simp only [execute]
    split
    · exact .time s s.now le_rfl
    · exact .worker s video _ _ _ _ (workerNext_step ‹_›)
  | requestStop => exact .requestStop s
  | wakeAll =>
    simp only [execute]
    split
    · exact .wakeAll s ‹_›
    · exact .time s s.now le_rfl
  | sourceReady => exact .sourceReady s
  | notify video => exact .notify s video
  | notifyWake video =>
    simp only [execute]
    split
    · exact .notifyWake s video ‹_›
    · exact .time s s.now le_rfl
  | time now => exact .time s (max s.now now) (le_max_left _ _)

/-- **An execution is a run.** -/
theorem execute_run (Fresh : (Bool → κ) → Prop) (s : State κ) (choices : List Choice) :
    (system Fresh).Run s (Transition.replay execute s choices).1 (Transition.replay execute s choices).2 :=
  Transition.replay_run (T := system Fresh) execute_step s choices

end

/-- The scheduler right after `Start`. -/
def start {κ : Type} (enabled : Bool → Bool) (converter : Bool → κ) : State κ where
  track video := { enabled := enabled video }
  converter := converter
  worker _ := {}
  driver := {}
  stopping := false
  error := none
  signal := 0
  space _ := 0
  notifying _ := 0
  waking := 0
  now := 0

theorem start_started {κ : Type} (enabled : Bool → Bool) (converter : Bool → κ) :
    Started (start enabled converter) where
  track _ := rfl
  worker _ := rfl
  driver := rfl
  stopping := rfl
  error := rfl

/-- A converter that passes items on. -/
structure Relay where
  queue : List AvDecoderReadResult := []
  deriving DecidableEq, Repr

instance : Converter Relay where
  tryPushFrame relay item := some (true, ⟨relay.queue ++ [item]⟩)
  tryReadFrame relay := some (relay.queue.headD {}, ⟨relay.queue.tail⟩)

end MwStreamer.Scheduler
