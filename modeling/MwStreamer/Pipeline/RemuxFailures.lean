import MwStreamer.Pipeline.RemuxStages

/-!
# Failures and the end of the remux pipeline

The first failure of a run is the only one that is recorded, and it is reported once.  The end is reported only when
an end of input was read, every retired output was collected and there was neither a stop nor a failure.

`Fail` stores its error in one section and the flag that stops the pipeline in a later one.  Four sections write
`state_` under that flag alone; `overwrites` is such a write in between, and the state keeps telling a failure
exactly as long as none happens.
-/

namespace MwStreamer

namespace RemuxPipeline

variable {s s' : RemuxPipeline} {events : List Event} {worker : Worker} {thread : Thread} {history : List Event}

/-! ### The first failure -/

def Event.kind : Event → Threads.Kind Exception
  | .started => .opens
  | .failed e => .failed e
  | .reported e => .reported e
  | _ => .aside

/-- A new run begins. -/
def Event.opens (e : Event) : Bool := e.kind.isOpens

def Event.failed? (e : Event) : Option Exception := e.kind.failed?

/-- The events of the current run. -/
def thisRun (history : List Event) : List Event := Sessions.latest Event.opens history

/-- The failures recorded in the current run. -/
def failures (history : List Event) : List Exception := Threads.failures Event.kind history

/-- The calls of `OnError` in the current run. -/
def reports (history : List Event) : List Exception := Threads.reports Event.kind history

/-- The account of the failures of the current run. -/
def Failures (history : List Event) (s : RemuxPipeline) : Prop :=
  Threads.Account Event.kind Task.report? history s.todo s.error

/-- No thread has a failure to report where none can be at work. -/
theorem Bound.unreported (hb : Bound s) (hs : Staged s) (hstopped : s.started = false) (t : Thread) :
    (s.todo t).filterMap Task.report? = [] := by
  obtain ⟨hnone, -, hsilent⟩ := hs.still hstopped
  have hstops : ∀ {tasks : List Task}, (∀ task ∈ tasks, task.stops = true) → tasks.filterMap Task.report? = [] := by
    intro tasks htasks
    refine List.filterMap_eq_nil_iff.mpr fun task htask => ?_
    cases task with
    | onError _ => cases htasks _ htask
    | _ => rfl
  cases t with
  | owner =>
    -- A `Start` or its failure would have marked the pipeline as started.
    have hphase := hs.phase
    cases howner : s.owner with
    | aborting =>
      rw [howner] at hphase
      cases hstopped.symm.trans hphase.1
    | joiningWorker => exact hstops (hb.joining (by rw [howner]; rfl))
    | joiningInput => exact hstops (hb.joining (by rw [howner]; rfl))
    | _ => rw [hb.resting (by rw [howner]; rfl), List.filterMap_nil]
  | worker =>
    rw [hb.workerless (fun w hw => by cases hnone.symm.trans hw), List.filterMap_nil]
  | input => rw [hb.silent (hs.idle hnone).1, List.filterMap_nil]
  | output id => rw [hb.mute id (hsilent id), List.filterMap_nil]
  | user n => exact hstops (hb.users n)

theorem Closes.error_eq (h : Closes s events s') : s'.error = s.error := by cases h <;> rfl
theorem Closes.aside (h : Closes s events s') : (events.all fun e => e.kind.isAside) = true := by cases h <;> rfl

theorem Closes.state_eq (h : Closes s events s') : s'.state = s.state := by cases h <;> rfl

theorem ensureRemuxer_state : s.ensureRemuxer.state = s.state := by
  rw [ensureRemuxer]
  split <;> rfl

theorem ensureRemuxer_error : s.ensureRemuxer.error = s.error := by
  rw [ensureRemuxer]
  split <;> rfl

theorem Failures.step (hb : Bound s) (hs : Staged s) (h : Failures history s) (hstep : Stepped s events s') :
    Failures (history ++ events) s' := by
  cases hstep with
  | same => exact h.same rfl rfl rfl
  | started hidle hstopped => exact Threads.Account.opened rfl (hb.unreported hs hstopped)
  | stop hidle => exact h.bind rfl .owner rfl rfl (Threads.reports_fresh (hb.resting (by rw [hidle]; rfl)) rfl)
  | requested htodo => exact h.bind rfl _ rfl rfl (Threads.reports_fresh htodo rfl)
  | dropped htodo _ => exact h.bind rfl _ rfl rfl (Threads.reports_take htodo rfl rfl)
  | @failed t e rest htodo hstarted herror =>
    rw [Failures, herror] at h
    have hnone : rest.filterMap Task.report? = [] := by
      have ht := h.nothing t
      rw [htodo] at ht
      exact ht
    refine Threads.Account.record h rfl ?_
    show e :: rest.filterMap Task.report? = [e]
    rw [hnone]
  | @stopRecorded t rest htodo =>
    have hdrains : (s.current.toList.map Task.drain).filterMap Task.report? = [] := by
      refine List.filterMap_eq_nil_iff.mpr fun task htask => ?_
      obtain ⟨id, -, rfl⟩ := List.mem_map.mp htask
      rfl
    refine h.bind ?_ t rfl rfl (Threads.reports_take htodo rfl ?_)
    · split
      · rfl
      · rfl
    · rw [List.filterMap_cons_none rfl, List.filterMap_append, hdrains, List.nil_append]
  | inputCancelled htodo => exact h.bind rfl _ rfl rfl (Threads.reports_take htodo rfl rfl)
  | drained htodo => exact h.bind rfl _ rfl rfl (Threads.reports_take htodo rfl rfl)
  | inputChanged htodo => exact h.bind rfl _ rfl rfl (Threads.reports_take htodo rfl rfl)
  | @reported t e rest htodo =>
    refine Threads.Account.report h rfl ?_
    rw [htodo]
    rfl
  | published hrunning hquiet state e =>
    refine h.bind rfl .input rfl rfl (Threads.reports_fresh hquiet ?_)
    split
    · rfl
    · rfl
  | exited _ _ => exact h.same rfl rfl rfl
  | expired => exact h.same rfl rfl rfl
  | outputFailed hlive hquiet e => exact h.bind rfl _ rfl rfl (Threads.reports_fresh hquiet rfl)
  | moved _ _ _ => exact h.same rfl rfl rfl
  | threw _ htodo _ e => exact h.bind rfl .worker rfl rfl (Threads.reports_fresh htodo rfl)
  | opened _ _ _ => exact h.same rfl rfl rfl
  | rechecked _ htodo _ =>
    refine h.bind rfl .worker rfl rfl (Threads.reports_fresh htodo ?_)
    split
    · rfl
    · rfl
  | endReached _ _ _ => exact h.same rfl rfl rfl
  | ensured _ _ _ => exact h.same rfl ensureRemuxer_error ensureRemuxer_todo
  | outputStarted _ _ _ _ => exact h.same rfl rfl rfl
  | outputUnstarted _ htodo _ _ e => exact h.bind rfl .worker rfl rfl (Threads.reports_fresh htodo rfl)
  | sessionBegun _ _ _ => exact h.same rfl rfl rfl
  | submitted _ _ _ => exact h.same rfl rfl rfl
  | stopsInput _ htodo _ => exact h.bind rfl .worker rfl rfl (Threads.reports_fresh htodo rfl)
  | sessionClosed _ _ _ hcloses => exact h.same hcloses.aside hcloses.error_eq hcloses.todo
  | finished _ _ _ => exact h.same rfl rfl rfl
  | ended _ _ _ _ _ _ _ => exact h.same rfl rfl rfl
  | reaperTook _ _ => exact h.same rfl rfl rfl
  | reaperDone _ _ _ => exact h.same rfl rfl rfl
  | reaperStopped _ _ => exact h.same rfl rfl rfl
  | collected _ => exact h.same rfl rfl rfl
  | aborts _ htodo e => exact h.bind rfl .owner rfl rfl (Threads.reports_fresh htodo rfl)
  | ownerEnsured _ _ => exact h.same rfl ensureRemuxer_error ensureRemuxer_todo
  | reaperLaunched _ _ => exact h.same rfl rfl rfl
  | workerLaunched _ _ => exact h.same rfl rfl rfl
  | aborted _ htodo => exact h.bind rfl .owner rfl rfl (Threads.reports_fresh htodo rfl)
  | joinedWorker _ htodo _ => exact h.bind rfl .owner rfl rfl (Threads.reports_fresh htodo rfl)
  | joinedInput _ _ => exact h.same rfl rfl rfl
  | ownerClosed _ _ hcloses => exact h.same hcloses.aside hcloses.error_eq hcloses.todo
  | joinedReaper _ _ _ => exact h.same rfl rfl rfl
  | closed _ _ => exact h.same rfl rfl rfl

/-! ### A state that tells the failure -/

/-- A recorded failure is what `state()` tells. -/
def Sane (s : RemuxPipeline) : Prop := s.error ≠ none → s.state = .failed

/-- What the packet worker writes to `state_` there, unless the pipeline is stopping. -/
def Pc.writes? : Pc → Option State
  | .endReached => some .draining
  | .sessionStarted | .submitted => some .running
  | _ => none

/-- What a step writes to `state_` in a section that looks at `stopping_` but not at `error_`. -/
def guardedWrite (s : RemuxPipeline) : Act → Option State
  | .perform thread =>
    match s.todo thread with
    | .inputChanged state :: _ => if s.waits state then some .waitingRetry else none
    | _ => none
  | .work _ =>
    match s.worker with
    | some worker => if s.stopping then none else worker.pc.writes?
    | none => none
  | _ => none

/-- The step writes `state_` after a failure was stored and before the pipeline is told to stop. -/
def overwrites (s : RemuxPipeline) (act : Act) : Bool := s.error.isSome && (s.guardedWrite act).isSome

theorem guardedWrite_ne {act : Act} {state : State} (h : s.guardedWrite act = some state) : state ≠ .failed := by
  intro hfailed
  subst hfailed
  cases act with
  | perform thread =>
    simp only [guardedWrite] at h
    split at h
    · split at h <;> cases h
    · cases h
  | work answer =>
    simp only [guardedWrite] at h
    split at h
    · split at h
      · cases h
      · rename_i worker _ _
        cases hpc : worker.pc <;> rw [hpc] at h <;> cases h
    · cases h
  | _ => cases h

/-- What a step does to the state when it is not such a write. -/
theorem work_state {answer : Answer} (hwrites : worker.pc.writes? = none)
    (h : s.work worker answer = some (events, s')) :
    s'.error = s.error ∧ (s'.state = s.state ∨ s.error = none) := by
  -- The places that write are excluded; closing a session, making an output and ending are looked at apart.
  cases hpc : worker.pc with
  | endReached =>
    rw [hpc] at hwrites
    cases hwrites
  | sessionStarted =>
    rw [hpc] at hwrites
    cases hwrites
  | submitted =>
    rw [hpc] at hwrites
    cases hwrites
  | closingSession =>
    simp only [work, hpc] at h
    split at h
    · rename_i hsession
      cases h
      have hcloses := retire_closes hsession (rfl : s.retire = (s.retire.1, s.retire.2))
      exact ⟨hcloses.error_eq, .inl hcloses.state_eq⟩
    · cases h
      exact ⟨rfl, .inl rfl⟩
  | ensuring =>
    simp only [work, hpc] at h
    split at h
    · cases h
      exact ⟨rfl, .inl rfl⟩
    · cases h
      exact ⟨ensureRemuxer_error, .inl ensureRemuxer_state⟩
  | closing =>
    simp only [work, hpc] at h
    split at h
    · cases h
    · rename_i hclose
      cases h
      have hcloses := closeCurrent_closes hclose
      exact ⟨hcloses.error_eq, .inl hcloses.state_eq⟩
  | settling =>
    simp only [work, hpc] at h
    split at h
    · split at h
      · rename_i hgoing
        cases h
        rw [Bool.and_eq_true, Option.isNone_iff_eq_none] at hgoing
        exact ⟨rfl, .inr hgoing.2⟩
      · cases h
        exact ⟨rfl, .inl rfl⟩
    · cases h
  | _ =>
    simp only [work, hpc] at h
    repeat' split at h
    all_goals first
      | (cases h; done)
      | (cases h; exact ⟨rfl, .inl rfl⟩)

theorem Sane.same (h : Sane s) (herror : s'.error = s.error) (hstate : s'.state = s.state) : Sane s' := by
  intro hne
  rw [hstate]
  exact h (herror ▸ hne)

theorem sane_unfailed (h : s.error = none) : Sane s := fun hne => absurd h hne

/-- A guarded write is made. -/
theorem guarded_written {act : Act} {state : State} (hwrite : s.guardedWrite act = some state)
    (h : s.next act = some (events, s')) : s'.error = s.error ∧ s'.state = state := by
  cases act with
  | perform thread =>
    simp only [guardedWrite] at hwrite
    split at hwrite
    · rename_i rest htodo
      split at hwrite
      · rename_i hwaits
        cases hwrite
        simp only [next, perform, htodo, if_pos hwaits] at h
        cases h
        exact ⟨rfl, rfl⟩
      · cases hwrite
    · cases hwrite
  | work answer =>
    simp only [guardedWrite] at hwrite
    split at hwrite
    · rename_i worker hworker
      split at hwrite
      · cases hwrite
      · rename_i hgoing
        simp only [next, hworker] at h
        split at h
        · cases hpc : worker.pc with
          | endReached =>
            rw [hpc] at hwrite
            cases hwrite
            simp only [work, hpc] at h
            cases h
            exact ⟨rfl, if_neg hgoing⟩
          | sessionStarted =>
            rw [hpc] at hwrite
            cases hwrite
            simp only [work, hpc] at h
            cases h
            exact ⟨rfl, if_neg hgoing⟩
          | submitted =>
            rw [hpc] at hwrite
            cases hwrite
            simp only [work, hpc] at h
            cases h
            exact ⟨rfl, if_neg hgoing⟩
          | _ =>
            rw [hpc] at hwrite
            cases hwrite
        · cases h
    · cases hwrite
  | _ => cases hwrite

/-- A section of `Fail`, of `RequestStop` or of the state callback that makes no guarded write. -/
theorem perform_sane (hs : Sane s) (hwrite : s.guardedWrite (.perform thread) = none)
    (h : s.perform thread = some (events, s')) : Sane s' := by
  rw [perform] at h
  split at h
  · cases h
  · split at h
    · cases h
      exact hs.same rfl rfl
    · cases h
      exact fun _ => rfl
  · cases h
    intro hne
    have herror : s.error.isNone = false := by
      cases herror : s.error with
      | none => exact absurd herror hne
      | some e => rfl
    show (if s.started && s.error.isNone && !s.ended then State.stopping else s.state) = .failed
    rw [herror, Bool.and_false, Bool.false_and, if_neg Bool.false_ne_true]
    exact hs hne
  · cases h
    exact hs.same rfl rfl
  · cases h
    exact hs.same rfl rfl
  · rename_i state rest htodo
    cases h
    simp only [guardedWrite, htodo] at hwrite
    split at hwrite
    · cases hwrite
    · rename_i hwaits
      exact hs.same rfl (if_neg hwaits)
  · cases h
    exact hs.same rfl rfl

theorem work_sane {answer : Answer} (hs : Sane s) (hwrite : (if s.stopping then none else worker.pc.writes?) = none)
    (h : s.work worker answer = some (events, s')) : Sane s' := by
  by_cases hplace : worker.pc.writes? = none
  · obtain ⟨herror, hstate | hnone⟩ := work_state hplace h
    · exact hs.same herror hstate
    · exact sane_unfailed (herror.trans hnone)
  · have hstopping : s.stopping = true := by
      by_contra hgoing
      rw [if_neg hgoing] at hwrite
      exact hplace hwrite
    cases hpc : worker.pc with
    | endReached =>
      simp only [work, hpc] at h
      cases h
      exact hs.same rfl (if_pos hstopping)
    | sessionStarted =>
      simp only [work, hpc] at h
      cases h
      exact hs.same rfl (if_pos hstopping)
    | submitted =>
      simp only [work, hpc] at h
      cases h
      exact hs.same rfl (if_pos hstopping)
    | _ =>
      rw [hpc] at hplace
      exact absurd rfl hplace

theorem own_sane {failure : Option Exception} (hs : Sane s) (h : s.own failure = some (events, s')) : Sane s' := by
  unfold own at h
  split at h
  · cases h
  · split at h
    · cases h
      exact hs.same rfl rfl
    · cases h
      exact hs.same ensureRemuxer_error ensureRemuxer_state
  · split at h
    · cases h
      exact hs.same rfl rfl
    · cases h
      exact hs.same rfl rfl
  · split at h
    · cases h
      exact hs.same rfl rfl
    · cases h
      exact hs.same rfl rfl
  · cases h
    exact hs.same rfl rfl
  · split at h
    · cases h
      exact hs.same rfl rfl
    · cases h
  · split at h
    · cases h
      exact hs.same rfl rfl
    · cases h
  · split at h
    · cases h
    · rename_i hclose
      cases h
      have hcloses := closeCurrent_closes hclose
      exact hs.same hcloses.error_eq hcloses.state_eq
  · split at h
    · cases h
      exact hs.same rfl rfl
    · cases h
  · cases h
    intro hne
    show finalState s = .failed
    rw [finalState, if_pos (Option.isSome_iff_ne_none.mpr hne)]

/-- A step without a guarded write keeps telling a failure. -/
theorem unguarded_sane {act : Act} (hs : Sane s) (hwrite : s.guardedWrite act = none)
    (h : s.next act = some (events, s')) : Sane s' := by
  cases act with
  | start =>
    rw [next] at h
    split at h
    · cases h
    · split at h
      · cases h
        exact hs
      · cases h
        exact sane_unfailed rfl
  | stop =>
    rw [next] at h
    split at h
    · cases h
      exact hs.same rfl rfl
    · cases h
  | requestStop n =>
    rw [next] at h
    split at h
    · cases h
      exact hs.same rfl rfl
    · cases h
  | setSpeed =>
    rw [next] at h
    cases h
    exact hs
  | perform thread => exact perform_sane hs hwrite h
  | own failure =>
    rw [next] at h
    split at h
    · exact own_sane hs h
    · cases h
  | work answer =>
    rw [next] at h
    split at h
    · rename_i worker hworker
      simp only [guardedWrite, hworker] at hwrite
      split at h
      · exact work_sane hs hwrite h
      · cases h
    · cases h
  | reap =>
    rw [next] at h
    cases hreaper : s.reaper with
    | none =>
      rw [hreaper] at h
      cases h
    | some reaper =>
      rw [hreaper] at h
      change s.reap reaper = some (events, s') at h
      unfold reap at h
      repeat' split at h
      all_goals first
        | (cases h; done)
        | (cases h; exact hs.same rfl rfl)
  | outside act =>
    rw [next] at h
    cases act with
    | publish state e =>
      rw [outsideNext] at h
      split at h
      · cases h
        exact hs.same rfl rfl
      · cases h
    | exit =>
      rw [outsideNext] at h
      split at h
      · cases h
        exact hs.same rfl rfl
      · cases h
    | expire =>
      rw [outsideNext] at h
      split at h
      · cases h
        exact hs.same rfl rfl
      · cases h
    | outputFails id e =>
      rw [outsideNext] at h
      split at h
      · cases h
        exact hs.same rfl rfl
      · cases h

/-- **When the state keeps telling a failure.**  A step of a state that tells its failure leads to one that does,
unless it writes in between, and then never. -/
theorem sane_iff {act : Act} (hs : Sane s) (h : s.next act = some (events, s')) :
    Sane s' ↔ s.overwrites act = false := by
  cases hwrite : s.guardedWrite act with
  | none =>
    rw [overwrites, hwrite]
    exact ⟨fun _ => Bool.and_false _, fun _ => unguarded_sane hs hwrite h⟩
  | some state =>
    obtain ⟨herror, hstate⟩ := guarded_written hwrite h
    rw [overwrites, hwrite]
    cases hfailed : s.error with
    | none => exact ⟨fun _ => rfl, fun _ => sane_unfailed (herror.trans hfailed)⟩
    | some e =>
      refine ⟨fun hsane => ?_, (fun hcontra => by cases hcontra)⟩
      have htold : s'.state = .failed := hsane (by rw [herror, hfailed]; simp)
      exact absurd (hstate.symm.trans htold) (guardedWrite_ne hwrite)

end RemuxPipeline

end MwStreamer
