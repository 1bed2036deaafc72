import MwStreamer.Pipeline.OfflinePipeline

/-!
# What a step of the offline pipeline can do

`Move` lists the steps of the worker that change nothing but the worker, `Throws` those that end in the `catch`
block of `Run`, `Stepped` all steps of the pipeline.  The invariants are proved from them and never unfold the step
function.
-/

namespace MwStreamer

namespace OfflinePipeline

/-- The worker leaves `Consume` for one of these checks. -/
def Pc.leaves : Pc → Bool
  | .looping | .judging | .idling => true
  | _ => false

inductive Move (s : OfflinePipeline) (worker : Worker) : List Event → Worker → Prop where
  | checked (hpc : worker.pc = .checking) :
      Move s worker [] { worker with pc := if s.stopping then .looping else .opening }
  | leaves (hpc : worker.pc.leaves = true) (hstopping : s.stopping = true) :
      Move s worker [.stopSeen] { worker with pc := .stoppingSource }
  | loops (hpc : worker.pc = .looping) (hgoing : s.stopping = false) :
      Move s worker [] { worker with pc := .observing }
  | observed (hpc : worker.pc = .observing) : Move s worker [] { worker with
      round := { worker.round with observed := s.revision, info := none, progress := false }, pc := .describing }
  | described (hpc : worker.pc = .describing) : Move s worker [] { worker with
      round := { worker.round with info := s.source.info }
      pc := if s.source.info.isSome then .visiting true else .idling }
  | skipped {video : Bool} (hpc : worker.pc = .visiting video)
      (hskip : worker.round.info.elim false (· video) = false ∨ worker.round.eof video = true) :
      Move s worker [] { worker with pc := .afterTrack video }
  | passed {video : Bool} (hpc : worker.pc = .visiting video) (hstopping : s.stopping = true) :
      Move s worker [.stopSeen] { worker with pc := .afterTrack video }
  | visits {video : Bool} (hpc : worker.pc = .visiting video) (hunread : worker.round.eof video = false) :
      Move s worker [] { worker with pc := .reading video }
  | null {video : Bool} (hpc : worker.pc = .reading video) (hnone : (s.source.tryRead video).1 = none) :
      Move s worker [] { worker with pc := .afterTrack video }
  | exhausted {present : Bool → Bool} (hpc : worker.pc = .judging) (hinfo : worker.round.info = some present)
      (hexhausted : worker.round.exhausted = true) (hgoing : s.stopping = false) :
      Move s worker [.exhausted present] { worker with pc := .resetting }
  | judged (hpc : worker.pc = .judging) (hmore : worker.round.exhausted = false) :
      Move s worker [] { worker with pc := .idling }
  | again (hpc : worker.pc = .idling) (hprogress : worker.round.progress = true) :
      Move s worker [] { worker with pc := .looping }
  | waits (hpc : worker.pc = .idling) (hidle : worker.round.progress = false) (hgoing : s.stopping = false) :
      Move s worker [] { worker with pc := .waiting }
  | woken (hpc : worker.pc = .waiting) (hrevision : s.revision ≠ worker.round.observed) :
      Move s worker [] { worker with pc := .looping }
  | settles (hpc : worker.pc = .settling) :
      Move s worker [] { worker with round := { worker.round with observed := s.revision }, pc := .settleChecking }
  | settleChecked (hpc : worker.pc = .settleChecking) :
      Move s worker [] { worker with pc := if s.stopping then .stoppingSource else .settleReading }
  | settled (hpc : worker.pc = .settleReading) (hended : s.source.state = .ended) :
      Move s worker [.settled] { worker with completed := true, pc := .stoppingSource }
  | unsettled (hpc : worker.pc = .settleReading) (hended : s.source.state ≠ .ended) :
      Move s worker [] { worker with pc := .settleWaiting }
  | settleWoken (hpc : worker.pc = .settleWaiting) (hrevision : s.revision ≠ worker.round.observed) :
      Move s worker [] { worker with pc := .settling }
  | joined (hpc : worker.pc = .joiningSource) (hended : s.source.running = false) (hquiet : s.quiet = true) :
      Move s worker [] { worker with pc := .stoppingFilter }

/-- The worker comes to the `catch` block, with what a filter callback threw or with a failure of its own. -/
inductive Throws (s : OfflinePipeline) (worker : Worker) : List Event → AvMediaFilter → Exception → Prop where
  | starting (hpc : worker.pc = .starting) (e : Exception) : Throws s worker [.threw e] s.filter e
  | opening (hpc : worker.pc = .opening) (e : Exception) : Throws s worker [.threw e] s.filter e
  | unfit (hpc : worker.pc = .resetting ∨ ∃ video frame, worker.pc = .consuming video frame) {e : Exception}
      (hcheck : s.filter.started = false ∨ s.filter.error ≠ none) : Throws s worker [.threw e] s.filter e
  | consuming {video : Bool} {frame : Frame} (hpc : worker.pc = .consuming video frame) (e : Exception) :
      Throws s worker [.consumed video frame, .threw e] (s.filter.finish (some e)) e
  | resetting (hpc : worker.pc = .resetting) (e : Exception) :
      Throws s worker [.reset, .threw e] (s.filter.finish (some e)) e

inductive Stepped (s : OfflinePipeline) : List Event → OfflinePipeline → Prop where
  | same : Stepped s [] s
  | started (hidle : s.owner = .idle) (hstopped : s.started = false) : Stepped s [.started] { s with
      started := true, stopping := false, ended := false, error := none, state := .starting, owner := .launching }
  | stop (hidle : s.owner = .idle) :
      Stepped s [] ({ s with owner := .joiningWorker }.bind .owner OfflinePipeline.requestStop)
  | requested {n : ℕ} (hfree : s.todo (.user n) = []) :
      Stepped s [] (s.bind (.user n) OfflinePipeline.requestStop)
  | dropped {thread : Thread} {e : Exception} {rest : List Task} (htodo : s.todo thread = .fail e :: rest)
      (hdrop : s.started = false ∨ s.error ≠ none) : Stepped s [] (s.bind thread rest)
  | failed {thread : Thread} {e : Exception} {rest : List Task} (htodo : s.todo thread = .fail e :: rest)
      (hstarted : s.started = true) (herror : s.error = none) : Stepped s [.failed e]
        ({ s with error := some e, state := .failed }.bind thread
          (OfflinePipeline.requestStop ++ Task.onError e :: rest))
  | stopRecorded {thread : Thread} {rest : List Task} (htodo : s.todo thread = .requestStop :: rest) :
      Stepped s (if s.started then [.recorded] else []) ({ s with
        stopping := true
        state := if s.started && s.error.isNone && !s.ended then .stopping else s.state }.bind thread rest)
  | cancelled {thread : Thread} {rest : List Task} (htodo : s.todo thread = .cancelSource :: rest) :
      Stepped s [] ({ s with source := { s.source with cancelled := true } }.bind thread (.notify :: rest))
  | notified {thread : Thread} {rest : List Task} (htodo : s.todo thread = .notify :: rest) :
      Stepped s [] ({ s with revision := s.revision + 1 }.bind thread rest)
  | stateChanged {thread : Thread} {state : AvMediaSourceState} {rest : List Task} {next : State}
      (htodo : s.todo thread = .stateChanged state :: rest)
      (hnext : next = s.state ∨ s.started = true ∧ s.stopping = false ∧ s.error = none ∧
        (next = .running ∨ next = .draining)) : Stepped s [] ({ s with state := next }.bind thread rest)
  | reported {thread : Thread} {e : Exception} {rest : List Task} (htodo : s.todo thread = .onError e :: rest) :
      Stepped s [.reported e] (s.bind thread rest)
  | described (hrunning : s.source.running = true) (hquiet : s.todo .source = []) (present : Bool → Bool) :
      Stepped s [] ({ s with source := { s.source with info := some present } }.bind .source [.notify])
  | published (hrunning : s.source.running = true) (hquiet : s.todo .source = []) (state : AvMediaSourceState)
      (e : Exception) : Stepped s [] ({ s with source := { s.source with state := state } }.bind .source
        (.notify :: if state = AvMediaSourceState.failed then [.fail e] else [.stateChanged state, .notify]))
  | cut (hrunning : s.source.running = true) : Stepped s [] { s with source := { s.source with cut := true } }
  | exited (hrunning : s.source.running = true) (hquiet : s.quiet = true) :
      Stepped s [] { s with source := { s.source with running := false, cut := true } }
  | delivered {video : Bool} (hrunning : s.source.running = true) (hopen : s.source.cut = false)
      (hquiet : s.todo (.decoder video) = []) (item : Item) : Stepped s [.delivered video item] ({ s with
        source := { s.source with
          queue := Function.update s.source.queue video (s.source.queue video ++ [item]) } }.bind
            (.decoder video) [.notify])
  | launched (howner : s.owner = .launching) (htodo : s.todo .owner = []) :
      Stepped s [.launched] { s with worker := some {}, owner := .idle }
  | unlaunched (howner : s.owner = .launching) (htodo : s.todo .owner = []) (e : Exception) :
      Stepped s [] ({ s with owner := .aborting }.bind .owner [.fail e])
  | aborts (howner : s.owner = .aborting) (htodo : s.todo .owner = []) :
      Stepped s [] ({ s with owner := .joiningWorker }.bind .owner OfflinePipeline.requestStop)
  | joinedWorker (howner : s.owner = .joiningWorker) (htodo : s.todo .owner = [])
      (hworker : ∀ w, s.worker = some w → w.pc = .done) :
      Stepped s [] ({ s with worker := none, owner := .joiningSource }.bind .owner [.cancelSource])
  | joinedSource (howner : s.owner = .joiningSource) (htodo : s.todo .owner = [])
      (hrunning : s.source.running = false) (hquiet : s.quiet = true) : Stepped s [] { s with owner := .closing }
  | closed (howner : s.owner = .closing) (htodo : s.todo .owner = []) : Stepped s [.stopped s.finalState]
      { s with started := false, state := s.finalState, owner := .idle }
  | moved {worker : Worker} {events : List Event} {worker' : Worker} (hworker : s.worker = some worker)
      (htodo : s.todo .worker = [])
      (hmove : Move s worker events worker') : Stepped s events { s with worker := some worker' }
  | threw {worker : Worker} {events : List Event} {filter : AvMediaFilter} {e : Exception}
      (hworker : s.worker = some worker) (htodo : s.todo .worker = [])
      (hthrows : Throws s worker events filter e) : Stepped s events ({ s with
        filter := filter, worker := some { worker with pc := .stoppingSource } }.bind .worker [.fail e])
  | filterStarted {worker : Worker} (hworker : s.worker = some worker) (htodo : s.todo .worker = [])
      (hpc : worker.pc = .starting) :
      Stepped s [] { s with
        filter := { started := true, error := none }, worker := some { worker with pc := .checking } }
  | opened {worker : Worker} (hworker : s.worker = some worker) (htodo : s.todo .worker = [])
      (hpc : worker.pc = .opening) :
      Stepped s [.opened] ({ s with
        source := s.source.start, worker := some { worker with pc := .rechecking } }.bind .worker [.notify])
  | rechecked {worker : Worker} (hworker : s.worker = some worker) (htodo : s.todo .worker = [])
      (hpc : worker.pc = .rechecking) :
      Stepped s [] ({ s with worker := some { worker with pc := .looping } }.bind .worker
        (if s.stopping then [.cancelSource] else []))
  | readEof {worker : Worker} {video : Bool} {rest : List Item} (hworker : s.worker = some worker)
      (htodo : s.todo .worker = [])
      (hpc : worker.pc = .reading video) (hopen : s.source.cut = false)
      (hqueue : s.source.queue video = .eof :: rest) : Stepped s [.read video .eof] { s with
        source := { s.source with queue := Function.update s.source.queue video rest }
        worker := some { worker with
          round := { worker.round with eof := Function.update worker.round.eof video true, progress := true }
          pc := .afterTrack video } }
  | readFrame {worker : Worker} {video : Bool} {frame : Frame} {rest : List Item} (hworker : s.worker = some worker)
      (htodo : s.todo .worker = []) (hpc : worker.pc = .reading video) (hopen : s.source.cut = false)
      (hqueue : s.source.queue video = .frame frame :: rest) : Stepped s [.read video (.frame frame)] { s with
        source := { s.source with queue := Function.update s.source.queue video rest }
        worker := some { worker with
          round := { worker.round with progress := true }, pc := .consuming video frame } }
  | consumed {worker : Worker} {video : Bool} {frame : Frame} (hworker : s.worker = some worker)
      (htodo : s.todo .worker = [])
      (hpc : worker.pc = .consuming video frame) : Stepped s [.consumed video frame] { s with
        filter := s.filter.finish none, worker := some { worker with pc := .afterTrack video } }
  | reset {worker : Worker} (hworker : s.worker = some worker) (htodo : s.todo .worker = [])
      (hpc : worker.pc = .resetting) :
      Stepped s [.reset] { s with filter := s.filter.finish none, worker := some { worker with pc := .settling } }
  | stopsSource {worker : Worker} (hworker : s.worker = some worker) (htodo : s.todo .worker = [])
      (hpc : worker.pc = .stoppingSource) : Stepped s []
        ({ s with worker := some { worker with pc := .joiningSource } }.bind .worker [.cancelSource])
  | filterStopped {worker : Worker} {thrown : Option Exception} {filter : AvMediaFilter}
      (hworker : s.worker = some worker)
      (htodo : s.todo .worker = []) (hpc : worker.pc = .stoppingFilter) : Stepped s [.filterStopped thrown]
        ({ s with filter := filter, worker := some { worker with pc := .finishing } }.bind .worker
          (thrown.toList.map .fail))
  | finished {worker : Worker} {ended : Bool} (hworker : s.worker = some worker) (htodo : s.todo .worker = [])
      (hpc : worker.pc = .finishing)
      (hended : ended = (worker.completed && !s.stopping && s.error.isNone)) :
      Stepped s [.finished { s with ended := ended }.finalState] { s with
        ended := ended, state := { s with ended := ended }.finalState, worker := some { worker with pc := .done } }

/-! ### Inversion -/

variable {s s' : OfflinePipeline} {events : List Event} {worker : Worker} {thread : Thread}

theorem perform_stepped (h : s.perform thread = some (events, s')) : Stepped s events s' := by
  rw [perform] at h
  split at h
  · cases h
  · rename_i e rest htodo
    split at h
    · rename_i hdrop
      obtain ⟨rfl, rfl⟩ := Prod.mk.inj (Option.some.inj h)
      refine .dropped htodo ?_
      rw [Bool.or_eq_true, Bool.not_eq_true'] at hdrop
      exact hdrop.imp_right Option.isSome_iff_ne_none.mp
    · rename_i hfirst
      obtain ⟨rfl, rfl⟩ := Prod.mk.inj (Option.some.inj h)
      rw [Bool.not_eq_true, Bool.or_eq_false_iff, Bool.not_eq_false'] at hfirst
      exact .failed htodo hfirst.1 (Option.not_isSome_iff_eq_none.mp (by simp [hfirst.2]))
  · rename_i rest htodo
    obtain ⟨rfl, rfl⟩ := Prod.mk.inj (Option.some.inj h)
    exact .stopRecorded htodo
  · rename_i rest htodo
    obtain ⟨rfl, rfl⟩ := Prod.mk.inj (Option.some.inj h)
    exact .cancelled htodo
  · rename_i rest htodo
    obtain ⟨rfl, rfl⟩ := Prod.mk.inj (Option.some.inj h)
    exact .notified htodo
  · rename_i state rest htodo
    obtain ⟨rfl, rfl⟩ := Prod.mk.inj (Option.some.inj h)
    refine .stateChanged htodo ?_
    split
    · rename_i hlive
      rw [Bool.and_eq_true, Bool.and_eq_true, Bool.not_eq_true', Option.isNone_iff_eq_none] at hlive
      cases state with
      | running => exact .inr ⟨hlive.1.1, hlive.1.2, hlive.2, .inl rfl⟩
      | draining => exact .inr ⟨hlive.1.1, hlive.1.2, hlive.2, .inr rfl⟩
      | stopped => exact .inl rfl
      | connecting => exact .inl rfl
      | waitingRetry => exact .inl rfl
      | ended => exact .inl rfl
      | failed => exact .inl rfl
    · exact .inl rfl
  · rename_i e rest htodo
    obtain ⟨rfl, rfl⟩ := Prod.mk.inj (Option.some.inj h)
    exact .reported htodo

theorem source_stepped {act : SourceAct} (h : s.sourceNext act = some (events, s')) : Stepped s events s' := by
  cases act with
  | describe present =>
    rw [sourceNext] at h
    split at h
    · rename_i hguard
      rw [Bool.and_eq_true, List.isEmpty_iff] at hguard
      obtain ⟨rfl, rfl⟩ := Prod.mk.inj (Option.some.inj h)
      exact .described hguard.1 hguard.2 present
    · cases h
  | publish state e =>
    rw [sourceNext] at h
    split at h
    · rename_i hguard
      rw [Bool.and_eq_true, List.isEmpty_iff] at hguard
      obtain ⟨rfl, rfl⟩ := Prod.mk.inj (Option.some.inj h)
      exact .published hguard.1 hguard.2 state e
    · cases h
  | cut =>
    rw [sourceNext] at h
    split at h
    · rename_i hguard
      rw [Bool.and_eq_true] at hguard
      obtain ⟨rfl, rfl⟩ := Prod.mk.inj (Option.some.inj h)
      exact .cut hguard.1
    · cases h
  | exit =>
    rw [sourceNext] at h
    split at h
    · rename_i hguard
      rw [Bool.and_eq_true] at hguard
      obtain ⟨rfl, rfl⟩ := Prod.mk.inj (Option.some.inj h)
      exact .exited hguard.1 hguard.2
    · cases h
  | deliver video item =>
    rw [sourceNext] at h
    split at h
    · rename_i hguard
      rw [Bool.and_eq_true, Bool.and_eq_true, Bool.not_eq_true', List.isEmpty_iff] at hguard
      obtain ⟨rfl, rfl⟩ := Prod.mk.inj (Option.some.inj h)
      exact .delivered hguard.1.1 hguard.1.2 hguard.2 item
    · cases h

theorem own_stepped {failure : Option Exception} (htodo : s.todo .owner = [])
    (h : s.own failure = some (events, s')) : Stepped s events s' := by
  unfold own at h
  split at h
  · cases h
  · rename_i howner
    split at h
    · obtain ⟨rfl, rfl⟩ := Prod.mk.inj (Option.some.inj h)
      exact .launched howner htodo
    · rename_i e
      obtain ⟨rfl, rfl⟩ := Prod.mk.inj (Option.some.inj h)
      exact .unlaunched howner htodo e
  · rename_i howner
    obtain ⟨rfl, rfl⟩ := Prod.mk.inj (Option.some.inj h)
    exact .aborts howner htodo
  · rename_i howner
    split at h
    · rename_i hdone
      obtain ⟨rfl, rfl⟩ := Prod.mk.inj (Option.some.inj h)
      refine .joinedWorker howner htodo fun w hw => ?_
      rw [hw] at hdone
      exact beq_iff_eq.mp hdone
    · cases h
  · rename_i howner
    split at h
    · rename_i hguard
      rw [Bool.and_eq_true, Bool.not_eq_true'] at hguard
      obtain ⟨rfl, rfl⟩ := Prod.mk.inj (Option.some.inj h)
      exact .joinedSource howner htodo hguard.1 hguard.2
    · cases h
  · rename_i howner
    obtain ⟨rfl, rfl⟩ := Prod.mk.inj (Option.some.inj h)
    exact .closed howner htodo

theorem tryRead_some {source source' : Source} {video : Bool} {item : Item}
    (h : source.tryRead video = (some item, source')) : source.cut = false ∧
      ∃ rest, source.queue video = item :: rest ∧
        source' = { source with queue := Function.update source.queue video rest } := by
  rw [Source.tryRead] at h
  split at h
  · cases (Prod.mk.inj h).1
  · rename_i hopen
    rw [Bool.not_eq_true, Bool.or_eq_false_iff, Bool.or_eq_false_iff] at hopen
    split at h
    · cases (Prod.mk.inj h).1
    · rename_i first rest hqueue
      obtain ⟨hitem, hsource⟩ := Prod.mk.inj h
      obtain rfl := Option.some.inj hitem
      exact ⟨hopen.1.2, rest, hqueue, hsource.symm⟩

theorem AvMediaFilter.check_unfit {self : AvMediaFilter} (h : (!self.started || self.error.isSome) = true) :
    self.started = false ∨ self.error ≠ none := by
  rw [Bool.or_eq_true, Bool.not_eq_true'] at h
  exact h.imp_right Option.isSome_iff_ne_none.mp

theorem start_ok {filter filter' : AvMediaFilter} {thrown : Option Exception}
    (h : filter.start thrown = .ok filter') : filter' = { started := true, error := none } := by
  unfold AvMediaFilter.start at h
  split at h
  · cases h
  · split at h
    · cases h
    · exact (Except.ok.inj h).symm

theorem work_stepped {thrown : Option Exception} {opens : Bool} (hworker : s.worker = some worker)
    (htodo : s.todo .worker = []) (h : s.work worker thrown opens = some (events, s')) : Stepped s events s' := by
  have hthrow : ∀ {es : List Event} {filter : AvMediaFilter} {e : Exception}, Throws s worker es filter e →
      some (es, { s with filter := filter }.caught worker e) = some (events, s') → Stepped s events s' := by
    intro es filter e hthrows heq
    obtain ⟨rfl, rfl⟩ := Prod.mk.inj (Option.some.inj heq)
    exact .threw hworker htodo hthrows
  have hmoves : ∀ {es : List Event} {worker' : Worker}, Move s worker es worker' →
      some (es, { s with worker := some worker' }) = some (events, s') → Stepped s events s' := by
    intro es worker' hmove heq
    obtain ⟨rfl, rfl⟩ := Prod.mk.inj (Option.some.inj heq)
    exact .moved hworker htodo hmove
  unfold work at h
  dsimp only at h
  split at h
  · rename_i hpc
    split at h
    · rename_i e hstart
      exact hthrow (.starting hpc e) h
    · rename_i filter hstart
      obtain ⟨rfl, rfl⟩ := Prod.mk.inj (Option.some.inj h)
      rw [start_ok hstart]
      exact .filterStarted hworker htodo hpc
  · rename_i hpc
    exact hmoves (.checked hpc) h
  · rename_i hpc
    split at h
    · obtain ⟨rfl, rfl⟩ := Prod.mk.inj (Option.some.inj h)
      exact .opened hworker htodo hpc
    · exact hthrow (.opening hpc _) h
  · rename_i hpc
    obtain ⟨rfl, rfl⟩ := Prod.mk.inj (Option.some.inj h)
    exact .rechecked hworker htodo hpc
  · rename_i hpc
    split at h
    · rename_i hstopping
      exact hmoves (.leaves (by rw [hpc]; rfl) hstopping) h
    · rename_i hgoing
      exact hmoves (.loops hpc (Bool.eq_false_iff.mpr hgoing)) h
  · rename_i hpc
    exact hmoves (.observed hpc) h
  · rename_i hpc
    exact hmoves (.described hpc) h
  · rename_i video hpc
    split at h
    · rename_i hskip
      rw [Bool.or_eq_true, Bool.not_eq_true'] at hskip
      exact hmoves (.skipped hpc hskip) h
    · rename_i hskip
      rw [Bool.not_eq_true, Bool.or_eq_false_iff] at hskip
      split at h
      · rename_i hstopping
        exact hmoves (.passed hpc hstopping) h
      · exact hmoves (.visits hpc hskip.2) h
  · rename_i video hpc
    split at h
    · rename_i source hread
      exact hmoves (.null hpc (congrArg Prod.fst hread)) h
    · rename_i source hread
      obtain ⟨hopen, rest, hqueue, rfl⟩ := tryRead_some hread
      obtain ⟨rfl, rfl⟩ := Prod.mk.inj (Option.some.inj h)
      exact .readEof hworker htodo hpc hopen hqueue
    · rename_i frame source hread
      obtain ⟨hopen, rest, hqueue, rfl⟩ := tryRead_some hread
      obtain ⟨rfl, rfl⟩ := Prod.mk.inj (Option.some.inj h)
      exact .readFrame hworker htodo hpc hopen hqueue
  · rename_i video frame hpc
    split at h
    · rename_i e hcheck
      refine hthrow (.unfit (.inr ⟨video, frame, hpc⟩) ?_) h
      rw [AvMediaFilter.checkProcess] at hcheck
      split at hcheck
      · rename_i hunfit
        exact AvMediaFilter.check_unfit hunfit
      · cases hcheck
    · split at h
      · rename_i e
        exact hthrow (.consuming hpc e) h
      · obtain ⟨rfl, rfl⟩ := Prod.mk.inj (Option.some.inj h)
        exact .consumed hworker htodo hpc
  · rename_i hpc
    split at h
    · rename_i hinfo
      refine hmoves (.judged hpc ?_) h
      rw [Round.exhausted, hinfo]
    · rename_i present hinfo
      split at h
      · rename_i hexhausted
        split at h
        · rename_i hstopping
          exact hmoves (.leaves (by rw [hpc]; rfl) hstopping) h
        · rename_i hgoing
          exact hmoves (.exhausted hpc hinfo hexhausted (Bool.eq_false_iff.mpr hgoing)) h
      · rename_i hmore
        exact hmoves (.judged hpc (Bool.eq_false_iff.mpr hmore)) h
  · rename_i hpc
    split at h
    · rename_i hprogress
      exact hmoves (.again hpc hprogress) h
    · rename_i hprogress
      split at h
      · rename_i hstopping
        exact hmoves (.leaves (by rw [hpc]; rfl) hstopping) h
      · rename_i hgoing
        exact hmoves (.waits hpc (Bool.eq_false_iff.mpr hprogress) (Bool.eq_false_iff.mpr hgoing)) h
  · rename_i hpc
    split at h
    · rename_i hrevision
      exact hmoves (.woken hpc hrevision) h
    · cases h
  · rename_i hpc
    split at h
    · rename_i e hcheck
      refine hthrow (.unfit (.inl hpc) ?_) h
      rw [AvMediaFilter.checkReset] at hcheck
      split at hcheck
      · rename_i hunfit
        exact AvMediaFilter.check_unfit hunfit
      · cases hcheck
    · split at h
      · rename_i e
        exact hthrow (.resetting hpc e) h
      · obtain ⟨rfl, rfl⟩ := Prod.mk.inj (Option.some.inj h)
        exact .reset hworker htodo hpc
  · rename_i hpc
    exact hmoves (.settles hpc) h
  · rename_i hpc
    exact hmoves (.settleChecked hpc) h
  · rename_i hpc
    split at h
    · rename_i hended
      exact hmoves (.settled hpc hended) h
    · rename_i hended
      exact hmoves (.unsettled hpc hended) h
  · rename_i hpc
    split at h
    · rename_i hrevision
      exact hmoves (.settleWoken hpc hrevision) h
    · cases h
  · rename_i hpc
    obtain ⟨rfl, rfl⟩ := Prod.mk.inj (Option.some.inj h)
    exact .stopsSource hworker htodo hpc
  · rename_i hpc
    split at h
    · rename_i hguard
      rw [Bool.and_eq_true, Bool.not_eq_true'] at hguard
      exact hmoves (.joined hpc hguard.1 hguard.2) h
    · cases h
  · rename_i hpc
    obtain ⟨rfl, rfl⟩ := Prod.mk.inj (Option.some.inj h)
    exact .filterStopped hworker htodo hpc
  · rename_i hpc
    obtain ⟨rfl, rfl⟩ := Prod.mk.inj (Option.some.inj h)
    exact .finished hworker htodo hpc rfl
  · cases h

theorem stepped {act : Act} (h : s.next act = some (events, s')) : Stepped s events s' := by
  cases act with
  | start =>
    rw [next] at h
    split at h
    · cases h
    · rename_i hidle
      split at h
      · obtain ⟨rfl, rfl⟩ := Prod.mk.inj (Option.some.inj h)
        exact .same
      · rename_i hstopped
        obtain ⟨rfl, rfl⟩ := Prod.mk.inj (Option.some.inj h)
        exact .started (not_not.mp hidle) (Bool.eq_false_iff.mpr hstopped)
  | stop =>
    rw [next] at h
    split at h
    · rename_i hidle
      obtain ⟨rfl, rfl⟩ := Prod.mk.inj (Option.some.inj h)
      exact .stop hidle
    · cases h
  | requestStop n =>
    rw [next] at h
    split at h
    · rename_i hfree
      obtain ⟨rfl, rfl⟩ := Prod.mk.inj (Option.some.inj h)
      exact .requested (List.isEmpty_iff.mp hfree)
    · cases h
  | perform thread => exact perform_stepped h
  | own failure =>
    rw [next] at h
    split at h
    · rename_i htodo
      exact own_stepped (List.isEmpty_iff.mp htodo) h
    · cases h
  | work thrown opens =>
    rw [next] at h
    split at h
    · rename_i worker hworker
      split at h
      · rename_i htodo
        exact work_stepped hworker (List.isEmpty_iff.mp htodo) h
      · cases h
    · cases h
  | source act => exact source_stepped h

end OfflinePipeline

end MwStreamer
