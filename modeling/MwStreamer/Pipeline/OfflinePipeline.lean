import MwStreamer.Library.Threads
import MwStreamer.Library.Transition
import MwStreamer.Media.Frame

/-!
# The offline pipeline

`OfflinePipeline` has one worker that starts the source, hands every decoded frame to the business filter and
cleans up.  The owner calls `Start` and `Stop`, anyone calls `RequestStop`, and the source calls back from a thread
of its own.  A step is a section of `mutex_`, one access to the signal or one call of a component; each thread has a
list of the steps it is bound to take next.

The source, its decoders and the callbacks answer arbitrarily.  Whatever of the source the worker looks at is
written before the signal is notified: a decoder notifies after each item, the source after each new state.  The
revision of the signal is a natural number, which leaves out 2^64 notifications within one wait.
-/

namespace MwStreamer

/-- `AvMediaSourceState`. -/
inductive AvMediaSourceState where
  | stopped
  | connecting
  | running
  | waitingRetry
  | draining
  | ended
  | failed
  deriving DecidableEq, Repr

/-- `AvMediaFilter::Impl`, of which one thread calls everything, so that no callback is active when it is
stopped. -/
structure AvMediaFilter where
  started : Bool := false
  error : Option Exception := none
  deriving DecidableEq, Repr

namespace AvMediaFilter

/-- `Start`; `thrown` is what `OnStart` throws. -/
def start (self : AvMediaFilter) (thrown : Option Exception) : Except Exception AvMediaFilter :=
  if self.started then .error (.logicError "AvMediaFilter 重新启动前需要 Stop")
  else
    match thrown with
    | some e => .error e
    | none => .ok { started := true, error := none }

/-- `ConsumeVideo` or `ConsumeAudio` up to the callback. -/
def checkProcess (self : AvMediaFilter) : Except Exception Unit :=
  if !self.started || self.error.isSome then .error (.logicError "AvMediaFilter 处理帧前需要成功 Start")
  else .ok ()

/-- `Reset` up to the callback. -/
def checkReset (self : AvMediaFilter) : Except Exception Unit :=
  if !self.started || self.error.isSome then .error (.logicError "AvMediaFilter 重置前需要成功 Start")
  else .ok ()

/-- The end of a callback for a frame or for `Reset`. -/
def finish (self : AvMediaFilter) (thrown : Option Exception) : AvMediaFilter :=
  { self with error := self.error <|> thrown }

/-- `Stop`, with what it throws. -/
def stop (self : AvMediaFilter) (thrown : Option Exception) : Option Exception × AvMediaFilter :=
  if self.started then (thrown, { self with started := false }) else (none, self)

end AvMediaFilter

namespace OfflinePipeline

/-- `OfflinePipelineState`. -/
inductive State where
  | stopped
  | starting
  | running
  | draining
  | ended
  | stopping
  | failed
  deriving DecidableEq, Repr

/-- What a decoder delivers; a frame item always has its frame. -/
inductive Item where
  | frame (frame : Frame)
  | eof
  deriving DecidableEq, Repr

inductive Thread where
  | owner
  | worker
  | source
  | decoder (video : Bool)
  | user (n : ℕ)
  deriving DecidableEq, Repr

/-- What a thread is bound to do next: the sections of `Fail`, of `RequestStop` and of the state callback, and the
calls that follow them. -/
inductive Task where
  | fail (e : Exception)
  | requestStop
  | cancelSource
  | notify
  | stateChanged (state : AvMediaSourceState)
  | onError (e : Exception)
  deriving DecidableEq, Repr

/-- `RequestStop`. -/
def requestStop : List Task := [.requestStop, .cancelSource, .notify]

/-- The source as its users see it.  `cut` tells that nothing can be read any more, `running` that its controller
is there. -/
structure Source where
  running : Bool := false
  cancelled : Bool := false
  cut : Bool := true
  state : AvMediaSourceState := .stopped
  info : Option (Bool → Bool) := none
  queue : Bool → List Item := fun _ => []

/-- The variables of `Consume`: the tracks whose end was read, and what the current round has read. -/
structure Round where
  eof : Bool → Bool := fun _ => false
  observed : ℕ := 0
  info : Option (Bool → Bool) := none
  progress : Bool := false

/-- Where the worker is in `Run` and `Consume`. -/
inductive Pc where
  | starting
  | checking
  | opening
  | rechecking
  | looping
  | observing
  | describing
  | visiting (video : Bool)
  | reading (video : Bool)
  | consuming (video : Bool) (frame : Frame)
  | judging
  | idling
  | waiting
  | resetting
  | settling
  | settleChecking
  | settleReading
  | settleWaiting
  | stoppingSource
  | joiningSource
  | stoppingFilter
  | finishing
  | done
  deriving DecidableEq, Repr

structure Worker where
  pc : Pc := .starting
  round : Round := {}
  completed : Bool := false

/-- Where the owner is: in `Start`, in the `Stop` a failed `Start` calls, or in a `Stop`. -/
inductive Owner where
  | idle
  | launching
  | aborting
  | joiningWorker
  | joiningSource
  | closing
  deriving DecidableEq, Repr

/-- `recorded` is the section of a `RequestStop` that found the pipeline started, `failed` the failure `Fail`
records, `reported` its call of `OnError`, if one was set; `threw` is an exception that `Run` caught, `stopSeen` a
check in `Consume` that found a stop; `exhausted` carries the tracks that were present when the end of all of them had
been read; `settled` is the look that found the source ended. -/
inductive Event where
  | started
  | launched
  | opened
  | recorded
  | failed (e : Exception)
  | reported (e : Exception)
  | delivered (video : Bool) (item : Item)
  | read (video : Bool) (item : Item)
  | consumed (video : Bool) (frame : Frame)
  | threw (e : Exception)
  | stopSeen
  | exhausted (present : Bool → Bool)
  | reset
  | settled
  | filterStopped (thrown : Option Exception)
  | finished (state : State)
  | stopped (state : State)

end OfflinePipeline

open OfflinePipeline in
/-- `OfflinePipeline::Impl`. -/
structure OfflinePipeline where
  state : State := .stopped
  started : Bool := false
  stopping : Bool := false
  ended : Bool := false
  error : Option Exception := none
  revision : ℕ := 0
  source : Source := {}
  filter : AvMediaFilter := {}
  worker : Option Worker := none
  owner : Owner := .idle
  todo : Thread → List Task := fun _ => []

namespace OfflinePipeline

/-- The thread is bound to do these. -/
def bind (s : OfflinePipeline) (thread : Thread) (tasks : List Task) : OfflinePipeline :=
  { s with todo := Function.update s.todo thread tasks }

/-- The state `Run` and `Stop` end with. -/
def finalState (s : OfflinePipeline) : State :=
  if s.error.isSome then .failed else if s.ended then .ended else .stopped

/-! ### Sections and calls -/

/-- The next of the steps a thread is bound to take. -/
def perform (s : OfflinePipeline) (thread : Thread) : Option (List Event × OfflinePipeline) :=
  match s.todo thread with
  | [] => none
  | .fail e :: rest =>
    if !s.started || s.error.isSome then some ([], s.bind thread rest)
    else
      some ([.failed e],
        { s with error := some e, state := .failed }.bind thread
          (OfflinePipeline.requestStop ++ Task.onError e :: rest))
  | .requestStop :: rest =>
    some (if s.started then [.recorded] else [],
      { s with
        stopping := true
        state := if s.started && s.error.isNone && !s.ended then .stopping else s.state }.bind thread rest)
  | .cancelSource :: rest =>
    some ([], { s with source := { s.source with cancelled := true } }.bind thread (.notify :: rest))
  | .notify :: rest => some ([], { s with revision := s.revision + 1 }.bind thread rest)
  | .stateChanged state :: rest =>
    let next :=
      if s.started && !s.stopping && s.error.isNone then
        match state with
        | .running => .running
        | .draining => .draining
        | _ => s.state
      else s.state
    some ([], { s with state := next }.bind thread rest)
  | .onError e :: rest => some ([.reported e], s.bind thread rest)

/-! ### The source -/

/-- `TryReadVideo` or `TryReadAudio`. -/
def Source.tryRead (source : Source) (video : Bool) : Option Item × Source :=
  if source.cancelled || source.cut || source.state = .ended then (none, source)
  else
    match source.queue video with
    | [] => (none, source)
    | item :: rest => (some item, { source with queue := Function.update source.queue video rest })

/-- `AvMediaSource::Start`. -/
def Source.start (source : Source) : Source :=
  { source with
    running := true, cancelled := false, cut := false, state := .connecting, info := none, queue := fun _ => [] }

/-- What the source does by itself: it opens its input, changes its state, cuts off its readers or comes to its
end; a decoder delivers an item. -/
inductive SourceAct where
  | describe (present : Bool → Bool)
  | publish (state : AvMediaSourceState) (error : Exception)
  | cut
  | exit
  | deliver (video : Bool) (item : Item)

/-- The threads of the source have nothing left to do. -/
def quiet (s : OfflinePipeline) : Bool :=
  (s.todo .source).isEmpty && (s.todo (.decoder true)).isEmpty && (s.todo (.decoder false)).isEmpty

def sourceNext (s : OfflinePipeline) : SourceAct → Option (List Event × OfflinePipeline)
  | .describe present =>
    if s.source.running && (s.todo .source).isEmpty then
      some ([], { s with source := { s.source with info := some present } }.bind .source [.notify])
    else none
  | .publish state error =>
    if s.source.running && (s.todo .source).isEmpty then
      let callback := if state = .failed then [.fail error] else [.stateChanged state, .notify]
      some ([], { s with source := { s.source with state := state } }.bind .source (.notify :: callback))
    else none
  | .cut =>
    if s.source.running && (s.todo .source).isEmpty then
      some ([], { s with source := { s.source with cut := true } })
    else none
  | .exit =>
    if s.source.running && s.quiet then
      some ([], { s with source := { s.source with running := false, cut := true } })
    else none
  | .deliver video item =>
    if s.source.running && !s.source.cut && (s.todo (.decoder video)).isEmpty then
      some ([.delivered video item], { s with
        source := { s.source with
          queue := Function.update s.source.queue video (s.source.queue video ++ [item]) } }.bind
            (.decoder video) [.notify])
    else none

/-! ### The worker -/

def goto (s : OfflinePipeline) (worker : Worker) (pc : Pc) : OfflinePipeline :=
  { s with worker := some { worker with pc := pc } }

/-- The `catch` block of `Run`. -/
def caught (s : OfflinePipeline) (worker : Worker) (e : Exception) : OfflinePipeline :=
  (s.goto worker .stoppingSource).bind .worker [.fail e]

/-- The track after this one, or the end of the loop over the tracks. -/
def Pc.afterTrack (video : Bool) : Pc := if video then .visiting false else .judging

/-- Every present track has been read to its end. -/
def Round.exhausted (round : Round) : Bool :=
  match round.info with
  | none => false
  | some present => (present true || present false) && (!present true || round.eof true) &&
      (!present false || round.eof false)

/-- A step of the worker outside the steps it is bound to take.  `thrown` is what the filter callback it calls
throws; `opens` tells that the source starts. -/
def work (s : OfflinePipeline) (worker : Worker) (thrown : Option Exception) (opens : Bool) :
    Option (List Event × OfflinePipeline) :=
  let round := worker.round
  match worker.pc with
  | .starting =>
    match s.filter.start thrown with
    | .error e => some ([.threw e], s.caught worker e)
    | .ok filter => some ([], { s with filter := filter }.goto worker .checking)
  | .checking => some ([], s.goto worker (if s.stopping then .looping else .opening))
  | .opening =>
    if opens then
      some ([.opened], ({ s with source := s.source.start }.goto worker .rechecking).bind .worker [.notify])
    else
      let e := .runtimeError "OfflinePipeline MediaSource 启动失败"
      some ([.threw e], s.caught worker e)
  | .rechecking => some ([], (s.goto worker .looping).bind .worker (if s.stopping then [.cancelSource] else []))
  | .looping =>
    if s.stopping then some ([.stopSeen], s.goto worker .stoppingSource)
    else some ([], s.goto worker .observing)
  | .observing =>
    some ([], s.goto { worker with
      round := { round with observed := s.revision, info := none, progress := false } } .describing)
  | .describing =>
    some ([], s.goto { worker with round := { round with info := s.source.info } }
      (if s.source.info.isSome then .visiting true else .idling))
  | .visiting video =>
    if !(round.info.elim false (· video)) || round.eof video then some ([], s.goto worker (.afterTrack video))
    else if s.stopping then some ([.stopSeen], s.goto worker (.afterTrack video))
    else some ([], s.goto worker (.reading video))
  | .reading video =>
    match s.source.tryRead video with
    | (none, _) => some ([], s.goto worker (.afterTrack video))
    | (some .eof, source) =>
      some ([.read video .eof], { s with source := source }.goto { worker with
        round := { round with eof := Function.update round.eof video true, progress := true } } (.afterTrack video))
    | (some (.frame frame), source) =>
      some ([.read video (.frame frame)], { s with source := source }.goto { worker with
        round := { round with progress := true } } (.consuming video frame))
  | .consuming video frame =>
    match s.filter.checkProcess with
    | .error e => some ([.threw e], s.caught worker e)
    | .ok () =>
      let s := { s with filter := s.filter.finish thrown }
      match thrown with
      | some e => some ([.consumed video frame, .threw e], s.caught worker e)
      | none => some ([.consumed video frame], s.goto worker (.afterTrack video))
  | .judging =>
    match round.info with
    | none => some ([], s.goto worker .idling)
    | some present =>
      if round.exhausted then
        if s.stopping then some ([.stopSeen], s.goto worker .stoppingSource)
        else some ([.exhausted present], s.goto worker .resetting)
      else some ([], s.goto worker .idling)
  | .idling =>
    if round.progress then some ([], s.goto worker .looping)
    else if s.stopping then some ([.stopSeen], s.goto worker .stoppingSource)
    else some ([], s.goto worker .waiting)
  | .waiting => if s.revision ≠ round.observed then some ([], s.goto worker .looping) else none
  | .resetting =>
    match s.filter.checkReset with
    | .error e => some ([.threw e], s.caught worker e)
    | .ok () =>
      let s := { s with filter := s.filter.finish thrown }
      match thrown with
      | some e => some ([.reset, .threw e], s.caught worker e)
      | none => some ([.reset], s.goto worker .settling)
  | .settling =>
    some ([], s.goto { worker with round := { round with observed := s.revision } } .settleChecking)
  | .settleChecking => some ([], s.goto worker (if s.stopping then .stoppingSource else .settleReading))
  | .settleReading =>
    if s.source.state = .ended then some ([.settled], s.goto { worker with completed := true } .stoppingSource)
    else some ([], s.goto worker .settleWaiting)
  | .settleWaiting => if s.revision ≠ round.observed then some ([], s.goto worker .settling) else none
  | .stoppingSource => some ([], (s.goto worker .joiningSource).bind .worker [.cancelSource])
  | .joiningSource =>
    if !s.source.running && s.quiet then some ([], s.goto worker .stoppingFilter) else none
  | .stoppingFilter =>
    let (thrown, filter) := s.filter.stop thrown
    some ([.filterStopped thrown],
      ({ s with filter := filter }.goto worker .finishing).bind .worker (thrown.toList.map .fail))
  | .finishing =>
    let s := { s with ended := worker.completed && !s.stopping && s.error.isNone }
    let s := { s with state := s.finalState }
    some ([.finished s.state], s.goto worker .done)
  | .done => none

/-! ### The owner -/

/-- A step of the owner in `Start` or `Stop`; `failure` is why `Start` cannot launch the worker. -/
def own (s : OfflinePipeline) (failure : Option Exception) : Option (List Event × OfflinePipeline) :=
  match s.owner with
  | .idle => none
  | .launching =>
    match failure with
    | none => some ([.launched], { s with worker := some {}, owner := .idle })
    | some e => some ([], { s with owner := .aborting }.bind .owner [.fail e])
  | .aborting => some ([], { s with owner := .joiningWorker }.bind .owner OfflinePipeline.requestStop)
  | .joiningWorker =>
    if s.worker.all (·.pc == .done) then
      some ([], { s with worker := none, owner := .joiningSource }.bind .owner [.cancelSource])
    else none
  | .joiningSource => if !s.source.running && s.quiet then some ([], { s with owner := .closing }) else none
  | .closing =>
    let s := { s with started := false, state := s.finalState, owner := .idle }
    some ([.stopped s.state], s)

/-- The next step: the owner calls `Start` or `Stop`, a user calls `RequestStop`, a thread takes the next of the
steps it is bound to take, or the owner, the worker or the source goes on. -/
inductive Act where
  | start
  | stop
  | requestStop (n : ℕ)
  | perform (thread : Thread)
  | own (failure : Option Exception)
  | work (thrown : Option Exception) (opens : Bool)
  | source (act : SourceAct)

def next (s : OfflinePipeline) : Act → Option (List Event × OfflinePipeline)
  | .start =>
    if s.owner ≠ .idle then none
    else if s.started then some ([], s)
    else
      some ([.started], { s with
        started := true, stopping := false, ended := false, error := none, state := .starting, owner := .launching })
  | .stop =>
    if s.owner = .idle then some ([], { s with owner := .joiningWorker }.bind .owner OfflinePipeline.requestStop)
    else none
  | .requestStop n =>
    if (s.todo (.user n)).isEmpty then some ([], s.bind (.user n) OfflinePipeline.requestStop) else none
  | .perform thread => s.perform thread
  | .own failure => if (s.todo .owner).isEmpty then s.own failure else none
  | .work thrown opens =>
    match s.worker with
    | some worker => if (s.todo .worker).isEmpty then s.work worker thrown opens else none
    | none => none
  | .source act => s.sourceNext act

def system : Transition OfflinePipeline Event where
  init s := s = {}
  step s events s' := ∃ act, s.next act = some (events, s')

end OfflinePipeline

end MwStreamer
