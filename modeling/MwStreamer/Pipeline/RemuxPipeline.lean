import MwStreamer.Library.Threads
import MwStreamer.Library.Transition
import MwStreamer.Input.AvInputProxy

/-!
# The remux pipeline

`RemuxPipeline` has a packet worker, which reads the input and submits to the output of the current session, and a
retirement worker, which stops the outputs of sessions that are over.  The owner calls `Start` and `Stop`, anyone
calls `RequestStop`, the input proxy calls back with its state and each output with its error.  A step is a section
of `mutex_` or one call of a component; each thread has a list of the steps it is bound to take next.

The proxy, the outputs and the callbacks answer arbitrarily: what the packets are, when a session begins and how a
packet is paced is the subject of the packet worker's own model.  Outputs are not added while the pipeline runs.
-/

namespace MwStreamer

namespace RemuxPipeline

/-- `RemuxPipelineState`. -/
inductive State where
  | stopped
  | starting
  | running
  | waitingRetry
  | draining
  | ended
  | stopping
  | failed
  deriving DecidableEq, Repr

inductive Thread where
  | owner
  | worker
  | input
  | output (id : ℕ)
  | user (n : ℕ)
  deriving DecidableEq, Repr

/-- What a thread is bound to do next: the sections of `Fail`, of `RequestStop` and of the state callback, and the
calls that follow them. -/
inductive Task where
  | fail (e : Exception)
  | requestStop
  | cancelInput
  | drain (output : ℕ)
  | inputChanged (state : AvInputProxyState)
  | onError (e : Exception)
  deriving DecidableEq, Repr

/-- The input proxy as the pipeline sees it; `running` tells that its control worker is there. -/
structure Input where
  running : Bool := false
  cancelled : Bool := false
  state : AvInputProxyState := .stopped
  deriving DecidableEq, Repr

/-- An output as the pipeline sees it; `live` tells that it may still call back. -/
structure Output where
  live : Bool := false
  draining : Bool := false
  deriving DecidableEq, Repr

/-- Where the packet worker is in `Run` and `Initialize`. -/
inductive Pc where
  | entering
  | opening
  | rechecking
  | looping
  | reading
  | endReached
  | preparing
  | closingSession
  | sessionChecking
  | ensuring
  | startingOutput
  | sessionStarted
  | pacing
  | calling
  | submitChecking
  | capturing
  | submitting (output : Option ℕ)
  | rejected
  | submitted
  | leaving
  | awaitingEnd
  | stoppingInput
  | joiningInput
  | closing
  | finishing
  | settling
  | done
  deriving DecidableEq, Repr

/-- `eof` is the local variable of `Run`. -/
structure Worker where
  pc : Pc := .entering
  eof : Bool := false
  deriving DecidableEq, Repr

/-- Where the retirement worker is in `Reap`. -/
inductive Reaper where
  | waiting
  | stopping (output : ℕ)
  | collecting (output : ℕ)
  | done
  deriving DecidableEq, Repr

/-- Where the owner is: in `Start`, in the `Stop` a failed `Start` calls, or in a `Stop`. -/
inductive Owner where
  | idle
  | ensuring
  | launchingReaper
  | launchingWorker
  | aborting
  | joiningWorker
  | joiningInput
  | closing
  | joiningReaper
  | finishing
  deriving DecidableEq, Repr

/-- `recorded` is the section of a `RequestStop` that found the pipeline started, `failed` the failure `Fail`
records, `reported` its call of `OnError`, if one was set; `eof` is the end the packet worker acts on, `retired` an
output that is handed to the retirement worker, `collected` one whose `Stop` and statuses it has; `ended` is the
section that reports the end. -/
inductive Event where
  | started
  | recorded
  | failed (e : Exception)
  | reported (e : Exception)
  | opened
  | eof
  | retired (output : ℕ)
  | collected (output : ℕ)
  | ended
  | stopped (state : State)
  deriving DecidableEq, Repr

end RemuxPipeline

open RemuxPipeline in
/-- `RemuxPipeline::Impl`.  Outputs are numbered in the order they are made; `loop` is the configuration's. -/
structure RemuxPipeline where
  loop : Bool := false
  state : State := .stopped
  started : Bool := false
  stopping : Bool := false
  ended : Bool := false
  hasMedia : Bool := false
  workerDone : Bool := false
  error : Option Exception := none
  input : Input := {}
  outputs : ℕ → Output := fun _ => {}
  made : ℕ := 1
  current : Option ℕ := some 0
  sessionStarted : Bool := false
  retired : List ℕ := []
  retiring : Option ℕ := none
  worker : Option Worker := none
  reaper : Option Reaper := none
  owner : Owner := .idle
  todo : Thread → List Task := fun _ => []

namespace RemuxPipeline

/-- The thread is bound to do these. -/
def bind (s : RemuxPipeline) (thread : Thread) (tasks : List Task) : RemuxPipeline :=
  { s with todo := Function.update s.todo thread tasks }

def setOutput (s : RemuxPipeline) (id : ℕ) (output : Output) : RemuxPipeline :=
  { s with outputs := Function.update s.outputs id output }

/-- The state `Stop` ends with. -/
def finalState (s : RemuxPipeline) : State :=
  if s.error.isSome then .failed else if s.ended then .ended else .stopped

/-- The state callback takes the pipeline to `kWaitingRetry`. -/
def waits (s : RemuxPipeline) (state : AvInputProxyState) : Bool :=
  s.started && !s.stopping && s.state != .draining && s.state != .ended &&
    (state == .waitingRetry || (state == .connecting && s.hasMedia))

/-- A write of `state_` that is guarded by `!stopping_` alone. -/
def advanceTo (s : RemuxPipeline) (state : State) : RemuxPipeline :=
  { s with state := if s.stopping then s.state else state }

/-! ### Sections and calls -/

/-- The next of the steps a thread is bound to take.  `RequestStop` drains the output that was the current one in
its section. -/
def perform (s : RemuxPipeline) (thread : Thread) : Option (List Event × RemuxPipeline) :=
  match s.todo thread with
  | [] => none
  | .fail e :: rest =>
    if !s.started || s.error.isSome then some ([], s.bind thread rest)
    else
      some ([.failed e],
        { s with error := some e, state := .failed }.bind thread (.requestStop :: .onError e :: rest))
  | .requestStop :: rest =>
    some (if s.started then [.recorded] else [],
      { s with
        stopping := true
        state := if s.started && s.error.isNone && !s.ended then .stopping else s.state }.bind thread
          (.cancelInput :: (s.current.toList.map Task.drain ++ rest)))
  | .cancelInput :: rest =>
    some ([], { s with input := { s.input with cancelled := true } }.bind thread rest)
  | .drain id :: rest =>
    some ([], (s.setOutput id { s.outputs id with draining := true }).bind thread rest)
  | .inputChanged state :: rest =>
    some ([], { s with state := if s.waits state then .waitingRetry else s.state }.bind thread rest)
  | .onError e :: rest => some ([.reported e], s.bind thread rest)

/-! ### The input and the outputs -/

/-- What the components do by themselves: the proxy changes its state or comes to its end, the timer of a probe
cancels it, an output fails. -/
inductive OutsideAct where
  | publish (state : AvInputProxyState) (error : Exception)
  | exit
  | expire
  | outputFails (id : ℕ) (error : Exception)

def outsideNext (s : RemuxPipeline) : OutsideAct → Option (List Event × RemuxPipeline)
  | .publish state error =>
    if s.input.running && (s.todo .input).isEmpty then
      let callback := if state = .failed then .fail error else .inputChanged state
      some ([], { s with input := { s.input with state := state } }.bind .input [callback])
    else none
  | .exit =>
    if s.input.running && (s.todo .input).isEmpty then
      some ([], { s with input := { s.input with running := false } })
    else none
  | .expire =>
    if s.worker.map Worker.pc = some .preparing then
      some ([], { s with input := { s.input with cancelled := true } })
    else none
  | .outputFails id error =>
    if (s.outputs id).live && (s.todo (.output id)).isEmpty then some ([], s.bind (.output id) [.fail error])
    else none

/-! ### Sessions -/

/-- `CloseCurrent` of a session that was started: its output is retired. -/
def retire (s : RemuxPipeline) : List Event × RemuxPipeline :=
  match s.current with
  | none => ([], s)
  | some id => ([.retired id], { s with current := none, retired := s.retired ++ [id], sessionStarted := false })

/-- `CloseCurrent`.  An output without a session is destroyed, once it does not call back any more. -/
def closeCurrent (s : RemuxPipeline) : Option (List Event × RemuxPipeline) :=
  if s.sessionStarted then some s.retire
  else
    match s.current with
    | none => some ([], s)
    | some id =>
      if (s.todo (.output id)).isEmpty then
        some ([], { s with current := none }.setOutput id { s.outputs id with live := false })
      else none

/-- `EnsureRemuxer`. -/
def ensureRemuxer (s : RemuxPipeline) : RemuxPipeline :=
  match s.current with
  | some _ => s
  | none => { s with current := some s.made, made := s.made + 1 }.setOutput s.made {}

/-! ### The packet worker -/

def goto (s : RemuxPipeline) (worker : Worker) (pc : Pc) : RemuxPipeline :=
  { s with worker := some { worker with pc := pc } }

/-- The `catch` block of `Run`. -/
def caught (s : RemuxPipeline) (worker : Worker) (e : Exception) : RemuxPipeline :=
  (s.goto worker .leaving).bind .worker [.fail e]

/-- What the input gives: a packet that is not delivered, a packet of the session, one that begins a session, an
end, or nothing. -/
inductive Read where
  | other
  | packet
  | boundary
  | eof
  | null (e : Exception)

/-- What the calls of the worker answer: the read, what throws, and whether a component accepts. -/
structure Answer where
  read : Read := .packet
  thrown : Option Exception := none
  accepts : Bool := true

/-- A step of the packet worker outside the steps it is bound to take. -/
def work (s : RemuxPipeline) (worker : Worker) (answer : Answer) : Option (List Event × RemuxPipeline) :=
  match worker.pc with
  | .entering => some ([], s.goto worker (if s.stopping then .looping else .opening))
  | .opening =>
    if answer.accepts then
      some ([.opened],
        { s with input := { running := true, cancelled := false, state := .connecting } }.goto worker .rechecking)
    else some ([], s.caught worker (.runtimeError "RemuxPipeline AvInputProxy 启动失败"))
  | .rechecking => some ([], (s.goto worker .looping).bind .worker (if s.stopping then [.cancelInput] else []))
  | .looping => some ([], s.goto worker (if s.stopping then .leaving else .reading))
  | .reading =>
    -- The check after the read is the first thing that looks at the pipeline again.
    if s.stopping then some ([], s.goto worker .leaving)
    else
      match answer.thrown with
      | some e => some ([], s.caught worker e)
      | none =>
        match answer.read with
        | .other => some ([], s.goto worker .looping)
        | .packet => some ([], s.goto worker .pacing)
        | .boundary => some ([], s.goto worker .preparing)
        | .eof => some ([], s.goto worker (if s.loop then .looping else .endReached))
        | .null e => some ([], s.caught worker e)
  | .endReached => some ([.eof], (s.advanceTo .draining).goto { worker with eof := true } .leaving)
  | .preparing =>
    match answer.thrown with
    | some e => some ([], s.caught worker e)
    | none => some ([], s.goto worker (if s.stopping then .leaving else .closingSession))
  | .closingSession =>
    if s.sessionStarted then
      let (events, s) := s.retire
      some (events, s.goto worker .sessionChecking)
    else some ([], s.goto worker .sessionChecking)
  | .sessionChecking => some ([], s.goto worker (if s.stopping then .pacing else .ensuring))
  | .ensuring =>
    match answer.thrown with
    | some e => some ([], s.caught worker e)
    | none => some ([], s.ensureRemuxer.goto worker .startingOutput)
  | .startingOutput =>
    match s.current with
    | none => none
    | some id =>
      let s := s.setOutput id { live := true, draining := false }
      match answer.thrown with
      | some e => some ([], s.caught worker e)
      | none =>
        if answer.accepts then some ([], { s with sessionStarted := true }.goto worker .sessionStarted)
        else some ([], s.caught worker (.runtimeError "RemuxPipeline Remuxer 启动失败"))
  | .sessionStarted => some ([], ({ s with hasMedia := true }.advanceTo .running).goto worker .pacing)
  | .pacing => some ([], s.goto worker (if s.stopping then .leaving else .calling))
  | .calling =>
    match answer.thrown with
    | some e => some ([], s.caught worker e)
    | none => some ([], s.goto worker .submitChecking)
  | .submitChecking => some ([], s.goto worker (if s.stopping then .leaving else .capturing))
  | .capturing => some ([], s.goto worker (.submitting s.current))
  | .submitting output =>
    match answer.thrown with
    | some e => some ([], s.caught worker e)
    | none => some ([], s.goto worker (if output.isSome && answer.accepts then .submitted else .rejected))
  | .rejected =>
    if s.stopping then some ([], s.goto worker .leaving)
    else some ([], s.caught worker (.runtimeError "RemuxPipeline 输出拒绝编码包"))
  | .submitted => some ([], (s.advanceTo .running).goto worker .looping)
  | .leaving => some ([], s.goto worker (if worker.eof then .awaitingEnd else .stoppingInput))
  | .awaitingEnd =>
    if s.stopping || s.input.state = .ended then some ([], s.goto worker .stoppingInput) else none
  | .stoppingInput => some ([], (s.goto worker .joiningInput).bind .worker [.cancelInput])
  | .joiningInput =>
    if !s.input.running && (s.todo .input).isEmpty then some ([], s.goto worker .closing) else none
  | .closing =>
    match s.closeCurrent with
    | none => none
    | some (events, s) => some (events, s.goto worker .finishing)
  | .finishing =>
    some ([], { s with workerDone := true }.goto worker (if worker.eof then .settling else .done))
  | .settling =>
    if s.stopping || (s.retired.isEmpty && s.retiring.isNone) then
      if !s.stopping && s.error.isNone then
        some ([.ended], { s with ended := true, state := .ended }.goto worker .done)
      else some ([], s.goto worker .done)
    else none
  | .done => none

/-! ### The retirement worker -/

def reap (s : RemuxPipeline) (reaper : Reaper) : Option (List Event × RemuxPipeline) :=
  match reaper with
  | .waiting =>
    match s.retired with
    | [] => if s.workerDone then some ([], { s with reaper := some .done }) else none
    | id :: rest => some ([], { s with retired := rest, retiring := some id, reaper := some (.stopping id) })
  | .stopping id =>
    if (s.todo (.output id)).isEmpty then
      some ([], { s with reaper := some (.collecting id) }.setOutput id { s.outputs id with live := false })
    else none
  | .collecting id => some ([.collected id], { s with retiring := none, reaper := some .waiting })
  | .done => none

/-! ### The owner -/

/-- A step of the owner in `Start` or `Stop`; `failure` is why `Start` cannot go on. -/
def own (s : RemuxPipeline) (failure : Option Exception) : Option (List Event × RemuxPipeline) :=
  match s.owner with
  | .idle => none
  | .ensuring =>
    match failure with
    | some e => some ([], { s with owner := .aborting }.bind .owner [.fail e])
    | none => some ([], { s.ensureRemuxer with owner := .launchingReaper })
  | .launchingReaper =>
    match failure with
    | some e => some ([], { s with owner := .aborting }.bind .owner [.fail e])
    | none => some ([], { s with reaper := some .waiting, owner := .launchingWorker })
  | .launchingWorker =>
    match failure with
    | some e => some ([], { s with owner := .aborting }.bind .owner [.fail e])
    | none => some ([], { s with worker := some {}, owner := .idle })
  | .aborting => some ([], { s with workerDone := true, owner := .joiningWorker }.bind .owner [.requestStop])
  | .joiningWorker =>
    if s.worker.all (·.pc == .done) then
      some ([], { s with worker := none, owner := .joiningInput }.bind .owner [.cancelInput])
    else none
  | .joiningInput =>
    if !s.input.running && (s.todo .input).isEmpty then some ([], { s with owner := .closing }) else none
  | .closing =>
    match s.closeCurrent with
    | none => none
    | some (events, s) => some (events, { s with workerDone := true, owner := .joiningReaper })
  | .joiningReaper =>
    if s.reaper.all (· == .done) then some ([], { s with reaper := none, owner := .finishing }) else none
  | .finishing =>
    let s := { s with started := false, state := s.finalState, owner := .idle }
    some ([.stopped s.state], s)

/-- The next step: the owner calls `Start` or `Stop`, a user calls `RequestStop` or `SetSpeed`, a thread takes the
next of the steps it is bound to take, or the owner, a worker or a component goes on. -/
inductive Act where
  | start
  | stop
  | requestStop (n : ℕ)
  | setSpeed
  | perform (thread : Thread)
  | own (failure : Option Exception)
  | work (answer : Answer)
  | reap
  | outside (act : OutsideAct)

def next (s : RemuxPipeline) : Act → Option (List Event × RemuxPipeline)
  | .start =>
    if s.owner ≠ .idle then none
    else if s.started then some ([], s)
    else
      some ([.started], { s with
        started := true, stopping := false, ended := false, hasMedia := false, workerDone := false
        state := .starting, error := none, owner := .ensuring })
  | .stop =>
    if s.owner = .idle then some ([], { s with owner := .joiningWorker }.bind .owner [.requestStop]) else none
  | .requestStop n => if (s.todo (.user n)).isEmpty then some ([], s.bind (.user n) [.requestStop]) else none
  -- It sets the clock that a packet waits for, and a packet may be paced at any time here.
  | .setSpeed => some ([], s)
  | .perform thread => s.perform thread
  | .own failure => if (s.todo .owner).isEmpty then s.own failure else none
  | .work answer =>
    match s.worker with
    | some worker => if (s.todo .worker).isEmpty then s.work worker answer else none
    | none => none
  | .reap => s.reaper.elim none s.reap
  | .outside act => s.outsideNext act

def system : Transition RemuxPipeline Event where
  init s := ∃ loop, s = { loop := loop }
  step s events s' := ∃ act, s.next act = some (events, s')

end RemuxPipeline

end MwStreamer
