import MwStreamer.Input.AvInput
import MwStreamer.Library.Threads
import MwStreamer.Library.Transition

/-!
# The input proxy

`AvInputProxy` has one control worker, which opens one connection after the other, waits for its end and closes it.
Each connection has a reader of its own; one consumer reads the packets of the current connection, and anyone may
request a stop.  A step is a section of a mutex, one access to the cancellation flag, one call of a packet queue or
one call of the demuxer; each thread has a list of the sections it is bound to take next.

What the demuxer answers and when, how long a retry is waited for and when a thread goes on is arbitrary.  A wait for
the condition variable is a guard: every write of what it looks at is followed by a notification.
-/

namespace MwStreamer

/-- `AvInputProxyState`. -/
inductive AvInputProxyState where
  | stopped
  | connecting
  | connected
  | waitingRetry
  | ended
  | failed
  deriving DecidableEq, Repr

/-- `Terminal`. -/
def AvInputProxyState.isTerminal : AvInputProxyState → Bool
  | .stopped | .ended | .failed => true
  | _ => false

namespace AvInputProxy

/-- A shared description; connections are numbered in the order they are made. -/
structure Description where
  input : ℕ
  info : AvInputInfo
  deriving DecidableEq, Repr

end AvInputProxy

open AvInputProxy in
/-- `AvInputProxyStatus`; the delay is in seconds. -/
structure AvInputProxyStatus where
  state : AvInputProxyState := .stopped
  retryCount : ℕ := 0
  retryDelay : ℕ := 0
  error : Option Exception := none
  info : Option Description := none
  deriving DecidableEq, Repr

namespace AvInputProxy

/-- `RetryDelay`. -/
def retryDelay (retryCount : ℕ) : ℕ := [1, 2, 4, 8].getD (min (retryCount - 1) 3) 0

inductive Thread where
  | control
  | reader (input : ℕ)
  | user (n : ℕ)
  deriving DecidableEq, Repr

/-- What a thread is bound to do next: the sections of `RequestStop`, `RequestCancel`, of the two `Publish` and of
`InputChanged`. -/
inductive Task where
  | requestStop
  | cancel (input : ℕ)
  | closeQueue (input : ℕ)
  | publishInput (input : ℕ) (status : AvInputStatus)
  | inputChanged (input : ℕ) (status : AvInputStatus)
  | publish (state : AvInputProxyState) (retries : ℕ) (delay : ℕ) (error : Option Exception)
  | announce
  deriving DecidableEq, Repr

/-- Where the control worker is: in `Run`, in the `Open` or the `Close` of the connection or in `Retire`; `terminal`
is the local variable of `Run`. -/
inductive Pc where
  | checking
  | creating
  | rechecking (input : ℕ)
  | uncancelling (input : ℕ)
  | queueing (input : ℕ)
  | opening (input : ℕ)
  | probing (input : ℕ)
  | describing (input : ℕ) (info : AvInputInfo)
  | launching (input : ℕ)
  | giving (input : ℕ) (error : Exception)
  | settling (input : ℕ)
  | connecting (input : ℕ)
  | offering (input : ℕ)
  | waiting (input : ℕ)
  | retiring (input : ℕ) (terminal : AvInputStatus)
  | closing (input : ℕ) (terminal : AvInputStatus)
  | joining (input : ℕ) (terminal : AvInputStatus)
  | detaching (input : ℕ) (terminal : AvInputStatus)
  | discarding (input : ℕ) (terminal : AvInputStatus)
  | releasing (input : ℕ) (terminal : AvInputStatus)
  | deciding (terminal : AvInputStatus)
  | delaying
  | done
  deriving DecidableEq, Repr

/-- The control worker; `retries` is the local variable of `Run`. -/
structure Control where
  pc : Pc := .checking
  retries : ℕ := 0
  deriving DecidableEq, Repr

/-- Where the reader of a connection is in `AvInput::Run`. -/
inductive Reader where
  | absent
  | checking
  | reading
  | draining
  | pushing (packet : Packet)
  | failing (error : Exception)
  | done
  deriving DecidableEq, Repr

/-- `ReadPacket`, `TryReadPacket` or `ReadPacketOrStateChange`. -/
inductive Mode where
  | read
  | tryRead
  | readOrStateChange
  deriving DecidableEq, Repr

def Mode.waits : Mode → Bool
  | .tryRead => false
  | _ => true

def Mode.onStateChange : Mode → Bool
  | .readOrStateChange => true
  | _ => false

/-- Where the consumer is in `ReadPacket`, with the connection and the description it has captured. -/
inductive Consumer where
  | idle
  | entering (mode : Mode)
  | taking (mode : Mode) (input : ℕ) (description : Option Description)
  | popping (mode : Mode) (input : ℕ) (description : Option Description)
  | answering (mode : Mode) (input : ℕ) (description : Option Description) (popped : Option Packet)
  | acknowledging (input : ℕ) (description : Option Description)
  | returning (input : ℕ) (description : Option Description)
  | missing (mode : Mode) (input : ℕ) (description : Option Description)
  deriving DecidableEq, Repr

/-- `created` and `opening` are of the connection; `pushed` and `discarded` of its queue; `acknowledged` is the
section in which a read takes its end.  A read has `returned` a result, with the connection it read it from, unless
it only tells what is known already; `woken` is its return for a new state. -/
inductive Event where
  | created (input : ℕ)
  | opening (input : ℕ)
  | opened (input : ℕ)
  | pushed (input : ℕ) (packet : Packet)
  | discarded (input : ℕ) (packet : Packet)
  | inputPublished (input : ℕ) (state : AvInputState)
  | acknowledged (input : ℕ)
  | returned (input : Option ℕ) (result : AvInputReadResult) (description : Option Description)
  | woken (description : Option Description)
  | published (state : AvInputProxyState)
  | stopRecorded
  deriving DecidableEq, Repr

end AvInputProxy

open AvInputProxy in
/-- `AvInputProxy::Impl`, from the moment `Start` has returned; `loop`, `maxRetries` and `capacity` are the
configuration's. -/
structure AvInputProxy where
  loop : Bool := false
  maxRetries : ℤ := -1
  capacity : ℕ := 1
  stopping : Bool := false
  available : Bool := false
  readStateChanged : Bool := false
  status : AvInputProxyStatus := { state := .connecting }
  terminal : Option AvInputStatus := none
  input : Option ℕ := none
  inputs : ℕ → AvInput := fun _ => {}
  made : ℕ := 0
  control : Control := {}
  readers : ℕ → Reader := fun _ => .absent
  consumer : Consumer := .idle
  todo : Thread → List Task := fun _ => []

namespace AvInputProxy

/-- The thread is bound to do these. -/
def bind (s : AvInputProxy) (thread : Thread) (tasks : List Task) : AvInputProxy :=
  { s with todo := Function.update s.todo thread tasks }

def setInput (s : AvInputProxy) (k : ℕ) (input : AvInput) : AvInputProxy :=
  { s with inputs := Function.update s.inputs k input }

def setReader (s : AvInputProxy) (k : ℕ) (reader : Reader) : AvInputProxy :=
  { s with readers := Function.update s.readers k reader }

def goto (s : AvInputProxy) (pc : Pc) : AvInputProxy := { s with control := { s.control with pc := pc } }

/-- The connection is over without an end that a read acknowledges. -/
def breaks (status : AvInputStatus) : Bool := status.state == .failed || status.state == .cancelled

/-- A source that does not loop has come to its end, and the consumer knows. -/
def exhausted (s : AvInputProxy) : Bool :=
  !s.loop && s.terminal.any (·.state == .ended)

/-! ### Sections -/

/-- The next of the sections a thread is bound to take. -/
def perform (s : AvInputProxy) (thread : Thread) : Option (List Event × AvInputProxy) :=
  match s.todo thread with
  | [] => none
  | .requestStop :: rest =>
    some ([.stopRecorded], { s with stopping := true }.bind thread (s.input.toList.map Task.cancel ++ rest))
  | .cancel k :: rest =>
    let tasks := if (s.inputs k).packets then [Task.closeQueue k] else []
    some ([], (s.setInput k (s.inputs k).cancel).bind thread (tasks ++ rest))
  | .closeQueue k :: rest => some ([], (s.setInput k (s.inputs k).closeQueue).bind thread rest)
  | .publishInput k status :: rest =>
    let tasks := if status.state.closesQueue && (s.inputs k).packets then [Task.closeQueue k] else []
    some ([.inputPublished k status.state],
      (s.setInput k ((s.inputs k).publish status)).bind thread (tasks ++ .inputChanged k status :: rest))
  | .inputChanged k status :: rest =>
    if s.input ≠ some k then some ([], s.bind thread rest)
    else
      -- `Open` has taken a cancellation back before it tells that it opens.
      let tasks := if s.stopping && status.state == .opening then [Task.cancel k] else []
      some ([], { s with
        terminal := if s.terminal.isNone && breaks status then some status else s.terminal }.bind thread
          (tasks ++ rest))
  | .publish state retries delay error :: rest =>
    some ([.published state], { s with
      status := { s.status with
        state := state, retryCount := retries, retryDelay := delay, error := error } }.bind thread rest)
  | .announce :: rest => some ([], { s with readStateChanged := true }.bind thread rest)

/-! ### The control worker -/

/-- `Publish` of the control worker. -/
def announces (s : AvInputProxy) (state : AvInputProxyState) (retries : ℕ) (delay : ℕ) (error : Option Exception) :
    AvInputProxy :=
  s.bind .control [.publish state retries delay error, .announce]

/-- The control worker tells its last state. -/
def finish (s : AvInputProxy) (state : AvInputProxyState) (retries : ℕ) (error : Option Exception) : AvInputProxy :=
  (s.goto .done).announces state retries 0 error

/-- What the calls of the demuxer answer in `Open`, what is thrown before them, and whether a thread starts. -/
structure Answer where
  thrown : Option Exception := none
  opened : Except Exception Unit := .ok ()
  probed : Except Exception AvInputInfo := .ok {}
  launches : Bool := true

/-- A step of the control worker outside the sections it is bound to take. -/
def work (s : AvInputProxy) (answer : Answer) : Option (List Event × AvInputProxy) :=
  match s.control.pc with
  | .checking => some ([], if s.stopping then s.finish .stopped 0 none else s.goto .creating)
  | .creating =>
    let k := s.made
    some ([.created k], ({ s with
      made := k + 1, input := some k, terminal := none
      status := { s.status with info := none } }.goto (.rechecking k)).announces .connecting s.control.retries 0 none)
  -- A stop leaves the loop, which the look at it behind `Retire` does as well.
  | .rechecking k => some ([], s.goto (if s.stopping then .retiring k {} else .uncancelling k))
  | .uncancelling k => some ([.opening k], (s.setInput k (s.inputs k).uncancel).goto (.queueing k))
  | .queueing k =>
    some ([], ((s.setInput k ((s.inputs k).makeQueue s.capacity)).goto (.opening k)).bind .control
      [.publishInput k { state := .opening }])
  | .opening k =>
    match answer.thrown with
    | some e => some ([], s.goto (.giving k e))
    | none =>
      match (s.inputs k).checkIo "avformat_open_input" answer.opened with
      | .error e => some ([], s.goto (.giving k e))
      | .ok () => some ([], s.goto (.probing k))
  | .probing k =>
    match (s.inputs k).checkIo "avformat_find_stream_info" answer.probed with
    | .error e => some ([], s.goto (.giving k e))
    | .ok info => some ([], s.goto (.describing k info))
  | .describing k info =>
    some ([], ((s.setInput k ((s.inputs k).describe info)).goto (.launching k)).bind .control
      [.publishInput k { state := .opened }])
  | .launching k =>
    if answer.launches then some ([.opened k], (s.setReader k .checking).goto (.settling k))
    else some ([], s.goto (.giving k (.runtimeError "AvInput 工作线程启动失败")))
  | .giving k e =>
    -- The original exception is handled, not the one the notification brings.
    some ([], (s.goto (.retiring k { state := .failed, error := some e })).bind .control
      [.publishInput k ((s.inputs k).failure e)])
  | .settling k =>
    some ([], { s with
      status := { s.status with info := some { input := k, info := (s.inputs k).info } }
      control := { pc := .connecting k, retries := 0 } })
  | .connecting k =>
    some ([], if s.stopping then s.goto (.offering k) else (s.goto (.offering k)).announces .connected 0 0 none)
  | .offering k => some ([], { s with available := !s.stopping }.goto (.waiting k))
  | .waiting k =>
    if s.stopping then some ([], s.goto (.retiring k {}))
    else s.terminal.map fun terminal => ([], s.goto (.retiring k terminal))
  | .retiring k terminal => some ([], { s with available := false }.goto (.closing k terminal))
  | .closing k terminal =>
    if (s.inputs k).status.state = .closed then some ([], s.goto (.releasing k terminal))
    else some ([], (s.goto (.joining k terminal)).bind .control [.cancel k])
  | .joining k terminal =>
    if (s.readers k = .absent ∨ s.readers k = .done) ∧ s.todo (.reader k) = [] then
      some ([], s.goto (.detaching k terminal))
    else none
  | .detaching k terminal => some ([], (s.setInput k (s.inputs k).detach).goto (.discarding k terminal))
  | .discarding k terminal =>
    match (s.inputs k).pop false with
    | some (some packet, input) => some ([.discarded k packet], s.setInput k input)
    | _ => some ([], (s.goto (.releasing k terminal)).bind .control [.publishInput k { state := .closed }])
  | .releasing _ terminal => some ([], { s with input := none }.goto (.deciding terminal))
  | .deciding terminal =>
    if s.stopping then some ([], s.finish .stopped 0 none)
    else
      match terminal.state with
      | .ended => some ([], if s.loop then s.goto .checking else s.finish .ended 0 none)
      | .failed =>
        if 0 ≤ s.maxRetries ∧ s.maxRetries ≤ s.control.retries then
          some ([], s.finish .failed s.control.retries terminal.error)
        else
          let retries := s.control.retries + 1
          some ([], { s with control := { pc := .delaying, retries := retries } }.announces .waitingRetry retries
            (retryDelay retries) terminal.error)
      | _ => some ([], s.finish .stopped 0 none)
  | .delaying => some ([], if s.stopping then s.finish .stopped 0 none else s.goto .checking)
  | .done => none

/-! ### The readers -/

/-- What `av_read_frame` answers. -/
inductive ReadAnswer where
  | packet (packet : Packet)
  | eof
  | again
  | error (e : Exception)

/-- The reader publishes its last state. -/
def readerEnds (s : AvInputProxy) (k : ℕ) (status : AvInputStatus) : AvInputProxy :=
  (s.setReader k .done).bind (.reader k) [.publishInput k status]

/-- A step of the reader of a connection outside the sections it is bound to take. -/
def read (s : AvInputProxy) (k : ℕ) (answer : ReadAnswer) : Option (List Event × AvInputProxy) :=
  match s.readers k with
  | .absent => none
  | .checking =>
    some ([], if (s.inputs k).cancelled then s.readerEnds k { state := .cancelled } else s.setReader k .reading)
  | .reading =>
    if (s.inputs k).cancelled then some ([], s.readerEnds k { state := .cancelled })
    else
      match answer with
      | .packet packet =>
        some ([], s.setReader k (if (s.inputs k).info.selects packet then .pushing packet else .checking))
      | .eof => some ([], s.setReader k .draining)
      | .again => some ([], s.setReader k .checking)
      | .error e => some ([], s.setReader k (.failing e))
  | .draining =>
    if (s.inputs k).cancelled then some ([], s.readerEnds k { state := .cancelled })
    else if (s.inputs k).queued = [] then some ([], s.readerEnds k { state := .ended })
    else none
  | .pushing packet =>
    match (s.inputs k).push packet with
    | none => none
    | some (true, input) => some ([.pushed k packet], (s.setInput k input).setReader k .checking)
    | some (false, _) => some ([], s.readerEnds k { state := .cancelled })
  | .failing e => some ([], s.readerEnds k ((s.inputs k).failure e))
  | .done => none

/-! ### The consumer -/

/-- The condition on which a read goes on. -/
def ready (s : AvInputProxy) (mode : Mode) : Bool :=
  s.stopping || s.available || s.status.state.isTerminal || (mode.onStateChange && s.readStateChanged) || s.exhausted

/-- The condition on which a read that found nothing looks again. -/
def changed (s : AvInputProxy) (mode : Mode) (k : ℕ) : Bool :=
  s.stopping || s.status.state.isTerminal || (mode.onStateChange && s.readStateChanged) ||
    (s.available && s.input != some k)

/-- A step of the consumer in `ReadPacket`. -/
def consume (s : AvInputProxy) : Option (List Event × AvInputProxy) :=
  match s.consumer with
  | .idle => none
  | .entering mode =>
    let description := s.status.info
    if mode.waits && !s.ready mode then none
    else if mode.onStateChange && s.readStateChanged then
      some ([.woken description], { s with readStateChanged := false, consumer := .idle })
    else if s.stopping || s.status.state == .stopped || s.status.state == .failed then
      some ([.returned none .null description], { s with consumer := .idle })
    else if s.status.state == .ended || s.exhausted then
      some ([.returned none .eof description], { s with consumer := .idle })
    else if !s.available then some ([.returned none .null description], { s with consumer := .idle })
    else s.input.map fun k => ([], { s with consumer := .taking mode k description })
  | .taking mode k description =>
    some ([], { s with
      consumer := if (s.inputs k).readable then .popping mode k description else .missing mode k description })
  | .popping mode k description =>
    ((s.inputs k).pop mode.waits).map fun (popped, input) =>
      ([], { s.setInput k input with consumer := .answering mode k description popped })
  | .answering mode k description popped =>
    match (s.inputs k).answer popped with
    | .packet packet => some ([.returned (some k) (.packet packet) description], { s with consumer := .idle })
    | .eof => some ([], { s with consumer := .acknowledging k description })
    | .null => some ([], { s with consumer := .missing mode k description })
  | .acknowledging k description =>
    if !s.stopping && s.input == some k && s.terminal.isNone then
      some ([.acknowledged k], { s with
        terminal := some { state := .ended }, available := s.available && !s.loop
        consumer := .returning k description })
    else some ([], { s with consumer := .returning k description })
  | .returning k description => some ([.returned (some k) .eof description], { s with consumer := .idle })
  | .missing mode k description =>
    if !mode.waits then some ([.returned none .null description], { s with consumer := .idle })
    else if s.changed mode k then some ([], { s with consumer := .entering mode })
    else none

/-- The next step: a user calls `RequestStop`, the consumer calls a read, a thread takes the next of the sections it
is bound to take, or the control worker, a reader or the consumer goes on. -/
inductive Act where
  | requestStop (n : ℕ)
  | call (mode : Mode)
  | perform (thread : Thread)
  | work (answer : Answer)
  | read (input : ℕ) (answer : ReadAnswer)
  | consume

def next (s : AvInputProxy) : Act → Option (List Event × AvInputProxy)
  | .requestStop n => if (s.todo (.user n)).isEmpty then some ([], s.bind (.user n) [.requestStop]) else none
  | .call mode => if s.consumer = .idle then some ([], { s with consumer := .entering mode }) else none
  | .perform thread => s.perform thread
  | .work answer => if (s.todo .control).isEmpty then s.work answer else none
  | .read k answer => if (s.todo (.reader k)).isEmpty then s.read k answer else none
  | .consume => s.consume

/-- `Start` of a configuration. -/
def start (loop : Bool) (maxRetries : ℤ) (capacity : ℕ) : AvInputProxy :=
  { loop := loop, maxRetries := maxRetries, capacity := capacity }

def system : Transition AvInputProxy Event where
  init s := ∃ loop maxRetries capacity, s = start loop maxRetries capacity
  step s events s' := ∃ act, s.next act = some (events, s')

end AvInputProxy

end MwStreamer
