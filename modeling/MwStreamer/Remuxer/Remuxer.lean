import Mathlib.Logic.Function.Basic
import MwStreamer.Platform.BlockingQueue
import MwStreamer.Remuxer.MediaSession

/-!
# The threads of a remuxer

`Remuxer` is used by producers, by a lifecycle caller that holds `control_`, by whoever reports an error, and
by its output poller, which runs the posted tasks one after the other in the order of posting.  What happens
under `mutex_` is one step; so is each call of the handoff queue, whose own waiting and waking are
`BlockingQueue`'s.  Sessions are numbered by the `Start` that made them, and with them their handoff queues,
since a producer may still hold the queue of a session that is over.
-/

namespace MwStreamer

namespace Remuxer

/-- What is posted on the output poller. -/
inductive Task where
  | process
  | finish
  /-- The last task of `Finish`. -/
  | complete
  deriving DecidableEq, Repr

/-- The output poller between two of its steps. -/
inductive Poller where
  | idle
  /-- `Process` has popped a batch. -/
  | emitting
  /-- `Process` has caught an exception. -/
  | failed
  /-- `Process` is about to close the session. -/
  | closing
  /-- `Process` has closed the session and is about to post `Finish`. -/
  | flushing
  /-- The last task is about to notify `stopped_`. -/
  | notifying
  deriving DecidableEq, Repr

/-- A call of `SubmitPacket`, which has captured the queue of this session. -/
inductive Producer where
  | idle
  | captured (packet : Packet) (session : ℕ)
  | pushed (packet : Packet) (session : ℕ)
  deriving DecidableEq, Repr

/-- Who holds `control_`. -/
inductive Control where
  | free
  | starting
  /-- `Stop` looks at `running_`. -/
  | checking
  /-- `Stop` waits for `stopped_`. -/
  | asleep
  deriving DecidableEq, Repr

end Remuxer

open Remuxer in
/-- `Remuxer::Impl`, its poller and the threads that use it. -/
structure Remuxer where
  running : Bool := false
  accepting : Bool := false
  draining : Bool := false
  closing : Bool := false
  scheduled : Bool := false
  errorReported : Bool := false
  packets : Option ℕ := none
  media : Option MediaSession := none
  queues : ℕ → BlockingQueue Packet := fun _ => { capacity := 1 }
  session : ℕ := 0
  tasks : List Task := []
  poller : Poller := .idle
  producers : ℕ → Producer := fun _ => .idle
  control : Control := .free

namespace Remuxer

/-- What a session does; the number is that of the session. -/
inductive Event where
  | started (session : ℕ) (streams : List StreamInfo) (recordOnly : Bool)
  /-- `Push` has put the packet into the handoff queue. -/
  | accepted (session : ℕ) (packet : Packet)
  /-- `SubmitPacket` has returned true. -/
  | submitted (session : ℕ) (packet : Packet)
  | media (session : ℕ) (event : MediaEvent)
  /-- `Error` has reported the first error. -/
  | errored (session : ℕ)
  | finishPosted (session : ℕ)
  | outputClosed (session : ℕ)
  /-- `Stop` has returned. -/
  | released
  deriving DecidableEq, Repr

/-- `Schedule`. -/
def schedule (s : Remuxer) : Remuxer :=
  if s.scheduled || s.closing then s else { s with scheduled := true, tasks := s.tasks ++ [.process] }

/-- `packets_->Close()`, where there is a queue. -/
def closePackets (s : Remuxer) : Remuxer :=
  match s.packets with
  | none => s
  | some k => { s with queues := Function.update s.queues k ((s.queues k).close []).2 }

/-- What `Drain` and `Error` have in common: no more packets, and a last `Process`. -/
def beginDraining (s : Remuxer) : Remuxer :=
  schedule { closePackets { s with accepting := false } with draining := true }

def drain (s : Remuxer) : Remuxer := if !s.running || s.closing then s else s.beginDraining

/-- The critical section of `Error`. -/
def error (s : Remuxer) : List Event × Remuxer :=
  if !s.running || s.errorReported then ([], s)
  else ([.errored s.session], { s with errorReported := true }.beginDraining)

/-- `SubmitPacket` up to `packets = packets_`. -/
def submit (s : Remuxer) [Libav] (packet : Packet) : Producer :=
  if !s.accepting then .idle
  else
    match s.media, s.packets with
    | some media, some k =>
      match media.interleaver.validation.validate (some packet) with
      | .error _ => .idle
      | .ok _ => .captured packet k
    | _, _ => .idle

/-- `packets->Push(packet)`; `none` where it waits. -/
def push (s : Remuxer) (i : ℕ) (packet : Packet) (k : ℕ) (throws : Bool) : Option (List Event × Remuxer) :=
  match (s.queues k).pushImpl [] packet false false throws with
  | (.notifying .success _, queue) =>
    some ([.accepted k packet],
      { s with queues := Function.update s.queues k queue
               producers := Function.update s.producers i (.pushed packet k) })
  | (.notifying _ _, _) => some ([], { s with producers := Function.update s.producers i .idle })
  | _ => none

/-- The end of `SubmitPacket`. -/
def submitted (s : Remuxer) (i : ℕ) (packet : Packet) (k : ℕ) : List Event × Remuxer :=
  let next := if s.packets = some k ∧ s.running = true then s.schedule else s
  ([.submitted k packet], { next with producers := Function.update next.producers i .idle })

/-- What `TryPop` has stored. -/
def taken : BlockingQueue.Thread Packet → Option Packet
  | .notifying (.value packet) _ => some packet
  | _ => none

variable [Libav]

/-- `Process` under the lock. -/
def processLocked (s : Remuxer) : Option (List Event × Remuxer) :=
  if !s.running || s.closing then some ([], { s with scheduled := false })
  else
    match s.packets, s.media with
    | some k, some media =>
      let (outcome, queue) := (s.queues k).popImpl [] false
      let (events, answer, next) := media.collect (taken outcome) s.draining
      let after := { s with queues := Function.update s.queues k queue
                            media := some (next.close answer false) }
      match answer with
      | .error _ => some (events.map (.media s.session), { after with poller := .failed })
      | .ok () => some (events.map (.media s.session), { after with scheduled := false, poller := .emitting })
    | _, _ => none

/-- `Process` after the lock. -/
def processEmit (s : Remuxer) (outlets : Outlets) :
    Option (List Event × Remuxer) :=
  match s.media with
  | none => none
  | some media =>
    match media.batch with
    | none => none
    | some batch =>
      let (events, answer, next) := media.emit batch outlets
      let after := { s with media := some (next.close answer batch.finish) }
      let poller := match answer with
        | .error _ => .failed
        | .ok () => if batch.finish then .closing else .idle
      some (events.map (.media s.session), { after with poller := poller })

/-- The next step of the output poller.  `Flush` and the end of the output may throw; then they report the
exception by `Error`, as others may do at any time. -/
def poll (s : Remuxer) (outlets : Outlets) :
    Option (List Event × Remuxer) :=
  match s.poller with
  | .idle =>
    match s.tasks with
    | [] => none
    | .process :: tasks => processLocked { s with tasks := tasks }
    | .finish :: tasks => some ([.outputClosed s.session], { s with tasks := tasks ++ [.complete] })
    | .complete :: tasks =>
      some ([], { s with tasks := tasks, packets := none, media := none, running := false, scheduled := false,
                         poller := .notifying })
  | .emitting => processEmit s outlets
  | .failed =>
    let (events, next) := s.error
    some (events, { next with poller := .closing })
  | .closing => some ([], { closePackets { s with accepting := false } with closing := true, poller := .flushing })
  | .flushing => some ([.finishPosted s.session], { s with tasks := s.tasks ++ [.finish], poller := .idle })
  | .notifying =>
    some ([], { s with control := if s.control = .asleep then .checking else s.control, poller := .idle })

/-- The state a `Start` leaves, if the streams are accepted. -/
def commit (s : Remuxer) (streams : List StreamInfo) (recordOnly : Bool) : List Event × Remuxer :=
  match MediaSession.create streams recordOnly with
  | .error _ => ([], { s with control := .free })
  | .ok media =>
    ([.started (s.session + 1) streams recordOnly],
      { s with running := true, accepting := true, draining := false, closing := false, scheduled := false,
               errorReported := false, packets := some (s.session + 1), media := some media,
               queues := Function.update s.queues (s.session + 1) { capacity := 1 },
               session := s.session + 1, control := .free })

/-- Who moves.  `start` to `abort` are `Start`, whose work on the poller waits for its turn there;
`stop` to `stopWake` are `Stop`. -/
inductive Act where
  | submit (producer : ℕ) (packet : Packet)
  | push (producer : ℕ) (throws : Bool)
  | submitted (producer : ℕ)
  | drain
  | error
  | poll (outlets : Outlets)
  | addPrepared
  | start
  | commit (streams : List StreamInfo) (recordOnly : Bool)
  | abort
  | stop
  | stopCheck
  | stopWake

def next (s : Remuxer) : Act → Option (List Event × Remuxer)
  | .submit i packet =>
    if s.producers i = .idle then
      some ([], { s with producers := Function.update s.producers i (s.submit packet) })
    else none
  | .push i throws =>
    match s.producers i with
    | .captured packet k => s.push i packet k throws
    | _ => none
  | .submitted i =>
    match s.producers i with
    | .pushed packet k => some (s.submitted i packet k)
    | _ => none
  | .drain => some ([], s.drain)
  | .error => some s.error
  | .poll outlets => s.poll outlets
  | .addPrepared =>
    if s.poller = .idle ∧ s.accepting = true then
      some ([], { s with media := s.media.map fun media => { media with recordOnly := false } })
    else none
  | .start => if s.control = .free ∧ s.running = false then some ([], { s with control := .starting }) else none
  | .commit streams recordOnly =>
    if s.control = .starting ∧ s.poller = .idle ∧ s.tasks = [] then some (s.commit streams recordOnly) else none
  | .abort => if s.control = .starting then some ([], { s with control := .free }) else none
  | .stop => if s.control = .free then some ([], { s.drain with control := .checking }) else none
  | .stopCheck =>
    if s.control = .checking then
      if s.running then some ([], { s with control := .asleep })
      else some ([.released], { s with control := .free, draining := false, closing := false })
    else none
  | .stopWake => if s.control = .asleep then some ([], { s with control := .checking }) else none

/-- The runs of a new remuxer. -/
def system : Transition Remuxer Event where
  init s := s = {}
  step s events s' := ∃ act, s.next act = some (events, s')

end Remuxer

end MwStreamer
