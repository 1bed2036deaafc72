import MwStreamer.Library.Sessions
import MwStreamer.Library.Threads
import MwStreamer.Library.Transition
import MwStreamer.Media.Libav

/-!
# The live pipeline

`LivePipeline` starts its encoder, its remuxer, its source and its scheduler one after the other and has no thread
of its own.  The owner calls `Start` and `Stop`, anyone calls `RequestStop`, and every component calls back with its
errors.  A step is a section of `mutex_` or one call of a component; each thread has a list of the steps it is bound
to take next.  How a component starts and when it fails is arbitrary; its `Start` takes a cancellation back and its
`Stop` waits for its callbacks.
-/

namespace MwStreamer

namespace LivePipeline

/-- `LivePipelineState`. -/
inductive State where
  | stopped
  | starting
  | running
  | stopping
  | failed
  deriving DecidableEq, Repr

inductive Component where
  | encoder
  | remuxer
  | source
  | scheduler
  deriving DecidableEq, Repr

/-- The component that `Start` starts after this one. -/
def Component.after : Component → Option Component
  | .encoder => some .remuxer
  | .remuxer => some .source
  | .source => some .scheduler
  | .scheduler => none

/-- The component that `Stop` stops after this one. -/
def Component.stopsBefore : Component → Option Component
  | .scheduler => some .source
  | .source => some .encoder
  | .encoder => some .remuxer
  | .remuxer => none

/-- The source and the scheduler have a `RequestStop`. -/
def Component.cancels : Component → Bool
  | .source | .scheduler => true
  | _ => false

/-- A component as the pipeline sees it; `callers` counts its callbacks of a session, each on a thread of its own. -/
structure Part where
  running : Bool := false
  cancelled : Bool := false
  callers : ℕ := 0
  deriving DecidableEq, Repr

inductive Thread where
  | owner
  | callback (component : Component) (n : ℕ)
  | user (n : ℕ)
  deriving DecidableEq, Repr

/-- What a thread is bound to do next: the sections of `Fail` and `RequestStop` and the calls that follow them. -/
inductive Task where
  | fail (e : Exception)
  | requestStop
  | cancel (component : Component)
  | onError (e : Exception)
  deriving DecidableEq, Repr

/-- Where the owner is: in `Start`, where `checking` is the look at the failure before the next component, or in a
`Stop`, which `Start` calls when it is given up. -/
inductive Owner where
  | idle
  | starting (component : Component)
  | checking (next : Component)
  | committing
  | returning
  | catching
  | stopping (inStart : Bool)
  | joining (inStart : Bool) (component : Component)
  | finishing (inStart : Bool)
  deriving DecidableEq, Repr

/-- `recorded` is the section of a `RequestStop` that found the pipeline started, `committed` the section in which
`Start` takes the pipeline to `kRunning`, `failed` the failure `Fail` records, `reported` its call of `OnError`, if
one was set; `returned` is the end of a `Start` that was not refused. -/
inductive Event where
  | started
  | recorded
  | committed
  | failed (e : Exception)
  | reported (e : Exception)
  | returned (success : Bool)
  | stopped (state : State)
  deriving DecidableEq, Repr

end LivePipeline

open LivePipeline in
/-- `LivePipeline::Impl`. -/
structure LivePipeline where
  state : State := .stopped
  started : Bool := false
  error : Option Exception := none
  parts : Component → Part := fun _ => {}
  owner : Owner := .idle
  todo : Thread → List Task := fun _ => []

namespace LivePipeline

/-- The thread is bound to do these. -/
def bind (s : LivePipeline) (thread : Thread) (tasks : List Task) : LivePipeline :=
  { s with todo := Function.update s.todo thread tasks }

def setPart (s : LivePipeline) (component : Component) (part : Part) : LivePipeline :=
  { s with parts := Function.update s.parts component part }

/-- The callbacks of the component are over. -/
def quiet (s : LivePipeline) (component : Component) : Bool :=
  (List.range (s.parts component).callers).all fun n => (s.todo (.callback component n)).isEmpty

/-! ### Sections and calls -/

/-- The next of the steps a thread is bound to take. -/
def perform (s : LivePipeline) (thread : Thread) : Option (List Event × LivePipeline) :=
  match s.todo thread with
  | [] => none
  | .fail e :: rest =>
    if s.error.isSome then some ([], s.bind thread rest)
    else
      some ([.failed e], { s with error := some e, state := .failed }.bind thread
        (.cancel .scheduler :: .cancel .source :: .onError e :: rest))
  | .requestStop :: rest =>
    some (if s.started then [.recorded] else [],
      { s with state := if s.started && s.state != State.failed then .stopping else s.state }.bind thread
        (.cancel .scheduler :: .cancel .source :: rest))
  | .cancel component :: rest =>
    some ([], (s.setPart component { s.parts component with cancelled := true }).bind thread rest)
  | .onError e :: rest => some ([.reported e], s.bind thread rest)

/-- What a call of `Start` or `Stop` of a component answers. -/
inductive Answer where
  | done
  | throws (e : Exception)

/-- `Start` catches an exception. -/
def caught (s : LivePipeline) (e : Exception) : LivePipeline :=
  { s with owner := .catching }.bind .owner [.fail e]

/-- A step of the owner in `Start` or `Stop`. -/
def own (s : LivePipeline) (answer : Answer) : Option (List Event × LivePipeline) :=
  match s.owner with
  | .idle => none
  | .starting component =>
    match answer with
    | .throws e => some ([], s.caught e)
    | .done =>
      some ([], { s.setPart component { s.parts component with running := true, cancelled := false } with
        owner := match component.after with
          | some next => .checking next
          | none => .committing })
  | .checking next =>
    match s.error with
    | some e => some ([], s.caught e)
    | none => some ([], { s with owner := .starting next })
  | .committing =>
    match s.error with
    | some e => some ([], s.caught e)
    | none =>
      if s.state = .stopping then some ([], { s with owner := .stopping true })
      else some ([.committed], { s with state := .running, owner := .returning })
  | .returning => some ([.returned true], { s with owner := .idle })
  | .catching => some ([], { s with owner := .stopping true })
  | .stopping inStart =>
    some ([], { s with owner := .joining inStart .scheduler }.bind .owner [.requestStop])
  | .joining inStart component =>
    if s.quiet component then
      some ([], { s.setPart component {} with
        owner := match component.stopsBefore with
          | some next => .joining inStart next
          | none => .finishing inStart })
    else none
  | .finishing inStart =>
    let state := if s.error.isSome then State.failed else .stopped
    some (.stopped state :: if inStart then [.returned false] else [],
      { s with started := false, state := state, owner := .idle })

/-- The next step: the owner calls `Start` or `Stop`, a user calls `RequestStop`, a thread takes the next of the
steps it is bound to take, the owner goes on, or a component calls back with an error. -/
inductive Act where
  | start
  | stop
  | requestStop (n : ℕ)
  | perform (thread : Thread)
  | own (answer : Answer)
  | fails (component : Component) (e : Exception)

def next (s : LivePipeline) : Act → Option (List Event × LivePipeline)
  | .start =>
    if s.owner ≠ .idle then none
    else if s.started then some ([], s)
    else
      some ([.started], { s with started := true, state := .starting, error := none, owner := .starting .encoder })
  | .stop => if s.owner = .idle then some ([], { s with owner := .stopping false }) else none
  | .requestStop n => if (s.todo (.user n)).isEmpty then some ([], s.bind (.user n) [.requestStop]) else none
  | .perform thread => s.perform thread
  | .own answer => if (s.todo .owner).isEmpty then s.own answer else none
  | .fails component e =>
    let part := s.parts component
    -- A component may call back before its `Start` has returned.
    if part.running || s.owner = .starting component then
      some ([], (s.setPart component { part with callers := part.callers + 1 }).bind
        (.callback component part.callers) [.fail e])
    else none

def system : Transition LivePipeline Event where
  init s := s = {}
  step s events s' := ∃ act, s.next act = some (events, s')

end LivePipeline

end MwStreamer
