import MwStreamer.Library.Transition
import MwStreamer.Media.Frame

/-!
# The business filter and its callers

`AvMediaFilter::Impl` admits frames under its mutex, runs the business callback without it and counts the calls that
are between the two sections.  `Stop` waits until none is left; of several `Stop` calls one does the work and the
others wait for it.  Any number of threads call `Process`, `Consume`, `Stop` and `Reset`; a step is a section of the
mutex or one call of a callback outside it.  `OnStart`, `OnStop` and `OnReset` run inside a section.
-/

namespace MwStreamer

namespace AvMediaFilter

/-- `Impl`, with the callbacks that are set. -/
structure Impl where
  activeCalls : ℕ := 0
  started : Bool := false
  stopping : Bool := false
  error : Option Exception := none
  onStop : Bool := false
  onReset : Bool := false
  onFrame : Bool → Bool := fun _ => false

namespace Impl

/-- What a business callback returns: a frame, a moved-from frame, or nothing. -/
inductive Output where
  | frame (frame : Frame)
  | invalid
  | nullopt
  deriving DecidableEq, Repr

/-- Where a call of `Process` or `Consume` is between its sections. -/
inductive Phase where
  | entered
  | called
  | answered (result : Except Exception AvDecoderReadResult)

/-- A call that was admitted, in the given session.  The ticket is the number of the calls admitted before it. -/
structure Call where
  ticket : ℕ
  video : Bool
  input : AvDecoderReadResult
  consume : Bool
  session : ℕ
  phase : Phase := .entered

/-- A `Stop` that waits, with the session it found: `first` for the calls to finish, `later` for the first. -/
inductive Waiter where
  | first (session : ℕ)
  | later (session : ℕ)
  deriving DecidableEq, Repr

def Waiter.isFirst : Waiter → Bool
  | .first _ => true
  | .later _ => false

/-- `passed` and `rejected` are calls that end in their first section, `entered` is the admission of a frame,
`called` the call of the callback, `finished` the end of the call, with its ticket; `stopReturned` has the session
that a `Stop` found. -/
inductive Event where
  | started
  | unstarted (e : Exception)
  | passed (input : AvDecoderReadResult)
  | rejected (e : Exception)
  | entered (ticket : ℕ)
  | called (ticket : ℕ)
  | finished (ticket : ℕ) (result : Except Exception AvDecoderReadResult)
  | stopBegan
  | onStop
  | stopReturned (session : Option ℕ) (thrown : Option Exception)
  | resetRejected (e : Exception)
  | onReset
  | resetFailed (e : Exception)

/-- What `Process` returns after a callback, or throws. -/
def outcome (input : AvDecoderReadResult) (consume : Bool) :
    Except Exception Output → Except Exception AvDecoderReadResult
  | .error e => .error e
  | .ok output =>
    if consume then .ok input
    else
      match output with
      | .invalid => .error (.invalidArgument "AvMediaFilter 回调返回了无效帧")
      | .frame frame => .ok { input with timeBase := frame.timeBase, frame := some frame }
      | .nullopt => .ok { input with status := .null, frame := none }

/-- `FinishProcessing`. -/
def finishProcessing (self : Impl) (error : Option Exception) : Impl :=
  { self with error := self.error <|> error, activeCalls := self.activeCalls - 1 }

/-- The exception of a failed call. -/
def failure? : Except Exception AvDecoderReadResult → Option Exception
  | .error e => some e
  | .ok _ => none

end Impl

open Impl in
/-- The filter with its calls, the number of sessions and of admitted calls so far and of the `Reset` calls that
wait. -/
structure Serving where
  impl : Impl := {}
  session : ℕ := 0
  admitted : ℕ := 0
  calls : List Call := []
  stops : List Waiter := []
  resets : ℕ := 0

namespace Serving

open Impl

/-- The first section of `Process` would admit a frame. -/
def healthy (s : Serving) : Bool := s.impl.started && !s.impl.stopping && s.impl.error.isNone

/-- `Start`; `thrown` is what `OnStart` throws. -/
def start (s : Serving) (thrown : Option Exception) : List Event × Serving :=
  if s.impl.started then ([.unstarted (.logicError "AvMediaFilter 重新启动前需要 Stop")], s)
  else
    match thrown with
    | some e => ([.unstarted e], s)
    | none =>
      ([.started], { s with impl := { s.impl with error := none, started := true }, session := s.session + 1 })

/-- The first section of `Process`. -/
def process (s : Serving) (video : Bool) (input : AvDecoderReadResult) (consume : Bool) : List Event × Serving :=
  if !s.healthy then ([.rejected (.logicError "AvMediaFilter 处理帧前需要成功 Start")], s)
  else if input.status ≠ .frame then ([.passed input], s)
  else if input.frame.isNone then ([.rejected (.invalidArgument "AvMediaFilter 缺少输入帧")], s)
  else if !s.impl.onFrame video then ([.passed input], s)
  else
    let call : Call :=
      { ticket := s.admitted, video := video, input := input, consume := consume, session := s.session }
    ([.entered s.admitted], { s with
      impl := { s.impl with activeCalls := s.impl.activeCalls + 1 }
      admitted := s.admitted + 1
      calls := s.calls ++ [call] })

/-- A step of an admitted call.  `prepare` binds the context of the frame, `answer` ends the callback. -/
inductive CallAct where
  | prepare (thrown : Option Exception)
  | answer (output : Except Exception Output)
  | finish

def advance (s : Serving) (i : ℕ) (act : CallAct) : Option (List Event × Serving) :=
  match s.calls[i]? with
  | none => none
  | some call =>
    match call.phase, act with
    | .entered, .prepare (some e) =>
      some ([], { s with calls := s.calls.set i { call with phase := .answered (.error e) } })
    | .entered, .prepare none =>
      some ([.called call.ticket], { s with calls := s.calls.set i { call with phase := .called } })
    | .called, .answer output =>
      let result := outcome call.input call.consume output
      some ([], { s with calls := s.calls.set i { call with phase := .answered result } })
    | .answered result, .finish =>
      some ([.finished call.ticket result], { s with
        impl := s.impl.finishProcessing (failure? result), calls := s.calls.eraseIdx i })
    | _, _ => none

/-- The end of the `Stop` that does the work; `thrown` is what `OnStop` throws. -/
def stopEnd (s : Serving) (session : ℕ) (thrown : Option Exception) : List Event × Serving :=
  (if s.impl.onStop then [.onStop, .stopReturned (some session) thrown] else [.stopReturned (some session) none],
    { s with impl := { s.impl with started := false, stopping := false } })

/-- `Stop`, up to where it waits. -/
def stop (s : Serving) (thrown : Option Exception) : List Event × Serving :=
  if !s.impl.started then ([.stopReturned none none], s)
  else if s.impl.stopping then ([], { s with stops := s.stops ++ [.later s.session] })
  else
    let s := { s with impl := { s.impl with stopping := true } }
    if s.impl.activeCalls = 0 then
      let ended := s.stopEnd s.session thrown
      (.stopBegan :: ended.1, ended.2)
    else ([.stopBegan], { s with stops := s.stops ++ [.first s.session] })

/-- A waiting `Stop` goes on. -/
def wake (s : Serving) (i : ℕ) (thrown : Option Exception) : Option (List Event × Serving) :=
  match s.stops[i]? with
  | none => none
  | some (.first session) =>
    if s.impl.activeCalls = 0 then some ({ s with stops := s.stops.eraseIdx i }.stopEnd session thrown) else none
  | some (.later session) =>
    if s.impl.stopping then none
    else some ([.stopReturned (some session) none], { s with stops := s.stops.eraseIdx i })

/-- The end of `Reset`; `thrown` is what `OnReset` throws. -/
def resetEnd (s : Serving) (thrown : Option Exception) : List Event × Serving :=
  if s.impl.error.isSome then ([.resetRejected (.logicError "AvMediaFilter 回调失败后需要 Stop/Start")], s)
  else if !s.impl.onReset then ([], s)
  else
    match thrown with
    | none => ([.onReset], s)
    | some e => ([.onReset, .resetFailed e], { s with impl := { s.impl with error := some e } })

/-- `Reset`, up to where it waits. -/
def reset (s : Serving) (thrown : Option Exception) : List Event × Serving :=
  if !s.healthy then ([.resetRejected (.logicError "AvMediaFilter 重置前需要成功 Start")], s)
  else if s.impl.activeCalls = 0 then s.resetEnd thrown
  else ([], { s with resets := s.resets + 1 })

/-- A waiting `Reset` goes on. -/
def resume (s : Serving) (thrown : Option Exception) : Option (List Event × Serving) :=
  if s.resets = 0 ∨ s.impl.activeCalls ≠ 0 then none else some ({ s with resets := s.resets - 1 }.resetEnd thrown)

inductive Act where
  | configure (onStop onReset : Bool) (onFrame : Bool → Bool)
  | start (thrown : Option Exception)
  | process (video : Bool) (input : AvDecoderReadResult) (consume : Bool)
  | advance (i : ℕ) (act : CallAct)
  | stop (thrown : Option Exception)
  | wake (i : ℕ) (thrown : Option Exception)
  | reset (thrown : Option Exception)
  | resume (thrown : Option Exception)

def next (s : Serving) : Act → Option (List Event × Serving)
  | .configure onStop onReset onFrame =>
    if s.impl.started then none
    else some ([], { s with impl := { s.impl with onStop := onStop, onReset := onReset, onFrame := onFrame } })
  | .start thrown => some (s.start thrown)
  | .process video input consume => some (s.process video input consume)
  | .advance i act => s.advance i act
  | .stop thrown => some (s.stop thrown)
  | .wake i thrown => s.wake i thrown
  | .reset thrown => some (s.reset thrown)
  | .resume thrown => s.resume thrown

def system : Transition Serving Event where
  init s := s = {}
  step s events s' := ∃ act, s.next act = some (events, s')

end Serving

end AvMediaFilter

end MwStreamer
