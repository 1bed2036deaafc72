import MwStreamer.Library.Transition
import MwStreamer.Remuxer.PacketInterleaver

/-!
# The media of one remux session

`Remuxer::Process` in two halves.  The first runs under the lock of the remuxer: the packet of the handoff
queue goes into the interleaver, the first packets are noted as long as there is no shift, and what is ready
is popped.  The second runs outside the lock: the shift is computed once, and every popped packet goes to the
recorders and, converted to milliseconds, to the protocol output.  What the recorders, the frame conversion and
the output do with a packet is a parameter: only whether they throw matters here.
-/

namespace MwStreamer

/-- What the first half hands to the second; `finish` is the value of `draining_` it saw. -/
structure Batch where
  packets : List Packet
  firstPackets : List Packet
  finish : Bool
  deriving DecidableEq, Repr

/-- What a session does to its packets. -/
inductive MediaEvent where
  /-- The interleaver accepted a packet of the handoff queue. -/
  | interleaved (packet : Packet)
  | popped (packet : Packet)
  | initialized (firstPackets : List Packet)
  /-- `Initialize` threw. -/
  | unshifted (e : Exception)
  /-- `TrySubmitPacket` of every recorder. -/
  | recorded (packet : Packet)
  | converted (packet : Packet) (stamps : MediaTimestamps)
  /-- `MediaTimestampConverter::Convert` threw. -/
  | unconverted (packet : Packet) (e : Exception)
  deriving DecidableEq, Repr

def MediaEvent.interleaved? : MediaEvent → Option Packet
  | .interleaved packet => some packet
  | _ => none

def MediaEvent.popped? : MediaEvent → Option Packet
  | .popped packet => some packet
  | _ => none

def MediaEvent.initialized? : MediaEvent → Option (List Packet)
  | .initialized firstPackets => some firstPackets
  | _ => none

def MediaEvent.recorded? : MediaEvent → Option Packet
  | .recorded packet => some packet
  | _ => none

def MediaEvent.converted? : MediaEvent → Option (Packet × MediaTimestamps)
  | .converted packet stamps => some (packet, stamps)
  | _ => none

/-- The exceptions of the timestamp converter. -/
def MediaEvent.refused? : MediaEvent → Option Exception
  | .unshifted e => some e
  | .unconverted _ e => some e
  | _ => none

def interleavedPackets (events : List MediaEvent) : List Packet := events.filterMap MediaEvent.interleaved?

def poppedPackets (events : List MediaEvent) : List Packet := events.filterMap MediaEvent.popped?

def snapshots (events : List MediaEvent) : List (List Packet) := events.filterMap MediaEvent.initialized?

def recordedPackets (events : List MediaEvent) : List Packet := events.filterMap MediaEvent.recorded?

def conversions (events : List MediaEvent) : List (Packet × MediaTimestamps) :=
  events.filterMap MediaEvent.converted?

def refusals (events : List MediaEvent) : List Exception := events.filterMap MediaEvent.refused?

section

variable (events new : List MediaEvent)

@[simp] theorem interleavedPackets_append :
    interleavedPackets (events ++ new) = interleavedPackets events ++ interleavedPackets new :=
  List.filterMap_append ..

@[simp] theorem poppedPackets_append :
    poppedPackets (events ++ new) = poppedPackets events ++ poppedPackets new := List.filterMap_append ..

@[simp] theorem snapshots_append : snapshots (events ++ new) = snapshots events ++ snapshots new :=
  List.filterMap_append ..

@[simp] theorem recordedPackets_append :
    recordedPackets (events ++ new) = recordedPackets events ++ recordedPackets new :=
  List.filterMap_append ..

@[simp] theorem conversions_append : conversions (events ++ new) = conversions events ++ conversions new :=
  List.filterMap_append ..

@[simp] theorem refusals_append : refusals (events ++ new) = refusals events ++ refusals new :=
  List.filterMap_append ..

end

/-- Where the packets go. -/
structure Outlets where
  /-- `TrySubmitPacket` of every recorder. -/
  record : Packet → Except Exception Unit := fun _ => .ok ()
  /-- `PacketConverter::Convert` and `InputFrame`. -/
  consume : Packet → MediaTimestamps → Except Exception Unit := fun _ _ => .ok ()

/-- The members of `Remuxer::Impl` that the two halves use, with the batch between them. -/
structure MediaSession where
  interleaver : PacketInterleaver
  timestamps : MediaTimestampConverter
  recordOnly : Bool := false
  batch : Option Batch := none
  closing : Bool := false
  deriving DecidableEq, Repr

namespace MediaSession

/-- The part of `Start` that can refuse the streams. -/
def create (streams : List StreamInfo) (recordOnly : Bool) : Except Exception MediaSession := do
  let interleaver ← PacketInterleaver.create streams
  let timestamps ← MediaTimestampConverter.create streams
  return { interleaver := interleaver, timestamps := timestamps, recordOnly := recordOnly }

variable [Libav]

/-- `PopReady`, with the first packets noted before it. -/
def popBatch (session : MediaSession) (draining : Bool) :
    List MediaEvent × Except Exception Unit × MediaSession :=
  let firstPackets := if session.timestamps.shiftMs.isSome then [] else session.interleaver.firstPackets
  match session.interleaver.popReady draining with
  | (.error e, interleaver) => ([], .error e, { session with interleaver := interleaver })
  | (.ok packets, interleaver) =>
    (packets.map .popped, .ok (),
      { session with interleaver := interleaver, batch := some ⟨packets, firstPackets, draining⟩ })

/-- The half under the lock; `packet` is what `TryPop` returned. -/
def collect (session : MediaSession) (packet : Option Packet) (draining : Bool) :
    List MediaEvent × Except Exception Unit × MediaSession :=
  match packet with
  | none => session.popBatch draining
  | some packet =>
    match session.interleaver.push (some packet) with
    | (.error e, interleaver) => ([], .error e, { session with interleaver := interleaver })
    | (.ok (), interleaver) =>
      let (events, answer, next) := { session with interleaver := interleaver }.popBatch draining
      (.interleaved packet :: events, answer, next)

/-- The loop over the popped packets. -/
def deliver (timestamps : MediaTimestampConverter) (recordOnly : Bool)
    (outlets : Outlets) :
    List Packet → List MediaEvent × Except Exception Unit
  | [] => ([], .ok ())
  | packet :: packets =>
    match outlets.record packet with
    | .error e => ([], .error e)
    | .ok () =>
      if recordOnly then
        let (events, answer) := deliver timestamps recordOnly outlets packets
        (.recorded packet :: events, answer)
      else
        match timestamps.convert packet with
        | .error e => ([.recorded packet, .unconverted packet e], .error e)
        | .ok stamps =>
          match outlets.consume packet stamps with
          | .error e => ([.recorded packet, .converted packet stamps], .error e)
          | .ok () =>
            let (events, answer) := deliver timestamps recordOnly outlets packets
            (.recorded packet :: .converted packet stamps :: events, answer)

/-- `Initialize` before the loop, if there are packets and no shift yet. -/
def settle (timestamps : MediaTimestampConverter) (batch : Batch) :
    List MediaEvent × Except Exception MediaTimestampConverter :=
  if batch.packets.isEmpty || timestamps.shiftMs.isSome then ([], .ok timestamps)
  else
    match timestamps.initializeShift batch.firstPackets with
    | .error e => ([.unshifted e], .error e)
    | .ok timestamps => ([.initialized batch.firstPackets], .ok timestamps)

/-- The half outside the lock. -/
def emit (session : MediaSession) (batch : Batch)
    (outlets : Outlets) :
    List MediaEvent × Except Exception Unit × MediaSession :=
  let session := { session with batch := none }
  match settle session.timestamps batch with
  | (events, .error e) => (events, .error e, session)
  | (events, .ok timestamps) =>
    let (delivered, answer) := deliver timestamps session.recordOnly outlets batch.packets
    (events ++ delivered, answer, { session with timestamps := timestamps })

/-- An exception closes the session; so does the batch that was taken while draining. -/
def close (session : MediaSession) (answer : Except Exception Unit) (finish : Bool) : MediaSession :=
  match answer with
  | .error _ => { session with closing := true }
  | .ok () => { session with closing := session.closing || finish }

/-- `Process` is a collection followed by an emission; `AddPrepared` may come between. -/
inductive Step (session : MediaSession) : List MediaEvent → MediaSession → Prop where
  | collect (packet : Option Packet) (draining : Bool) (hopen : session.closing = false)
      (hbatch : session.batch = none) {events : List MediaEvent} {answer : Except Exception Unit}
      {next : MediaSession} (h : session.collect packet draining = (events, answer, next)) :
      Step session events (next.close answer false)
  | emit (batch : Batch) (outlets : Outlets)
      (hbatch : session.batch = some batch) {events : List MediaEvent} {answer : Except Exception Unit}
      {next : MediaSession} (h : session.emit batch outlets = (events, answer, next)) :
      Step session events (next.close answer batch.finish)
  | addPrepared : Step session [] { session with recordOnly := false }

/-- The runs of a session over these streams. -/
def system (streams : List StreamInfo) : Transition MediaSession MediaEvent where
  init session := ∃ recordOnly, create streams recordOnly = .ok session
  step := Step

end MediaSession

end MwStreamer
