import MwStreamer.Platform.BlockingQueue
import MwStreamer.Remuxer.PacketInterleaver

/-!
# One input connection

`AvInput` is one demux connection: `Open` connects and starts a reader, which fills a bounded packet queue that
one consumer empties.  Every function here is one critical section of `mutex_`, one read or write of
`cancelled_`, or one call of the queue, so that the calls of several threads may alternate between them; the
threads are those of the proxy that owns the connection.
-/

namespace MwStreamer

/-- `AVERROR_EXIT`. -/
def averrorExit : ℤ := -1414092869

/-- `AvInputInfo`, as far as a later stage reads it; `-1` stands for an absent track. -/
structure AvInputInfo where
  streams : List StreamInfo := []
  videoStreamIndex : ℤ := -1
  audioStreamIndex : ℤ := -1
  timestampDiscontinuities : Bool := false
  deriving DecidableEq, Repr

/-- The packet is of one of the two tracks that are delivered. -/
def AvInputInfo.selects (info : AvInputInfo) (packet : Packet) : Bool :=
  packet.streamIndex == info.videoStreamIndex || packet.streamIndex == info.audioStreamIndex

/-- `AvInputState`. -/
inductive AvInputState where
  | closed
  | opening
  | opened
  | ended
  | failed
  | cancelled
  deriving DecidableEq, Repr

/-- The states whose publication closes the packet queue. -/
def AvInputState.closesQueue : AvInputState → Bool
  | .ended | .failed | .cancelled => true
  | _ => false

/-- `AvInputStatus`. -/
structure AvInputStatus where
  state : AvInputState := .closed
  error : Option Exception := none
  deriving DecidableEq, Repr

/-- `AvInputReadStatus`, with the packet that only `kPacket` has. -/
inductive AvInputReadResult where
  | packet (packet : Packet)
  | eof
  | null
  deriving DecidableEq, Repr

/-- `AvInput::Impl`.  The proxy opens a connection once, so `queue` is its only queue, which a reader may keep
after `packets_` is gone; `packets` tells whether `packets_` is set. -/
structure AvInput where
  status : AvInputStatus := {}
  cancelled : Bool := false
  info : AvInputInfo := {}
  packets : Bool := false
  queue : BlockingQueue Packet := { capacity := 0 }
  deriving DecidableEq, Repr

namespace AvInput

/-- `Open` clears the cancellation of an earlier connection. -/
def uncancel (self : AvInput) : AvInput := { self with cancelled := false }

/-- `Open` makes the queue. -/
def makeQueue (self : AvInput) (capacity : ℕ) : AvInput :=
  { self with info := {}, packets := true, queue := { capacity := capacity } }

/-- The end of the I/O of `Open`. -/
def describe (self : AvInput) (info : AvInputInfo) : AvInput := { self with info := info }

/-- `Publish` under the lock. -/
def publish (self : AvInput) (status : AvInputStatus) : AvInput := { self with status := status }

def closeQueue (self : AvInput) : AvInput := { self with queue := (self.queue.close []).2 }

/-- `RequestCancel` under the lock. -/
def cancel (self : AvInput) : AvInput := { self with cancelled := true }

/-- `OpenFailed` and `FinishFailure`. -/
def failure (self : AvInput) (error : Exception) : AvInputStatus :=
  if self.cancelled then { state := .cancelled } else { state := .failed, error := some error }

/-- `CheckIo` after an operation that answered without an error of its own. -/
def checkIo {α : Type} (self : AvInput) (operation : String) (answer : Except Exception α) : Except Exception α :=
  if self.cancelled then .error (.ffmpeg averrorExit operation) else answer

/-- `ReadPacket` up to the queue: whether there is one to read. -/
def readable (self : AvInput) : Bool := !self.cancelled && self.packets

/-- `ReadPacket` after the queue. -/
def answer (self : AvInput) (popped : Option Packet) : AvInputReadResult :=
  if self.cancelled || self.status.state == .closed || self.status.state == .cancelled || !self.packets then .null
  else
    match popped with
    | some packet => .packet packet
    | none => if self.status.state = .ended then .eof else .null

/-- `Close` takes the queue away from `packets_`. -/
def detach (self : AvInput) : AvInput := { self with packets := false }

/-- `Push` of the reader: whether the queue took the packet, or nothing while it is full. -/
def push (self : AvInput) (packet : Packet) : Option (Bool × AvInput) :=
  match self.queue.pushImpl [] packet false false false with
  | (.notifying .success _, queue) => some (true, { self with queue := queue })
  | (.notifying _ _, queue) => some (false, { self with queue := queue })
  | _ => none

/-- `Pop` or `TryPop`: the packet, if there is one, or nothing while the call waits. -/
def pop (self : AvInput) (wait : Bool) : Option (Option Packet × AvInput) :=
  match if wait then self.queue.pop [] false else self.queue.popImpl [] false with
  | (.notifying (.value packet) _, queue) => some (some packet, { self with queue := queue })
  | (.notifying _ _, queue) => some (none, { self with queue := queue })
  | _ => none

/-- The packets in the queue. -/
def queued (self : AvInput) : List Packet := self.queue.queue

/-- **What `Push` does**: it adds to a queue that is not full, or refuses when the queue is closed. -/
theorem push_cases {self self' : AvInput} {packet : Packet} {accepted : Bool}
    (h : self.push packet = some (accepted, self')) :
    (accepted = true ∧ self.queue.closed = false ∧ self.queued.length < self.queue.capacity ∧
      self' = { self with queue := { self.queue with queue := self.queued ++ [packet] } }) ∨
    (accepted = false ∧ self.queue.closed = true ∧ self' = self) := by
  rw [push, BlockingQueue.pushImpl] at h
  by_cases hclosed : self.queue.closed = true
  · rw [if_neg (by simp [hclosed]), if_pos hclosed] at h
    obtain ⟨rfl, rfl⟩ := Prod.mk.inj (Option.some.inj h)
    exact .inr ⟨rfl, hclosed, rfl⟩
  · rw [Bool.not_eq_true] at hclosed
    by_cases hroom : self.queue.queue.length < self.queue.capacity
    · rw [if_neg (by simp [hroom]), if_neg (by simp [hclosed]), if_neg Bool.false_ne_true] at h
      obtain ⟨rfl, rfl⟩ := Prod.mk.inj (Option.some.inj h)
      exact .inl ⟨rfl, hclosed, hroom, rfl⟩
    · rw [if_pos (by simp [hclosed, hroom]), if_neg Bool.false_ne_true] at h
      cases h

/-- **What `Pop` and `TryPop` do**: they take the head, if there is one; a call that waits finds one or a closed
queue. -/
theorem pop_cases {self self' : AvInput} {wait : Bool} {popped : Option Packet}
    (h : self.pop wait = some (popped, self')) :
    popped = self.queued.head? ∧ self' = { self with queue := { self.queue with queue := self.queued.tail } } ∧
      (popped = none → wait = true → self.queue.closed = true) := by
  obtain ⟨status, cancelled, info, packets, ⟨capacity, items, readSignal, writeSignal, closed⟩⟩ := self
  cases items with
  | nil =>
    cases wait with
    | true =>
      cases closed with
      | true =>
        obtain ⟨rfl, rfl⟩ := Prod.mk.inj (Option.some.inj h)
        exact ⟨rfl, rfl, fun _ _ => rfl⟩
      | false => cases h
    | false =>
      cases closed with
      | true =>
        obtain ⟨rfl, rfl⟩ := Prod.mk.inj (Option.some.inj h)
        exact ⟨rfl, rfl, fun _ _ => rfl⟩
      | false =>
        obtain ⟨rfl, rfl⟩ := Prod.mk.inj (Option.some.inj h)
        exact ⟨rfl, rfl, fun _ hwait => by cases hwait⟩
  | cons packet rest =>
    have htake : some (some packet, AvInput.mk status cancelled info packets
        ⟨capacity, rest, readSignal, writeSignal, closed⟩) = some (popped, self') := by
      rw [← h]
      cases wait <;> cases closed <;> rfl
    obtain ⟨rfl, rfl⟩ := Prod.mk.inj (Option.some.inj htake)
    exact ⟨rfl, rfl, fun hnone => by cases hnone⟩

/-- A pop goes through when it does not wait, or there is a packet, or the queue is closed. -/
theorem pop_ready (self : AvInput) {wait : Bool}
    (h : wait = false ∨ self.queued ≠ [] ∨ self.queue.closed = true) :
    ∃ result, self.pop wait = some result := by
  obtain ⟨status, cancelled, info, packets, ⟨capacity, items, readSignal, writeSignal, closed⟩⟩ := self
  cases items with
  | nil =>
    cases wait with
    | true =>
      have hclosed : closed = true := by simpa [queued] using h
      subst hclosed
      exact ⟨_, rfl⟩
    | false => cases closed <;> exact ⟨_, rfl⟩
  | cons packet rest => cases wait <;> cases closed <;> exact ⟨_, rfl⟩

end AvInput

end MwStreamer
