import MwStreamer.Library.Sessions
import MwStreamer.Recorder.Recorder

/-!
# The recorder's accounts

The bytes, the queue, the counters and the state are written in critical sections of several threads, and a
packet is owned by none of them while it is written.  `Accounts` relates all of them to the history of the
session; every step keeps it, a failure and a restart included.
-/

namespace MwStreamer

namespace Recorder

/-! ### What a session did -/

def Event.opens : Event → Bool
  | .started _ => true
  | _ => false

def Event.accepted? : Event → Option EncodedPacket
  | .accepted packet => some packet
  | _ => none

def Event.written? : Event → Option EncodedPacket
  | .written packet => some packet
  | _ => none

def Event.overflowed? : Event → Option EncodedPacket
  | .overflowed packet => some packet
  | _ => none

/-- The packets of the current session whose submission returned true. -/
def accepted (history : List Event) : List EncodedPacket := Sessions.select Event.opens Event.accepted? history

def written (history : List Event) : List EncodedPacket := Sessions.select Event.opens Event.written? history

/-- The packets of the current session that were rejected for overflow. -/
def overflowed (history : List Event) : List EncodedPacket := Sessions.select Event.opens Event.overflowed? history

/-- The packet that has left the queue and is not counted yet. -/
def beingWritten (s : Recorder) : List EncodedPacket :=
  match s.worker with
  | some (.writing packet) => [packet]
  | some (.written packet) => [packet]
  | some (.failing packet _) => packet.toList
  | _ => []

/-- The sum of `PacketBytes`. -/
def bytesOf (queue : List EncodedPacket) : ℕ := (queue.map fun packet => packet.bytes.toNat).sum

theorem bytesOf_append (queue : List EncodedPacket) (packet : EncodedPacket) :
    bytesOf (queue ++ [packet]) = bytesOf queue + packet.bytes.toNat := by
  rw [bytesOf, bytesOf, List.map_append, List.sum_append]
  rfl

theorem bytesOf_cons (packet : EncodedPacket) (queue : List EncodedPacket) :
    bytesOf (packet :: queue) = packet.bytes.toNat + bytesOf queue := rfl

/-! ### What a step can do -/

/-- What the worker does without touching what it shares. -/
inductive Move : Worker → List Event → Worker → Prop where
  | opened : Move .opening [] .waiting
  | refused (e : Exception) : Move .opening [] (.failing none e)
  | wrote (packet : EncodedPacket) : Move (.writing packet) [] (.written packet)
  | broke (packet : EncodedPacket) (e : Exception) : Move (.writing packet) [] (.failing (some packet) e)
  | finished : Move .finishing [] .concluding
  | unfinished (e : Exception) : Move .finishing [] (.failing none e)
  | reported (callback : Option ℕ) (e : Exception) :
      Move (.reporting callback e) (callback.toList.map fun c => .reported c e) .done

/-- Every step: what it writes and which events it emits. -/
inductive Stepped (s : Recorder) : List Event → Recorder → Prop where
  | registered (callback : Option ℕ) : Stepped s [] { s with onError := callback }
  | refused : Stepped s [.refused] s
  | threw (e : Exception) : Stepped s [.threw e] s
  | started (hidle : s.worker = none) (streams : List StreamInfo) (config : RecorderConfig) :
      Stepped s [.started true] { s with
        streams := streams, config := config, status := { state := .running }, worker := some .opening }
  | unstarted (hidle : s.worker = none) (streams : List StreamInfo) (config : RecorderConfig)
      (error : RecorderError) :
      Stepped s [.started false] { s with
        streams := streams, config := config, status := { state := .failed, error := some error } }
  | overflowed (hrunning : s.status.state = .running) (packet : EncodedPacket) :
      Stepped s [.overflowed packet]
        { s with status := { s.status with droppedPackets := s.status.droppedPackets + 1 } }
  | accepted (hrunning : s.status.state = .running) (packet : EncodedPacket) (hfits : s.overflows packet = false) :
      Stepped s [.accepted packet] { s with
        queue := s.queue ++ [packet]
        status := { s.status with queueBytes := s.status.queueBytes + packet.bytes } }
  | drained : Stepped s [] s.drain
  | stopping : Stepped s [] { s.drain with joining := true }
  | joined (hworker : s.worker = none ∨ s.worker = some .done) :
      Stepped s [.stopped] { s with worker := none, joining := false }
  | moved {worker worker' : Worker} {events : List Event} (hworker : s.worker = some worker)
      (h : Move worker events worker') : Stepped s events { s with worker := some worker' }
  | taken (hworker : s.worker = some .waiting) {packet : EncodedPacket} {queue : List EncodedPacket}
      (hqueue : s.queue = packet :: queue) :
      Stepped s [] { s with
        queue := queue
        status := { s.status with queueBytes := s.status.queueBytes - packet.bytes }
        worker := some (.writing packet) }
  | emptied (hworker : s.worker = some .waiting) (hqueue : s.queue = []) (hstate : s.status.state ≠ .running) :
      Stepped s [] { s with worker := some .finishing }
  | counted {packet : EncodedPacket} (hworker : s.worker = some (.written packet)) :
      Stepped s [.written packet] s.count
  | concluded (hworker : s.worker = some .concluding) : Stepped s [] s.conclude
  | failed {packet : Option EncodedPacket} {e : Exception} (hworker : s.worker = some (.failing packet e)) :
      Stepped s [.failed e] (s.fail e)

variable {s s' : Recorder} {events history : List Event}

theorem start_stepped (streams : List StreamInfo) (config : RecorderConfig) (created : Bool) :
    Stepped s (s.start streams config created).1 (s.start streams config created).2 := by
  rw [start]
  by_cases hworker : s.worker.isSome
  · rw [if_pos hworker]
    exact .refused
  · rw [if_neg hworker]
    have hidle : s.worker = none := Option.not_isSome_iff_eq_none.mp hworker
    cases validate streams config with
    | error e => exact .threw e
    | ok _ =>
      cases created with
      | true => exact .started hidle streams config
      | false => exact .unstarted hidle streams config _

theorem trySubmitPacket_stepped (packet : Option EncodedPacket) (throws : Option Exception) :
    Stepped s (s.trySubmitPacket packet throws).1 (s.trySubmitPacket packet throws).2 := by
  rw [trySubmitPacket]
  by_cases hrunning : s.status.state = .running
  · rw [if_neg (not_not.mpr hrunning)]
    cases packet.filter s.valid with
    | none => exact .threw _
    | some packet =>
      dsimp only
      cases hfits : s.overflows packet with
      | true => exact .overflowed hrunning packet
      | false =>
        cases throws with
        | some e => exact .threw e
        | none => exact .accepted hrunning packet hfits
  · rw [if_pos hrunning]
    exact .refused

theorem take_stepped (hworker : s.worker = some .waiting) (h : s.take = some s') : Stepped s [] s' := by
  rw [take] at h
  split at h
  · rename_i hqueue
    split at h
    · cases h
    · rename_i hstate
      obtain rfl := Option.some.inj h
      exact .emptied hworker hqueue hstate
  · rename_i packet queue hqueue
    obtain rfl := Option.some.inj h
    exact .taken hworker hqueue

/-- **Inversion of a step.** -/
theorem stepped {act : Act} (h : s.next act = some (events, s')) : Stepped s events s' := by
  cases act with
  | setOnError callback =>
    obtain ⟨rfl, rfl⟩ := Prod.mk.inj (Option.some.inj h)
    exact .registered callback
  | start streams config created =>
    rw [next] at h
    split at h
    · cases h
    · have heq := Option.some.inj h
      have hstep := start_stepped (s := s) streams config created
      rwa [heq] at hstep
  | submit packet throws =>
    have heq := Option.some.inj h
    have hstep := trySubmitPacket_stepped (s := s) packet throws
    rwa [heq] at hstep
  | drain =>
    obtain ⟨rfl, rfl⟩ := Prod.mk.inj (Option.some.inj h)
    exact .drained
  | stop =>
    rw [next] at h
    split at h
    · cases h
    · obtain ⟨rfl, rfl⟩ := Prod.mk.inj (Option.some.inj h)
      exact .stopping
  | join =>
    rw [next] at h
    split at h
    · rename_i hjoin
      obtain ⟨rfl, rfl⟩ := Prod.mk.inj (Option.some.inj h)
      exact .joined hjoin.2
    · cases h
  | openFile error =>
    cases error with
    | none =>
      rw [next] at h
      split at h
      · rename_i hworker
        obtain ⟨rfl, rfl⟩ := Prod.mk.inj (Option.some.inj h)
        exact .moved hworker .opened
      · cases h
    | some e =>
      rw [next] at h
      split at h
      · rename_i hworker
        obtain ⟨rfl, rfl⟩ := Prod.mk.inj (Option.some.inj h)
        exact .moved hworker (.refused e)
      · cases h
  | take =>
    rw [next] at h
    split at h
    · rename_i hworker
      obtain ⟨t, htake, heq⟩ := Option.map_eq_some_iff.mp h
      obtain ⟨rfl, rfl⟩ := Prod.mk.inj heq
      exact take_stepped hworker htake
    · cases h
  | write error =>
    cases error with
    | none =>
      rw [next] at h
      split at h
      · rename_i packet hworker
        obtain ⟨rfl, rfl⟩ := Prod.mk.inj (Option.some.inj h)
        exact .moved hworker (.wrote packet)
      · cases h
    | some e =>
      rw [next] at h
      split at h
      · rename_i packet hworker
        obtain ⟨rfl, rfl⟩ := Prod.mk.inj (Option.some.inj h)
        exact .moved hworker (.broke packet e)
      · cases h
  | count =>
    rw [next] at h
    split at h
    · rename_i hworker
      obtain ⟨rfl, rfl⟩ := Prod.mk.inj (Option.some.inj h)
      exact .counted hworker
    · cases h
  | finish error =>
    cases error with
    | none =>
      rw [next] at h
      split at h
      · rename_i hworker
        obtain ⟨rfl, rfl⟩ := Prod.mk.inj (Option.some.inj h)
        exact .moved hworker .finished
      · cases h
    | some e =>
      rw [next] at h
      split at h
      · rename_i hworker
        obtain ⟨rfl, rfl⟩ := Prod.mk.inj (Option.some.inj h)
        exact .moved hworker (.unfinished e)
      · cases h
  | conclude =>
    rw [next] at h
    split at h
    · rename_i hworker
      obtain ⟨rfl, rfl⟩ := Prod.mk.inj (Option.some.inj h)
      exact .concluded hworker
    · cases h
  | fail =>
    rw [next] at h
    split at h
    · rename_i hworker
      obtain ⟨rfl, rfl⟩ := Prod.mk.inj (Option.some.inj h)
      exact .failed hworker
    · cases h
  | report =>
    rw [next] at h
    split at h
    · rename_i callback e hworker
      obtain ⟨rfl, rfl⟩ := Prod.mk.inj (Option.some.inj h)
      exact .moved hworker (.reported callback e)
    · cases h

/-! ### The invariant -/

/-- What the worker's place says about the queue and the state. -/
def Phase (s : Recorder) : Prop :=
  match s.worker with
  | none | some .done => s.queue = [] ∧ (s.status.state = .stopped ∨ s.status.state = .failed)
  | some .finishing | some .concluding => s.queue = [] ∧ s.status.state = .stopping
  | some (.reporting _ _) => s.queue = [] ∧ s.status.state = .failed
  | _ => s.status.state = .running ∨ s.status.state = .stopping

/-- **The accounts of the session.** -/
structure Accounts (history : List Event) (s : Recorder) : Prop where
  bytes : s.status.queueBytes.toNat = bytesOf s.queue
  bounded : s.status.queueBytes ≤ s.config.maxQueueBytes
  order : s.status.state ≠ .failed → accepted history = written history ++ s.beingWritten ++ s.queue
  counted : s.status.writtenPackets = (written history).length
  dropped : s.status.droppedPackets = (overflowed history).length
  phase : s.Phase

theorem Phase.drained (h : s.Phase) : s.drain.Phase := by
  rw [drain]
  split
  · rename_i hrunning
    rw [Phase] at h ⊢
    dsimp only at h ⊢
    cases hworker : s.worker with
    | none =>
      rw [hworker] at h
      rcases h.2 with hstate | hstate <;> exact absurd (hrunning.symm.trans hstate) (by decide)
    | some worker =>
      rw [hworker] at h
      cases worker with
      | done => rcases h.2 with hstate | hstate <;> exact absurd (hrunning.symm.trans hstate) (by decide)
      | finishing => exact absurd (hrunning.symm.trans h.2) (by decide)
      | concluding => exact absurd (hrunning.symm.trans h.2) (by decide)
      | reporting _ _ => exact absurd (hrunning.symm.trans h.2) (by decide)
      | opening => exact .inr rfl
      | waiting => exact .inr rfl
      | writing _ => exact .inr rfl
      | written _ => exact .inr rfl
      | failing _ _ => exact .inr rfl
  · exact h

theorem drain_cases (s : Recorder) : s.drain = s ∨
    s.status.state = .running ∧ s.drain = { s with status := { s.status with state := .stopping } } := by
  rw [drain]
  split
  · rename_i hrunning
    exact .inr ⟨hrunning, rfl⟩
  · exact .inl rfl

theorem accepted_append (h : ∀ e ∈ events, e.opens = false) :
    accepted (history ++ events) = accepted history ++ events.filterMap Event.accepted? :=
  Sessions.select_append h

theorem written_append (h : ∀ e ∈ events, e.opens = false) :
    written (history ++ events) = written history ++ events.filterMap Event.written? :=
  Sessions.select_append h

theorem overflowed_append (h : ∀ e ∈ events, e.opens = false) :
    overflowed (history ++ events) = overflowed history ++ events.filterMap Event.overflowed? :=
  Sessions.select_append h

theorem opened_nil (history : List Event) (created : Bool) : accepted (history ++ [.started created]) = [] ∧
    written (history ++ [.started created]) = [] ∧ overflowed (history ++ [.started created]) = [] :=
  ⟨Sessions.select_opened rfl, Sessions.select_opened rfl, Sessions.select_opened rfl⟩

/-- Events that no account counts. -/
def Quiet (events : List Event) : Prop :=
  ∀ e ∈ events, e.opens = false ∧ e.accepted? = none ∧ e.written? = none ∧ e.overflowed? = none

theorem Quiet.same (h : Quiet events) (history : List Event) : accepted (history ++ events) = accepted history ∧
    written (history ++ events) = written history ∧ overflowed (history ++ events) = overflowed history := by
  have hopens : ∀ e ∈ events, e.opens = false := fun e he => (h e he).1
  exact ⟨Sessions.select_same hopens fun e he => (h e he).2.1, Sessions.select_same hopens fun e he => (h e he).2.2.1,
    Sessions.select_same hopens fun e he => (h e he).2.2.2⟩

theorem quiet_nil : Quiet [] := fun e he => by cases he

theorem quiet_single {e : Event}
    (h : e.opens = false ∧ e.accepted? = none ∧ e.written? = none ∧ e.overflowed? = none) : Quiet [e] := by
  intro e' he
  obtain rfl := List.mem_singleton.mp he
  exact h

theorem Move.quiet {worker worker' : Worker} (h : Move worker events worker') : Quiet events := by
  cases h with
  | reported callback e =>
    intro event hevent
    obtain ⟨c, -, rfl⟩ := List.mem_map.mp hevent
    exact ⟨rfl, rfl, rfl, rfl⟩
  | opened => exact quiet_nil
  | refused e => exact quiet_nil
  | wrote packet => exact quiet_nil
  | broke packet e => exact quiet_nil
  | finished => exact quiet_nil
  | unfinished e => exact quiet_nil

/-- A step that writes neither the queue nor the counters. -/
theorem Accounts.frame (h : Accounts history s) (hquiet : Quiet events) (hqueue : s'.queue = s.queue)
    (hconfig : s'.config = s.config) (hbytes : s'.status.queueBytes = s.status.queueBytes)
    (hwritten : s'.status.writtenPackets = s.status.writtenPackets)
    (hdropped : s'.status.droppedPackets = s.status.droppedPackets)
    (hstate : s'.status.state ≠ .failed → s.status.state ≠ .failed)
    (hbeing : s'.beingWritten = s.beingWritten) (hphase : s'.Phase) : Accounts (history ++ events) s' := by
  obtain ⟨haccepted, hwrote, hoverflowed⟩ := hquiet.same history
  refine ⟨?_, ?_, ?_, ?_, ?_, hphase⟩
  · rw [hbytes, hqueue]
    exact h.bytes
  · rw [hbytes, hconfig]
    exact h.bounded
  · intro hne
    rw [haccepted, hwrote, hbeing, hqueue]
    exact h.order (hstate hne)
  · rw [hwritten, hwrote]
    exact h.counted
  · rw [hdropped, hoverflowed]
    exact h.dropped

theorem Accounts.drained (h : Accounts history s) : Accounts history s.drain := by
  have hphase := h.phase.drained
  rcases s.drain_cases with heq | ⟨hrunning, heq⟩
  · rw [heq]
    exact h
  · rw [heq] at hphase ⊢
    have hframe : Accounts (history ++ []) { s with status := { s.status with state := .stopping } } :=
      h.frame quiet_nil rfl rfl rfl rfl rfl (fun _ => hrunning ▸ by decide) rfl hphase
    rwa [List.append_nil] at hframe

/-- What the limit leaves is what the queue does not hold. -/
theorem Accounts.left (h : Accounts history s) :
    (s.config.maxQueueBytes - s.status.queueBytes).toNat = s.config.maxQueueBytes.toNat - bytesOf s.queue := by
  rw [UInt64.toNat_sub_of_le _ _ h.bounded, h.bytes]

/-- **The admission test.** -/
theorem Accounts.overflows_iff (h : Accounts history s) (packet : EncodedPacket) :
    s.overflows packet = true ↔ s.config.maxQueueBytes.toNat < bytesOf s.queue + packet.bytes.toNat := by
  have hbounded : bytesOf s.queue ≤ s.config.maxQueueBytes.toNat := h.bytes ▸ UInt64.le_iff_toNat_le.mp h.bounded
  rw [overflows, decide_eq_true_iff, UInt64.lt_iff_toNat_lt, h.left]
  omega

theorem Move.being {worker worker' : Worker} (hworker : s.worker = some worker) (h : Move worker events worker') :
    beingWritten { s with worker := some worker' } = s.beingWritten := by
  rw [beingWritten, beingWritten, hworker]
  cases h <;> rfl

theorem Move.phase {worker worker' : Worker} (hworker : s.worker = some worker) (h : Move worker events worker')
    (hs : s.Phase) : Phase { s with worker := some worker' } := by
  rw [Phase, hworker] at hs
  cases h with
  | finished => exact hs
  | unfinished e => exact .inr hs.2
  | reported callback e => exact ⟨hs.1, .inr hs.2⟩
  | opened => exact hs
  | refused e => exact hs
  | wrote packet => exact hs
  | broke packet e => exact hs

theorem Accounts.joining (h : Accounts history s) (joining : Bool) :
    Accounts history { s with joining := joining } :=
  ⟨h.bytes, h.bounded, h.order, h.counted, h.dropped, h.phase⟩

/-- The start of a session, whether or not it has a worker. -/
theorem Accounts.opened (hidle : s.worker = none) (h : Accounts history s) (created : Bool)
    (hqueue : s'.queue = s.queue) (hbytes : s'.status.queueBytes = 0) (hwritten : s'.status.writtenPackets = 0)
    (hdropped : s'.status.droppedPackets = 0) (hbeing : s'.beingWritten = []) (hphase : s'.Phase) :
    Accounts (history ++ [.started created]) s' := by
  have hempty : s.queue = [] := by
    have hs := h.phase
    rw [Phase, hidle] at hs
    exact hs.1
  obtain ⟨haccepted, hwrote, hoverflowed⟩ := opened_nil history created
  refine ⟨?_, ?_, fun _ => ?_, ?_, ?_, hphase⟩
  · rw [hbytes, hqueue, hempty]
    rfl
  · rw [hbytes]
    exact UInt64.zero_le
  · rw [haccepted, hwrote, hbeing, hqueue, hempty]
    rfl
  · rw [hwritten, hwrote]
    rfl
  · rw [hdropped, hoverflowed]
    rfl

/-- An accepted packet fits, so the sum of `PacketBytes` does not wrap. -/
theorem Accounts.accept (h : Accounts history s) (hrunning : s.status.state = .running) {packet : EncodedPacket}
    (hfits : s.overflows packet = false) :
    Accounts (history ++ [.accepted packet]) { s with
      queue := s.queue ++ [packet]
      status := { s.status with queueBytes := s.status.queueBytes + packet.bytes } } := by
  have hmax : bytesOf s.queue + packet.bytes.toNat ≤ s.config.maxQueueBytes.toNat := by
    have hiff := h.overflows_iff packet
    rw [hfits] at hiff
    exact Nat.le_of_not_lt fun hlt => absurd (hiff.mpr hlt) (by decide)
  have hlimit : s.config.maxQueueBytes.toNat < 2 ^ 64 := s.config.maxQueueBytes.toNat_lt
  have hsum : (s.status.queueBytes + packet.bytes).toNat = bytesOf s.queue + packet.bytes.toNat := by
    rw [UInt64.toNat_add, h.bytes, Nat.mod_eq_of_lt (by omega)]
  have hopens : ∀ e ∈ [Event.accepted packet], e.opens = false := by
    intro e he
    rw [List.mem_singleton.mp he]
    rfl
  refine ⟨?_, ?_, fun hne => ?_, ?_, ?_, ?_⟩
  · rw [bytesOf_append]
    exact hsum
  · rw [UInt64.le_iff_toNat_le]
    exact hsum.trans_le hmax
  · rw [accepted_append hopens, written_append hopens]
    show accepted history ++ [packet] = written history ++ [] ++ s.beingWritten ++ (s.queue ++ [packet])
    rw [h.order hne, List.append_nil, List.append_assoc]
  · rw [written_append hopens]
    show s.status.writtenPackets = (written history ++ []).length
    rw [List.append_nil]
    exact h.counted
  · rw [overflowed_append hopens]
    show s.status.droppedPackets = (overflowed history ++ []).length
    rw [List.append_nil]
    exact h.dropped
  · have hphase := h.phase
    rw [Phase] at hphase ⊢
    dsimp only
    cases hworker : s.worker with
    | none =>
      rw [hworker] at hphase
      rcases hphase.2 with hstate | hstate <;> exact absurd (hrunning.symm.trans hstate) (by decide)
    | some worker =>
      rw [hworker] at hphase
      cases worker with
      | done => rcases hphase.2 with hstate | hstate <;> exact absurd (hrunning.symm.trans hstate) (by decide)
      | finishing => exact absurd (hrunning.symm.trans hphase.2) (by decide)
      | concluding => exact absurd (hrunning.symm.trans hphase.2) (by decide)
      | reporting _ _ => exact absurd (hrunning.symm.trans hphase.2) (by decide)
      | opening => exact hphase
      | waiting => exact hphase
      | writing _ => exact hphase
      | written _ => exact hphase
      | failing _ _ => exact hphase

/-- The front of the queue becomes the packet being written. -/
theorem Accounts.take (h : Accounts history s) (hworker : s.worker = some .waiting) {packet : EncodedPacket}
    {queue : List EncodedPacket} (hqueue : s.queue = packet :: queue) :
    Accounts history { s with
      queue := queue
      status := { s.status with queueBytes := s.status.queueBytes - packet.bytes }
      worker := some (.writing packet) } := by
  have hbytes : s.status.queueBytes.toNat = packet.bytes.toNat + bytesOf queue := by
    rw [h.bytes, hqueue, bytesOf_cons]
  have hle : packet.bytes ≤ s.status.queueBytes := by
    rw [UInt64.le_iff_toNat_le]
    omega
  have hrest : (s.status.queueBytes - packet.bytes).toNat = bytesOf queue := by
    rw [UInt64.toNat_sub_of_le _ _ hle]
    omega
  refine ⟨hrest, ?_, fun hne => ?_, h.counted, h.dropped, ?_⟩
  · have hbounded := UInt64.le_iff_toNat_le.mp h.bounded
    rw [UInt64.le_iff_toNat_le]
    show (s.status.queueBytes - packet.bytes).toNat ≤ s.config.maxQueueBytes.toNat
    omega
  · have horder := h.order hne
    rw [beingWritten, hworker, hqueue, List.append_nil] at horder
    show accepted history = written history ++ [packet] ++ queue
    rw [horder, List.append_assoc]
    rfl
  · have hphase := h.phase
    rw [Phase, hworker] at hphase
    exact hphase

theorem Accounts.count (h : Accounts history s) {packet : EncodedPacket}
    (hworker : s.worker = some (.written packet)) : Accounts (history ++ [.written packet]) s.count := by
  have hopens : ∀ e ∈ [Event.written packet], e.opens = false := by
    intro e he
    rw [List.mem_singleton.mp he]
    rfl
  refine ⟨h.bytes, h.bounded, fun hne => ?_, ?_, ?_, ?_⟩
  · have horder := h.order hne
    rw [beingWritten, hworker] at horder
    rw [accepted_append hopens, written_append hopens]
    show accepted history ++ [] = written history ++ [packet] ++ [] ++ s.queue
    rw [List.append_nil, List.append_nil]
    exact horder
  · rw [written_append hopens]
    show s.status.writtenPackets + 1 = (written history ++ [packet]).length
    rw [List.length_append, h.counted]
    rfl
  · rw [overflowed_append hopens]
    show s.status.droppedPackets = (overflowed history ++ []).length
    rw [List.append_nil]
    exact h.dropped
  · have hphase := h.phase
    rw [Phase, hworker] at hphase
    exact hphase

theorem Accounts.fail (h : Accounts history s) (e : Exception) : Accounts (history ++ [.failed e]) (s.fail e) := by
  obtain ⟨-, hwrote, hoverflowed⟩ :=
    (quiet_single (e := Event.failed e) ⟨rfl, rfl, rfl, rfl⟩).same history
  refine ⟨rfl, UInt64.zero_le, fun hne => absurd rfl hne, ?_, ?_, ⟨rfl, rfl⟩⟩
  · rw [hwrote]
    exact h.counted
  · rw [hoverflowed]
    exact h.dropped

theorem Accounts.overflow (h : Accounts history s) (packet : EncodedPacket) :
    Accounts (history ++ [.overflowed packet])
      { s with status := { s.status with droppedPackets := s.status.droppedPackets + 1 } } := by
  have hopens : ∀ e ∈ [Event.overflowed packet], e.opens = false := by
    intro e he
    rw [List.mem_singleton.mp he]
    rfl
  refine ⟨h.bytes, h.bounded, fun hne => ?_, ?_, ?_, h.phase⟩
  · rw [accepted_append hopens, written_append hopens]
    show accepted history ++ [] = written history ++ [] ++ s.beingWritten ++ s.queue
    rw [List.append_nil, List.append_nil]
    exact h.order hne
  · rw [written_append hopens]
    show s.status.writtenPackets = (written history ++ []).length
    rw [List.append_nil]
    exact h.counted
  · rw [overflowed_append hopens]
    show s.status.droppedPackets + 1 = (overflowed history ++ [packet]).length
    rw [List.length_append, h.dropped]
    rfl

/-- **Every step keeps the accounts.** -/
theorem Accounts.step (h : Accounts history s) (hstep : Stepped s events s') : Accounts (history ++ events) s' := by
  cases hstep with
  | registered callback => exact h.frame quiet_nil rfl rfl rfl rfl rfl id rfl h.phase
  | refused => exact h.frame (quiet_single ⟨rfl, rfl, rfl, rfl⟩) rfl rfl rfl rfl rfl id rfl h.phase
  | threw e => exact h.frame (quiet_single ⟨rfl, rfl, rfl, rfl⟩) rfl rfl rfl rfl rfl id rfl h.phase
  | started hidle streams config =>
    exact h.opened hidle true rfl rfl rfl rfl rfl (.inl rfl)
  | unstarted hidle streams config error =>
    have hs := h.phase
    rw [Phase, hidle] at hs
    refine h.opened hidle false rfl rfl rfl rfl ?_ ?_
    · rw [beingWritten, hidle]
    · rw [Phase, hidle]
      exact ⟨hs.1, .inr rfl⟩
  | overflowed hrunning packet => exact h.overflow packet
  | accepted hrunning packet hfits => exact h.accept hrunning hfits
  | drained =>
    rw [List.append_nil]
    exact h.drained
  | stopping =>
    rw [List.append_nil]
    exact h.drained.joining true
  | joined hworker =>
    have hs := h.phase
    have hidle : s.queue = [] ∧ (s.status.state = .stopped ∨ s.status.state = .failed) := by
      rcases hworker with hworker | hworker <;> rw [Phase, hworker] at hs <;> exact hs
    have hbeing : s.beingWritten = [] := by
      rcases hworker with hworker | hworker <;> rw [beingWritten, hworker]
    exact h.frame (quiet_single ⟨rfl, rfl, rfl, rfl⟩) rfl rfl rfl rfl rfl id hbeing.symm hidle
  | moved hworker hmove =>
    exact h.frame hmove.quiet rfl rfl rfl rfl rfl id (hmove.being hworker) (hmove.phase hworker h.phase)
  | taken hworker hqueue =>
    rw [List.append_nil]
    exact h.take hworker hqueue
  | emptied hworker hqueue hstate =>
    have hs := h.phase
    rw [Phase, hworker] at hs
    refine h.frame quiet_nil rfl rfl rfl rfl rfl id ?_ ⟨hqueue, hs.resolve_left hstate⟩
    rw [beingWritten, beingWritten, hworker]
  | counted hworker => exact h.count hworker
  | concluded hworker =>
    have hs := h.phase
    rw [Phase, hworker] at hs
    refine h.frame quiet_nil rfl rfl rfl rfl rfl (fun _ => hs.2 ▸ by decide) ?_ ⟨hs.1, .inl rfl⟩
    rw [beingWritten, beingWritten, hworker]
    rfl
  | @failed packet e hworker => exact h.fail e

theorem accounts_init : Accounts [] {} :=
  ⟨rfl, UInt64.zero_le, fun _ => rfl, rfl, rfl, ⟨rfl, .inl rfl⟩⟩

theorem Accounts.run (h : Accounts history s) (hrun : system.Run s events s') : Accounts (history ++ events) s' := by
  induction hrun with
  | refl =>
    rw [List.append_nil]
    exact h
  | snoc _ hstep ih =>
    obtain ⟨act, hact⟩ := hstep
    rw [← List.append_assoc]
    exact ih.step (stepped hact)

/-! ### After a failure -/

/-- Until the next start a failed session stays failed and accepts nothing. -/
theorem Accounts.failed_step (h : Accounts history s) (hfailed : s.status.state = .failed)
    (hstep : Stepped s events s') (hopens : ∀ e ∈ events, e.opens = false) :
    s'.status.state = .failed ∧ events.filterMap Event.accepted? = [] := by
  cases hstep with
  | registered callback => exact ⟨hfailed, rfl⟩
  | refused => exact ⟨hfailed, rfl⟩
  | threw e => exact ⟨hfailed, rfl⟩
  | started hidle streams config => exact absurd (hopens _ (List.mem_singleton_self _)) (by simp [Event.opens])
  | unstarted hidle streams config error =>
    exact absurd (hopens _ (List.mem_singleton_self _)) (by simp [Event.opens])
  | overflowed hrunning packet => exact ⟨hfailed, rfl⟩
  | accepted hrunning packet hfits => exact absurd (hrunning.symm.trans hfailed) (by decide)
  | drained =>
    rcases s.drain_cases with heq | ⟨hrunning, -⟩
    · rw [heq]
      exact ⟨hfailed, rfl⟩
    · exact absurd (hrunning.symm.trans hfailed) (by decide)
  | stopping =>
    rcases s.drain_cases with heq | ⟨hrunning, -⟩
    · rw [heq]
      exact ⟨hfailed, rfl⟩
    · exact absurd (hrunning.symm.trans hfailed) (by decide)
  | joined hworker => exact ⟨hfailed, rfl⟩
  | moved hworker hmove =>
    exact ⟨hfailed, List.filterMap_eq_nil_iff.mpr fun e he => (hmove.quiet e he).2.1⟩
  | taken hworker hqueue => exact ⟨hfailed, rfl⟩
  | emptied hworker hqueue hstate => exact ⟨hfailed, rfl⟩
  | counted hworker => exact ⟨hfailed, rfl⟩
  | concluded hworker =>
    have hs := h.phase
    rw [Phase, hworker] at hs
    exact absurd (hs.2.symm.trans hfailed) (by decide)
  | failed hworker => exact ⟨rfl, rfl⟩

theorem Accounts.failed_run (h : Accounts history s) (hfailed : s.status.state = .failed)
    (hrun : system.Run s events s') (hopens : ∀ e ∈ events, e.opens = false) :
    s'.status.state = .failed ∧ events.filterMap Event.accepted? = [] := by
  induction hrun with
  | refl => exact ⟨hfailed, rfl⟩
  | snoc hrun hstep ih =>
    obtain ⟨act, hact⟩ := hstep
    obtain ⟨hstill, hnone⟩ := ih fun e he => hopens e (List.mem_append_left _ he)
    obtain ⟨hlast, hlater⟩ :=
      (h.run hrun).failed_step hstill (stepped hact) fun e he => hopens e (List.mem_append_right _ he)
    rw [List.filterMap_append, hnone, hlater]
    exact ⟨hlast, rfl⟩

theorem Accounts.empty_of_failed (h : Accounts history s) (hfailed : s.status.state = .failed) : s.queue = [] := by
  have hs := h.phase
  rw [Phase] at hs
  split at hs
  · exact hs.1
  · exact hs.1
  · exact hs.1
  · exact hs.1
  · exact hs.1
  · rcases hs with hstate | hstate <;> exact absurd (hfailed.symm.trans hstate) (by decide)

theorem Stepped.failed_of_mem {e : Exception} (hstep : Stepped s events s') (he : .failed e ∈ events) :
    s'.status.state = .failed := by
  cases hstep with
  | failed hworker => rfl
  | moved hworker hmove =>
    cases hmove with
    | reported callback e' =>
      obtain ⟨c, -, hc⟩ := List.mem_map.mp he
      cases hc
    | opened => cases he
    | refused e' => cases he
    | wrote packet => cases he
    | broke packet e' => cases he
    | finished => cases he
    | unfinished e' => cases he
  | registered callback => cases he
  | refused => simp at he
  | threw e' => simp at he
  | started hidle streams config => simp at he
  | unstarted hidle streams config error => simp at he
  | overflowed hrunning packet => simp at he
  | accepted hrunning packet hfits => simp at he
  | drained => cases he
  | stopping => cases he
  | joined hworker => simp at he
  | taken hworker hqueue => cases he
  | emptied hworker hqueue hstate => cases he
  | counted hworker => simp at he
  | concluded hworker => cases he

theorem Stepped.opens_or (hstep : Stepped s events s') :
    (∃ created, events = [.started created]) ∨ ∀ e ∈ events, e.opens = false := by
  cases hstep with
  | started hidle streams config => exact .inl ⟨true, rfl⟩
  | unstarted hidle streams config error => exact .inl ⟨false, rfl⟩
  | moved hworker hmove => exact .inr fun e he => (hmove.quiet e he).1
  | registered callback => exact .inr fun e he => by cases he
  | refused => exact .inr fun e he => List.mem_singleton.mp he ▸ rfl
  | threw e' => exact .inr fun e he => List.mem_singleton.mp he ▸ rfl
  | overflowed hrunning packet => exact .inr fun e he => List.mem_singleton.mp he ▸ rfl
  | accepted hrunning packet hfits => exact .inr fun e he => List.mem_singleton.mp he ▸ rfl
  | drained => exact .inr fun e he => by cases he
  | stopping => exact .inr fun e he => by cases he
  | joined hworker => exact .inr fun e he => List.mem_singleton.mp he ▸ rfl
  | taken hworker hqueue => exact .inr fun e he => by cases he
  | emptied hworker hqueue hstate => exact .inr fun e he => by cases he
  | counted hworker => exact .inr fun e he => List.mem_singleton.mp he ▸ rfl
  | concluded hworker => exact .inr fun e he => by cases he
  | failed hworker => exact .inr fun e he => List.mem_singleton.mp he ▸ rfl

/-- A failure of the current session is in the state. -/
theorem failed_recorded (hrun : system.Run {} history s) {e : Exception}
    (he : .failed e ∈ Sessions.latest Event.opens history) : s.status.state = .failed := by
  induction hrun with
  | refl => cases he
  | @snoc t u before new hrun hstep ih =>
    obtain ⟨act, hact⟩ := hstep
    have hstepped := stepped hact
    rcases hstepped.opens_or with ⟨created, rfl⟩ | hopens
    · rw [Sessions.latest_opened rfl] at he
      cases he
    · rw [Sessions.latest_append hopens, List.mem_append] at he
      rcases he with he | he
      · exact ((accounts_init.run hrun).failed_step (ih he) hstepped hopens).1
      · exact hstepped.failed_of_mem he

/-- **A submission overflows** exactly when a valid packet does not fit beside the queue of a running session. -/
theorem Accounts.submit_overflows_iff (h : Accounts history s) (packet : EncodedPacket) (throws : Option Exception) :
    .overflowed packet ∈ (s.trySubmitPacket (some packet) throws).1 ↔
      s.status.state = .running ∧ s.valid packet = true ∧
        s.config.maxQueueBytes.toNat < bytesOf s.queue + packet.bytes.toNat := by
  rw [← h.overflows_iff, trySubmitPacket]
  by_cases hrunning : s.status.state = .running
  · rw [if_neg (not_not.mpr hrunning), Option.filter_some]
    cases hvalid : s.valid packet with
    | false => simp
    | true =>
      cases hfits : s.overflows packet with
      | true => simp [hrunning, hfits]
      | false => cases throws <;> simp [hfits]
  · rw [if_pos hrunning]
    simp [hrunning]

/-- **The recorder's accounting is exact**, in every run of any number of sessions: the bytes are those of the
queue and within the limit; what a session that has not failed accepted is what is written, being written and
queued; the dropped packets are the overflows; a `Stop` that returns leaves nothing unwritten; a failed session
is empty and accepts nothing until the next start; and a start forgets the session before it. -/
theorem accounting (hrun : system.Run {} history s) :
    (s.status.queueBytes.toNat = bytesOf s.queue ∧ s.status.queueBytes ≤ s.config.maxQueueBytes) ∧
    (s.status.state ≠ .failed → accepted history = written history ++ s.beingWritten ++ s.queue) ∧
    (s.status.droppedPackets = (overflowed history).length ∧
      ∀ packet throws, .overflowed packet ∈ (s.trySubmitPacket (some packet) throws).1 ↔
        s.status.state = .running ∧ s.valid packet = true ∧
          s.config.maxQueueBytes.toNat < bytesOf s.queue + packet.bytes.toNat) ∧
    (∀ events s', s.next .join = some (events, s') → s'.status.state ≠ .failed →
      s'.status.writtenPackets = (accepted (history ++ events)).length ∧ s'.queue = []) ∧
    ((∃ e, .failed e ∈ Sessions.latest Event.opens history) → s.status.state = .failed) ∧
    (s.status.state = .failed → s.queue = [] ∧ s.status.queueBytes = 0 ∧
      ∀ later s', system.Run s later s' → (∀ e ∈ later, e.opens = false) →
        s'.status.state = .failed ∧ later.filterMap Event.accepted? = []) ∧
    ∀ streams config created s' success,
      s.next (.start streams config created) = some ([.started success], s') →
        s'.queue = [] ∧ s'.beingWritten = [] ∧ s'.status.queueBytes = 0 ∧ s'.status.writtenPackets = 0 ∧
          s'.status.droppedPackets = 0 ∧ accepted (history ++ [.started success]) = [] := by
  have haccounts : Accounts history s := accounts_init.run hrun
  refine ⟨⟨haccounts.bytes, haccounts.bounded⟩, haccounts.order,
    ⟨haccounts.dropped, haccounts.submit_overflows_iff⟩, ?_, fun ⟨e, he⟩ => failed_recorded hrun he, ?_, ?_⟩
  · intro events s' hjoin hstate
    have hlater : Accounts (history ++ events) s' := haccounts.step (stepped hjoin)
    have hidle : s'.worker = none := by
      rw [next] at hjoin
      split at hjoin
      · obtain ⟨-, rfl⟩ := Prod.mk.inj (Option.some.inj hjoin)
        rfl
      · cases hjoin
    have hempty : s'.queue = [] := by
      have hs := hlater.phase
      rw [Phase, hidle] at hs
      exact hs.1
    have horder := hlater.order hstate
    rw [beingWritten, hidle, hempty, List.append_nil, List.append_nil] at horder
    rw [horder]
    exact ⟨hlater.counted, hempty⟩
  · intro hfailed
    have hempty := haccounts.empty_of_failed hfailed
    refine ⟨hempty, UInt64.toNat_inj.mp ?_, fun later s' hlater hopens => haccounts.failed_run hfailed hlater hopens⟩
    rw [haccounts.bytes, hempty]
    rfl
  · intro streams config created s' success hstart
    have hlater : Accounts (history ++ [.started success]) s' := haccounts.step (stepped hstart)
    obtain ⟨hnone, hwrote, hoverflowed⟩ := opened_nil history success
    have hstepped := stepped hstart
    have hfresh : s'.queue = [] ∧ s'.beingWritten = [] := by
      have hs := haccounts.phase
      cases hstepped with
      | started hidle streams config =>
        rw [Phase, hidle] at hs
        exact ⟨hs.1, rfl⟩
      | unstarted hidle streams config error =>
        rw [Phase, hidle] at hs
        refine ⟨hs.1, ?_⟩
        rw [beingWritten, hidle]
      | moved hworker hmove =>
        have hquiet := hmove.quiet _ (List.mem_singleton_self _)
        cases hquiet.1
    refine ⟨hfresh.1, hfresh.2, UInt64.toNat_inj.mp ?_, ?_, ?_, hnone⟩
    · rw [hlater.bytes, hfresh.1]
      rfl
    · rw [hlater.counted, hwrote]
      rfl
    · rw [hlater.dropped, hoverflowed]
      rfl

/-- An audio track and a packet of it. -/
def aacTrack : StreamInfo := ⟨1, some ⟨.audio, avCodecIdAac, 0, false⟩, ⟨1, 48000⟩⟩

def aacPacket (pts : ℤ) : EncodedPacket := ⟨1, pts, pts, 96, true, [], 0⟩

/-- A limit of three such packets, and a fourth. -/
def overfull : List Act :=
  .start [aacTrack] { path := "a.mp4", maxQueueBytes := 600 } true ::
    [0, 1024, 2048, 3072].map fun pts => .submit (some (aacPacket pts)) none

theorem accounting_overfull : ∃ history s, Transition.execute next {} overfull = some (history, s) ∧
    s.status.queueBytes = 600 ∧ s.status.droppedPackets = 1 ∧
      accepted history = [aacPacket 0, aacPacket 1024, aacPacket 2048] ∧
      s.status.droppedPackets = (overflowed history).length := by
  have hperform : ∃ history s, Transition.execute next {} overfull = some (history, s) ∧ s.status.queueBytes = 600 ∧
      s.status.droppedPackets = 1 ∧ accepted history = [aacPacket 0, aacPacket 1024, aacPacket 2048] :=
    ⟨_, _, rfl, by decide, by decide, by decide⟩
  obtain ⟨history, s, hacts, hbytes, hdropped, haccepted⟩ := hperform
  have hrun : system.Run {} history s := Transition.execute_run (T := system) (fun _ act _ _ h => ⟨act, h⟩) hacts
  exact ⟨history, s, hacts, hbytes, hdropped, haccepted, (accounting hrun).2.2.1.1⟩

end Recorder

end MwStreamer
