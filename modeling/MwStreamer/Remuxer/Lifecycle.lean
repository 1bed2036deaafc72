import MwStreamer.Remuxer.CommonShift
import MwStreamer.Remuxer.Remuxer

/-!
# The life of a remux session

A session accepts packets until it drains; then one more `Process` empties the handoff queue and the
interleaver, closes the session and posts `Finish`, and that posts the last task.  The invariant says for every
state what the poller still has to do.  It follows that a packet in the handoff queue always has a `Process`
coming, that `Finish` is posted once, and that a waiting `Stop` is released after a bounded number of steps of
the poller.
-/

namespace MwStreamer

namespace Remuxer

/-! ### What the steps do -/

theorem schedule_cases (s : Remuxer) :
    ((s.scheduled = true ∨ s.closing = true) ∧ s.schedule = s) ∨
      (s.scheduled = false ∧ s.closing = false ∧
        s.schedule = { s with scheduled := true, tasks := s.tasks ++ [.process] }) := by
  rw [schedule]
  by_cases h : (s.scheduled || s.closing) = true
  · rw [if_pos h]
    rw [Bool.or_eq_true] at h
    exact .inl ⟨h, rfl⟩
  · rw [if_neg h]
    rw [Bool.or_eq_true, not_or, Bool.not_eq_true, Bool.not_eq_true] at h
    exact .inr ⟨h.1, h.2, rfl⟩

/-- The queue of the session, closed. -/
def closedQueues (s : Remuxer) : ℕ → BlockingQueue Packet :=
  Function.update s.queues s.session { s.queues s.session with closed := true }

theorem closePackets_eq {s : Remuxer} (h : s.packets = some s.session) :
    s.closePackets = { s with queues := s.closedQueues } := by
  rw [closePackets, h]
  rfl

/-- `Process` is posted unless it is already there or the session closes. -/
theorem beginDraining_cases {s : Remuxer} (h : s.packets = some s.session) :
    ((s.scheduled = true ∨ s.closing = true) ∧
      s.beginDraining = { s with accepting := false, draining := true, queues := s.closedQueues }) ∨
    (s.scheduled = false ∧ s.closing = false ∧
      s.beginDraining = { s with accepting := false, draining := true, queues := s.closedQueues,
                                 scheduled := true, tasks := s.tasks ++ [.process] }) := by
  have hclose : closePackets { s with accepting := false }
      = { s with accepting := false, queues := s.closedQueues } :=
    closePackets_eq (s := { s with accepting := false }) h
  rw [beginDraining, hclose]
  exact schedule_cases { s with accepting := false, draining := true, queues := s.closedQueues }

/-- **What `Drain` does**: nothing, or it begins to drain. -/
theorem drain_cases (s : Remuxer) :
    ((s.running = false ∨ s.closing = true) ∧ s.drain = s) ∨
      (s.running = true ∧ s.closing = false ∧ s.drain = s.beginDraining) := by
  rw [drain]
  cases hrunning : s.running with
  | false => exact .inl ⟨.inl rfl, rfl⟩
  | true =>
    cases hclosing : s.closing with
    | true => exact .inl ⟨.inr rfl, rfl⟩
    | false => exact .inr ⟨rfl, rfl, rfl⟩

/-- **What `Error` does**: nothing, or it reports the error of the session and begins to drain. -/
theorem error_cases (s : Remuxer) :
    ((s.running = false ∨ s.errorReported = true) ∧ s.error = ([], s)) ∨
      (s.running = true ∧ s.errorReported = false ∧
        s.error = ([.errored s.session], ({ s with errorReported := true } : Remuxer).beginDraining)) := by
  rw [error]
  cases hrunning : s.running with
  | false => exact .inl ⟨.inl rfl, rfl⟩
  | true =>
    cases hreported : s.errorReported with
    | true => exact .inl ⟨.inr rfl, rfl⟩
    | false => exact .inr ⟨rfl, rfl, rfl⟩

/-- What `Drain` and `Error` leave alone. -/
structure Drains (s s' : Remuxer) : Prop where
  running : s'.running = s.running
  session : s'.session = s.session
  packets : s'.packets = s.packets
  media : s'.media = s.media
  closing : s'.closing = s.closing
  poller : s'.poller = s.poller
  producers : s'.producers = s.producers
  control : s'.control = s.control
  tasks : s.closing = true → s'.tasks = s.tasks
  queues : ∀ k, s'.queues k = s.queues k ∨ s'.queues k = { s.queues k with closed := true }

theorem Drains.refl (s : Remuxer) : Drains s s :=
  ⟨rfl, rfl, rfl, rfl, rfl, rfl, rfl, rfl, fun _ => rfl, fun _ => .inl rfl⟩

theorem closedQueues_cases (s : Remuxer) (k : ℕ) :
    s.closedQueues k = s.queues k ∨ s.closedQueues k = { s.queues k with closed := true } := by
  by_cases hk : k = s.session
  · subst hk
    exact .inr (Function.update_self ..)
  · exact .inl (Function.update_of_ne hk ..)

theorem beginDraining_drains {s : Remuxer} (h : s.packets = some s.session) (reported : Bool) :
    Drains s ({ s with errorReported := reported } : Remuxer).beginDraining := by
  rcases beginDraining_cases (s := { s with errorReported := reported }) h with ⟨-, heq⟩ | ⟨-, hclosing, heq⟩
  · rw [heq]
    exact ⟨rfl, rfl, rfl, rfl, rfl, rfl, rfl, rfl, fun _ => rfl, s.closedQueues_cases⟩
  · rw [heq]
    refine ⟨rfl, rfl, rfl, rfl, rfl, rfl, rfl, rfl, fun hon => ?_, s.closedQueues_cases⟩
    have hoff : s.closing = false := hclosing
    rw [hoff] at hon
    cases hon

/-- A pop that does not wait takes the head, if there is one. -/
theorem popImpl_take (queue : BlockingQueue Packet) :
    taken (queue.popImpl [] false).1 = queue.queue.head? ∧
      (queue.popImpl [] false).2 = { queue with queue := queue.queue.tail } := by
  obtain ⟨capacity, items, readSignal, writeSignal, closed⟩ := queue
  cases items with
  | nil => cases closed <;> exact ⟨rfl, rfl⟩
  | cons packet rest => exact ⟨rfl, rfl⟩

/-- **The call of `Push`** on a queue of one place. -/
theorem push_cases {s s' : Remuxer} {i k : ℕ} {packet : Packet} {throws : Bool} {events : List Event}
    (hcapacity : (s.queues k).capacity = 1) (h : s.push i packet k throws = some (events, s')) :
    (events = [] ∧ s' = { s with producers := Function.update s.producers i .idle }) ∨
    ((s.queues k).closed = false ∧ (s.queues k).queue = [] ∧ events = [.accepted k packet] ∧
      s' = { s with queues := Function.update s.queues k { s.queues k with queue := [packet] }
                    producers := Function.update s.producers i (.pushed packet k) }) := by
  rw [push, BlockingQueue.pushImpl] at h
  by_cases hready : ((s.queues k).closed || decide ((s.queues k).queue.length < (s.queues k).capacity)) = true
  · rw [if_neg (by rw [hready]; exact Bool.false_ne_true)] at h
    by_cases hclosed : (s.queues k).closed = true
    · rw [if_pos hclosed] at h
      obtain ⟨rfl, rfl⟩ := Prod.mk.inj (Option.some.inj h)
      exact .inl ⟨rfl, rfl⟩
    · rw [if_neg hclosed] at h
      rw [Bool.or_eq_true, decide_eq_true_iff, hcapacity] at hready
      have hempty : (s.queues k).queue = [] :=
        List.length_eq_zero_iff.mp (Nat.lt_one_iff.mp (hready.resolve_left hclosed))
      cases throws with
      | true =>
        obtain ⟨rfl, rfl⟩ := Prod.mk.inj (Option.some.inj h)
        exact .inl ⟨rfl, rfl⟩
      | false =>
        rw [hempty] at h
        obtain ⟨rfl, rfl⟩ := Prod.mk.inj (Option.some.inj h)
        exact .inr ⟨by simpa using hclosed, hempty, rfl, rfl⟩
  · rw [if_pos (by simpa using hready)] at h
    cases h

section

variable [Libav]

/-- **`Process` under the lock** of an open session. -/
theorem processLocked_cases {s s' : Remuxer} {events : List Event} {media : MediaSession}
    (hrunning : s.running = true) (hclosing : s.closing = false) (hpackets : s.packets = some s.session)
    (hmedia : s.media = some media) (h : s.processLocked = some (events, s')) :
    ∃ new answer next,
      media.collect (s.queues s.session).queue.head? s.draining = (new, answer, next) ∧
      events = new.map (.media s.session) ∧
      ((∃ e, answer = .error e) ∧
        s' = { s with queues := Function.update s.queues s.session
                        { s.queues s.session with queue := (s.queues s.session).queue.tail }
                      media := some (next.close answer false), poller := .failed } ∨
      answer = .ok () ∧
        s' = { s with queues := Function.update s.queues s.session
                        { s.queues s.session with queue := (s.queues s.session).queue.tail }
                      media := some next, scheduled := false, poller := .emitting }) := by
  have hgo : (!s.running || s.closing) = false := by rw [hrunning, hclosing]; rfl
  obtain ⟨htake, hrest⟩ := popImpl_take (s.queues s.session)
  rw [processLocked, hgo, if_neg Bool.false_ne_true, hpackets, hmedia] at h
  dsimp only at h
  rw [htake, hrest] at h
  cases hcollect : media.collect (s.queues s.session).queue.head? s.draining with
  | mk new rest =>
    obtain ⟨answer, next⟩ := rest
    rw [hcollect] at h
    refine ⟨new, answer, next, rfl, ?_⟩
    cases answer with
    | error e =>
      obtain ⟨rfl, rfl⟩ := Prod.mk.inj (Option.some.inj h)
      refine ⟨rfl, .inl ⟨⟨e, rfl⟩, ?_⟩⟩
      rw [hpackets]
    | ok u =>
      obtain ⟨rfl, rfl⟩ := Prod.mk.inj (Option.some.inj h)
      refine ⟨rfl, .inr ⟨rfl, ?_⟩⟩
      simp only [MediaSession.close, Bool.or_false, hpackets]

/-- **`Process` after the lock.** -/
theorem processEmit_cases {s s' : Remuxer} {events : List Event} {media : MediaSession}
    {outlets : Outlets} (hmedia : s.media = some media)
    (h : s.processEmit outlets = some (events, s')) :
    ∃ batch new answer next, media.batch = some batch ∧
      media.emit batch outlets = (new, answer, next) ∧ events = new.map (.media s.session) ∧
      s' = { s with media := some (next.close answer batch.finish)
                    poller := match answer with
                      | .error _ => .failed
                      | .ok () => if batch.finish then .closing else .idle } := by
  rw [processEmit, hmedia] at h
  dsimp only at h
  cases hbatch : media.batch with
  | none =>
    rw [hbatch] at h
    cases h
  | some batch =>
    rw [hbatch] at h
    dsimp only at h
    obtain ⟨rfl, rfl⟩ := Prod.mk.inj (Option.some.inj h)
    exact ⟨batch, _, _, _, rfl, rfl, rfl, rfl⟩

theorem popBatch_ok {media next : MediaSession} {draining : Bool} {new : List MediaEvent}
    (h : media.popBatch draining = (new, .ok (), next)) :
    ∃ packets firstPackets interleaver, media.interleaver.popReady draining = (.ok packets, interleaver) ∧
      new = packets.map .popped ∧
      next = { media with interleaver := interleaver, batch := some ⟨packets, firstPackets, draining⟩ } := by
  rw [MediaSession.popBatch] at h
  cases hready : media.interleaver.popReady draining with
  | mk result interleaver =>
    cases result with
    | error e => simp only [hready, Prod.mk.injEq, reduceCtorEq, false_and, and_false] at h
    | ok packets =>
      simp only [hready, Prod.mk.injEq, true_and] at h
      exact ⟨packets, _, interleaver, rfl, h.1.symm, h.2.symm⟩

theorem popBatch_error {media next : MediaSession} {draining : Bool} {new : List MediaEvent} {e : Exception}
    (h : media.popBatch draining = (new, .error e, next)) : new = [] ∧ next = media := by
  rw [MediaSession.popBatch] at h
  cases hready : media.interleaver.popReady draining with
  | mk result interleaver =>
    cases result with
    | error e =>
      simp only [hready, Prod.mk.injEq] at h
      obtain ⟨rfl, -, rfl⟩ := h
      rw [PacketInterleaver.popReady_error hready]
      exact ⟨rfl, rfl⟩
    | ok packets => simp only [hready, Prod.mk.injEq, reduceCtorEq, false_and, and_false] at h

/-- **A collection that succeeds** pushes the packet, if there is one, and pops a batch. -/
theorem collect_ok {media next : MediaSession} {packet : Option Packet} {draining : Bool}
    {new : List MediaEvent} (h : media.collect packet draining = (new, .ok (), next)) :
    ∃ pushed packets firstPackets interleaver,
      (packet = none ∧ pushed = media.interleaver ∨
        ∃ p, packet = some p ∧ media.interleaver.push (some p) = (.ok (), pushed)) ∧
      pushed.popReady draining = (.ok packets, interleaver) ∧
      new = packet.toList.map .interleaved ++ packets.map .popped ∧
      next = { media with interleaver := interleaver, batch := some ⟨packets, firstPackets, draining⟩ } := by
  cases packet with
  | none =>
    obtain ⟨packets, first, interleaver, hready, rfl, rfl⟩ := popBatch_ok h
    exact ⟨_, packets, first, interleaver, .inl ⟨rfl, rfl⟩, hready, rfl, rfl⟩
  | some packet =>
    rw [MediaSession.collect] at h
    cases hpush : media.interleaver.push (some packet) with
    | mk result pushed =>
      cases result with
      | error e => simp only [hpush, Prod.mk.injEq, reduceCtorEq, false_and, and_false] at h
      | ok u =>
        simp only [hpush] at h
        cases hbatch : MediaSession.popBatch { media with interleaver := pushed } draining with
        | mk popped rest =>
          obtain ⟨result, last⟩ := rest
          simp only [hbatch, Prod.mk.injEq] at h
          obtain ⟨rfl, rfl, rfl⟩ := h
          obtain ⟨packets, first, interleaver, hready, rfl, rfl⟩ := popBatch_ok hbatch
          exact ⟨pushed, packets, first, interleaver, .inr ⟨packet, rfl, hpush⟩, hready, rfl, rfl⟩

/-- **A collection that fails** has pushed the packet or nothing. -/
theorem collect_error {media next : MediaSession} {packet : Option Packet} {draining : Bool}
    {new : List MediaEvent} {e : Exception} (h : media.collect packet draining = (new, .error e, next)) :
    new = [] ∧ next = media ∨
      ∃ p pushed, packet = some p ∧ media.interleaver.push (some p) = (.ok (), pushed) ∧
        new = [.interleaved p] ∧ next = { media with interleaver := pushed } := by
  cases packet with
  | none => exact .inl (popBatch_error h)
  | some packet =>
    rw [MediaSession.collect] at h
    cases hpush : media.interleaver.push (some packet) with
    | mk result pushed =>
      cases result with
      | error e =>
        simp only [hpush, Prod.mk.injEq] at h
        obtain ⟨rfl, -, rfl⟩ := h
        rw [PacketInterleaver.push_error hpush]
        exact .inl ⟨rfl, rfl⟩
      | ok u =>
        simp only [hpush] at h
        cases hbatch : MediaSession.popBatch { media with interleaver := pushed } draining with
        | mk popped rest =>
          obtain ⟨result, last⟩ := rest
          simp only [hbatch, Prod.mk.injEq] at h
          obtain ⟨rfl, rfl, rfl⟩ := h
          obtain ⟨rfl, rfl⟩ := popBatch_error hbatch
          exact .inr ⟨packet, pushed, rfl, hpush, rfl, rfl⟩

theorem emit_batch {media next : MediaSession} {batch : Batch}
    {outlets : Outlets} {new : List MediaEvent}
    {answer : Except Exception Unit} (h : media.emit batch outlets = (new, answer, next)) :
    next.batch = none ∧ next.closing = media.closing := by
  rw [MediaSession.emit] at h
  cases hsettle : MediaSession.settle media.timestamps batch with
  | mk first result =>
    cases result with
    | error e =>
      simp only [hsettle, Prod.mk.injEq] at h
      rw [← h.2.2]
      exact ⟨rfl, rfl⟩
    | ok timestamps =>
      simp only [hsettle, Prod.mk.injEq] at h
      rw [← h.2.2]
      exact ⟨rfl, rfl⟩

end

/-! ### The invariant -/

/-- What the poller still has to do for a session that is not closing. -/
structure Open (s : Remuxer) : Prop where
  tasks : s.tasks = [] ∨ s.tasks = [.process] ∧ s.scheduled = true
  poller : s.poller = .idle ∨ s.poller = .emitting ∨ s.poller = .failed ∨ s.poller = .closing
  /-- `scheduled_` means that a `Process` is posted, or that one has failed and is about to close. -/
  scheduled : s.scheduled = true → s.tasks = [.process] ∨ s.poller = .failed ∨ s.poller = .closing
  lastProcess : s.draining = true → s.scheduled = true ∨ s.poller = .failed ∨ s.poller = .closing ∨
    s.poller = .emitting ∧ ∃ media batch, s.media = some media ∧ media.batch = some batch ∧ batch.finish = true
  handoff : (s.queues s.session).queue ≠ [] → s.scheduled = true ∨
    ∃ i packet, s.producers i = .pushed packet s.session
  media : ∀ media, s.media = some media → s.poller = .idle → media.closing = false

/-- What the poller still has to do for a session that closes. -/
inductive Closing (s : Remuxer) : Prop where
  | flushing (hpoller : s.poller = .flushing) (htasks : s.tasks = [] ∨ s.tasks = [.process])
  | posted (hpoller : s.poller = .idle)
      (htasks : s.tasks = [.process, .finish] ∨ s.tasks = [.finish] ∨ s.tasks = [.complete])

/-- A session, from `Start` to its last task. -/
structure Live (s : Remuxer) : Prop where
  packets : s.packets = some s.session
  media : ∃ media, s.media = some media
  open_ : s.closing = false → Open s
  closing : s.closing = true → Closing s ∧ s.draining = true
  accepting : s.accepting = !(s.queues s.session).closed
  draining : s.draining = !s.accepting
  reported : s.errorReported = true → s.draining = true
  ending : s.poller = .closing → s.draining = true
  batch : ∀ media, s.media = some media →
    (s.poller = .emitting → media.closing = false ∧ ∃ batch, media.batch = some batch ∧
      (batch.finish = true → s.draining = true)) ∧ (s.poller ≠ .emitting → media.batch = none)

/-- Between sessions. -/
structure Stopped (s : Remuxer) : Prop where
  tasks : s.tasks = []
  poller : s.poller = .idle ∨ s.poller = .notifying
  packets : s.packets = none
  accepting : s.accepting = false
  scheduled : s.scheduled = false

/-- The session of a producer's queue: the present one, or one whose queue is closed. -/
def Holds (s : Remuxer) (k : ℕ) : Prop :=
  k ≤ s.session ∧ (s.running = true ∧ k = s.session ∨ (s.queues k).closed = true)

/-- **The invariant of the threads.** -/
structure Coherent (s : Remuxer) : Prop where
  live : s.running = true → Live s
  stopped : s.running = false → Stopped s
  capacity : ∀ k, (s.queues k).capacity = 1 ∧ (s.queues k).queue.length ≤ 1
  captured : ∀ i packet k, s.producers i = .captured packet k → Holds s k
  pushed : ∀ i packet k, s.producers i = .pushed packet k → Holds s k
  stopping : s.control = .checking ∨ s.control = .asleep → s.running = true → s.draining = true
  asleep : s.control = .asleep → s.running = true ∨ s.poller = .notifying
  starting : s.control = .starting → s.running = false

variable {s s' : Remuxer} {events : List Event}

theorem coherent_init : Coherent {} where
  live h := by cases h
  stopped _ := ⟨rfl, .inl rfl, rfl, rfl, rfl⟩
  capacity _ := ⟨rfl, Nat.zero_le 1⟩
  captured _ _ _ h := by cases h
  pushed _ _ _ h := by cases h
  stopping h := by rcases h with h | h <;> cases h
  asleep h := by cases h
  starting h := by cases h

/-- A session whose `Process` is under way is not closing. -/
theorem Live.notClosing (h : Live s) (hidle : s.poller ≠ .idle) (hflushing : s.poller ≠ .flushing) :
    s.closing = false := by
  by_contra hno
  rw [Bool.not_eq_false] at hno
  cases (h.closing hno).1 with
  | flushing hpoller _ => exact hflushing hpoller
  | posted hpoller _ => exact hidle hpoller

/-- A poller that has posted `Finish` or is about to has closed the session. -/
theorem Live.flushing (h : Live s) (hpoller : s.poller = .flushing) :
    s.closing = true ∧ (s.tasks = [] ∨ s.tasks = [.process]) := by
  have hclosing : s.closing = true := by
    by_contra hno
    rw [Bool.not_eq_true] at hno
    rcases (h.open_ hno).poller with hp | hp | hp | hp
    all_goals
      rw [hpoller] at hp
      cases hp
  refine ⟨hclosing, ?_⟩
  cases (h.closing hclosing).1 with
  | flushing _ htasks => exact htasks
  | posted hno _ =>
    rw [hpoller] at hno
    cases hno

theorem Live.not_notifying (h : Live s) : s.poller ≠ .notifying := by
  intro hpoller
  have hclosing : s.closing = false := by
    apply h.notClosing
    · rw [hpoller]
      exact fun hno => by cases hno
    · rw [hpoller]
      exact fun hno => by cases hno
  rcases (h.open_ hclosing).poller with hp | hp | hp | hp
  all_goals
    rw [hpoller] at hp
    cases hp

/-- No more packets: the queue is closed and a last `Process` is on its way. -/
theorem Live.beginDraining (h : Live s) (reported : Bool) :
    Live ({ s with errorReported := reported } : Remuxer).beginDraining ∧
      ({ s with errorReported := reported } : Remuxer).beginDraining.draining = true := by
  have hqueue : s.closedQueues s.session = { s.queues s.session with closed := true } :=
    Function.update_self ..
  rcases beginDraining_cases (s := { s with errorReported := reported }) h.packets with
    ⟨hoff, heq⟩ | ⟨hscheduled, hclosing, heq⟩
  · rw [heq]
    refine ⟨{ h with
      open_ := fun hclosing => ?_
      closing := fun hclosing => ⟨?_, rfl⟩
      accepting := ?_
      draining := rfl
      reported := fun _ => rfl
      ending := fun _ => rfl
      batch := fun media hmedia => ⟨fun hpoller => ?_, ((h.batch media hmedia).2)⟩ }, rfl⟩
    · have hopen := h.open_ hclosing
      have hscheduled : s.scheduled = true := by
        rcases hoff with hoff | hoff
        · exact hoff
        · rw [hclosing] at hoff
          cases hoff
      exact { hopen with
        lastProcess := fun _ => .inl hscheduled
        handoff := fun _ => .inl hscheduled }
    · cases (h.closing hclosing).1 with
      | flushing hpoller htasks => exact .flushing hpoller htasks
      | posted hpoller htasks => exact .posted hpoller htasks
    · show false = !(s.closedQueues s.session).closed
      rw [hqueue]
      rfl
    · obtain ⟨hfree, batch, hbatch, -⟩ := (h.batch media hmedia).1 hpoller
      exact ⟨hfree, batch, hbatch, fun _ => rfl⟩
  · rw [heq]
    have hopen := h.open_ hclosing
    have htasks : s.tasks = [] := by
      rcases hopen.tasks with htasks | ⟨-, hon⟩
      · exact htasks
      · have hoff : s.scheduled = false := hscheduled
        rw [hoff] at hon
        cases hon
    have hone : s.tasks ++ [Task.process] = [.process] := by
      rw [htasks]
      rfl
    refine ⟨{ h with
      open_ := fun _ => { hopen with
        tasks := .inr ⟨hone, rfl⟩
        scheduled := fun _ => .inl hone
        lastProcess := fun _ => .inl rfl
        handoff := fun _ => .inl rfl }
      closing := fun hclosed => ?_
      accepting := ?_
      draining := rfl
      reported := fun _ => rfl
      ending := fun _ => rfl
      batch := fun media hmedia => ⟨fun hpoller => ?_, ((h.batch media hmedia).2)⟩ }, rfl⟩
    · have hoff : s.closing = false := hclosing
      have hon : s.closing = true := hclosed
      rw [hoff] at hon
      cases hon
    · show false = !(s.closedQueues s.session).closed
      rw [hqueue]
      rfl
    · obtain ⟨hfree, batch, hbatch, -⟩ := (h.batch media hmedia).1 hpoller
      exact ⟨hfree, batch, hbatch, fun _ => rfl⟩

theorem Coherent.drains (h : Coherent s) (hd : Drains s s') (hlive : s'.running = true → Live s')
    (hstopped : s'.running = false → Stopped s')
    (hdraining : s.draining = true → s'.running = true → s'.draining = true) : Coherent s' := by
  have hcapacity : ∀ k, (s'.queues k).capacity = (s.queues k).capacity ∧
      (s'.queues k).queue = (s.queues k).queue ∧ ((s.queues k).closed = true → (s'.queues k).closed = true) := by
    intro k
    rcases hd.queues k with hk | hk
    · rw [hk]
      exact ⟨rfl, rfl, id⟩
    · rw [hk]
      exact ⟨rfl, rfl, fun _ => rfl⟩
  have hholds : ∀ k, Holds s k → Holds s' k := by
    rintro k ⟨hle, hk⟩
    refine ⟨by rw [hd.session]; exact hle, ?_⟩
    rw [hd.running, hd.session]
    exact hk.imp_right (hcapacity k).2.2
  refine ⟨hlive, hstopped, fun k => ?_, fun i packet k hi => ?_, fun i packet k hi => ?_, fun hc hr => ?_,
    fun hc => ?_, fun hc => ?_⟩
  · rw [(hcapacity k).1, (hcapacity k).2.1]
    exact h.capacity k
  · rw [hd.producers] at hi
    exact hholds k (h.captured i packet k hi)
  · rw [hd.producers] at hi
    exact hholds k (h.pushed i packet k hi)
  · rw [hd.control] at hc
    refine hdraining (h.stopping hc ?_) hr
    rw [← hd.running]
    exact hr
  · rw [hd.control] at hc
    rw [hd.running, hd.poller]
    exact h.asleep hc
  · rw [hd.control] at hc
    rw [hd.running]
    exact h.starting hc

theorem Coherent.beginDraining (h : Coherent s) (hrunning : s.running = true) (reported : Bool) :
    Coherent ({ s with errorReported := reported } : Remuxer).beginDraining := by
  obtain ⟨hlive, hdraining⟩ := (h.live hrunning).beginDraining reported
  have hd := beginDraining_drains (h.live hrunning).packets reported
  refine h.drains hd (fun _ => hlive) (fun hstopped => ?_) fun _ _ => hdraining
  rw [hd.running, hrunning] at hstopped
  cases hstopped

theorem Coherent.drain (h : Coherent s) :
    Coherent s.drain ∧ Drains s s.drain ∧ (s.drain.running = true → s.drain.draining = true) := by
  rcases s.drain_cases with ⟨hoff, heq⟩ | ⟨hrunning, hclosing, heq⟩
  · rw [heq]
    refine ⟨h, .refl s, fun hrunning => ?_⟩
    rcases hoff with hoff | hclosing
    · rw [hrunning] at hoff
      cases hoff
    · exact ((h.live hrunning).closing hclosing).2
  · rw [heq]
    have hlive := h.live hrunning
    exact ⟨h.beginDraining hrunning s.errorReported, beginDraining_drains hlive.packets s.errorReported,
      fun _ => (hlive.beginDraining s.errorReported).2⟩

theorem Coherent.error (h : Coherent s) : Coherent s.error.2 ∧ Drains s s.error.2 ∧
    (s.error.2.running = true → s.error.2.draining = true) := by
  rcases s.error_cases with ⟨hoff, heq⟩ | ⟨hrunning, hreported, heq⟩
  · rw [heq]
    refine ⟨h, .refl s, fun hrunning => ?_⟩
    rcases hoff with hoff | hreported
    · have hon : s.running = true := hrunning
      rw [hon] at hoff
      cases hoff
    · exact (h.live hrunning).reported hreported
  · rw [heq]
    have hlive := h.live hrunning
    exact ⟨h.beginDraining hrunning true, beginDraining_drains hlive.packets true,
      fun _ => (hlive.beginDraining true).2⟩

/-! ### The steps keep the invariant -/

/-- A step that changes producers only. -/
theorem Coherent.setProducers (h : Coherent s) {producers : ℕ → Producer}
    (hcaptured : ∀ i packet k, producers i = .captured packet k → Holds s k)
    (hpushed : ∀ i packet k, producers i = .pushed packet k → Holds s k)
    (hhandoff : s.running = true → s.closing = false → (s.queues s.session).queue ≠ [] →
      s.scheduled = true ∨ ∃ i packet, producers i = .pushed packet s.session) :
    Coherent { s with producers := producers } := by
  refine { h with live := fun hrunning => ?_, captured := hcaptured, pushed := hpushed, stopped := fun hs => ?_ }
  · have hlive := h.live hrunning
    exact { hlive with
      open_ := fun hclosing => { hlive.open_ hclosing with handoff := hhandoff hrunning hclosing }
      closing := fun hclosing => by
        obtain ⟨hcl, hd⟩ := hlive.closing hclosing
        cases hcl with
        | flushing hpoller htasks => exact ⟨.flushing hpoller htasks, hd⟩
        | posted hpoller htasks => exact ⟨.posted hpoller htasks, hd⟩ }
  · exact { h.stopped hs with }

/-- A step of the lifecycle caller. -/
theorem Coherent.setControl (h : Coherent s) {control : Control}
    (hstopping : control = .checking ∨ control = .asleep → s.running = true → s.draining = true)
    (hasleep : control = .asleep → s.running = true ∨ s.poller = .notifying)
    (hstarting : control = .starting → s.running = false) : Coherent { s with control := control } := by
  refine { h with
    live := fun hrunning => ?_
    stopped := fun hs => { h.stopped hs with }
    stopping := hstopping
    asleep := hasleep
    starting := hstarting }
  have hlive := h.live hrunning
  exact { hlive with
    open_ := fun hclosing => { hlive.open_ hclosing with }
    closing := fun hclosing => by
      obtain ⟨hcl, hd⟩ := hlive.closing hclosing
      cases hcl with
      | flushing hpoller htasks => exact ⟨.flushing hpoller htasks, hd⟩
      | posted hpoller htasks => exact ⟨.posted hpoller htasks, hd⟩ }

theorem Coherent.setFree (h : Coherent s) : Coherent { s with control := .free } :=
  h.setControl (fun hno => by rcases hno with hno | hno <;> cases hno) (fun hno => by cases hno)
    fun hno => by cases hno

/-- A protocol output was added to a session that accepts packets. -/
theorem Coherent.addPrepared (h : Coherent s) (haccepting : s.accepting = true) :
    Coherent { s with media := s.media.map fun media => { media with recordOnly := false } } := by
  refine { h with live := fun hrunning => ?_, stopped := fun hs => { h.stopped hs with } }
  have hlive := h.live hrunning
  obtain ⟨media, hmedia⟩ := hlive.media
  have hinv : ∀ m, (s.media.map fun media => { media with recordOnly := false }) = some m →
      m.closing = media.closing ∧ m.batch = media.batch := by
    intro m hm
    rw [hmedia] at hm
    rw [← Option.some.inj hm]
    exact ⟨rfl, rfl⟩
  exact { hlive with
    media := ⟨{ media with recordOnly := false }, by dsimp only; rw [hmedia]; rfl⟩
    open_ := fun hclosing => { hlive.open_ hclosing with
      lastProcess := fun hd => by
        have hno : s.draining = true := hd
        have ha := hlive.draining
        rw [hno, haccepting] at ha
        cases ha
      media := fun m hm hp => by
        rw [(hinv m hm).1]
        exact (hlive.open_ hclosing).media media hmedia hp }
    closing := fun hclosing => by
      obtain ⟨hcl, hd⟩ := hlive.closing hclosing
      cases hcl with
      | flushing hpoller htasks => exact ⟨.flushing hpoller htasks, hd⟩
      | posted hpoller htasks => exact ⟨.posted hpoller htasks, hd⟩
    batch := fun m hm => by
      rw [(hinv m hm).1, (hinv m hm).2]
      exact hlive.batch media hmedia }

theorem Coherent.submit [Libav] (h : Coherent s) {i : ℕ} (hi : s.producers i = .idle) (packet : Packet) :
    Coherent { s with producers := Function.update s.producers i (s.submit packet) } := by
  have hsubmit : s.submit packet = .idle ∨
      s.submit packet = .captured packet s.session ∧ s.running = true := by
    rw [Remuxer.submit]
    cases haccepting : s.accepting with
    | false => exact .inl rfl
    | true =>
      have hrunning : s.running = true := by
        by_contra hnot
        rw [Bool.not_eq_true] at hnot
        rw [(h.stopped hnot).accepting] at haccepting
        cases haccepting
      have hlive := h.live hrunning
      obtain ⟨media, hmedia⟩ := hlive.media
      rw [hmedia, hlive.packets]
      dsimp only
      cases media.interleaver.validation.validate (some packet) with
      | error e => exact .inl rfl
      | ok p => exact .inr ⟨rfl, hrunning⟩
  have hcases : ∀ j, Function.update s.producers i (s.submit packet) j = s.producers j ∨
      Function.update s.producers i (s.submit packet) j = s.submit packet := by
    intro j
    by_cases hj : j = i
    · subst hj
      exact .inr (Function.update_self ..)
    · exact .inl (Function.update_of_ne hj ..)
  apply h.setProducers
  · intro j p k hj
    rcases hcases j with hold | hnew
    · rw [hold] at hj
      exact h.captured j p k hj
    · rw [hnew] at hj
      rcases hsubmit with hidle | ⟨hcaptured, hrunning⟩
      · rw [hidle] at hj
        cases hj
      · rw [hcaptured] at hj
        obtain ⟨rfl, rfl⟩ := Producer.captured.inj hj
        exact ⟨le_refl _, .inl ⟨hrunning, rfl⟩⟩
  · intro j p k hj
    rcases hcases j with hold | hnew
    · rw [hold] at hj
      exact h.pushed j p k hj
    · rw [hnew] at hj
      rcases hsubmit with hidle | ⟨hcaptured, -⟩
      · rw [hidle] at hj
        cases hj
      · rw [hcaptured] at hj
        cases hj
  · intro hrunning hclosing hslot
    rcases ((h.live hrunning).open_ hclosing).handoff hslot with hon | ⟨j, p, hj⟩
    · exact .inl hon
    · refine .inr ⟨j, p, ?_⟩
      have hne : j ≠ i := by
        rintro rfl
        rw [hi] at hj
        cases hj
      rw [Function.update_of_ne hne]
      exact hj

/-- A producer that has nothing more to do. -/
theorem Coherent.release (h : Coherent s) {i : ℕ}
    (hi : ∀ packet, s.producers i = .pushed packet s.session → s.running = true → s.closing = false →
      s.scheduled = true) :
    Coherent { s with producers := Function.update s.producers i .idle } := by
  have hold : ∀ j, Function.update s.producers i Producer.idle j ≠ .idle →
      j ≠ i ∧ Function.update s.producers i Producer.idle j = s.producers j := by
    intro j hj
    by_cases hji : j = i
    · subst hji
      exact absurd (Function.update_self ..) hj
    · exact ⟨hji, Function.update_of_ne hji ..⟩
  apply h.setProducers
  · intro j p k hj
    have hne := (hold j (by rw [hj]; exact fun hno => by cases hno)).2
    rw [hne] at hj
    exact h.captured j p k hj
  · intro j p k hj
    have hne := (hold j (by rw [hj]; exact fun hno => by cases hno)).2
    rw [hne] at hj
    exact h.pushed j p k hj
  · intro hrunning hclosing hslot
    rcases ((h.live hrunning).open_ hclosing).handoff hslot with hon | ⟨j, p, hj⟩
    · exact .inl hon
    · by_cases hji : j = i
      · subst hji
        exact .inl (hi p hj hrunning hclosing)
      · refine .inr ⟨j, p, ?_⟩
        rw [Function.update_of_ne hji]
        exact hj

/-- A producer whose queue is open is in the present session. -/
theorem Coherent.present (h : Coherent s) {i k : ℕ} {packet : Packet} (hi : s.producers i = .captured packet k)
    (hopen : (s.queues k).closed = false) : s.running = true ∧ k = s.session := by
  rcases (h.captured i packet k hi).2 with hboth | hclosed
  · exact hboth
  · rw [hopen] at hclosed
    cases hclosed

/-- **A packet enters the handoff queue**; the producer will look after it. -/
theorem Coherent.accept (h : Coherent s) {i k : ℕ} {packet : Packet}
    (hi : s.producers i = .captured packet k) (hopen : (s.queues k).closed = false) :
    Coherent { s with queues := Function.update s.queues k { s.queues k with queue := [packet] }
                      producers := Function.update s.producers i (.pushed packet k) } := by
  have hholds := h.captured i packet k hi
  obtain ⟨hrunning, rfl⟩ := h.present hi hopen
  have hlive := h.live hrunning
  have hslot : ∀ j, (Function.update s.queues s.session { s.queues s.session with queue := [packet] } j).closed
      = (s.queues j).closed := by
    intro j
    by_cases hj : j = s.session
    · subst hj
      rw [Function.update_self]
    · rw [Function.update_of_ne hj]
  have hkeep : ∀ j, Holds s j → Holds { s with
      queues := Function.update s.queues s.session { s.queues s.session with queue := [packet] }
      producers := Function.update s.producers i (.pushed packet s.session) } j := by
    rintro j ⟨hle, hj⟩
    refine ⟨hle, hj.imp_right fun hclosed => ?_⟩
    exact (hslot j).trans hclosed
  refine { h with
    live := fun _ => ?_
    stopped := fun hstopped => ?_
    capacity := fun j => ?_
    captured := fun j p k hj => ?_
    pushed := fun j p k hj => ?_ }
  · refine { hlive with
      open_ := fun hclosing => { hlive.open_ hclosing with
        handoff := fun _ => .inr ⟨i, packet, Function.update_self ..⟩ }
      closing := fun hclosing => ?_
      accepting := ?_ }
    · obtain ⟨hcl, hd⟩ := hlive.closing hclosing
      cases hcl with
      | flushing hpoller htasks => exact ⟨.flushing hpoller htasks, hd⟩
      | posted hpoller htasks => exact ⟨.posted hpoller htasks, hd⟩
    · exact hlive.accepting.trans (congrArg _ (hslot s.session).symm)
  · have hoff : s.running = false := hstopped
    rw [hrunning] at hoff
    cases hoff
  · dsimp only
    by_cases hj : j = s.session
    · subst hj
      rw [Function.update_self]
      exact ⟨(h.capacity _).1, le_refl 1⟩
    · rw [Function.update_of_ne hj]
      exact h.capacity j
  · by_cases hji : j = i
    · subst hji
      dsimp only at hj
      rw [Function.update_self] at hj
      cases hj
    · apply hkeep
      apply h.captured j p k
      rw [← hj]
      exact (Function.update_of_ne hji ..).symm
  · by_cases hji : j = i
    · subst hji
      dsimp only at hj
      rw [Function.update_self] at hj
      obtain ⟨rfl, rfl⟩ := Producer.pushed.inj hj
      exact hkeep _ hholds
    · apply hkeep
      apply h.pushed j p k
      rw [← hj]
      exact (Function.update_of_ne hji ..).symm

theorem Coherent.schedule (h : Coherent s) (hrunning : s.running = true) : Coherent s.schedule := by
  rcases s.schedule_cases with ⟨-, heq⟩ | ⟨hscheduled, hclosing, heq⟩
  · rw [heq]
    exact h
  · rw [heq]
    have hlive := h.live hrunning
    have hopen := hlive.open_ hclosing
    have htasks : s.tasks ++ [Task.process] = [.process] := by
      rcases hopen.tasks with htasks | ⟨-, hon⟩
      · rw [htasks]
        rfl
      · rw [hscheduled] at hon
        cases hon
    refine { h with
      live := fun _ => { hlive with
        open_ := fun _ => { hopen with
          tasks := .inr ⟨htasks, rfl⟩
          scheduled := fun _ => .inl htasks
          lastProcess := fun _ => .inl rfl
          handoff := fun _ => .inl rfl }
        closing := fun hclosed => ?_ }
      stopped := fun hstopped => ?_ }
    · have hon : s.closing = true := hclosed
      rw [hclosing] at hon
      cases hon
    · have hoff : s.running = false := hstopped
      rw [hrunning] at hoff
      cases hoff

theorem schedule_producers (s : Remuxer) : s.schedule.producers = s.producers := by
  rcases s.schedule_cases with ⟨-, heq⟩ | ⟨-, -, heq⟩
  · rw [heq]
  · rw [heq]

theorem schedule_scheduled (s : Remuxer) (hclosing : s.schedule.closing = false) :
    s.schedule.scheduled = true := by
  rcases s.schedule_cases with ⟨hoff, heq⟩ | ⟨-, -, heq⟩
  · rw [heq] at hclosing ⊢
    rcases hoff with hon | hon
    · exact hon
    · rw [hclosing] at hon
      cases hon
  · rw [heq]

/-- **The end of `SubmitPacket`**: a `Process` is on its way. -/
theorem Coherent.submitted (h : Coherent s) {i k : ℕ} {packet : Packet}
    (hi : s.producers i = .pushed packet k) : Coherent (s.submitted i packet k).2 := by
  rw [Remuxer.submitted]
  dsimp only
  by_cases hcurrent : s.packets = some k ∧ s.running = true
  · rw [if_pos hcurrent]
    exact (h.schedule hcurrent.2).release fun _ _ _ hclosing => s.schedule_scheduled hclosing
  · rw [if_neg hcurrent]
    refine h.release fun p hp hrunning hclosing => ?_
    rw [hi] at hp
    obtain ⟨rfl, rfl⟩ := Producer.pushed.inj hp
    exact absurd ⟨(h.live hrunning).packets, hrunning⟩ hcurrent

/-! ### The poller -/

/-- A step that leaves the producers, the queues' ends and the lifecycle caller alone. -/
structure Polls (s s' : Remuxer) : Prop where
  running : s'.running = s.running
  session : s'.session = s.session
  producers : s'.producers = s.producers
  control : s'.control = s.control
  draining : s.draining = true → s'.draining = true
  queues : ∀ k, (s'.queues k).capacity = (s.queues k).capacity ∧
    (s'.queues k).queue.length ≤ (s.queues k).queue.length ∧
    ((s.queues k).closed = true → (s'.queues k).closed = true)

theorem Coherent.polls (h : Coherent s) (hp : Polls s s') (hrunning : s.running = true) (hlive : Live s') :
    Coherent s' := by
  have hholds : ∀ k, Holds s k → Holds s' k := by
    rintro k ⟨hle, hk⟩
    refine ⟨by rw [hp.session]; exact hle, ?_⟩
    rw [hp.running, hp.session]
    exact hk.imp_right (hp.queues k).2.2
  refine ⟨fun _ => hlive, fun hstopped => ?_, fun k => ?_, fun i packet k hi => ?_, fun i packet k hi => ?_,
    fun hc hr => ?_, fun hc => ?_, fun hc => ?_⟩
  · rw [hp.running, hrunning] at hstopped
    cases hstopped
  · rw [(hp.queues k).1]
    exact ⟨(h.capacity k).1, le_trans (hp.queues k).2.1 (h.capacity k).2⟩
  · rw [hp.producers] at hi
    exact hholds k (h.captured i packet k hi)
  · rw [hp.producers] at hi
    exact hholds k (h.pushed i packet k hi)
  · rw [hp.control] at hc
    exact hp.draining (h.stopping hc hrunning)
  · rw [hp.running]
    exact .inl hrunning
  · rw [hp.control] at hc
    rw [h.starting hc] at hrunning
    cases hrunning

/-- The queue without its head. -/
theorem handoff_taken (h : Coherent s) (k : ℕ) :
    (Function.update s.queues s.session { s.queues s.session with queue := (s.queues s.session).queue.tail } k)
      = { s.queues k with queue := if k = s.session then [] else (s.queues k).queue } := by
  by_cases hk : k = s.session
  · subst hk
    rw [Function.update_self, if_pos rfl]
    have hempty : (s.queues s.session).queue.tail = [] := by
      apply List.eq_nil_of_length_eq_zero
      rw [List.length_tail]
      exact Nat.sub_eq_zero_of_le (h.capacity s.session).2
    rw [hempty]
  · rw [Function.update_of_ne hk, if_neg hk]

/-- The posted tasks of a session that closes. -/
theorem Coherent.posted (h : Coherent s) (hrunning : s.running = true) (hclosing : s.closing = true)
    {tasks : List Task} (scheduled : Bool)
    (htasks : tasks = [.process, .finish] ∨ tasks = [.finish] ∨ tasks = [.complete]) :
    Coherent { s with tasks := tasks, scheduled := scheduled, poller := .idle } := by
  have hlive := h.live hrunning
  have hd := (hlive.closing hclosing).2
  have hne : s.poller ≠ .emitting := by
    intro hno
    cases (hlive.closing hclosing).1 with
    | flushing hp _ =>
      rw [hp] at hno
      cases hno
    | posted hp _ =>
      rw [hp] at hno
      cases hno
  refine h.polls ⟨rfl, rfl, rfl, rfl, id, fun _ => ⟨rfl, le_refl _, id⟩⟩ hrunning { hlive with
    open_ := fun hno => ?_
    closing := fun _ => ⟨.posted rfl htasks, hd⟩
    ending := fun hno => by cases hno
    batch := fun m hm => ⟨fun hno => (by cases hno), fun _ => (hlive.batch m hm).2 hne⟩ }
  have hoff : s.closing = false := hno
  rw [hclosing] at hoff
  cases hoff

/-- The queue of a session that drains is closed. -/
theorem Live.closed_of_draining (h : Live s) (hd : s.draining = true) :
    s.accepting = false ∧ (s.queues s.session).closed = true := by
  have ha := h.draining
  rw [hd] at ha
  have hoff : s.accepting = false := by simpa using ha.symm
  have hq := h.accepting
  rw [hoff] at hq
  exact ⟨hoff, by simpa using hq.symm⟩

/-- **The last task** of a session. -/
theorem Coherent.completed (h : Coherent s) (hrunning : s.running = true) (hclosing : s.closing = true) :
    Coherent { s with tasks := [], packets := none, media := none, running := false, scheduled := false,
                      poller := .notifying } := by
  have hlive := h.live hrunning
  obtain ⟨haccepting, hclosed⟩ := hlive.closed_of_draining (hlive.closing hclosing).2
  have hholds : ∀ k, Holds s k → k ≤ s.session ∧ (false = true ∧ k = s.session ∨ (s.queues k).closed = true) := by
    rintro k ⟨hle, ⟨-, rfl⟩ | hk⟩
    · exact ⟨hle, .inr hclosed⟩
    · exact ⟨hle, .inr hk⟩
  exact {
    live := fun hno => by cases hno
    stopped := fun _ => ⟨rfl, .inr rfl, rfl, haccepting, rfl⟩
    capacity := h.capacity
    captured := fun i packet k hi => hholds k (h.captured i packet k hi)
    pushed := fun i packet k hi => hholds k (h.pushed i packet k hi)
    stopping := fun _ hno => by cases hno
    asleep := fun _ => .inr rfl
    starting := fun _ => rfl }

section

variable [Libav]

/-- **`Process` under the lock.** -/
theorem Coherent.collected (h : Coherent s) (hrunning : s.running = true) (hclosing : s.closing = false)
    (hpoller : s.poller = .idle) (htasks : s.tasks = [.process])
    (hprocess : processLocked { s with tasks := [] } = some (events, s')) : Coherent s' := by
  have hlive := h.live hrunning
  have hopen := hlive.open_ hclosing
  obtain ⟨media, hmedia⟩ := hlive.media
  have hfree := hopen.media media hmedia hpoller
  have hnone : media.batch = none := by
    apply (hlive.batch media hmedia).2
    rw [hpoller]
    exact fun hno => by cases hno
  have hscheduled : s.scheduled = true := by
    rcases hopen.tasks with hno | ⟨-, hon⟩
    · rw [htasks] at hno
      cases hno
    · exact hon
  obtain ⟨new, answer, next, hcollect, -, hcases⟩ :=
    processLocked_cases (s := { s with tasks := [] }) hrunning hclosing hlive.packets hmedia hprocess
  have htaken := handoff_taken h
  have hlast : (s.queues s.session).closed =
      (Function.update s.queues s.session
        { s.queues s.session with queue := (s.queues s.session).queue.tail } s.session).closed := by
    rw [htaken]
  have hqueues : ∀ k, ((Function.update s.queues s.session
        { s.queues s.session with queue := (s.queues s.session).queue.tail }) k).capacity
          = (s.queues k).capacity ∧
      ((Function.update s.queues s.session
        { s.queues s.session with queue := (s.queues s.session).queue.tail }) k).queue.length
          ≤ (s.queues k).queue.length ∧
      ((s.queues k).closed = true → ((Function.update s.queues s.session
        { s.queues s.session with queue := (s.queues s.session).queue.tail }) k).closed = true) := by
    intro k
    rw [htaken]
    refine ⟨rfl, ?_, id⟩
    dsimp only
    split
    · exact Nat.zero_le _
    · exact le_refl _
  rcases hcases with ⟨⟨e, rfl⟩, rfl⟩ | ⟨rfl, rfl⟩
  · -- `scheduled_` stays set: the session closes before anything else is posted
    refine h.polls ⟨rfl, rfl, rfl, rfl, id, hqueues⟩ hrunning { hlive with
      media := ⟨_, rfl⟩
      open_ := fun _ => ⟨.inl rfl, .inr (.inr (.inl rfl)), fun _ => .inr (.inl rfl),
        fun _ => .inr (.inl rfl), fun _ => .inl hscheduled, fun _ _ hno => by cases hno⟩
      closing := fun hon => ?_
      accepting := hlive.accepting.trans (congrArg _ hlast)
      ending := fun hno => by cases hno
      batch := fun m hm => ⟨fun hno => (by cases hno), fun _ => ?_⟩ }
    · rw [hclosing] at hon
      cases hon
    · obtain rfl := Option.some.inj hm
      show next.batch = none
      rcases collect_error hcollect with ⟨-, rfl⟩ | ⟨p, pushed, -, -, -, rfl⟩
      · exact hnone
      · exact hnone
  · obtain ⟨pushed, packets, first, interleaver, -, -, -, rfl⟩ := collect_ok hcollect
    refine h.polls ⟨rfl, rfl, rfl, rfl, id, hqueues⟩ hrunning { hlive with
      media := ⟨_, rfl⟩
      open_ := fun _ => ⟨.inl rfl, .inr (.inl rfl), fun hno => (by cases hno),
        fun hd => .inr (.inr (.inr ⟨rfl, _, _, rfl, rfl, hd⟩)), fun hslot => ?_, fun _ _ hno => by cases hno⟩
      closing := fun hon => ?_
      accepting := hlive.accepting.trans (congrArg _ hlast)
      ending := fun hno => by cases hno
      batch := fun m hm => ⟨fun _ => ?_, fun hne => absurd rfl hne⟩ }
    · dsimp only at hslot
      rw [htaken] at hslot
      dsimp only at hslot
      rw [if_pos rfl] at hslot
      exact absurd rfl hslot
    · rw [hclosing] at hon
      cases hon
    · obtain rfl := Option.some.inj hm
      exact ⟨hfree, _, rfl, id⟩

/-- **`Process` after the lock**: the session ends where the batch was the last one, or where it threw. -/
theorem Coherent.emitted (h : Coherent s) (hrunning : s.running = true) (hpoller : s.poller = .emitting)
    {outlets : Outlets}
    (hprocess : s.processEmit outlets = some (events, s')) : Coherent s' := by
  have hlive := h.live hrunning
  obtain ⟨media, hmedia⟩ := hlive.media
  have hclosing : s.closing = false := by
    apply hlive.notClosing
    · rw [hpoller]
      exact fun hno => by cases hno
    · rw [hpoller]
      exact fun hno => by cases hno
  have hopen := hlive.open_ hclosing
  obtain ⟨hfree, batch, hbatch, hfinish⟩ := (hlive.batch media hmedia).1 hpoller
  obtain ⟨batch', new, answer, next, hbatch', hemit, -, rfl⟩ := processEmit_cases hmedia hprocess
  rw [hbatch] at hbatch'
  obtain rfl := Option.some.inj hbatch'
  obtain ⟨hdone, hsame⟩ := emit_batch hemit
  have hlast : s.draining = true → s.scheduled = true ∨ batch.finish = true := by
    intro hd
    rcases hopen.lastProcess hd with hon | hno | hno | ⟨-, m, b, hm, hb, hf⟩
    · exact .inl hon
    · rw [hpoller] at hno
      cases hno
    · rw [hpoller] at hno
      cases hno
    · rw [hmedia] at hm
      obtain rfl := Option.some.inj hm
      rw [hbatch] at hb
      obtain rfl := Option.some.inj hb
      exact .inr hf
  have hposted : s.scheduled = true → s.tasks = [.process] := by
    intro hon
    rcases hopen.scheduled hon with hposted | hno | hno
    · exact hposted
    · rw [hpoller] at hno
      cases hno
    · rw [hpoller] at hno
      cases hno
  have hpolls : ∀ media poller, Polls s { s with media := media, poller := poller } := fun _ _ =>
    ⟨rfl, rfl, rfl, rfl, id, fun _ => ⟨rfl, le_refl _, id⟩⟩
  have hnot : ¬s.closing = true := by rw [hclosing]; exact Bool.false_ne_true
  cases answer with
  | error e =>
    exact h.polls (hpolls _ _) hrunning { hlive with
      media := ⟨_, rfl⟩
      open_ := fun _ => { hopen with
        poller := .inr (.inr (.inl rfl))
        scheduled := fun hon => .inl (hposted hon)
        lastProcess := fun _ => .inr (.inl rfl)
        media := fun _ _ hno => by cases hno }
      closing := fun hon => absurd hon hnot
      ending := fun hno => by cases hno
      batch := fun m hm => ⟨fun hno => (by cases hno), fun _ => by rw [← Option.some.inj hm]; exact hdone⟩ }
  | ok u =>
    cases hlastBatch : batch.finish with
    | true =>
      exact h.polls (hpolls _ _) hrunning { hlive with
        media := ⟨_, rfl⟩
        open_ := fun _ => { hopen with
          poller := .inr (.inr (.inr rfl))
          scheduled := fun hon => .inl (hposted hon)
          lastProcess := fun _ => .inr (.inr (.inl rfl))
          media := fun _ _ hno => by cases hno }
        closing := fun hon => absurd hon hnot
        ending := fun _ => hfinish hlastBatch
        batch := fun m hm => ⟨fun hno => (by cases hno), fun _ => by rw [← Option.some.inj hm]; exact hdone⟩ }
    | false =>
      refine h.polls (hpolls _ _) hrunning { hlive with
        media := ⟨_, rfl⟩
        open_ := fun _ => { hopen with
          poller := .inl rfl
          scheduled := fun hon => .inl (hposted hon)
          lastProcess := fun hd => ?_
          media := fun m hm _ => ?_ }
        closing := fun hon => absurd hon hnot
        ending := fun hno => by cases hno
        batch := fun m hm => ⟨fun hno => (by cases hno), fun _ => by rw [← Option.some.inj hm]; exact hdone⟩ }
      · rcases hlast hd with hon | hf
        · exact .inl hon
        · rw [hlastBatch] at hf
          cases hf
      · rw [← Option.some.inj hm]
        show (next.closing || false) = false
        rw [Bool.or_false, hsame]
        exact hfree

omit [Libav] in
/-- **The end of `Process`**: the session closes and `Finish` is posted. -/
theorem Coherent.closed (h : Coherent s) (hrunning : s.running = true) (hpoller : s.poller = .closing) :
    Coherent { closePackets { s with accepting := false } with closing := true, poller := .flushing } := by
  have hlive := h.live hrunning
  have hclose : closePackets { s with accepting := false }
      = { s with accepting := false, queues := s.closedQueues } :=
    closePackets_eq (s := { s with accepting := false }) hlive.packets
  have hd := hlive.ending hpoller
  have hclosing : s.closing = false := by
    apply hlive.notClosing
    · rw [hpoller]
      exact fun hno => by cases hno
    · rw [hpoller]
      exact fun hno => by cases hno
  have htasks : s.tasks = [] ∨ s.tasks = [.process] := (hlive.open_ hclosing).tasks.imp_right And.left
  have hne : s.poller ≠ .emitting := by
    rw [hpoller]
    exact fun hno => by cases hno
  rw [hclose]
  refine h.polls ⟨rfl, rfl, rfl, rfl, id, fun k => ?_⟩ hrunning { hlive with
    open_ := fun hno => by cases hno
    closing := fun _ => ⟨.flushing rfl htasks, hd⟩
    accepting := ?_
    draining := hd
    ending := fun hno => by cases hno
    batch := fun m hm => ⟨fun hno => (by cases hno), fun _ => (hlive.batch m hm).2 hne⟩ }
  · rcases s.closedQueues_cases k with hk | hk
    · dsimp only
      rw [hk]
      exact ⟨rfl, le_refl _, id⟩
    · dsimp only
      rw [hk]
      exact ⟨rfl, le_refl _, fun _ => rfl⟩
  · show false = !(s.closedQueues s.session).closed
    rw [closedQueues, Function.update_self]
    rfl

omit [Libav] in
/-- **`Process` has thrown**: the error is reported, and the session closes. -/
theorem Coherent.failed (h : Coherent s) (hrunning : s.running = true) (hpoller : s.poller = .failed) :
    Coherent { s.error.2 with poller := .closing } := by
  obtain ⟨herror, hd, hdraining⟩ := h.error
  have hon : s.error.2.running = true := hd.running.trans hrunning
  have hlive := herror.live hon
  have hat : s.error.2.poller = .failed := hd.poller.trans hpoller
  have hclosing : s.error.2.closing = false := by
    apply hlive.notClosing
    · rw [hat]
      exact fun hno => by cases hno
    · rw [hat]
      exact fun hno => by cases hno
  have hopen := hlive.open_ hclosing
  have hne : s.error.2.poller ≠ .emitting := by
    rw [hat]
    exact fun hno => by cases hno
  refine herror.polls ⟨rfl, rfl, rfl, rfl, id, fun _ => ⟨rfl, le_refl _, id⟩⟩ hon { hlive with
    open_ := fun _ => { hopen with
      poller := .inr (.inr (.inr rfl))
      scheduled := fun _ => .inr (.inr rfl)
      lastProcess := fun _ => .inr (.inr (.inl rfl))
      media := fun _ _ hno => by cases hno }
    closing := fun hno => ?_
    ending := fun _ => hdraining hon
    batch := fun m hm => ⟨fun hno => (by cases hno), fun _ => (hlive.batch m hm).2 hne⟩ }
  have hyes : s.error.2.closing = true := hno
  rw [hclosing] at hyes
  cases hyes

/-- What a step of the poller finds and does. -/
inductive Polled (s : Remuxer) (outlets : Outlets) :
    List Event → Remuxer → Prop where
  | collect {events : List Event} {s' : Remuxer} (hrunning : s.running = true) (hclosing : s.closing = false)
      (hpoller : s.poller = .idle) (htasks : s.tasks = [.process])
      (h : processLocked { s with tasks := [] } = some (events, s')) : Polled s outlets events s'
  /-- A `Process` that finds the session closing. -/
  | skip (hrunning : s.running = true) (hclosing : s.closing = true) (hpoller : s.poller = .idle)
      (htasks : s.tasks = [.process, .finish]) :
      Polled s outlets [] { s with tasks := [.finish], scheduled := false }
  | finish (hrunning : s.running = true) (hclosing : s.closing = true) (hpoller : s.poller = .idle)
      (htasks : s.tasks = [.finish]) : Polled s outlets [.outputClosed s.session] { s with tasks := [.complete] }
  | complete (hrunning : s.running = true) (hclosing : s.closing = true) (hpoller : s.poller = .idle)
      (htasks : s.tasks = [.complete]) :
      Polled s outlets [] { s with tasks := [], packets := none, media := none, running := false,
                                   scheduled := false, poller := .notifying }
  | emit {events : List Event} {s' : Remuxer} (hrunning : s.running = true) (hpoller : s.poller = .emitting)
      (h : s.processEmit outlets = some (events, s')) : Polled s outlets events s'
  | fail (hrunning : s.running = true) (hpoller : s.poller = .failed) :
      Polled s outlets s.error.1 { s.error.2 with poller := .closing }
  | close (hrunning : s.running = true) (hpoller : s.poller = .closing) :
      Polled s outlets []
        { closePackets { s with accepting := false } with closing := true, poller := .flushing }
  | flush (hrunning : s.running = true) (hclosing : s.closing = true) (hpoller : s.poller = .flushing)
      (htasks : s.tasks = [] ∨ s.tasks = [.process]) :
      Polled s outlets [.finishPosted s.session] { s with tasks := s.tasks ++ [.finish], poller := .idle }
  | notify (hrunning : s.running = false) (hpoller : s.poller = .notifying) :
      Polled s outlets []
        { s with control := if s.control = .asleep then .checking else s.control, poller := .idle }

omit [Libav] in
/-- A session is not over while its poller works on it. -/
theorem Coherent.running_of_poller (h : Coherent s) (hidle : s.poller ≠ .idle)
    (hnotifying : s.poller ≠ .notifying) : s.running = true := by
  by_contra hno
  rw [Bool.not_eq_true] at hno
  rcases (h.stopped hno).poller with hpoller | hpoller
  · exact hidle hpoller
  · exact hnotifying hpoller

theorem Coherent.polled (h : Coherent s) {outlets : Outlets}
    (hpoll : s.poll outlets = some (events, s')) : Polled s outlets events s' := by
  have hbusy : s.poller ≠ .idle → s.poller ≠ .notifying → s.running = true := h.running_of_poller
  unfold Remuxer.poll at hpoll
  split at hpoll
  · rename_i hpoller
    have hrunning : s.tasks ≠ [] → s.running = true := by
      intro hne
      by_contra hno
      rw [Bool.not_eq_true] at hno
      exact hne (h.stopped hno).tasks
    have hidle : s.running = true → s.closing = false ∧ (s.tasks = [] ∨ s.tasks = [.process]) ∨
        s.closing = true ∧ (s.tasks = [.process, .finish] ∨ s.tasks = [.finish] ∨ s.tasks = [.complete]) := by
      intro hon
      cases hclosing : s.closing with
      | false => exact .inl ⟨rfl, ((h.live hon).open_ hclosing).tasks.imp_right And.left⟩
      | true =>
        cases ((h.live hon).closing hclosing).1 with
        | flushing hno _ =>
          rw [hpoller] at hno
          cases hno
        | posted _ htasks => exact .inr ⟨rfl, htasks⟩
    split at hpoll
    · cases hpoll
    · rename_i rest htasks
      have hon := hrunning (by rw [htasks]; exact List.cons_ne_nil _ _)
      rcases hidle hon with ⟨hclosing, hcases⟩ | ⟨hclosing, hcases⟩
      · rcases hcases with hcase | hcase
        · rw [htasks] at hcase
          cases hcase
        · have hrest : rest = [] := by
            rw [htasks] at hcase
            exact (List.cons.inj hcase).2
          subst hrest
          exact .collect hon hclosing hpoller htasks hpoll
      · have hskip : (!s.running || s.closing) = true := by rw [hclosing, Bool.or_true]
        rw [processLocked, if_pos hskip] at hpoll
        obtain ⟨rfl, rfl⟩ := Prod.mk.inj (Option.some.inj hpoll)
        rcases hcases with hcase | hcase | hcase
        · have hrest : rest = [.finish] := by
            rw [htasks] at hcase
            exact (List.cons.inj hcase).2
          subst hrest
          exact .skip hon hclosing hpoller hcase
        · rw [htasks] at hcase
          cases hcase
        · rw [htasks] at hcase
          cases hcase
    · rename_i rest htasks
      obtain ⟨rfl, rfl⟩ := Prod.mk.inj (Option.some.inj hpoll)
      have hon := hrunning (by rw [htasks]; exact List.cons_ne_nil _ _)
      rcases hidle hon with ⟨hclosing, hcases⟩ | ⟨hclosing, hcases⟩
      · rw [htasks] at hcases
        rcases hcases with hcase | hcase <;> cases hcase
      · rw [htasks] at hcases
        rcases hcases with hcase | hcase | hcase
        · cases hcase
        · have hrest : rest = [] := (List.cons.inj hcase).2
          subst hrest
          exact .finish hon hclosing hpoller htasks
        · cases hcase
    · rename_i rest htasks
      obtain ⟨rfl, rfl⟩ := Prod.mk.inj (Option.some.inj hpoll)
      have hon := hrunning (by rw [htasks]; exact List.cons_ne_nil _ _)
      rcases hidle hon with ⟨hclosing, hcases⟩ | ⟨hclosing, hcases⟩
      · rw [htasks] at hcases
        rcases hcases with hcase | hcase <;> cases hcase
      · rw [htasks] at hcases
        rcases hcases with hcase | hcase | hcase
        · cases hcase
        · cases hcase
        · have hrest : rest = [] := (List.cons.inj hcase).2
          subst hrest
          exact .complete hon hclosing hpoller htasks
  · rename_i hpoller
    exact .emit (hbusy (by rw [hpoller]; exact fun hno => by cases hno)
      (by rw [hpoller]; exact fun hno => by cases hno)) hpoller hpoll
  · rename_i hpoller
    obtain ⟨rfl, rfl⟩ := Prod.mk.inj (Option.some.inj hpoll)
    exact .fail (hbusy (by rw [hpoller]; exact fun hno => by cases hno)
      (by rw [hpoller]; exact fun hno => by cases hno)) hpoller
  · rename_i hpoller
    obtain ⟨rfl, rfl⟩ := Prod.mk.inj (Option.some.inj hpoll)
    exact .close (hbusy (by rw [hpoller]; exact fun hno => by cases hno)
      (by rw [hpoller]; exact fun hno => by cases hno)) hpoller
  · rename_i hpoller
    obtain ⟨rfl, rfl⟩ := Prod.mk.inj (Option.some.inj hpoll)
    have hon := hbusy (by rw [hpoller]; exact fun hno => by cases hno)
      (by rw [hpoller]; exact fun hno => by cases hno)
    obtain ⟨hclosing, htasks⟩ := (h.live hon).flushing hpoller
    exact .flush hon hclosing hpoller htasks
  · rename_i hpoller
    obtain ⟨rfl, rfl⟩ := Prod.mk.inj (Option.some.inj hpoll)
    refine .notify ?_ hpoller
    by_contra hon
    rw [Bool.not_eq_false] at hon
    exact (h.live hon).not_notifying hpoller

/-- **Every step of the poller.** -/
theorem Coherent.poll (h : Coherent s) {outlets : Outlets}
    (hpoll : s.poll outlets = some (events, s')) : Coherent s' := by
  cases h.polled hpoll with
  | collect hrunning hclosing hpoller htasks hprocess =>
    exact h.collected hrunning hclosing hpoller htasks hprocess
  | skip hrunning hclosing hpoller htasks =>
    have hnext := h.posted hrunning hclosing false (.inr (.inl rfl))
    rwa [← hpoller] at hnext
  | finish hrunning hclosing hpoller htasks =>
    have hnext := h.posted hrunning hclosing s.scheduled (.inr (.inr rfl))
    rwa [← hpoller] at hnext
  | complete hrunning hclosing hpoller htasks => exact h.completed hrunning hclosing
  | emit hrunning hpoller hprocess => exact h.emitted hrunning hpoller hprocess
  | fail hrunning hpoller => exact h.failed hrunning hpoller
  | close hrunning hpoller => exact h.closed hrunning hpoller
  | flush hrunning hclosing hpoller htasks =>
    apply h.posted hrunning hclosing
    rcases htasks with htasks | htasks
    · rw [htasks]
      exact .inr (.inl rfl)
    · rw [htasks]
      exact .inl rfl
  | notify hrunning hpoller =>
    have hcontrol : (if s.control = .asleep then Control.checking else s.control) ≠ .asleep := by
      split
      · exact fun hno => by cases hno
      · assumption
    have hnot : ¬s.running = true := by rw [hrunning]; exact Bool.false_ne_true
    exact { h with
      live := fun hon => absurd hon hnot
      stopped := fun _ => { h.stopped hrunning with poller := .inl rfl }
      stopping := fun _ hon => absurd hon hnot
      asleep := fun hno => absurd hno hcontrol
      starting := fun _ => hrunning }

omit [Libav] in
/-- **A `Start`** begins with an empty queue; those of earlier sessions are closed. -/
theorem Coherent.commit (h : Coherent s) (hstarting : s.control = .starting) (hpoller : s.poller = .idle)
    (htasks : s.tasks = []) (streams : List StreamInfo) (recordOnly : Bool) :
    Coherent (s.commit streams recordOnly).2 := by
  have hrunning := h.starting hstarting
  rw [Remuxer.commit]
  cases hcreate : MediaSession.create streams recordOnly with
  | error e => exact h.setFree
  | ok media =>
    obtain ⟨-, -, -, hbatch, hopen, -⟩ := MediaSession.create_ok hcreate
    have hqueue : ∀ k, k ≤ s.session →
        Function.update s.queues (s.session + 1) ({ capacity := 1 } : BlockingQueue Packet) k = s.queues k := by
      intro k hk
      exact Function.update_of_ne (by omega) ..
    have hnew : Function.update s.queues (s.session + 1) ({ capacity := 1 } : BlockingQueue Packet)
        (s.session + 1) = { capacity := 1 } := Function.update_self ..
    have hholds : ∀ k, Holds s k → k ≤ s.session + 1 ∧ (true = true ∧ k = s.session + 1 ∨
        (Function.update s.queues (s.session + 1) ({ capacity := 1 } : BlockingQueue Packet) k).closed = true) := by
      rintro k ⟨hle, ⟨hon, -⟩ | hk⟩
      · rw [hrunning] at hon
        cases hon
      · refine ⟨by omega, .inr ?_⟩
        rw [hqueue k hle]
        exact hk
    have hnone : s.poller ≠ .emitting := by
      rw [hpoller]
      exact fun hno => by cases hno
    refine {
      live := fun _ => {
        packets := rfl
        media := ⟨media, rfl⟩
        open_ := fun _ => ⟨.inl htasks, .inl hpoller, fun hno => (by cases hno), fun hno => (by cases hno),
          fun hslot => ?_, fun m hm _ => ?_⟩
        closing := fun hno => by cases hno
        accepting := ?_
        draining := rfl
        reported := fun hno => by cases hno
        ending := fun hno => ?_
        batch := fun m hm => ⟨fun hno => absurd hno hnone, fun _ => ?_⟩ }
      stopped := fun hno => by cases hno
      capacity := fun k => ?_
      captured := fun i packet k hi => hholds k (h.captured i packet k hi)
      pushed := fun i packet k hi => hholds k (h.pushed i packet k hi)
      stopping := fun hno => by rcases hno with hno | hno <;> cases hno
      asleep := fun hno => by cases hno
      starting := fun hno => by cases hno }
    · dsimp only at hslot
      rw [hnew] at hslot
      exact absurd rfl hslot
    · rw [← Option.some.inj hm]
      exact hopen
    · dsimp only
      rw [hnew]
      rfl
    · have hp : s.poller = .closing := hno
      rw [hpoller] at hp
      cases hp
    · rw [← Option.some.inj hm]
      exact hbatch
    · dsimp only
      by_cases hk : k = s.session + 1
      · rw [hk, hnew]
        exact ⟨rfl, Nat.zero_le 1⟩
      · rw [Function.update_of_ne hk]
        exact h.capacity k

/-- What a step finds and does. -/
inductive Stepped (s : Remuxer) : Act → List Event → Remuxer → Prop where
  | submit {i : ℕ} (packet : Packet) (hi : s.producers i = .idle) : Stepped s (.submit i packet) []
      { s with producers := Function.update s.producers i (s.submit packet) }
  | refuse {i k : ℕ} {packet : Packet} (throws : Bool) (hi : s.producers i = .captured packet k) :
      Stepped s (.push i throws) [] { s with producers := Function.update s.producers i .idle }
  | accept {i k : ℕ} {packet : Packet} (throws : Bool) (hi : s.producers i = .captured packet k)
      (hopen : (s.queues k).closed = false) (hempty : (s.queues k).queue = []) :
      Stepped s (.push i throws) [.accepted k packet]
        { s with queues := Function.update s.queues k { s.queues k with queue := [packet] }
                 producers := Function.update s.producers i (.pushed packet k) }
  | submitted {i k : ℕ} {packet : Packet} (hi : s.producers i = .pushed packet k) :
      Stepped s (.submitted i) [.submitted k packet] (s.submitted i packet k).2
  | drain : Stepped s .drain [] s.drain
  | error : Stepped s .error s.error.1 s.error.2
  | poll {outlets : Outlets} {events : List Event} {s' : Remuxer}
      (h : s.poll outlets = some (events, s')) : Stepped s (.poll outlets) events s'
  | addPrepared (hpoller : s.poller = .idle) (haccepting : s.accepting = true) : Stepped s .addPrepared []
      { s with media := s.media.map fun media => { media with recordOnly := false } }
  | start (hcontrol : s.control = .free) (hrunning : s.running = false) :
      Stepped s .start [] { s with control := .starting }
  | commit (streams : List StreamInfo) (recordOnly : Bool) (hcontrol : s.control = .starting)
      (hpoller : s.poller = .idle) (htasks : s.tasks = []) :
      Stepped s (.commit streams recordOnly) (s.commit streams recordOnly).1 (s.commit streams recordOnly).2
  | abort (hcontrol : s.control = .starting) : Stepped s .abort [] { s with control := .free }
  | stop (hcontrol : s.control = .free) : Stepped s .stop [] { s.drain with control := .checking }
  | sleep (hcontrol : s.control = .checking) (hrunning : s.running = true) :
      Stepped s .stopCheck [] { s with control := .asleep }
  | release (hcontrol : s.control = .checking) (hrunning : s.running = false) :
      Stepped s .stopCheck [.released] { s with control := .free, draining := false, closing := false }
  | wake (hcontrol : s.control = .asleep) : Stepped s .stopWake [] { s with control := .checking }

theorem Coherent.stepped (h : Coherent s) {act : Act} (hstep : s.next act = some (events, s')) :
    Stepped s act events s' := by
  cases act with
  | submit i packet =>
    rw [next] at hstep
    split at hstep
    · rename_i hi
      obtain ⟨rfl, rfl⟩ := Prod.mk.inj (Option.some.inj hstep)
      exact .submit packet hi
    · cases hstep
  | push i throws =>
    rw [next] at hstep
    split at hstep
    · rename_i packet k hi
      rcases push_cases (h.capacity k).1 hstep with ⟨rfl, rfl⟩ | ⟨hopen, hempty, rfl, rfl⟩
      · exact .refuse throws hi
      · exact .accept throws hi hopen hempty
    · cases hstep
  | submitted i =>
    rw [next] at hstep
    split at hstep
    · rename_i packet k hi
      obtain ⟨rfl, rfl⟩ := Prod.mk.inj (Option.some.inj hstep)
      exact .submitted hi
    · cases hstep
  | drain =>
    obtain ⟨rfl, rfl⟩ := Prod.mk.inj (Option.some.inj hstep)
    exact .drain
  | error =>
    obtain ⟨rfl, rfl⟩ := Prod.mk.inj (Option.some.inj hstep)
    exact .error
  | poll outlets => exact .poll hstep
  | addPrepared =>
    rw [next] at hstep
    split at hstep
    · rename_i hguard
      obtain ⟨rfl, rfl⟩ := Prod.mk.inj (Option.some.inj hstep)
      exact .addPrepared hguard.1 hguard.2
    · cases hstep
  | start =>
    rw [next] at hstep
    split at hstep
    · rename_i hguard
      obtain ⟨rfl, rfl⟩ := Prod.mk.inj (Option.some.inj hstep)
      exact .start hguard.1 hguard.2
    · cases hstep
  | commit streams recordOnly =>
    rw [next] at hstep
    split at hstep
    · rename_i hguard
      obtain ⟨rfl, rfl⟩ := Prod.mk.inj (Option.some.inj hstep)
      exact .commit streams recordOnly hguard.1 hguard.2.1 hguard.2.2
    · cases hstep
  | abort =>
    rw [next] at hstep
    split at hstep
    · rename_i hguard
      obtain ⟨rfl, rfl⟩ := Prod.mk.inj (Option.some.inj hstep)
      exact .abort hguard
    · cases hstep
  | stop =>
    rw [next] at hstep
    split at hstep
    · rename_i hguard
      obtain ⟨rfl, rfl⟩ := Prod.mk.inj (Option.some.inj hstep)
      exact .stop hguard
    · cases hstep
  | stopCheck =>
    rw [next] at hstep
    split at hstep
    · rename_i hguard
      split at hstep
      · rename_i hrunning
        obtain ⟨rfl, rfl⟩ := Prod.mk.inj (Option.some.inj hstep)
        exact .sleep hguard hrunning
      · rename_i hrunning
        obtain ⟨rfl, rfl⟩ := Prod.mk.inj (Option.some.inj hstep)
        exact .release hguard (by simpa using hrunning)
    · cases hstep
  | stopWake =>
    rw [next] at hstep
    split at hstep
    · rename_i hguard
      obtain ⟨rfl, rfl⟩ := Prod.mk.inj (Option.some.inj hstep)
      exact .wake hguard
    · cases hstep

/-- **Every step keeps the invariant.** -/
theorem Coherent.step (h : Coherent s) {act : Act} (hstep : s.next act = some (events, s')) :
    Coherent s' := by
  cases h.stepped hstep with
  | submit packet hi => exact h.submit hi packet
  | refuse throws hi =>
    refine h.release fun p hp => ?_
    rw [hi] at hp
    cases hp
  | accept throws hi hopen hempty => exact h.accept hi hopen
  | submitted hi => exact h.submitted hi
  | drain => exact h.drain.1
  | error => exact h.error.1
  | poll hpoll => exact h.poll hpoll
  | addPrepared hpoller haccepting => exact h.addPrepared haccepting
  | start hcontrol hrunning =>
    exact h.setControl (fun hno => by rcases hno with hno | hno <;> cases hno) (fun hno => by cases hno)
      fun _ => hrunning
  | commit streams recordOnly hcontrol hpoller htasks => exact h.commit hcontrol hpoller htasks streams recordOnly
  | abort hcontrol => exact h.setFree
  | stop hcontrol =>
    obtain ⟨hnext, -, hdraining⟩ := h.drain
    exact hnext.setControl (fun _ => hdraining) (fun hno => by cases hno) fun hno => by cases hno
  | sleep hcontrol hrunning =>
    exact h.setControl (fun _ => h.stopping (.inl hcontrol)) (fun _ => .inl hrunning) fun hno => by cases hno
  | release hcontrol hrunning =>
    have hfree := h.setFree
    exact { hfree with
      live := fun hno => absurd hno (by simp [hrunning])
      stopped := fun hs => { hfree.stopped hs with }
      stopping := fun hno => by rcases hno with hno | hno <;> cases hno }
  | wake hcontrol =>
    exact h.setControl (fun _ => h.stopping (.inr hcontrol)) (fun hno => by cases hno) fun hno => by cases hno

theorem coherent (hs : system.Reachable s) : Coherent s := by
  refine hs.invariant ?_ ?_
  · rintro s rfl
    exact coherent_init
  · rintro s events s' - h ⟨act, hact⟩
    exact h.step hact

end

end Remuxer

end MwStreamer
