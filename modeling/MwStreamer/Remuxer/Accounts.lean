import Mathlib.Data.Finset.Card
import MwStreamer.Remuxer.Lifecycle

/-!
# Where the packets of a remux session are

As long as a session has no error, what its handoff queue accepted is what the interleaver took and the packet
in the queue; what the interleaver took is what was popped and what it still holds; and what was popped went to
the recorders, except for the batch in hand.  A session whose last `Process` ran has an empty queue and an empty
interleaver, so at its end everything accepted has been handed on, once and in the order of its track.
-/

namespace MwStreamer

namespace MediaSession

open PacketInterleaver StableMerge

variable [Libav] {streams : List StreamInfo} {recordOnly : Bool} {events : List MediaEvent}
  {media next : MediaSession}

/-- What the interleaver of a session keeps. -/
structure Kept (streams : List StreamInfo) (events : List MediaEvent) (media : MediaSession) : Prop where
  valid : ∀ stream ∈ streams, stream.timeBase.Positive
  merging : ∃ history, Merging streams history media.interleaver ∧
    pushedPackets history = interleavedPackets events ∧ releasedPackets history = poppedPackets events
  drained : Drained media.interleaver

/-- What was popped went to the recorders, and to the protocol output from the first one that was added. -/
structure Handed (recordOnly : Bool) (events : List MediaEvent) (media : MediaSession) : Prop where
  recorded : poppedPackets events = recordedPackets events ++ media.pending
  converted : ∃ skipped, recordedPackets events = skipped ++ (conversions events).map Prod.fst ∧
    (recordOnly = false → skipped = [])
  waiting : media.recordOnly = true → recordOnly = true ∧ conversions events = []

omit [Libav] in
theorem kept_create (h : create streams recordOnly = .ok media) :
    Kept streams [] media ∧ Handed recordOnly [] media := by
  obtain ⟨hcreate, -, -, hbatch, -, -⟩ := create_ok h
  have hcreated := PacketInterleaver.create_ok hcreate
  have hflag : media.recordOnly = recordOnly := by
    obtain ⟨interleaver, -, h⟩ := StateExcept.bind_ok h
    obtain ⟨timestamps, -, h⟩ := StateExcept.bind_ok h
    rw [← Except.ok.inj h]
  have hpending : media.pending = [] := by rw [pending, hbatch]
  refine ⟨⟨hcreated.valid, ⟨[], hcreated.merging, rfl, rfl⟩, fun _ => hcreated.queue⟩, ?_, ⟨[], rfl, fun _ => rfl⟩,
    fun hon => ⟨hflag.symm.trans hon, rfl⟩⟩
  rw [hpending]
  rfl

omit [Libav] in
theorem events_interleaved (packet : Option Packet) (packets : List Packet) :
    interleavedPackets (packet.toList.map .interleaved ++ packets.map .popped) = packet.toList ∧
      poppedPackets (packet.toList.map .interleaved ++ packets.map .popped) = packets ∧
      recordedPackets (packet.toList.map .interleaved ++ packets.map .popped) = [] ∧
      conversions (packet.toList.map .interleaved ++ packets.map .popped) = [] := by
  obtain ⟨hinterleaved, hpopped, hconversions, -, -⟩ := events_popped packets
  have hrecorded : ∀ packets : List Packet, recordedPackets (packets.map .popped) = [] := by
    intro packets
    induction packets with
    | nil => rfl
    | cons packet packets ih => exact ih
  rw [interleavedPackets_append, poppedPackets_append, recordedPackets_append, conversions_append, hinterleaved,
    hpopped, hconversions, hrecorded]
  cases packet with
  | none => exact ⟨rfl, rfl, rfl, rfl⟩
  | some packet => exact ⟨rfl, rfl, rfl, rfl⟩

theorem Kept.push (hexact : ExactCompare) (h : Kept streams events media) {packet : Packet}
    {pushed : PacketInterleaver} (hpush : media.interleaver.push (some packet) = (.ok (), pushed)) :
    Kept streams (events ++ [.interleaved packet]) { media with interleaver := pushed } := by
  obtain ⟨history, hm, hpushed, hreleased⟩ := h.merging
  obtain ⟨history', hm', hpushed', hreleased'⟩ := hm.push hexact h.valid hpush
  refine ⟨h.valid, ⟨history', hm', ?_, ?_⟩, fun hflushed => ?_⟩
  · rw [hpushed', hpushed, interleavedPackets_append]
    rfl
  · rw [hreleased', hreleased, poppedPackets_append]
    exact (List.append_nil _).symm
  · obtain ⟨hopen, input, rfl⟩ := push_ok hpush
    have hon : media.interleaver.flushed = true := hflushed
    rw [hopen] at hon
    cases hon

theorem Kept.pop (h : Kept streams events media) {draining : Bool} {packets : List Packet}
    {interleaver : PacketInterleaver} (batch : Option Batch)
    (hpop : media.interleaver.popReady draining = (.ok packets, interleaver)) :
    Kept streams (events ++ packets.map .popped) { media with interleaver := interleaver, batch := batch } := by
  obtain ⟨history, hm, hpushed, hreleased⟩ := h.merging
  obtain ⟨history', hm', hpushed', hreleased'⟩ := hm.pop hpop
  obtain ⟨hinterleaved, hpopped, -, -, -⟩ := events_popped packets
  have hend := popReady_ok hpop
  refine ⟨h.valid, ⟨history', hm', ?_, ?_⟩, fun hflushed => ?_⟩
  · rw [hpushed', hpushed, interleavedPackets_append, hinterleaved, List.append_nil]
  · rw [hreleased', hreleased, poppedPackets_append, hpopped]
  · show interleaver.queue = []
    have hboth : (media.interleaver.flushed || draining) = true := hend.flushed.symm.trans hflushed
    rw [hend.queue]
    rw [Bool.or_eq_true] at hboth
    rcases hboth with hbefore | hdraining
    · rw [h.drained hbefore]
      split <;> rfl
    · rw [if_pos (hend.initialized (.inl hdraining))]
      rcases popLoop_stop media.interleaver.tracks draining media.interleaver.queue with hempty | ⟨hoff, -⟩
      · exact hempty
      · rw [hdraining] at hoff
        cases hoff

/-- **A collection that succeeds** takes the packet into the interleaver and a batch out of it. -/
theorem Kept.collect (hexact : ExactCompare) (h : Kept streams events media) {packet : Option Packet}
    {draining : Bool} {new : List MediaEvent} (hcollect : media.collect packet draining = (new, .ok (), next)) :
    Kept streams (events ++ new) next ∧ interleavedPackets new = packet.toList ∧
      poppedPackets new = next.pending ∧ recordedPackets new = [] ∧ conversions new = [] ∧
      next.recordOnly = media.recordOnly ∧ (draining = true → next.interleaver.flushed = true) := by
  obtain ⟨pushed, packets, first, interleaver, hpushed, hready, rfl, rfl⟩ := Remuxer.collect_ok hcollect
  obtain ⟨h1, h2, h3, h4⟩ := events_interleaved packet packets
  have hflushed : draining = true → interleaver.flushed = true := by
    rintro rfl
    rw [(popReady_ok hready).flushed, Bool.or_true]
  refine ⟨?_, h1, h2, h3, h4, rfl, hflushed⟩
  rcases hpushed with ⟨rfl, rfl⟩ | ⟨p, rfl, hpush⟩
  · exact h.pop _ hready
  · have hnext := (h.push hexact hpush).pop (some ⟨packets, first, draining⟩) hready
    rwa [List.append_assoc] at hnext

/-- A collection that fails has at most taken the packet. -/
theorem Kept.collect_error (hexact : ExactCompare) (h : Kept streams events media) {packet : Option Packet}
    {draining : Bool} {new : List MediaEvent} {e : Exception}
    (hcollect : media.collect packet draining = (new, .error e, next)) : Kept streams (events ++ new) next := by
  rcases Remuxer.collect_error hcollect with ⟨rfl, rfl⟩ | ⟨p, pushed, rfl, hpush, rfl, rfl⟩
  · rw [List.append_nil]
    exact h
  · exact h.push hexact hpush

/-- **The loop over a batch** hands on every packet, if nothing throws. -/
theorem deliver_ok {timestamps : MediaTimestampConverter}
    {outlets : Outlets} {packets : List Packet} {new : List MediaEvent}
    (h : deliver timestamps recordOnly outlets packets = (new, .ok ())) :
    recordedPackets new = packets ∧
      (conversions new).map Prod.fst = if recordOnly then [] else packets := by
  induction packets generalizing new with
  | nil =>
    obtain rfl := (Prod.mk.inj h).1
    refine ⟨rfl, ?_⟩
    split <;> rfl
  | cons packet packets ih =>
    rw [deliver] at h
    cases hrecorded : outlets.record packet with
    | error e => simp only [hrecorded, Prod.mk.injEq, reduceCtorEq, and_false] at h
    | ok u =>
      simp only [hrecorded] at h
      cases hrest : deliver timestamps recordOnly outlets packets with
      | mk later answer =>
        cases hflag : recordOnly with
        | true =>
          rw [hflag] at h hrest ih
          simp only [if_true, hrest, Prod.mk.injEq] at h
          obtain ⟨rfl, rfl⟩ := h
          obtain ⟨hrecorded, hconverted⟩ := ih hrest
          exact ⟨congrArg (packet :: ·) hrecorded, hconverted⟩
        | false =>
          rw [hflag] at h hrest ih
          simp only [Bool.false_eq_true, if_false] at h
          cases hconvert : timestamps.convert packet with
          | error e =>
            simp only [hconvert, Prod.mk.injEq, reduceCtorEq, and_false] at h
          | ok stamps =>
            cases hconsume : outlets.consume packet stamps with
            | error e =>
              simp only [hconvert, hconsume, Prod.mk.injEq, reduceCtorEq, and_false] at h
            | ok u =>
              simp only [hconvert, hconsume, hrest, Prod.mk.injEq] at h
              obtain ⟨rfl, rfl⟩ := h
              obtain ⟨hrecorded, hconverted⟩ := ih hrest
              exact ⟨congrArg (packet :: ·) hrecorded, congrArg (packet :: ·) hconverted⟩

/-- **An emission** leaves the interleaver alone; without an exception the batch is handed on. -/
theorem Kept.emit (h : Kept streams events media) {batch : Batch}
    {outlets : Outlets} {new : List MediaEvent}
    {answer : Except Exception Unit} (hemit : media.emit batch outlets = (new, answer, next)) :
    Kept streams (events ++ new) next ∧ interleavedPackets new = [] ∧ poppedPackets new = [] ∧
      next.interleaver = media.interleaver ∧ next.recordOnly = media.recordOnly ∧ next.batch = none ∧
      (answer = .ok () → recordedPackets new = batch.packets ∧
        (conversions new).map Prod.fst = if media.recordOnly then [] else batch.packets) := by
  have hsettled : ∀ {first result}, settle media.timestamps batch = (first, result) →
      interleavedPackets first = [] ∧ poppedPackets first = [] ∧ recordedPackets first = [] ∧
        conversions first = [] := by
    intro first result hsettle
    rw [settle] at hsettle
    split at hsettle
    · obtain rfl := (Prod.mk.inj hsettle).1
      exact ⟨rfl, rfl, rfl, rfl⟩
    · split at hsettle
      · obtain rfl := (Prod.mk.inj hsettle).1
        exact ⟨rfl, rfl, rfl, rfl⟩
      · obtain rfl := (Prod.mk.inj hsettle).1
        exact ⟨rfl, rfl, rfl, rfl⟩
  have hkept : ∀ {more : List MediaEvent} {m : MediaSession}, interleavedPackets more = [] →
      poppedPackets more = [] → m.interleaver = media.interleaver → Kept streams (events ++ more) m := by
    intro more m hno hno' hsame
    obtain ⟨history, hm, hpushed, hreleased⟩ := h.merging
    refine ⟨h.valid, ⟨history, by rw [hsame]; exact hm, ?_, ?_⟩, by rw [hsame]; exact h.drained⟩
    · rw [hpushed, interleavedPackets_append, hno, List.append_nil]
    · rw [hreleased, poppedPackets_append, hno', List.append_nil]
  rw [MediaSession.emit] at hemit
  cases hsettle : settle media.timestamps batch with
  | mk first result =>
    obtain ⟨hf1, hf2, hf3, hf4⟩ := hsettled hsettle
    cases result with
    | error e =>
      simp only [hsettle, Prod.mk.injEq] at hemit
      obtain ⟨rfl, rfl, rfl⟩ := hemit
      exact ⟨hkept hf1 hf2 rfl, hf1, hf2, rfl, rfl, rfl, fun hno => by cases hno⟩
    | ok timestamps =>
      have hd := deliver_delivered timestamps media.recordOnly outlets batch.packets
      cases hdeliver : deliver timestamps media.recordOnly outlets batch.packets with
      | mk delivered result =>
        rw [hdeliver] at hd
        simp only [hsettle, hdeliver, Prod.mk.injEq] at hemit
        obtain ⟨rfl, rfl, rfl⟩ := hemit
        have h1 : interleavedPackets (first ++ delivered) = [] := by
          rw [interleavedPackets_append, hf1, hd.interleaved]
          rfl
        have h2 : poppedPackets (first ++ delivered) = [] := by
          rw [poppedPackets_append, hf2, hd.popped]
          rfl
        refine ⟨hkept h1 h2 rfl, h1, h2, rfl, rfl, rfl, fun hok => ?_⟩
        subst hok
        obtain ⟨hrecorded, hconverted⟩ := deliver_ok hdeliver
        rw [recordedPackets_append, conversions_append, hf3, hf4]
        exact ⟨hrecorded, hconverted⟩

end MediaSession

namespace Remuxer

open PacketInterleaver StableMerge MediaSession

/-! ### The events of one session -/

/-- An event of this session.  The end of a `SubmitPacket` is not: it may come later. -/
def Event.ofSession (k : ℕ) : Event → Bool
  | .started j _ _ => j == k
  | .accepted j _ => j == k
  | .media j _ => j == k
  | .errored j => j == k
  | .finishPosted j => j == k
  | .outputClosed j => j == k
  | .submitted _ _ | .released => false

def Event.accepted? : Event → Option Packet
  | .accepted _ packet => some packet
  | _ => none

def Event.media? : Event → Option MediaEvent
  | .media _ event => some event
  | _ => none

def sessionEvents (k : ℕ) (events : List Event) : List Event := events.filter (·.ofSession k)

/-- What the handoff queue accepted. -/
def acceptedPackets (events : List Event) : List Packet := events.filterMap Event.accepted?

def mediaEvents (events : List Event) : List MediaEvent := events.filterMap Event.media?

section

variable (k : ℕ) (events new : List Event)

@[simp] theorem sessionEvents_append :
    sessionEvents k (events ++ new) = sessionEvents k events ++ sessionEvents k new := List.filter_append ..

@[simp] theorem acceptedPackets_append :
    acceptedPackets (events ++ new) = acceptedPackets events ++ acceptedPackets new := List.filterMap_append ..

@[simp] theorem mediaEvents_append : mediaEvents (events ++ new) = mediaEvents events ++ mediaEvents new :=
  List.filterMap_append ..

theorem acceptedPackets_media (session : ℕ) (new : List MediaEvent) :
    acceptedPackets (new.map (.media session)) = [] := by
  induction new with
  | nil => rfl
  | cons event new ih => exact ih

theorem mediaEvents_media (session : ℕ) (new : List MediaEvent) :
    mediaEvents (new.map (.media session)) = new := by
  induction new with
  | nil => rfl
  | cons event new ih => exact congrArg (event :: ·) ih

end

/-- The handoff queue of the session. -/
def slot (s : Remuxer) : List Packet := (s.queues s.session).queue

/-- Nothing is left to hand on. -/
def Done (s : Remuxer) (media : MediaSession) : Prop := media.interleaver.flushed = true ∧ s.slot = []

/-- **The books of the present session**, `l` being its events. -/
structure Books (streams : List StreamInfo) (recordOnly : Bool) (l : List Event) (s : Remuxer)
    (media : MediaSession) : Prop where
  started : .started s.session streams recordOnly ∈ l
  kept : Kept streams (mediaEvents l) media
  reported : s.errorReported = true → .errored s.session ∈ l
  posted : l.count (.finishPosted s.session) = if s.closing = true ∧ s.poller ≠ .flushing then 1 else 0
  closed : l.count (.outputClosed s.session) = if s.closing = true ∧ s.tasks = [.complete] then 1 else 0
  /-- As long as nothing was thrown. -/
  entered : .errored s.session ∉ l → s.poller ≠ .failed →
    acceptedPackets l = interleavedPackets (mediaEvents l) ++ s.slot
  handed : .errored s.session ∉ l → s.poller ≠ .failed → Handed recordOnly (mediaEvents l) media
  last : .errored s.session ∉ l → s.poller ≠ .failed →
    (s.poller = .closing ∨ s.closing = true ∨ ∃ batch, media.batch = some batch ∧ batch.finish = true) →
      Done s media

variable {streams : List StreamInfo} {recordOnly : Bool} {l : List Event} {s s' : Remuxer}
  {media : MediaSession}

/-- A step that the books do not see. -/
structure Aside (s s' : Remuxer) : Prop where
  session : s'.session = s.session
  running : s'.running = s.running
  media : s'.media = s.media
  reported : s'.errorReported = s.errorReported
  closing : s'.closing = s.closing
  poller : s'.poller = s.poller
  tasks : s.closing = true → s'.tasks = s.tasks
  slot : s'.slot = s.slot

theorem Books.aside (h : Books streams recordOnly l s media) (ha : Aside s s') :
    Books streams recordOnly l s' media := by
  have hdone : Done s media → Done s' media := by
    rintro ⟨hflushed, hempty⟩
    exact ⟨hflushed, ha.slot.trans hempty⟩
  have hand : (s'.closing = true ∧ s'.tasks = [.complete]) ↔ (s.closing = true ∧ s.tasks = [.complete]) := by
    rw [ha.closing]
    refine and_congr_right fun hon => ?_
    rw [ha.tasks hon]
  refine ⟨?_, h.kept, ?_, ?_, ?_, ?_, ?_, ?_⟩
  · rw [ha.session]
    exact h.started
  · rw [ha.session, ha.reported]
    exact h.reported
  · rw [ha.session, ha.closing, ha.poller]
    exact h.posted
  · rw [ha.session, h.closed]
    exact (if_congr hand rfl rfl).symm
  · rw [ha.session, ha.poller, ha.slot]
    exact h.entered
  · rw [ha.session, ha.poller]
    exact h.handed
  · rw [ha.session, ha.poller, ha.closing]
    exact fun hno hok hlast => hdone (h.last hno hok hlast)

theorem schedule_aside (s : Remuxer) : Aside s s.schedule := by
  rcases s.schedule_cases with ⟨-, heq⟩ | ⟨-, hclosing, heq⟩
  · rw [heq]
    exact ⟨rfl, rfl, rfl, rfl, rfl, rfl, fun _ => rfl, rfl⟩
  · rw [heq]
    refine ⟨rfl, rfl, rfl, rfl, rfl, rfl, fun hon => ?_, rfl⟩
    rw [hclosing] at hon
    cases hon

theorem submitted_aside (s : Remuxer) (i : ℕ) (packet : Packet) (k : ℕ) :
    Aside s (s.submitted i packet k).2 := by
  have ha : Aside s (if s.packets = some k ∧ s.running = true then s.schedule else s) := by
    split
    · exact s.schedule_aside
    · exact ⟨rfl, rfl, rfl, rfl, rfl, rfl, fun _ => rfl, rfl⟩
  exact ⟨ha.session, ha.running, ha.media, ha.reported, ha.closing, ha.poller, ha.tasks, ha.slot⟩

theorem drain_aside (hc : Coherent s) : Aside s s.drain := by
  have hd := hc.drain.2.1
  have hreported : s.drain.errorReported = s.errorReported := by
    rcases s.drain_cases with ⟨-, heq⟩ | ⟨hrunning, -, heq⟩
    · rw [heq]
    · rw [heq]
      rcases beginDraining_cases (hc.live hrunning).packets with ⟨-, heq⟩ | ⟨-, -, heq⟩
      · rw [heq]
      · rw [heq]
  refine ⟨hd.session, hd.running, hd.media, hreported, hd.closing, hd.poller, hd.tasks, ?_⟩
  rw [slot, slot, hd.session]
  rcases hd.queues s.session with hq | hq
  · rw [hq]
  · rw [hq]

/-- The last batch, the end of `Process` and the closing of the session all come while the session drains. -/
theorem Live.draining_of_last (h : Live s) (hmedia : s.media = some media)
    (hlast : s.poller = .closing ∨ s.closing = true ∨ ∃ batch, media.batch = some batch ∧ batch.finish = true) :
    s.draining = true := by
  rcases hlast with hpoller | hclosing | ⟨batch, hbatch, hfinish⟩
  · exact h.ending hpoller
  · exact (h.closing hclosing).2
  · by_cases hpoller : s.poller = .emitting
    · obtain ⟨-, batch', hbatch', hdraining⟩ := (h.batch media hmedia).1 hpoller
      rw [hbatch] at hbatch'
      obtain rfl := Option.some.inj hbatch'
      exact hdraining hfinish
    · rw [(h.batch media hmedia).2 hpoller] at hbatch
      cases hbatch

/-- **A packet is accepted.** -/
theorem Books.accept (h : Books streams recordOnly l s media) (hlive : Live s) (hmedia : s.media = some media)
    (hopen : (s.queues s.session).closed = false) (hempty : s.slot = []) (packet : Packet)
    (producers : ℕ → Producer) :
    Books streams recordOnly (l ++ [.accepted s.session packet])
      { s with queues := Function.update s.queues s.session { s.queues s.session with queue := [packet] }
               producers := producers } media := by
  have hevents : mediaEvents (l ++ [.accepted s.session packet]) = mediaEvents l :=
    (mediaEvents_append ..).trans (List.append_nil _)
  have herrored : ∀ {e : Event}, e ≠ .accepted s.session packet →
      (e ∈ l ++ [.accepted s.session packet] ↔ e ∈ l) := by
    intro e he
    rw [List.mem_append, List.mem_singleton]
    exact or_iff_left he
  have hne : Event.errored s.session ≠ .accepted s.session packet := fun hno => by cases hno
  refine ⟨List.mem_append_left _ h.started, ?_, fun hr => List.mem_append_left _ (h.reported hr), ?_, ?_,
    fun hno hok => ?_, fun hno hok => ?_, fun _ _ hlast => ?_⟩
  · rw [hevents]
    exact h.kept
  · rw [List.count_append]
    exact h.posted
  · rw [List.count_append]
    exact h.closed
  · have hbefore := h.entered (fun hyes => hno ((herrored hne).mpr hyes)) hok
    rw [hempty, List.append_nil] at hbefore
    have hslot : (Function.update s.queues s.session { s.queues s.session with queue := [packet] }
        s.session).queue = [packet] := by rw [Function.update_self]
    rw [acceptedPackets_append, hbefore, hevents]
    exact congrArg _ hslot.symm
  · rw [hevents]
    exact h.handed (fun hyes => hno ((herrored hne).mpr hyes)) hok
  · exfalso
    have hclosed := (hlive.closed_of_draining (hlive.draining_of_last hmedia hlast)).2
    rw [hopen] at hclosed
    cases hclosed

/-- **The error of a session**; from then on the books only count. -/
theorem Books.error (h : Books streams recordOnly l s media) (hrunning : s.running = true) (hlive : Live s) :
    Books streams recordOnly (l ++ s.error.1) s.error.2 media ∧
      (s.errorReported = true ∨ .errored s.session ∈ l ++ s.error.1) := by
  rcases s.error_cases with ⟨hoff, heq⟩ | ⟨-, hreported, heq⟩
  · rw [heq, List.append_nil]
    refine ⟨h, .inl ?_⟩
    rcases hoff with hoff | hon
    · rw [hrunning] at hoff
      cases hoff
    · exact hon
  · have hd := beginDraining_drains hlive.packets true
    rw [heq]
    have hlisted : Event.errored s.session ∈ l ++ [.errored s.session] :=
      List.mem_append_right _ (List.mem_singleton_self _)
    have hevents : mediaEvents (l ++ [.errored s.session]) = mediaEvents l :=
      (mediaEvents_append ..).trans (List.append_nil _)
    refine ⟨⟨?_, ?_, fun _ => ?_, ?_, ?_, fun hno => ?_, fun hno => ?_, fun hno => ?_⟩, .inr hlisted⟩
    · rw [hd.session]
      exact List.mem_append_left _ h.started
    · rw [hevents]
      exact h.kept
    · rw [hd.session]
      exact hlisted
    · rw [hd.session, hd.closing, hd.poller, List.count_append]
      exact h.posted
    · have hand : (s.closing = true ∧ ({ s with errorReported := true } : Remuxer).beginDraining.tasks = [.complete])
          ↔ (s.closing = true ∧ s.tasks = [.complete]) :=
        and_congr_right fun hon => by rw [hd.tasks hon]
      rw [hd.session, hd.closing, List.count_append]
      exact h.closed.trans (if_congr hand rfl rfl).symm
    · rw [hd.session] at hno
      exact absurd hlisted hno
    · rw [hd.session] at hno
      exact absurd hlisted hno
    · rw [hd.session] at hno
      exact absurd hlisted hno

/-- Where nothing was posted yet. -/
theorem Books.counts (h : Books streams recordOnly l s media) (hclosing : s.closing = false) :
    l.count (.finishPosted s.session) = 0 ∧ l.count (.outputClosed s.session) = 0 := by
  have hposted := h.posted
  have hclosed := h.closed
  rw [if_neg (by simp [hclosing])] at hposted hclosed
  exact ⟨hposted, hclosed⟩

theorem count_media (new : List MediaEvent) (k : ℕ) :
    (new.map (Event.media k)).count (.finishPosted k) = 0 ∧
      (new.map (Event.media k)).count (.outputClosed k) = 0 ∧ Event.errored k ∉ new.map (Event.media k) := by
  refine ⟨?_, ?_, ?_⟩
  · exact List.count_eq_zero.mpr fun hmem => by simp at hmem
  · exact List.count_eq_zero.mpr fun hmem => by simp at hmem
  · intro hmem
    simp at hmem

section

variable [Libav]

/-- **`Process` under the lock.** -/
theorem Books.collect (hexact : ExactCompare) (h : Books streams recordOnly l s media) (hc : Coherent s)
    (hrunning : s.running = true) (hclosing : s.closing = false) (hpoller : s.poller = .idle)
    (hmedia : s.media = some media) {new : List Event}
    (hprocess : processLocked { s with tasks := [] } = some (new, s')) :
    ∃ media', s'.media = some media' ∧ Books streams recordOnly (l ++ new) s' media' := by
  have hlive := hc.live hrunning
  have hnone : media.batch = none := (hlive.batch media hmedia).2 (by simp [hpoller])
  have hpending : media.pending = [] := by rw [pending, hnone]
  obtain ⟨hposted, hclosed⟩ := h.counts hclosing
  obtain ⟨more, answer, next, hcollect, rfl, hcases⟩ :=
    processLocked_cases (s := { s with tasks := [] }) hrunning hclosing hlive.packets hmedia hprocess
  obtain ⟨hno, hno', hnoerror⟩ := count_media more s.session
  have hevents : mediaEvents (l ++ more.map (.media s.session)) = mediaEvents l ++ more := by
    rw [mediaEvents_append, mediaEvents_media]
  have haccepted : acceptedPackets (l ++ more.map (.media s.session)) = acceptedPackets l := by
    rw [acceptedPackets_append, acceptedPackets_media, List.append_nil]
  have hlater : ∀ {e : Event}, e ∈ l → e ∈ l ++ more.map (.media s.session) := fun he => List.mem_append_left _ he
  have hearlier : Event.errored s.session ∉ l ++ more.map (.media s.session) → .errored s.session ∉ l :=
    fun hnot hyes => hnot (hlater hyes)
  have hcount : (l ++ more.map (Event.media s.session)).count (Event.finishPosted s.session) = 0 ∧
      (l ++ more.map (Event.media s.session)).count (Event.outputClosed s.session) = 0 := by
    rw [List.count_append, List.count_append, hposted, hclosed, hno, hno']
    exact ⟨rfl, rfl⟩
  have hslot : (Function.update s.queues s.session
      { s.queues s.session with queue := (s.queues s.session).queue.tail } s.session).queue = [] := by
    rw [handoff_taken hc]
    exact if_pos rfl
  rcases hcases with ⟨⟨e, rfl⟩, rfl⟩ | ⟨rfl, rfl⟩
  · refine ⟨_, rfl, ⟨hlater h.started, ?_, fun hr => hlater (h.reported hr), ?_, ?_, fun _ hok => absurd rfl hok,
      fun _ hok => absurd rfl hok, fun _ hok => absurd rfl hok⟩⟩
    · have hkept := h.kept.collect_error hexact hcollect
      rw [hevents]
      exact ⟨hkept.valid, hkept.merging, hkept.drained⟩
    · rw [if_neg (by simp [hclosing])]
      exact hcount.1
    · rw [if_neg (by simp [hclosing])]
      exact hcount.2
  · obtain ⟨hkept, hin, hout, hrecorded, hconverted, hflag, hflushed⟩ := h.kept.collect hexact hcollect
    have hfinish : ∃ batch, next.batch = some batch ∧ batch.finish = s.draining := by
      obtain ⟨pushed, packets, first, interleaver, -, -, -, rfl⟩ := collect_ok hcollect
      exact ⟨_, rfl, rfl⟩
    refine ⟨_, rfl, ⟨hlater h.started, ?_, fun hr => hlater (h.reported hr), ?_, ?_, fun hnot _ => ?_,
      fun hnot _ => ?_, fun hnot _ hlast => ?_⟩⟩
    · rw [hevents]
      exact hkept
    · rw [if_neg (by simp [hclosing])]
      exact hcount.1
    · rw [if_neg (by simp [hclosing])]
      exact hcount.2
    · have hbefore := h.entered (hearlier hnot) (by simp [hpoller])
      have hhead : s.slot = (s.queues s.session).queue.head?.toList := by
        have hle := (hc.capacity s.session).2
        rw [slot]
        cases hqueue : (s.queues s.session).queue with
        | nil => rfl
        | cons packet rest =>
          rw [hqueue, List.length_cons] at hle
          have hrest : rest = [] := List.eq_nil_of_length_eq_zero (by omega)
          rw [hrest]
          rfl
      rw [haccepted, hbefore, hevents, interleavedPackets_append, hin, hhead]
      exact (List.append_nil _).symm.trans (congrArg _ hslot.symm)
    · have hbefore := h.handed (hearlier hnot) (by simp [hpoller])
      rw [hevents]
      refine ⟨?_, ?_, fun hon => ?_⟩
      · rw [poppedPackets_append, recordedPackets_append, hbefore.recorded, hpending, hout, hrecorded,
          List.append_nil]
      · rw [recordedPackets_append, conversions_append, hrecorded, hconverted, List.append_nil, List.append_nil]
        exact hbefore.converted
      · rw [conversions_append, hconverted, List.append_nil]
        exact hbefore.waiting (hflag.symm.trans hon)
    · have hdraining : s.draining = true := by
        rcases hlast with hp | hcl | ⟨batch, hbatch, hf⟩
        · cases hp
        · have hon : s.closing = true := hcl
          rw [hclosing] at hon
          cases hon
        · obtain ⟨batch', hbatch', hd⟩ := hfinish
          rw [hbatch] at hbatch'
          obtain rfl := Option.some.inj hbatch'
          exact hd.symm.trans hf
      exact ⟨hflushed hdraining, hslot⟩

/-- **`Process` after the lock.** -/
theorem Books.emit (h : Books streams recordOnly l s media) (hlive : Live s) (hpoller : s.poller = .emitting)
    (hmedia : s.media = some media) {outlets : Outlets}
    {new : List Event} (hprocess : s.processEmit outlets = some (new, s')) :
    ∃ media', s'.media = some media' ∧ Books streams recordOnly (l ++ new) s' media' := by
  have hclosing : s.closing = false := hlive.notClosing (by simp [hpoller]) (by simp [hpoller])
  obtain ⟨hposted, hclosed⟩ := h.counts hclosing
  obtain ⟨batch, more, answer, next, hbatch, hemit, rfl, rfl⟩ := processEmit_cases hmedia hprocess
  obtain ⟨hkept, hin, hout, hsame, hflag, hnone, hdelivered⟩ := h.kept.emit hemit
  obtain ⟨hno, hno', hnoerror⟩ := count_media more s.session
  have hpending : media.pending = batch.packets := by rw [pending, hbatch]
  have hevents : mediaEvents (l ++ more.map (.media s.session)) = mediaEvents l ++ more := by
    rw [mediaEvents_append, mediaEvents_media]
  have haccepted : acceptedPackets (l ++ more.map (.media s.session)) = acceptedPackets l := by
    rw [acceptedPackets_append, acceptedPackets_media, List.append_nil]
  have hlater : ∀ {e : Event}, e ∈ l → e ∈ l ++ more.map (.media s.session) := fun he => List.mem_append_left _ he
  have hearlier : Event.errored s.session ∉ l ++ more.map (.media s.session) → .errored s.session ∉ l :=
    fun hnot hyes => hnot (hlater hyes)
  have hkept' : ∀ closing, Kept streams (mediaEvents l ++ more) { next with closing := closing } := fun _ =>
    ⟨hkept.valid, hkept.merging, hkept.drained⟩
  refine ⟨_, rfl, ⟨hlater h.started, ?_, fun hr => hlater (h.reported hr), ?_, ?_, fun hnot hok => ?_,
    fun hnot hok => ?_, fun hnot hok hlast => ?_⟩⟩
  · rw [hevents]
    cases answer with
    | error e => exact hkept' _
    | ok u => exact hkept' _
  · rw [List.count_append, hposted, hno]
    exact (if_neg fun hon => by simp [hclosing] at hon).symm
  · rw [List.count_append, hclosed, hno']
    exact (if_neg fun hon => by simp [hclosing] at hon).symm
  · rw [haccepted, h.entered (hearlier hnot) (by simp [hpoller]), hevents, interleavedPackets_append, hin,
      List.append_nil]
    rfl
  · cases answer with
    | error e => exact absurd rfl hok
    | ok u =>
      have hbefore := h.handed (hearlier hnot) (by simp [hpoller])
      obtain ⟨hrecorded, hconverted⟩ := hdelivered rfl
      obtain ⟨skipped, hskipped, hnothing⟩ := hbefore.converted
      rw [hevents]
      refine ⟨?_, ?_, fun hon => ?_⟩
      · rw [poppedPackets_append, recordedPackets_append, hbefore.recorded, hpending, hout, hrecorded,
          List.append_nil]
        have hempty : (next.close (.ok u) batch.finish).pending = [] := by
          rw [pending]
          rw [show (next.close (.ok u) batch.finish).batch = none from hnone]
        rw [hempty, List.append_nil]
      · rw [recordedPackets_append, conversions_append, List.map_append, hrecorded, hconverted, hskipped]
        by_cases hwait : media.recordOnly = true
        · obtain ⟨hrecord, hempty⟩ := hbefore.waiting hwait
          rw [if_pos hwait, hempty, List.map_nil, List.append_nil, List.append_nil]
          refine ⟨_, (List.append_nil _).symm, fun hoff => ?_⟩
          rw [hrecord] at hoff
          cases hoff
        · rw [if_neg hwait, List.append_assoc]
          exact ⟨skipped, rfl, hnothing⟩
      · have hwait : media.recordOnly = true := hflag.symm.trans hon
        obtain ⟨hrecord, hempty⟩ := hbefore.waiting hwait
        rw [if_pos hwait] at hconverted
        rw [conversions_append, hempty, List.map_eq_nil_iff.mp hconverted]
        exact ⟨hrecord, rfl⟩
  · have hnobatch : ∀ batch', (next.close answer batch.finish).batch ≠ some batch' := by
      intro batch' hyes
      have hsome : next.batch = some batch' := by
        cases answer with
        | error e => exact hyes
        | ok u => exact hyes
      rw [hnone] at hsome
      cases hsome
    have hfinish : batch.finish = true := by
      rcases hlast with hp | hon | ⟨batch', hyes, -⟩
      · cases answer with
        | error e => cases hp
        | ok u =>
          by_contra hoff
          rw [Bool.not_eq_true] at hoff
          dsimp only at hp
          rw [hoff] at hp
          cases hp
      · have hyes : s.closing = true := hon
        rw [hclosing] at hyes
        cases hyes
      · exact absurd hyes (hnobatch batch')
    obtain ⟨hflushed, hempty⟩ := h.last (hearlier hnot) (by simp [hpoller]) (.inr (.inr ⟨batch, hbatch, hfinish⟩))
    refine ⟨?_, hempty⟩
    have hflushed' : next.interleaver.flushed = true := by rw [hsame]; exact hflushed
    cases answer with
    | error e => exact hflushed'
    | ok u => exact hflushed'

/-- **The steps of the poller** between two sessions' ends. -/
theorem Books.polled (hexact : ExactCompare) (h : Books streams recordOnly l s media) (hc : Coherent s)
    (hmedia : s.media = some media) {outlets : Outlets}
    {new : List Event} (hp : Polled s outlets new s') (hrunning : s'.running = true) :
    ∃ media', s'.media = some media' ∧ Books streams recordOnly (l ++ new) s' media' := by
  cases hp with
  | collect hon hclosing hpoller _ hprocess => exact h.collect hexact hc hon hclosing hpoller hmedia hprocess
  | skip hon hclosing hpoller htasks =>
    refine ⟨media, hmedia, ?_⟩
    rw [List.append_nil]
    have hclosed := h.closed
    rw [if_neg (by simp [htasks])] at hclosed
    exact { h with closed := by rw [hclosed, if_neg (by simp)] }
  | finish hon hclosing hpoller htasks =>
    refine ⟨media, hmedia, ?_⟩
    have hclosed := h.closed
    rw [if_neg (by simp [htasks])] at hclosed
    have hevents : mediaEvents (l ++ [.outputClosed s.session]) = mediaEvents l :=
      (mediaEvents_append ..).trans (List.append_nil _)
    have haccepted : acceptedPackets (l ++ [.outputClosed s.session]) = acceptedPackets l :=
      (acceptedPackets_append ..).trans (List.append_nil _)
    have hlisted : Event.errored s.session ∈ l ++ [.outputClosed s.session] ↔ .errored s.session ∈ l := by simp
    refine ⟨List.mem_append_left _ h.started, ?_, fun hr => List.mem_append_left _ (h.reported hr), ?_, ?_, ?_, ?_,
      ?_⟩
    · rw [hevents]
      exact h.kept
    · rw [List.count_append]
      exact h.posted
    · rw [List.count_append, hclosed, if_pos ⟨hclosing, rfl⟩, Nat.zero_add]
      exact List.count_singleton_self
    · rw [hlisted, haccepted, hevents]
      exact h.entered
    · rw [hlisted, hevents]
      exact h.handed
    · rw [hlisted]
      exact h.last
  | complete hon hclosing hpoller htasks => cases hrunning
  | emit hon hpoller hprocess => exact h.emit (hc.live hon) hpoller hmedia hprocess
  | fail hon hpoller =>
    have hd := hc.error.2.1
    have hclosing : s.closing = false := (hc.live hon).notClosing (by simp [hpoller]) (by simp [hpoller])
    obtain ⟨hbooks, hreported⟩ := h.error hon (hc.live hon)
    have hlisted : Event.errored s.session ∈ l ++ s.error.1 := by
      rcases hreported with hr | hr
      · exact List.mem_append_left _ (h.reported hr)
      · exact hr
    have hlisted' : Event.errored s.error.2.session ∈ l ++ s.error.1 := by
      rw [hd.session]
      exact hlisted
    have hoff : s.error.2.closing = false := hd.closing.trans hclosing
    refine ⟨media, hd.media.trans hmedia, { hbooks with
      posted := ?_
      closed := ?_
      entered := fun hno => absurd hlisted' hno
      handed := fun hno => absurd hlisted' hno
      last := fun hno => absurd hlisted' hno }⟩
    · rw [if_neg (by simp [hoff])]
      exact (hbooks.counts hoff).1
    · rw [if_neg (by simp [hoff])]
      exact (hbooks.counts hoff).2
  | close hon hpoller =>
    have hlive := hc.live hon
    have hclosing : s.closing = false := hlive.notClosing (by simp [hpoller]) (by simp [hpoller])
    have hclose : closePackets { s with accepting := false }
        = { s with accepting := false, queues := s.closedQueues } :=
      closePackets_eq (s := { s with accepting := false }) hlive.packets
    have hslot : (s.closedQueues s.session).queue = s.slot := by
      rw [closedQueues, Function.update_self]
      rfl
    have htasks : s.tasks ≠ [.complete] := by
      rcases (hlive.open_ hclosing).tasks with htasks | ⟨htasks, -⟩
      · simp [htasks]
      · simp [htasks]
    rw [List.append_nil, hclose]
    refine ⟨media, hmedia, ⟨h.started, h.kept, h.reported, ?_, ?_, fun hno _ => ?_, fun hno _ => ?_,
      fun hno _ _ => ?_⟩⟩
    · rw [if_neg (by simp)]
      exact (h.counts hclosing).1
    · rw [if_neg (by simp [htasks])]
      exact (h.counts hclosing).2
    · exact (h.entered hno (by simp [hpoller])).trans (congrArg _ hslot.symm)
    · exact h.handed hno (by simp [hpoller])
    · obtain ⟨hflushed, hempty⟩ := h.last hno (by simp [hpoller]) (.inl hpoller)
      exact ⟨hflushed, hslot.trans hempty⟩
  | flush hon hclosing hpoller htasks =>
    refine ⟨media, hmedia, ?_⟩
    have hposted := h.posted
    have hclosed := h.closed
    rw [if_neg (by simp [hpoller])] at hposted
    rw [if_neg (by rcases htasks with htasks | htasks <;> simp [htasks])] at hclosed
    have hevents : mediaEvents (l ++ [.finishPosted s.session]) = mediaEvents l :=
      (mediaEvents_append ..).trans (List.append_nil _)
    have haccepted : acceptedPackets (l ++ [.finishPosted s.session]) = acceptedPackets l :=
      (acceptedPackets_append ..).trans (List.append_nil _)
    have hlisted : Event.errored s.session ∈ l ++ [.finishPosted s.session] ↔ .errored s.session ∈ l := by simp
    refine ⟨List.mem_append_left _ h.started, ?_, fun hr => List.mem_append_left _ (h.reported hr), ?_, ?_,
      fun hno _ => ?_, fun hno _ => ?_, fun hno _ _ => ?_⟩
    · rw [hevents]
      exact h.kept
    · rw [List.count_append, hposted, if_pos ⟨hclosing, by simp⟩, Nat.zero_add]
      exact List.count_singleton_self
    · rw [List.count_append, hclosed, if_neg (by rcases htasks with htasks | htasks <;> simp [htasks])]
      rfl
    · rw [haccepted, hevents]
      exact h.entered (fun hyes => hno (hlisted.mpr hyes)) (by simp [hpoller])
    · rw [hevents]
      exact h.handed (fun hyes => hno (hlisted.mpr hyes)) (by simp [hpoller])
    · exact h.last (fun hyes => hno (hlisted.mpr hyes)) (by simp [hpoller]) (.inr (.inl hclosing))
  | notify hoff hpoller =>
    have hno : s.running = true := hrunning
    rw [hoff] at hno
    cases hno

end

/-! ### The end of a session -/

/-- Every packet the handoff queue accepted was recorded once, in the order of its track, and from the first
protocol output on it was converted. -/
def Balanced (recordOnly : Bool) (l : List Event) : Prop :=
  (∀ i, ofTrack Packet.streamIndex i (recordedPackets (mediaEvents l))
    = ofTrack Packet.streamIndex i (acceptedPackets l)) ∧
  ∃ skipped, recordedPackets (mediaEvents l) = skipped ++ (conversions (mediaEvents l)).map Prod.fst ∧
    (recordOnly = false → skipped = [])

/-- **A session that has closed without an error has handed on what it accepted.** -/
theorem Books.balanced (h : Books streams recordOnly l s media) (hclosing : s.closing = true)
    (hok : s.poller ≠ .failed) (hbatch : media.batch = none) (hhealthy : .errored s.session ∉ l) :
    Balanced recordOnly l := by
  obtain ⟨hflushed, hempty⟩ := h.last hhealthy hok (.inr (.inl hclosing))
  have hpending : media.pending = [] := by rw [pending, hbatch]
  have hhanded := h.handed hhealthy hok
  refine ⟨fun i => ?_, hhanded.converted⟩
  obtain ⟨history, hm, hpushed, hreleased⟩ := h.kept.merging
  have hconserved := hm.conserved i
  rw [h.kept.drained hflushed, List.append_nil, hpushed, hreleased, hhanded.recorded, hpending,
    List.append_nil] at hconserved
  rw [h.entered hhealthy hok, hempty, List.append_nil]
  exact hconserved

/-- **A session that is over.** -/
structure Settled (k : ℕ) (l : List Event) : Prop where
  posted : l.count (.finishPosted k) = 1
  closed : l.count (.outputClosed k) = 1
  balanced : ∃ streams recordOnly, .started k streams recordOnly ∈ l ∧ (.errored k ∉ l → Balanced recordOnly l)

theorem Books.settled (h : Books streams recordOnly l s media) (hlive : Live s) (hmedia : s.media = some media)
    (hclosing : s.closing = true) (hpoller : s.poller = .idle) (htasks : s.tasks = [.complete]) :
    Settled s.session l := by
  have hposted := h.posted
  have hclosed := h.closed
  rw [if_pos ⟨hclosing, by simp [hpoller]⟩] at hposted
  rw [if_pos ⟨hclosing, htasks⟩] at hclosed
  have hbatch : media.batch = none := (hlive.batch media hmedia).2 (by simp [hpoller])
  exact ⟨hposted, hclosed, streams, recordOnly, h.started,
    fun hhealthy => h.balanced hclosing (by simp [hpoller]) hbatch hhealthy⟩

/-- The books of all sessions. -/
structure Ledger (events : List Event) (s : Remuxer) : Prop where
  fresh : ∀ k, k = 0 ∨ s.session < k → sessionEvents k events = []
  present : s.running = true → 1 ≤ s.session ∧ ∃ streams recordOnly media, s.media = some media ∧
    Books streams recordOnly (sessionEvents s.session events) s media
  settled : ∀ k, 1 ≤ k → (k < s.session ∨ k = s.session ∧ s.running = false) →
    Settled k (sessionEvents k events)

variable {events new : List Event}

theorem ledger_init : Ledger [] {} where
  fresh _ _ := rfl
  present hno := by cases hno
  settled k hk hover := by
    have hzero : k < 0 ∨ k = 0 ∧ false = false := hover
    omega

/-- A step within a session, or between two. -/
theorem Ledger.within (h : Ledger events s) (hsession : s'.session = s.session) (hrunning : s'.running = s.running)
    (hothers : ∀ k, k ≠ s.session ∨ s.running = false → sessionEvents k new = [])
    (hbooks : s.running = true → ∀ streams recordOnly media, s.media = some media →
      Books streams recordOnly (sessionEvents s.session events) s media →
      ∃ media', s'.media = some media' ∧
        Books streams recordOnly (sessionEvents s.session events ++ sessionEvents s.session new) s' media') :
    Ledger (events ++ new) s' := by
  refine ⟨fun k hk => ?_, fun hon => ?_, fun k hk hover => ?_⟩
  · rw [hsession] at hk
    have hnone : sessionEvents k new = [] := by
      apply hothers
      cases hon : s.running with
      | false => exact .inr rfl
      | true =>
        have hpos := (h.present hon).1
        exact .inl (by omega)
    rw [sessionEvents_append, h.fresh k hk, hnone]
    rfl
  · rw [hrunning] at hon
    obtain ⟨hpos, streams, recordOnly, media, hmedia, hb⟩ := h.present hon
    obtain ⟨media', hmedia', hb'⟩ := hbooks hon streams recordOnly media hmedia hb
    rw [hsession, sessionEvents_append]
    exact ⟨hpos, streams, recordOnly, media', hmedia', hb'⟩
  · rw [hsession, hrunning] at hover
    have hnone : sessionEvents k new = [] := by
      apply hothers
      rcases hover with hlt | ⟨-, hoff⟩
      · exact .inl (by omega)
      · exact .inr hoff
    rw [sessionEvents_append, hnone, List.append_nil]
    exact h.settled k hk hover

/-- A step without an event of a session. -/
theorem Ledger.aside (h : Ledger events s) (ha : Aside s s') (hnone : ∀ k, sessionEvents k new = []) :
    Ledger (events ++ new) s' := by
  refine h.within ha.session ha.running (fun k _ => hnone k) fun _ _ _ media hmedia hb => ?_
  rw [hnone, List.append_nil]
  exact ⟨media, ha.media.trans hmedia, hb.aside ha⟩

theorem sessionEvents_media (k j : ℕ) (new : List MediaEvent) :
    sessionEvents k (new.map (.media j)) = if k = j then new.map (.media j) else [] := by
  rw [sessionEvents]
  split
  · rename_i heq
    rw [List.filter_eq_self]
    intro e he
    obtain ⟨event, -, rfl⟩ := List.mem_map.mp he
    simp [Event.ofSession, heq]
  · rename_i hne
    rw [List.filter_eq_nil_iff]
    intro e he
    obtain ⟨event, -, rfl⟩ := List.mem_map.mp he
    simp [Event.ofSession, Ne.symm hne]

theorem sessionEvents_error (k : ℕ) (s : Remuxer) :
    sessionEvents k s.error.1 = if k = s.session then s.error.1 else [] := by
  rcases s.error_cases with ⟨-, heq⟩ | ⟨-, -, heq⟩
  · rw [heq]
    split <;> rfl
  · rw [heq]
    split
    · rename_i hk
      simp [sessionEvents, Event.ofSession, hk]
    · rename_i hk
      simp [sessionEvents, Event.ofSession, Ne.symm hk]

section

variable [Libav]

theorem Polled.sessionEvents_eq (hc : Coherent s) {outlets : Outlets}
    (hp : Polled s outlets new s') (k : ℕ) :
    sessionEvents k new = if k = s.session then new else [] := by
  cases hp with
  | collect hon hclosing hpoller _ hprocess =>
    obtain ⟨media, hmedia⟩ := (hc.live hon).media
    obtain ⟨more, -, -, -, rfl, -⟩ :=
      processLocked_cases (s := { s with tasks := [] }) hon hclosing (hc.live hon).packets hmedia hprocess
    exact sessionEvents_media ..
  | emit hon hpoller hprocess =>
    obtain ⟨media, hmedia⟩ := (hc.live hon).media
    obtain ⟨-, more, -, -, -, -, rfl, -⟩ := processEmit_cases hmedia hprocess
    exact sessionEvents_media ..
  | fail hon hpoller => exact sessionEvents_error ..
  | skip => split <;> rfl
  | complete => split <;> rfl
  | close => split <;> rfl
  | notify => split <;> rfl
  | finish =>
    by_cases hk : k = s.session
    · simp [sessionEvents, Event.ofSession, hk]
    · simp [sessionEvents, Event.ofSession, hk, Ne.symm hk]
  | flush =>
    by_cases hk : k = s.session
    · simp [sessionEvents, Event.ofSession, hk]
    · simp [sessionEvents, Event.ofSession, hk, Ne.symm hk]

theorem Polled.session (hc : Coherent s) {outlets : Outlets}
    (hp : Polled s outlets new s') : s'.session = s.session := by
  cases hp with
  | collect hon hclosing hpoller _ hprocess =>
    obtain ⟨media, hmedia⟩ := (hc.live hon).media
    obtain ⟨more, -, -, -, -, ⟨-, rfl⟩ | ⟨-, rfl⟩⟩ :=
      processLocked_cases (s := { s with tasks := [] }) hon hclosing (hc.live hon).packets hmedia hprocess
    · rfl
    · rfl
  | emit hon hpoller hprocess =>
    obtain ⟨media, hmedia⟩ := (hc.live hon).media
    obtain ⟨-, more, -, -, -, -, -, rfl⟩ := processEmit_cases hmedia hprocess
    rfl
  | fail hon hpoller => exact hc.error.2.1.session
  | close hon hpoller =>
    rw [closePackets_eq (s := { s with accepting := false }) (hc.live hon).packets]
  | skip => rfl
  | complete => rfl
  | notify => rfl
  | finish => rfl
  | flush => rfl

/-- Only the last task ends a session. -/
theorem Polled.ends (hc : Coherent s) {outlets : Outlets}
    (hp : Polled s outlets new s') :
    s'.running = s.running ∨ new = [] ∧ s.running = true ∧ s.closing = true ∧ s.poller = .idle ∧
      s.tasks = [.complete] ∧ s'.running = false := by
  cases hp with
  | complete hon hclosing hpoller htasks => exact .inr ⟨rfl, hon, hclosing, hpoller, htasks, rfl⟩
  | collect hon hclosing hpoller _ hprocess =>
    obtain ⟨media, hmedia⟩ := (hc.live hon).media
    obtain ⟨more, -, -, -, -, ⟨-, rfl⟩ | ⟨-, rfl⟩⟩ :=
      processLocked_cases (s := { s with tasks := [] }) hon hclosing (hc.live hon).packets hmedia hprocess
    · exact .inl rfl
    · exact .inl rfl
  | emit hon hpoller hprocess =>
    obtain ⟨media, hmedia⟩ := (hc.live hon).media
    obtain ⟨-, more, -, -, -, -, -, rfl⟩ := processEmit_cases hmedia hprocess
    exact .inl rfl
  | fail hon hpoller => exact .inl hc.error.2.1.running
  | close hon hpoller =>
    rw [closePackets_eq (s := { s with accepting := false }) (hc.live hon).packets]
    exact .inl rfl
  | skip => exact .inl rfl
  | notify => exact .inl rfl
  | finish => exact .inl rfl
  | flush => exact .inl rfl

/-- **The poller and the books.** -/
theorem Ledger.poll (hexact : ExactCompare) (h : Ledger events s) (hc : Coherent s)
    {outlets : Outlets} (hp : Polled s outlets new s') :
    Ledger (events ++ new) s' := by
  have hsession := hp.session hc
  have hevents := hp.sessionEvents_eq hc
  by_cases hsame : s'.running = s.running
  · refine h.within hsession hsame (fun k hk => ?_) fun hon streams recordOnly media hmedia hb => ?_
    · rw [hevents]
      rcases hk with hk | hoff
      · rw [if_neg hk]
      · cases hp with
        | notify => split <;> rfl
        | collect hon => simp [hoff] at hon
        | skip hon => simp [hoff] at hon
        | finish hon => simp [hoff] at hon
        | complete hon => simp [hoff] at hon
        | emit hon => simp [hoff] at hon
        | fail hon => simp [hoff] at hon
        | close hon => simp [hoff] at hon
        | flush hon => simp [hoff] at hon
    · rw [hevents, if_pos rfl]
      exact hb.polled hexact hc hmedia hp (hsame.trans hon)
  · obtain ⟨rfl, hon, hclosing, hpoller, htasks, hoff⟩ := (hp.ends hc).resolve_left hsame
    obtain ⟨-, streams, recordOnly, media, hmedia, hb⟩ := h.present hon
    have hsettled := hb.settled (hc.live hon) hmedia hclosing hpoller htasks
    rw [List.append_nil]
    refine ⟨fun k hk => ?_, fun hyes => ?_, fun k hk hover => ?_⟩
    · rw [hsession] at hk
      exact h.fresh k hk
    · rw [hoff] at hyes
      cases hyes
    · rw [hsession] at hover
      rcases hover with hlt | ⟨rfl, -⟩
      · exact h.settled k hk (.inl hlt)
      · exact hsettled

omit [Libav] in
/-- **A `Start` opens new books.** -/
theorem Ledger.commit (h : Ledger events s) (hrunning : s.running = false) (hpoller : s.poller = .idle)
    (streams : List StreamInfo) (recordOnly : Bool) :
    Ledger (events ++ (s.commit streams recordOnly).1) (s.commit streams recordOnly).2 := by
  rw [Remuxer.commit]
  cases hcreate : MediaSession.create streams recordOnly with
  | error e => exact h.aside ⟨rfl, rfl, rfl, rfl, rfl, rfl, fun _ => rfl, rfl⟩ fun _ => rfl
  | ok media =>
    obtain ⟨hkept, hhanded⟩ := kept_create hcreate
    obtain ⟨-, -, -, hbatch, -, -⟩ := MediaSession.create_ok hcreate
    have hown : sessionEvents (s.session + 1) (events ++ [.started (s.session + 1) streams recordOnly])
        = [.started (s.session + 1) streams recordOnly] := by
      rw [sessionEvents_append, h.fresh _ (.inr (by omega))]
      simp [sessionEvents, Event.ofSession]
    have hother : ∀ k, k ≠ s.session + 1 →
        sessionEvents k (events ++ [.started (s.session + 1) streams recordOnly]) = sessionEvents k events := by
      intro k hk
      rw [sessionEvents_append]
      simp [sessionEvents, Event.ofSession, Ne.symm hk]
    have hslot : (Function.update s.queues (s.session + 1) ({ capacity := 1 } : BlockingQueue Packet)
        (s.session + 1)).queue = [] := by rw [Function.update_self]
    refine ⟨fun k hk => ?_, fun _ => ⟨Nat.succ_pos _, streams, recordOnly, media, rfl, ?_⟩, fun k hk hover => ?_⟩
    · dsimp only at hk
      rw [hother k (by omega)]
      exact h.fresh k (by omega)
    · dsimp only
      rw [hown]
      refine ⟨List.mem_singleton_self _, hkept, fun hno => (by cases hno), rfl, rfl, fun _ _ => hslot.symm,
        fun _ _ => hhanded, fun _ _ hlast => ?_⟩
      rcases hlast with hp | hno | ⟨batch, hyes, -⟩
      · simp [hpoller] at hp
      · cases hno
      · rw [hbatch] at hyes
        cases hyes
    · dsimp only at hover
      have hlt : k < s.session + 1 := by
        rcases hover with hlt | ⟨-, hno⟩
        · exact hlt
        · cases hno
      rw [hother k (by omega)]
      rcases Nat.lt_or_eq_of_le (Nat.le_of_lt_succ hlt) with hbefore | hlast
      · exact h.settled k hk (.inl hbefore)
      · exact h.settled k hk (.inr ⟨hlast, hrunning⟩)

/-- **Every step and the books.** -/
theorem Ledger.step (hexact : ExactCompare) (h : Ledger events s) (hc : Coherent s) {act : Act}
    (hstep : s.next act = some (new, s')) : Ledger (events ++ new) s' := by
  cases hc.stepped hstep with
  | submit => exact h.aside ⟨rfl, rfl, rfl, rfl, rfl, rfl, fun _ => rfl, rfl⟩ fun _ => rfl
  | refuse => exact h.aside ⟨rfl, rfl, rfl, rfl, rfl, rfl, fun _ => rfl, rfl⟩ fun _ => rfl
  | @accept i k packet throws hi hopen hempty =>
    obtain ⟨hon, rfl⟩ := hc.present hi hopen
    have hown : sessionEvents s.session [.accepted s.session packet] = [.accepted s.session packet] := by
      simp [sessionEvents, Event.ofSession]
    refine h.within rfl rfl (fun k hk => ?_) fun _ _ _ media hmedia hb => ?_
    · rcases hk with hk | hoff
      · simp [sessionEvents, Event.ofSession, Ne.symm hk]
      · simp [hoff] at hon
    · rw [hown]
      exact ⟨media, hmedia, hb.accept (hc.live hon) hmedia hopen hempty packet _⟩
  | submitted => exact h.aside (submitted_aside ..) fun _ => rfl
  | drain => exact h.aside (drain_aside hc) fun _ => rfl
  | error =>
    have hd := hc.error.2.1
    refine h.within hd.session hd.running (fun k hk => ?_) fun hon _ _ media hmedia hb => ?_
    · rw [sessionEvents_error]
      rcases hk with hk | hoff
      · rw [if_neg hk]
      · rcases s.error_cases with ⟨-, hno⟩ | ⟨hon, -, -⟩
        · rw [hno]
          split <;> rfl
        · rw [hoff] at hon
          cases hon
    · rw [sessionEvents_error, if_pos rfl]
      exact ⟨media, hd.media.trans hmedia, (hb.error hon (hc.live hon)).1⟩
  | poll hpoll => exact h.poll hexact hc (hc.polled hpoll)
  | addPrepared =>
    refine h.within rfl rfl (fun _ _ => rfl) fun _ _ _ media hmedia hb => ?_
    refine ⟨{ media with recordOnly := false }, by dsimp only; rw [hmedia]; rfl, ?_⟩
    rw [show sessionEvents s.session [] = [] from rfl, List.append_nil]
    exact { hb with
      kept := ⟨hb.kept.valid, hb.kept.merging, hb.kept.drained⟩
      handed := fun hno hok =>
        ⟨(hb.handed hno hok).recorded, (hb.handed hno hok).converted, fun hon => by cases hon⟩ }
  | commit streams recordOnly hcontrol hpoller htasks =>
    exact h.commit (hc.starting hcontrol) hpoller streams recordOnly
  | start => exact h.aside ⟨rfl, rfl, rfl, rfl, rfl, rfl, fun _ => rfl, rfl⟩ fun _ => rfl
  | abort => exact h.aside ⟨rfl, rfl, rfl, rfl, rfl, rfl, fun _ => rfl, rfl⟩ fun _ => rfl
  | stop =>
    have ha := drain_aside hc
    exact h.aside ⟨ha.session, ha.running, ha.media, ha.reported, ha.closing, ha.poller, ha.tasks, ha.slot⟩
      fun _ => rfl
  | sleep => exact h.aside ⟨rfl, rfl, rfl, rfl, rfl, rfl, fun _ => rfl, rfl⟩ fun _ => rfl
  | release hcontrol hoff => exact h.within rfl rfl (fun _ _ => rfl) fun hon => absurd hon (by simp [hoff])
  | wake => exact h.aside ⟨rfl, rfl, rfl, rfl, rfl, rfl, fun _ => rfl, rfl⟩ fun _ => rfl

/-- **The books of every run balance.** -/
theorem ledger (hexact : ExactCompare) (hrun : system.Run {} events s) : Ledger events s := by
  refine hrun.induct (.init rfl) ledger_init ?_
  rintro events s new s' hs h ⟨act, hact⟩
  exact h.step hexact (coherent hs) hact

end

end Remuxer

end MwStreamer
