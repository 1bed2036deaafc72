import MwStreamer.Decoder.AvDecoder

/-!
# What a decoder that is not stopped does

A step of a decoder that nobody stops and whose codec does not fail is calm, provided that the
worker sends only what the codec takes.
-/

namespace MwStreamer

namespace AvDecoder

/-- Neither stopped nor failed. -/
structure Quiet (s : AvDecoder) : Prop where
  stopping : s.stopping = false
  error : s.error = none
  packets : s.packets.closed = false
  frames : s.frames.closed = false
  failing : ∀ e, s.worker ≠ .failing e
  cleaning : ∀ left, s.worker ≠ .cleaning left
  done : s.worker ≠ .done

theorem Quiet.running {s : AvDecoder} (h : s.Quiet) : ¬s.stopping = true := by simp [h.stopping]

/-- What the codec takes of the worker. -/
def Sendable (s : AvDecoder) : Prop :=
  ∀ input, s.worker = .sending input → s.codec.ended = false ∧ s.codec.hungry = true ∧ input ≠ .reset

/-- A stop or a failure of the codec. -/
def Event.disturbs : Event → Bool
  | .stopRequested | .failed _ => true
  | _ => false

/-- `Push` lets the input in as far as the end of the stream goes. -/
def Admits (s : AvDecoder) (input : Input) : Prop := s.submittedEof = true → input = .reset

/-- A step of the producer. -/
inductive Produced (s : AvDecoder) : List Event → AvDecoder → Prop where
  | rejected {events : List Event} (h : events = [.refused] ∨ ∃ e, events = [.threw e]) : Produced s events s
  | waited (input : Input) (hidle : s.producer = .idle) (h : s.Admits input) :
      Produced s [] { s with producer := .pushing input }
  | admitted (input : Input) (hidle : s.producer = .idle) (h : s.Admits input) :
      Produced s [.accepted input] { s with
        packets := { s.packets with queue := s.packets.queue ++ [input] }
        submittedEof := input == .eof }
  | queued (input : Input) (h : s.producer = .pushing input) :
      Produced s [.accepted input] { s with
        packets := { s.packets with queue := s.packets.queue ++ [input] }
        producer := .pushed input }
  | settled (input : Input) (h : s.producer = .pushed input) :
      Produced s [] { s with submittedEof := input == .eof, producer := .idle }

/-- A step of the reader. -/
inductive Consumed (s : AvDecoder) : List Event → AvDecoder → Prop where
  | asked (wait : Bool) (hidle : s.reader = .idle) : Consumed s [] { s with reader := .popping wait }
  | popped (wait : Bool) (h : s.reader = .popping wait) :
      Consumed s [] { s with
        frames := { s.frames with queue := s.frames.queue.tail }
        reader := .holding s.frames.queue.head? }
  | nothing (h : s.reader = .holding none) : Consumed s [.null] { s with reader := .idle }
  | delivered (result : AvDecoderReadResult) (h : s.reader = .holding (some result)) :
      Consumed s [.read result] { s with reader := .idle }

variable {s s' : AvDecoder} {events : List Event}

/-! ### The producer and the reader -/

theorem push_calm {input : Input} {wait : Bool} (hidle : s.producer = .idle)
    (h : s.push input wait = (events, s')) : s.Produced events s' := by
  rw [push] at h
  split at h
  · obtain ⟨rfl, rfl⟩ := Prod.mk.inj h
    exact .rejected (.inr ⟨_, rfl⟩)
  · split at h
    · obtain ⟨rfl, rfl⟩ := Prod.mk.inj h
      exact .rejected (.inl rfl)
    · split at h
      · obtain ⟨rfl, rfl⟩ := Prod.mk.inj h
        exact .rejected (.inr ⟨_, rfl⟩)
      · rename_i heof
        have hadmits : s.Admits input := by
          intro hsubmitted
          by_contra hreset
          exact heof (by simp [hsubmitted, hreset])
        split at h
        · obtain ⟨rfl, rfl⟩ := Prod.mk.inj h
          exact .waited input hidle hadmits
        · split at h
          · obtain ⟨rfl, rfl⟩ := Prod.mk.inj h
            exact .rejected (.inl rfl)
          · split at h
            · rename_i packets hoffer
              obtain ⟨rfl, rfl⟩ := Prod.mk.inj h
              rcases BlockingQueue.offer_cases hoffer with ⟨-, -, -, rfl⟩ | ⟨hfalse, -, -⟩
              · exact .admitted input hidle hadmits
              · cases hfalse
            · obtain ⟨rfl, rfl⟩ := Prod.mk.inj h
              exact .rejected (.inl rfl)

theorem produce_calm (hquiet : s.Quiet) (h : s.produce = some (events, s')) : s.Produced events s' := by
  rw [produce] at h
  split at h
  · cases h
  · rename_i input hproducer
    split at h
    · rename_i packets hoffer
      obtain ⟨rfl, rfl⟩ := Prod.mk.inj (Option.some.inj h)
      rcases BlockingQueue.offer_cases hoffer with ⟨-, -, -, rfl⟩ | ⟨hfalse, -, -⟩
      · exact .queued input hproducer
      · cases hfalse
    · rename_i packets hoffer
      rcases BlockingQueue.offer_cases hoffer with ⟨hfalse, -⟩ | ⟨-, hclosed, -⟩
      · cases hfalse
      · rw [hquiet.packets] at hclosed
        cases hclosed
    · cases h
  · rename_i input hproducer
    obtain ⟨rfl, rfl⟩ := Prod.mk.inj (Option.some.inj h)
    exact .settled input hproducer

theorem read_calm (hquiet : s.Quiet) {wait : Bool} (hidle : s.reader = .idle)
    (h : s.read wait = (events, s')) : s.Consumed events s' := by
  rw [read, if_neg hquiet.running] at h
  obtain ⟨rfl, rfl⟩ := Prod.mk.inj h
  exact .asked wait hidle

theorem consume_calm (hquiet : s.Quiet) (h : s.consume = some (events, s')) : s.Consumed events s' := by
  rw [consume] at h
  split at h
  · cases h
  · rename_i wait hreader
    obtain ⟨⟨result, frames⟩, htake, heq⟩ := Option.map_eq_some_iff.mp h
    obtain ⟨rfl, rfl⟩ := Prod.mk.inj heq
    obtain ⟨rfl, rfl, -⟩ := BlockingQueue.take_cases htake
    exact .popped wait hreader
  · rename_i result hreader
    obtain ⟨rfl, rfl⟩ := Prod.mk.inj (Option.some.inj h)
    rw [if_neg hquiet.running]
    cases result with
    | none => exact .nothing hreader
    | some result => exact .delivered result hreader

/-! ### The worker -/

variable [Libav] [LibDecoder]

/-- A step of the worker. -/
inductive Worked (s : AvDecoder) : List Event → AvDecoder → Prop where
  | receiving (h : s.worker = .entering) (hstarted : s.started = true) (hdrained : s.drained = false) :
      Worked s [] { s with worker := .receiving }
  | popping (h : s.worker = .entering) (hready : s.started = true → s.drained = true) :
      Worked s [] { s with worker := .popping }
  | ended (h : s.worker = .receiving) (hended : s.codec.ended = true) (hnone : s.codec.frame? = none) :
      Worked s [.emitted (s.eofResult s.nextPts)] { s with worker := .emitting (s.eofResult s.nextPts) }
  | starved (h : s.worker = .receiving) (hended : s.codec.ended = false) :
      Worked s [] { s with codec := { s.codec with hungry := true }, worker := .popping }
  | decoded (context : CodecContext) (frame : Frame) (h : s.worker = .receiving)
      (hframe : s.codec.frame? = some frame) :
      Worked s [.emitted (s.frameResult frame)] { s with
        codec := { s.codec with given := s.codec.given + 1, hungry := false }
        nextPts := frameEndPts context s.timeBase (stamped s.timeBase frame)
        worker := .emitting (s.frameResult frame) }
  | emitted (result : AvDecoderReadResult) (h : s.worker = .emitting result)
      (hroom : s.frames.queue.length < s.frames.capacity) :
      Worked s [] { s with
        frames := { s.frames with queue := s.frames.queue ++ [result] }
        drained := s.drained || result.status == .eof
        worker := .entering }
  | taken (input : Input) (rest : List Input) (h : s.worker = .popping) (hqueue : s.packets.queue = input :: rest) :
      Worked s [] { s with packets := { s.packets with queue := rest }, worker := .checking input }
  | flushed (h : s.worker = .checking .reset) :
      Worked s [] { s with
        codec := {}, started := false, drained := false, nextPts := avNoptsValue, worker := .entering }
  | checked (input : Input) (h : s.worker = .checking input) (hreset : input ≠ .reset) :
      Worked s [] { s with worker := .sending input }
  | sent (packet : Packet) (h : s.worker = .sending (.packet packet)) :
      Worked s [] { s with
        codec := { s.codec with sent := s.codec.sent ++ [packet], hungry := false }
        started := true
        worker := .entering }
  | finished (h : s.worker = .sending .eof) :
      Worked s [] { s with
        codec := { s.codec with ended := true, hungry := false }
        started := true
        worker := .entering }

inductive Calm (s : AvDecoder) (events : List Event) (s' : AvDecoder) : Prop where
  | producer (h : s.Produced events s')
  | reader (h : s.Consumed events s')
  | worker (h : s.Worked events s')

theorem receive_calm {answer : Answer} (hworker : s.worker = .receiving) (h : s.receive answer = (events, s')) :
    s.Worked events s' := by
  rw [receive, CodecState.receive] at h
  by_cases hdelayed : answer.delayed = true ∧ s.codec.ended = false
  · rw [if_pos hdelayed] at h
    obtain ⟨rfl, rfl⟩ := Prod.mk.inj h
    exact .starved hworker hdelayed.2
  · rw [if_neg hdelayed] at h
    cases hframe : s.codec.frame? with
    | some frame =>
      rw [hframe] at h
      obtain ⟨rfl, rfl⟩ := Prod.mk.inj h
      exact .decoded answer.context frame hworker hframe
    | none =>
      rw [hframe] at h
      by_cases hended : s.codec.ended = true
      · simp only [if_pos hended] at h
        obtain ⟨rfl, rfl⟩ := Prod.mk.inj h
        exact .ended hworker hended hframe
      · simp only [if_neg hended] at h
        obtain ⟨rfl, rfl⟩ := Prod.mk.inj h
        exact .starved hworker (Bool.eq_false_iff.mpr hended)

theorem send_calm {input : Input} (hsendable : s.Sendable) (hworker : s.worker = .sending input)
    (h : s.send input.packet? = (events, s')) : s.Worked events s' := by
  obtain ⟨hended, hhungry, hreset⟩ := hsendable input hworker
  have hended' : ¬s.codec.ended = true := by simp [hended]
  have hhungry' : ¬(!s.codec.hungry) = true := by simp [hhungry]
  cases input with
  | packet packet =>
    simp only [send, CodecState.send, Input.packet?, if_neg hended', if_neg hhungry', lt_irrefl, if_false] at h
    obtain ⟨rfl, rfl⟩ := Prod.mk.inj h
    exact .sent packet hworker
  | eof =>
    simp only [send, CodecState.send, Input.packet?, if_neg hended', if_neg hhungry', lt_irrefl, if_false] at h
    obtain ⟨rfl, rfl⟩ := Prod.mk.inj h
    exact .finished hworker
  | reset => exact absurd rfl hreset

theorem check_calm (hquiet : s.Quiet) {input : Input} (hworker : s.worker = .checking input)
    (h : s.check input = (events, s')) : s.Worked events s' := by
  cases input with
  | packet packet =>
    simp only [check, if_neg hquiet.running] at h
    obtain ⟨rfl, rfl⟩ := Prod.mk.inj h
    exact .checked _ hworker nofun
  | eof =>
    simp only [check, if_neg hquiet.running] at h
    obtain ⟨rfl, rfl⟩ := Prod.mk.inj h
    exact .checked _ hworker nofun
  | reset =>
    simp only [check, if_neg hquiet.running] at h
    obtain ⟨rfl, rfl⟩ := Prod.mk.inj h
    exact .flushed hworker

theorem work_calm (hquiet : s.Quiet) (hsendable : s.Sendable) (hcalm : ∀ e ∈ events, e.disturbs = false)
    {answer : Answer} (h : s.work answer = some (events, s')) : s.Worked events s' := by
  rw [work] at h
  split at h
  · rename_i hworker
    obtain ⟨rfl, rfl⟩ := Prod.mk.inj (Option.some.inj h)
    rw [if_neg hquiet.running]
    by_cases hready : (s.started && !s.drained) = true
    · rw [if_pos hready]
      have hflags : s.started = true ∧ s.drained = false := by simpa using hready
      exact .receiving hworker hflags.1 hflags.2
    · rw [if_neg hready]
      refine .popping hworker fun hstarted => ?_
      simpa [hstarted] using hready
  · rename_i hworker
    split at h
    · rename_i e _
      obtain ⟨rfl, rfl⟩ := Prod.mk.inj (Option.some.inj h)
      exact absurd (hcalm _ (List.mem_singleton.mpr rfl)) (by simp [Event.disturbs])
    · exact receive_calm hworker (Option.some.inj h)
  · rename_i result hworker
    split at h
    · rename_i frames hoffer
      obtain ⟨rfl, rfl⟩ := Prod.mk.inj (Option.some.inj h)
      rcases BlockingQueue.offer_cases hoffer with ⟨-, -, hroom, rfl⟩ | ⟨hfalse, -, -⟩
      · exact .emitted result hworker hroom
      · cases hfalse
    · rename_i frames hoffer
      rcases BlockingQueue.offer_cases hoffer with ⟨hfalse, -⟩ | ⟨-, hclosed, -⟩
      · cases hfalse
      · rw [hquiet.frames] at hclosed
        cases hclosed
    · cases h
  · rename_i hworker
    split at h
    · rename_i input packets htake
      obtain ⟨rfl, rfl⟩ := Prod.mk.inj (Option.some.inj h)
      obtain ⟨hhead, rfl, -⟩ := BlockingQueue.take_cases htake
      obtain ⟨rest, hqueue⟩ : ∃ rest, s.packets.queue = input :: rest := by
        cases hqueue : s.packets.queue with
        | nil =>
          rw [hqueue] at hhead
          cases hhead
        | cons first rest =>
          rw [hqueue] at hhead
          exact ⟨rest, by rw [Option.some.inj hhead]⟩
      rw [hqueue]
      exact .taken input rest hworker hqueue
    · rename_i packets htake
      obtain ⟨-, -, hclosed⟩ := BlockingQueue.take_cases htake
      have hclosed := hclosed rfl rfl
      rw [hquiet.packets] at hclosed
      cases hclosed
    · cases h
  · rename_i input hworker
    exact check_calm hquiet hworker (Option.some.inj h)
  · rename_i input hworker
    split at h
    · rename_i e _
      obtain ⟨rfl, rfl⟩ := Prod.mk.inj (Option.some.inj h)
      exact absurd (hcalm _ (List.mem_singleton.mpr rfl)) (by simp [Event.disturbs])
    · exact send_calm hsendable hworker (Option.some.inj h)
  · rename_i e hworker
    exact absurd hworker (hquiet.failing e)
  · rename_i hworker
    exact absurd hworker (hquiet.cleaning [])
  · rename_i step left hworker
    exact absurd hworker (hquiet.cleaning _)
  · cases h

/-- **A step without a stop or a failure of the codec is calm.** -/
theorem step_calm (hquiet : s.Quiet) (hsendable : s.Sendable) (hcalm : ∀ e ∈ events, e.disturbs = false)
    (h : system.step s events s') : s.Calm events s' := by
  obtain ⟨act, hact⟩ := h
  cases act with
  | push input wait =>
    rw [next] at hact
    split at hact
    · rename_i hidle
      exact .producer (push_calm hidle (Option.some.inj hact))
    · cases hact
  | produce => exact .producer (produce_calm hquiet hact)
  | read wait =>
    rw [next] at hact
    split at hact
    · rename_i hidle
      exact .reader (read_calm hquiet hidle (Option.some.inj hact))
    · cases hact
  | consume => exact .reader (consume_calm hquiet hact)
  | work answer => exact .worker (work_calm hquiet hsendable hcalm hact)
  | requestStop =>
    obtain ⟨rfl, rfl⟩ := Prod.mk.inj (Option.some.inj hact)
    exact absurd (hcalm _ (List.mem_singleton.mpr rfl)) (by simp [Event.disturbs])
  | closePackets =>
    rw [next, if_neg hquiet.running] at hact
    cases hact
  | closeFrames =>
    rw [next, if_neg hquiet.running] at hact
    cases hact

theorem Calm.quiet (h : s.Calm events s') (hquiet : s.Quiet) : s'.Quiet := by
  obtain ⟨hstopping, herror, hpackets, hframes, hfailing, hcleaning, hdone⟩ := hquiet
  induction h with
  | producer h => induction h <;> exact ⟨hstopping, herror, hpackets, hframes, hfailing, hcleaning, hdone⟩
  | reader h => induction h <;> exact ⟨hstopping, herror, hpackets, hframes, hfailing, hcleaning, hdone⟩
  | worker h => induction h <;> exact ⟨hstopping, herror, hpackets, hframes, nofun, nofun, nofun⟩

end AvDecoder

end MwStreamer
