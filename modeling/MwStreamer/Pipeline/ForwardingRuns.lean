import MwStreamer.Library.StateExcept
import MwStreamer.Pipeline.RemuxForwarding

/-!
# Runs of the packet worker

What one turn of the packet worker does, and from that the outputs of a run.  The invariant says where every
result that was read is: already treated, in the hands of `PrepareStreams`, or in `pending`.  Everything in
`pending` but its last result is a packet of the current description, so the loop can neither enter
`PrepareStreams` nor act on an end of input before `pending` is empty.
-/

namespace MwStreamer.RemuxForwarding

open StateExcept

/-! ### What one turn does -/

/-- The worker has failed. -/
def Worker.Failed (self : Worker) : Prop := ∃ error, self.stage = .failed error

theorem Worker.fail_failed (self : Worker) (error : Exception) : (self.fail error).Failed := ⟨error, rfl⟩

def Worker.cursor (self : Worker) : Cursor where
  description := self.description.map (·.address)
  lastTimes := self.lastTimes

/-- The results `ReadPacket` gave. -/
def Event.fetched? : Event → Option ReadResult
  | .read result | .ahead result => some result
  | _ => none

def Event.output? : Event → Option Output
  | .session address => some (.session address)
  | .submit packet => some (.packet packet)
  | _ => none

def Event.submit? : Event → Option SourcePacket
  | .submit packet => some packet
  | _ => none

/-- The events behind a read: a probe keeps its limits, and nothing is read or replayed. -/
def Event.Inner : Event → Prop
  | .probe packets bytes => packets.length ≤ kAudioPackets ∧ bytes ≤ kMaxBytes
  | .session _ | .callback _ | .submit _ => True
  | _ => False

theorem Event.Inner.fetched {events : List Event} (h : ∀ e ∈ events, e.Inner) :
    events.filterMap Event.fetched? = [] := by
  rw [List.filterMap_eq_nil_iff]
  intro e he
  have hinner := h e he
  cases e with
  | read _ => exact absurd hinner id
  | ahead _ => exact absurd hinner id
  | preparing _ => rfl
  | probe _ _ => rfl
  | session _ => rfl
  | callback _ => rfl
  | submit _ => rfl
  | eof => rfl

def ReadResult.size (result : ReadResult) : ℕ := (result.packet.map (·.data.length)).getD 0

/-- The limits of the probe. -/
def Sample.Within (sample : Sample) : Prop := sample.packets.length ≤ kAudioPackets ∧ sample.bytes ≤ kMaxBytes

theorem attach_data (description : Description) (packet : SourcePacket) :
    (attach description packet).data = packet.data := by
  rw [attach]
  split <;> rfl

/-- What `collect` adds: the bytes of the packet, and the packet where it is of the audio track. -/
theorem collect_ok {audio : StreamInfo} {sample sample' : Sample} {packet : Option SourcePacket} {configured : Bool}
    (h : collect audio sample packet = .ok (configured, sample')) (hwithin : sample.bytes ≤ kMaxBytes) :
    sample'.bytes = sample.bytes + (packet.map (·.data.length)).getD 0 ∧ sample'.bytes ≤ kMaxBytes ∧
      sample'.packets.length ≤ sample.packets.length + 1 := by
  cases packet with
  | none =>
    cases h
    exact ⟨rfl, hwithin, Nat.le_succ _⟩
  | some packet =>
    simp only [collect] at h
    split at h
    · cases h
    · rename_i hbytes
      split at h
      · cases h
        exact ⟨rfl, Nat.not_lt.mp hbytes, Nat.le_succ _⟩
      · cases h
        refine ⟨rfl, Nat.not_lt.mp hbytes, ?_⟩
        simp only [List.length_append, List.length_singleton]
        exact Nat.le_refl _

theorem deliver_ok {s t : Worker} {arrival : Arrival} {answer : Answer} {events : List Event}
    (h : s.deliver arrival answer = (events, t)) (hok : ¬t.Failed) :
    events = [.callback arrival.packet, .submit arrival.packet] ∧
      t = { s with
        stage := .looping
        lastTimes := Function.update s.lastTimes arrival.packet.streamIndex (some arrival.time) } := by
  rw [Worker.deliver] at h
  split at h
  · cases h
    exact absurd (s.fail_failed _) hok
  · split at h
    · cases h
      exact absurd (s.fail_failed _) hok
    · cases h
      exact absurd (s.fail_failed _) hok
    · cases h
      exact ⟨rfl, rfl⟩

theorem startSession_ok {s t : Worker} {answer : Answer} (h : s.startSession answer = .ok t) :
    t = { s with fixedStreams := s.streams, lastTimes := fun _ => none } := by
  rw [Worker.startSession] at h
  obtain ⟨_, -, h⟩ := bind_ok h
  split at h
  · cases h
  · obtain ⟨starts, -, h⟩ := bind_ok h
    split at h
    · cases h
    · cases h
      rfl

theorem dropLast_mem {α : Type} {head item : α} {rest : List α} (h : item ∈ rest.dropLast) :
    item ∈ (head :: rest).dropLast := by
  cases rest with
  | nil => exact h
  | cons next rest => exact List.mem_cons_of_mem _ h

variable [Libav]

/-- A result that the loop goes on with. -/
structure Arrives (input : ReadResult) (arrival : Arrival) : Prop where
  same : arrival.input = input
  packet : input.status = .packet
  info : input.info = some arrival.description
  selected : input.selected? = some (arrival.description, arrival.packet)
  time : arrival.time = packetTime arrival.packet
  size : arrival.packet.data.length = input.size

theorem arrive_cases {input : ReadResult} {result : Option Arrival} (hpacket : input.status = .packet)
    (h : arrive input = .ok result) :
    (result = none ∧ input.selected? = none) ∨ ∃ arrival, result = some arrival ∧ Arrives input arrival := by
  obtain ⟨status, packet, info⟩ := input
  cases hpacket
  cases info with
  | none => cases h
  | some description =>
    cases packet with
    | none => cases h
    | some packet =>
      simp only [arrive] at h
      by_cases hselected : description.info.selects packet.toPacket = true
      · rw [if_neg (by simp [hselected])] at h
        split at h
        · cases h
        · rw [timing] at h
          split at h
          · cases h
          · cases h
            exact .inr ⟨_, rfl, rfl, rfl, rfl, if_pos hselected, rfl, by rw [attach_data]; rfl⟩
      · rw [if_pos (by simp [hselected])] at h
        cases h
        exact .inl ⟨rfl, if_neg hselected⟩

/-- The packet was forwarded, and a session was started for it where it begins one. -/
structure Forwards (s : Worker) (description : Description) (packet : SourcePacket) (events : List Event)
    (t : Worker) : Prop where
  inner : ∀ e ∈ events, e.Inner
  outputs : events.filterMap Event.output? = s.cursor.forward description packet
  cursor : t.cursor = s.cursor.after description packet
  stage : t.stage = .looping
  pending : t.pending = s.pending
  loop : t.loop = s.loop

/-- Without a boundary the packet is delivered as it is. -/
theorem deliver_forwards {s t : Worker} {input : ReadResult} {arrival : Arrival} {answer : Answer}
    {events : List Event} (harrives : Arrives input arrival) (h : s.deliver arrival answer = (events, t))
    (hok : ¬t.Failed) (hsame : s.description.map (·.address) = some arrival.description.address)
    (hboundary : s.cursor.boundary arrival.description arrival.packet = false) :
    Forwards s arrival.description arrival.packet events t := by
  obtain ⟨rfl, rfl⟩ := deliver_ok h hok
  refine ⟨by simp [Event.Inner], ?_, ?_, rfl, rfl, rfl⟩
  · rw [Cursor.forward, hboundary]
    rfl
  · rw [Cursor.after, hboundary, Worker.cursor, hsame, harrives.time]
    rfl

/-- At a boundary a session is started first. -/
theorem renew_forwards {s t : Worker} {input : ReadResult} {arrival : Arrival} {answer : Answer}
    {events : List Event} (harrives : Arrives input arrival) (h : s.renew arrival answer = (events, t))
    (hok : ¬t.Failed) (hboundary : s.cursor.boundary arrival.description arrival.packet = true) :
    Forwards s arrival.description arrival.packet events t := by
  rw [Worker.renew] at h
  split at h
  · cases h
    exact absurd (s.fail_failed _) hok
  · rename_i started hstarted
    have hstart := startSession_ok hstarted
    cases h
    obtain ⟨hevents, hafter⟩ := deliver_ok rfl hok
    rw [hevents, hafter, hstart]
    refine ⟨by simp [Event.Inner], ?_, ?_, rfl, rfl, rfl⟩
    · rw [Cursor.forward, hboundary]
      rfl
    · rw [Cursor.after, hboundary, Worker.cursor, harrives.time]
      rfl

theorem probe_forwards {s t : Worker} {input : ReadResult} {sampling : Sampling} {answer : Answer}
    {events : List Event} (harrives : Arrives input sampling.first) (h : s.probe sampling answer = (events, t))
    (hok : ¬t.Failed) (hwithin : sampling.sample.Within)
    (hboundary : s.cursor.boundary sampling.first.description sampling.first.packet = true) :
    Forwards s sampling.first.description sampling.first.packet events t := by
  rw [Worker.probe] at h
  split at h
  · cases h
    exact absurd (s.fail_failed _) hok
  · cases h
    have hforward := renew_forwards harrives rfl hok hboundary
    refine ⟨?_, hforward.outputs, hforward.cursor, hforward.stage, hforward.pending, hforward.loop⟩
    intro e he
    rcases List.mem_cons.mp he with rfl | he
    · exact hwithin
    · exact hforward.inner e he

theorem finish_forwards {s t : Worker} {input : ReadResult} (sampling : Sampling) {answer : Answer}
    {events : List Event} (harrives : Arrives input sampling.first) (h : s.finish sampling answer = (events, t))
    (hok : ¬t.Failed) (hwithin : sampling.sample.Within)
    (hboundary : s.cursor.boundary sampling.first.description sampling.first.packet = true) :
    Forwards s sampling.first.description sampling.first.packet events t := by
  rw [Worker.finish] at h
  split at h
  · cases h
    exact absurd (s.fail_failed _) hok
  · cases h
    exact absurd (s.fail_failed _) hok
  · exact probe_forwards harrives h hok hwithin hboundary

/-- The probe so far: its packet begins a session, and its limits hold. -/
structure Sampled (s : Worker) (sampling : Sampling) : Prop where
  arrives : Arrives sampling.first.input sampling.first
  boundary : s.cursor.boundary sampling.first.description sampling.first.packet = true
  few : sampling.sample.packets.length < kAudioPackets
  bytes : sampling.sample.bytes = ((sampling.first.input :: s.pending).map ReadResult.size).sum
  cached : sampling.sample.bytes ≤ kMaxBytes

/-- **What `PrepareStreams` does before its first read.** -/
theorem prepare_cases {s t : Worker} {input : ReadResult} {arrival : Arrival} {answer : Answer}
    {events : List Event} (harrives : Arrives input arrival) (h : s.prepare arrival answer = (events, t))
    (hok : ¬t.Failed) (hboundary : s.cursor.boundary arrival.description arrival.packet = true) :
    Forwards s arrival.description arrival.packet events t ∨
      ∃ sampling, events = [] ∧ t = { s with stage := .sampling sampling } ∧ sampling.first = arrival ∧
        sampling.sample.packets.length ≤ 1 ∧ sampling.sample.bytes = input.size ∧
        sampling.sample.bytes ≤ kMaxBytes := by
  rw [Worker.prepare] at h
  split at h
  · cases h
    exact absurd (s.fail_failed _) hok
  · split at h
    · have hforward := renew_forwards harrives h hok hboundary
      exact .inl
        ⟨hforward.inner, hforward.outputs, hforward.cursor, hforward.stage, hforward.pending, hforward.loop⟩
    · split at h
      · have hforward := renew_forwards harrives h hok hboundary
        exact .inl
          ⟨hforward.inner, hforward.outputs, hforward.cursor, hforward.stage, hforward.pending, hforward.loop⟩
      · split at h
        · cases h
          exact absurd (s.fail_failed _) hok
        · rename_i hcollect
          obtain ⟨-, hbytes, hpackets⟩ := collect_ok hcollect (Nat.zero_le _)
          have hwithin : Sample.Within _ := ⟨Nat.le_trans hpackets (by decide), hbytes⟩
          exact .inl (probe_forwards harrives h hok hwithin hboundary)
        · rename_i sample hcollect
          obtain ⟨hsize, hbytes, hpackets⟩ := collect_ok hcollect (Nat.zero_le _)
          split at h
          · cases h
            refine .inr ⟨_, rfl, rfl, rfl, hpackets, ?_, hbytes⟩
            rw [hsize, ← harrives.size]
            exact Nat.zero_add _
          · cases h
            exact absurd (s.fail_failed _) hok

/-- **What the loop does with a packet of a delivered track.** -/
theorem advance_cases {s t : Worker} {input : ReadResult} {arrival : Arrival} {answer : Answer}
    {events : List Event} (harrives : Arrives input arrival) (h : s.advance arrival answer = (events, t))
    (hok : ¬t.Failed) :
    (∃ acts, Forwards s arrival.description arrival.packet acts t ∧
        (events = acts ∨ events = .preparing s.pending :: acts ∧
          s.description.map (·.address) ≠ some arrival.description.address)) ∨
      (s.description.map (·.address) ≠ some arrival.description.address ∧
        ∃ sampling, events = [.preparing s.pending] ∧ t = { s with stage := .sampling sampling } ∧
          sampling.first = arrival ∧ sampling.sample.packets.length ≤ 1 ∧ sampling.sample.bytes = input.size ∧
          sampling.sample.bytes ≤ kMaxBytes) := by
  rw [Worker.advance] at h
  split at h
  · rename_i hother
    have hboundary : s.cursor.boundary arrival.description arrival.packet = true := by
      rw [Cursor.boundary, Bool.or_eq_true, bne_iff_ne]
      exact .inl hother
    cases h
    rcases prepare_cases harrives rfl hok hboundary with hforward | ⟨sampling, hevents, hrest⟩
    · exact .inl ⟨_, hforward, .inr ⟨rfl, hother⟩⟩
    · exact .inr ⟨hother, sampling, by rw [hevents], hrest⟩
  · rename_i hsame
    rw [ne_eq, not_not] at hsame
    have hfirst : (s.cursor.description != some arrival.description.address) = false := by
      rw [bne_eq_false_iff_eq]
      exact hsame
    split at h
    · rename_i hdiscontinuous
      rw [harrives.time] at hdiscontinuous
      have hboundary : s.cursor.boundary arrival.description arrival.packet = true := by
        rw [Cursor.boundary, hfirst, Bool.false_or]
        exact hdiscontinuous
      exact .inl ⟨_, renew_forwards harrives h hok hboundary, .inl rfl⟩
    · rename_i hcontinuous
      rw [harrives.time, Bool.not_eq_true] at hcontinuous
      have hboundary : s.cursor.boundary arrival.description arrival.packet = false := by
        rw [Cursor.boundary, hfirst, Bool.false_or]
        exact hcontinuous
      exact .inl ⟨_, deliver_forwards harrives h hok hsame hboundary, .inl rfl⟩

/-- **What one pass of the loop does.** -/
theorem treat_cases {s t : Worker} {input : ReadResult} {answer : Answer} {events : List Event}
    (h : s.treat input answer = (events, t)) (hok : ¬t.Failed) :
    (input.status = .eof ∧ events = [.eof] ∧ t = if s.loop then s else { s with stage := .draining }) ∨
      (input.selected? = none ∧ events = [] ∧ t = s) ∨
      ∃ arrival, Arrives input arrival ∧ s.advance arrival answer = (events, t) := by
  rw [Worker.treat] at h
  split at h
  · cases h
    exact absurd (s.fail_failed _) hok
  · rename_i heof
    cases h
    exact .inl ⟨heof, rfl, rfl⟩
  · rename_i hpacket
    split at h
    · cases h
      exact absurd (s.fail_failed _) hok
    · rename_i harrive
      rcases arrive_cases hpacket harrive with ⟨-, hnone⟩ | ⟨arrival, hsome, -⟩
      · cases h
        exact .inr (.inl ⟨hnone, rfl, rfl⟩)
      · cases hsome
    · rename_i arrival harrive
      rcases arrive_cases hpacket harrive with ⟨hnone, -⟩ | ⟨_, hsome, harrives⟩
      · cases hnone
      · cases hsome
        exact .inr (.inr ⟨arrival, harrives, h⟩)

/-- A packet of the connection that a probe or a session belongs to. -/
def ReadResult.Of (address : Option ℕ) (result : ReadResult) : Prop :=
  result.status = .packet ∧ result.info.map (·.address) = address

/-- **What one read of the probe does.** -/
theorem sample_cases {s t : Worker} {sampling : Sampling} {answer : Answer} {events : List Event}
    (hsampled : Sampled s sampling) (h : s.sample sampling answer = (events, t)) (hok : ¬t.Failed) :
    Forwards { s with pending := s.pending ++ [answer.read] } sampling.first.description sampling.first.packet
        events t ∨
      (answer.read.Of (some sampling.first.description.address) ∧
        ∃ sample, events = [] ∧
          t = { s with
            pending := s.pending ++ [answer.read], stage := .sampling { sampling with sample := sample } } ∧
          sample.packets.length < kAudioPackets ∧ sample.bytes = sampling.sample.bytes + answer.read.size ∧
          sample.bytes ≤ kMaxBytes) := by
  have hbefore : sampling.sample.Within := ⟨Nat.le_of_lt hsampled.few, hsampled.cached⟩
  rw [Worker.sample] at h
  split at h
  · split at h
    · cases h
      exact absurd (s.fail_failed _) hok
    · cases h
      exact absurd (s.fail_failed _) hok
    · cases h
      exact absurd (s.fail_failed _) hok
  · rename_i hstatus
    split at h
    · exact .inl (finish_forwards (s := { s with pending := s.pending ++ [answer.read] }) sampling hsampled.arrives
        h hok hbefore hsampled.boundary)
    · rename_i hinside
      split at h
      · cases h
        exact absurd (s.fail_failed _) hok
      · rename_i sample hcollect
        obtain ⟨hsize, hbytes, hpackets⟩ := collect_ok hcollect hsampled.cached
        have hfew := hsampled.few
        split at h
        · have hwithin : Sample.Within sample := ⟨Nat.le_trans hpackets hfew, hbytes⟩
          change Worker.finish _ { sampling with sample := sample } answer = (events, t) at h
          exact .inl (finish_forwards (s := { s with pending := s.pending ++ [answer.read] })
            { sampling with sample := sample } hsampled.arrives h hok hwithin hsampled.boundary)
        · rename_i hmore
          cases h
          rw [not_or, ne_eq, not_not] at hinside
          rw [Bool.or_eq_true, not_or, decide_eq_true_iff, Nat.not_le] at hmore
          refine .inr ⟨⟨?_, hinside.1⟩, sample, rfl, rfl, hmore.2, hsize, hbytes⟩
          cases hread : answer.read.status with
          | packet => rfl
          | eof => exact absurd hread hinside.2
          | null => exact absurd hread hstatus

/-- The head of the loop takes the oldest result of `pending`, or reads one when there is none. -/
theorem looping_turn {s t : Worker} {answer : Answer} {events : List Event} (hstage : s.stage = .looping)
    (h : s.turn answer = some (events, t)) :
    ∃ input rest fetch acts, events = fetch ++ acts ∧
      Worker.treat { s with pending := rest } input answer = (acts, t) ∧
      ((s.pending = [] ∧ rest = [] ∧ fetch = [.read input]) ∨ (s.pending = input :: rest ∧ fetch = [])) := by
  rw [Worker.turn, hstage] at h
  simp only at h
  split at h
  · rename_i hpending
    cases h
    refine ⟨answer.read, [], [.read answer.read], _, rfl, ?_, .inl ⟨hpending, rfl, rfl⟩⟩
    rw [← hpending]
  · rename_i input rest hpending
    have htreat := Option.some.inj h
    rw [← hstage] at htreat
    exact ⟨input, rest, [], _, rfl, htreat, .inr ⟨hpending, rfl⟩⟩

theorem sampling_turn {s t : Worker} {sampling : Sampling} {answer : Answer} {events : List Event}
    (hstage : s.stage = .sampling sampling) (h : s.turn answer = some (events, t)) :
    ∃ acts, events = .ahead answer.read :: acts ∧ s.sample sampling answer = (acts, t) := by
  rw [Worker.turn, hstage] at h
  cases h
  exact ⟨_, rfl, rfl⟩

/-! ### Where every result is -/

/-- The result whose packet `PrepareStreams` prepares for. -/
def Worker.hand (self : Worker) : List ReadResult :=
  match self.stage with
  | .sampling sampling => [sampling.first.input]
  | _ => []

/-- **What waits in `pending`**: packets of the current description, but for the last result. -/
def Worker.Orderly (self : Worker) : Prop :=
  match self.stage with
  | .looping => ∀ result ∈ self.pending.dropLast, result.Of (self.description.map (·.address))
  | .sampling sampling =>
    (∀ result ∈ self.pending, result.Of (some sampling.first.description.address)) ∧ Sampled self sampling
  | .draining => self.pending = []
  | .failed _ => True

/-- **Every result is treated, in hand or pending**, and the outputs are those of the treated results. -/
structure Accounted (history : List Event) (s : Worker) (treated : List ReadResult) : Prop where
  fetched : history.filterMap Event.fetched? = treated ++ (s.hand ++ s.pending)
  outputs : history.filterMap Event.output? = ({} : Cursor).outputs (treated.filterMap ReadResult.selected?)
  cursor : s.cursor = ({} : Cursor).behind (treated.filterMap ReadResult.selected?)

/-- Nothing was put out: the results treated now are not selected. -/
theorem Accounted.pass {history : List Event} {s t : Worker} {treated : List ReadResult}
    (h : Accounted history s treated) (more : List ReadResult) (events : List Event)
    (hfetched : s.hand ++ s.pending ++ events.filterMap Event.fetched? = more ++ (t.hand ++ t.pending))
    (hmore : more.filterMap ReadResult.selected? = []) (hout : events.filterMap Event.output? = [])
    (hcursor : t.cursor = s.cursor) : Accounted (history ++ events) t (treated ++ more) := by
  refine ⟨?_, ?_, ?_⟩
  · rw [List.filterMap_append, h.fetched, List.append_assoc, hfetched, List.append_assoc]
  · rw [List.filterMap_append, hout, List.append_nil, List.filterMap_append, hmore, List.append_nil, h.outputs]
  · rw [hcursor, List.filterMap_append, hmore, List.append_nil, h.cursor]

/-- A packet was put out. -/
theorem Accounted.forward {history before acts : List Event} {s s' t : Worker} {treated : List ReadResult}
    {input : ReadResult} {description : Description} {packet : SourcePacket} (h : Accounted history s treated)
    (hforward : Forwards s' description packet acts t) (hcursor : s'.cursor = s.cursor)
    (hselected : input.selected? = some (description, packet))
    (hfetched : s.hand ++ s.pending ++ before.filterMap Event.fetched? = input :: s'.pending)
    (hout : before.filterMap Event.output? = []) :
    Accounted (history ++ (before ++ acts)) t (treated ++ [input]) := by
  have hone : List.filterMap ReadResult.selected? [input] = [(description, packet)] := by
    rw [List.filterMap_cons_some hselected, List.filterMap_nil]
  have hhand : t.hand = [] := by rw [Worker.hand, hforward.stage]
  refine ⟨?_, ?_, ?_⟩
  · rw [List.filterMap_append, List.filterMap_append, h.fetched, Event.Inner.fetched hforward.inner,
      List.append_nil, List.append_assoc, hfetched, hhand, hforward.pending]
    simp
  · rw [List.filterMap_append, List.filterMap_append, hout, List.nil_append, hforward.outputs,
      List.filterMap_append, hone, Cursor.outputs_concat, h.outputs, hcursor, h.cursor]
  · rw [hforward.cursor, List.filterMap_append, hone, Cursor.behind_concat, hcursor, h.cursor]

/-- Only the last result of `pending` can be of another connection, or an end. -/
theorem Worker.Orderly.last {s : Worker} {input : ReadResult} {rest : List ReadResult} (hs : s.Orderly)
    (hstage : s.stage = .looping) (hpending : s.pending = input :: rest)
    (hinput : ¬input.Of (s.description.map (·.address))) : rest = [] := by
  rw [Worker.Orderly, hstage, hpending] at hs
  cases rest with
  | nil => rfl
  | cons next rest => exact absurd (hs input List.mem_cons_self) hinput

/-- The results the loop works on: the one it took, and those behind it. -/
structure Taken (s : Worker) (input : ReadResult) (rest : List ReadResult) (fetch : List Event) : Prop where
  stage : s.stage = .looping
  fetched : s.hand ++ s.pending ++ fetch.filterMap Event.fetched? = input :: rest
  quiet : fetch.filterMap Event.output? = []
  last : ¬input.Of (s.description.map (·.address)) → rest = []
  waiting : ∀ result ∈ rest.dropLast, result.Of (s.description.map (·.address))

theorem Worker.Orderly.taken {s : Worker} {input : ReadResult} {rest : List ReadResult} {fetch : List Event}
    (hs : s.Orderly) (hstage : s.stage = .looping)
    (htake : (s.pending = [] ∧ rest = [] ∧ fetch = [.read input]) ∨ (s.pending = input :: rest ∧ fetch = [])) :
    Taken s input rest fetch := by
  have hhand : s.hand = [] := by rw [Worker.hand, hstage]
  rcases htake with ⟨hpending, rfl, rfl⟩ | ⟨hpending, rfl⟩
  · exact ⟨hstage, by rw [hhand, hpending]; rfl, rfl, fun _ => rfl, fun _ h => absurd h List.not_mem_nil⟩
  · refine ⟨hstage, by rw [hhand, hpending]; exact List.append_nil _, rfl, hs.last hstage hpending, ?_⟩
    intro result hresult
    rw [Worker.Orderly, hstage, hpending] at hs
    exact hs result (dropLast_mem hresult)

/-- The loop goes on behind a result that was not forwarded. -/
theorem Taken.skipped {history fetch : List Event} {s : Worker} {input : ReadResult}
    {rest treated : List ReadResult} (h : Taken s input rest fetch) (haccounted : Accounted history s treated)
    (hnone : input.selected? = none) (events : List Event) (hevents : events.filterMap Event.fetched? = [])
    (hout : events.filterMap Event.output? = []) :
    Worker.Orderly { s with pending := rest } ∧
      Accounted (history ++ (fetch ++ events)) { s with pending := rest } (treated ++ [input]) := by
  constructor
  · rw [Worker.Orderly]
    simp only [h.stage]
    exact h.waiting
  · refine haccounted.pass _ _ ?_ (by rw [List.filterMap_cons_none hnone, List.filterMap_nil]) ?_ rfl
    · rw [List.filterMap_append, hevents, List.append_nil, h.fetched]
      simp [Worker.hand, h.stage]
    · rw [List.filterMap_append, h.quiet, hout]
      rfl

/-- The loop goes on behind a packet it forwarded. -/
theorem Taken.forwarded {history fetch acts events : List Event} {s t : Worker} {input : ReadResult}
    {rest treated : List ReadResult} {arrival : Arrival} (h : Taken s input rest fetch)
    (haccounted : Accounted history s treated) (harrives : Arrives input arrival)
    (hforward : Forwards { s with pending := rest } arrival.description arrival.packet acts t)
    (hevents : events = acts ∨ events = .preparing rest :: acts ∧
      s.description.map (·.address) ≠ some arrival.description.address) :
    t.Orderly ∧ Accounted (history ++ (fetch ++ events)) t (treated ++ [input]) := by
  have haddress : t.description.map (·.address) = some arrival.description.address :=
    congrArg Cursor.description hforward.cursor
  have hother : s.description.map (·.address) ≠ some arrival.description.address → rest = [] := by
    intro hother
    refine h.last fun hof => hother ?_
    rw [← hof.2, harrives.info]
    rfl
  constructor
  · rw [Worker.Orderly]
    simp only [hforward.stage, hforward.pending, haddress]
    intro result hresult
    have hof := h.waiting result hresult
    by_cases hsame : s.description.map (·.address) = some arrival.description.address
    · rwa [hsame] at hof
    · rw [hother hsame] at hresult
      exact absurd hresult List.not_mem_nil
  · rcases hevents with rfl | ⟨rfl, -⟩
    · exact haccounted.forward hforward rfl harrives.selected h.fetched h.quiet
    · rw [← List.singleton_append, ← List.append_assoc fetch]
      refine haccounted.forward hforward rfl harrives.selected ?_ ?_
      · rw [List.filterMap_append]
        exact (congrArg _ (List.append_nil _)).trans h.fetched
      · rw [List.filterMap_append, h.quiet]
        rfl

/-- A probe begins. -/
theorem Taken.sampling {history fetch : List Event} {s : Worker} {input : ReadResult}
    {rest treated : List ReadResult} {sampling : Sampling} (h : Taken s input rest fetch)
    (haccounted : Accounted history s treated) (harrives : Arrives input sampling.first)
    (hother : s.description.map (·.address) ≠ some sampling.first.description.address)
    (hfew : sampling.sample.packets.length ≤ 1) (hbytes : sampling.sample.bytes = input.size)
    (hcached : sampling.sample.bytes ≤ kMaxBytes) :
    Worker.Orderly { s with pending := rest, stage := .sampling sampling } ∧
      Accounted (history ++ (fetch ++ [.preparing rest])) { s with pending := rest, stage := .sampling sampling }
        treated := by
  have hrest : rest = [] := by
    refine h.last fun hof => hother ?_
    rw [← hof.2, harrives.info]
    rfl
  subst hrest
  constructor
  · refine ⟨fun _ hresult => absurd hresult List.not_mem_nil, harrives.same ▸ harrives, ?_, ?_, ?_, hcached⟩
    · rw [Cursor.boundary, Bool.or_eq_true, bne_iff_ne]
      exact .inl hother
    · exact Nat.lt_of_le_of_lt hfew (by decide)
    · rw [hbytes, harrives.same]
      exact (Nat.add_zero _).symm
  · have hpass := haccounted.pass (t := { s with pending := [], stage := .sampling sampling }) []
      (fetch ++ [.preparing []]) ?_ rfl ?_ rfl
    · rwa [List.append_nil] at hpass
    · rw [List.filterMap_append]
      show s.hand ++ s.pending ++ (fetch.filterMap Event.fetched? ++ []) = [sampling.first.input]
      rw [List.append_nil, h.fetched, harrives.same]
    · rw [List.filterMap_append, h.quiet]
      rfl

/-- **One pass of the loop accounts for what it took.** -/
theorem treat_accounted {history fetch events : List Event} {s t : Worker} {input : ReadResult}
    {rest treated : List ReadResult} {answer : Answer} (h : Taken s input rest fetch)
    (haccounted : Accounted history s treated)
    (htreat : Worker.treat { s with pending := rest } input answer = (events, t)) (hok : ¬t.Failed) :
    t.Orderly ∧ t.loop = s.loop ∧ ∃ treated, Accounted (history ++ (fetch ++ events)) t treated := by
  rcases treat_cases htreat hok with ⟨heof, rfl, rfl⟩ | ⟨hnone, rfl, rfl⟩ | ⟨arrival, harrives, hadvance⟩
  · have hnone : input.selected? = none := by rw [ReadResult.selected?, heof]
    have hskip := h.skipped haccounted hnone [.eof] rfl rfl
    split
    · exact ⟨hskip.1, rfl, _, hskip.2⟩
    · have hrest : rest = [] := h.last fun hof => by simp [ReadResult.Of, heof] at hof
      refine ⟨hrest, rfl, _, hskip.2.fetched.trans ?_, hskip.2.outputs, hskip.2.cursor⟩
      simp [Worker.hand, h.stage]
  · have hskip := h.skipped haccounted hnone [] rfl rfl
    exact ⟨hskip.1, rfl, _, hskip.2⟩
  · rcases advance_cases harrives hadvance hok with ⟨acts, hforward, hevents⟩ |
      ⟨hother, sampling, rfl, rfl, rfl, hfew, hbytes, hcached⟩
    · have hforwarded := h.forwarded haccounted harrives hforward hevents
      exact ⟨hforwarded.1, hforward.loop, _, hforwarded.2⟩
    · have hsampling := h.sampling haccounted harrives hother hfew hbytes hcached
      exact ⟨hsampling.1, rfl, _, hsampling.2⟩

/-- **One read of the probe accounts for it.** -/
theorem sample_accounted {history events : List Event} {s t : Worker} {sampling : Sampling}
    {treated : List ReadResult} {answer : Answer} (hstage : s.stage = .sampling sampling) (hs : s.Orderly)
    (haccounted : Accounted history s treated) (h : s.sample sampling answer = (events, t)) (hok : ¬t.Failed) :
    t.Orderly ∧ t.loop = s.loop ∧ ∃ treated, Accounted (history ++ (.ahead answer.read :: events)) t treated := by
  rw [Worker.Orderly, hstage] at hs
  obtain ⟨hwaiting, hsampled⟩ := hs
  have hhand : s.hand = [sampling.first.input] := by rw [Worker.hand, hstage]
  rcases sample_cases hsampled h hok with hforward | ⟨hof, sample, rfl, rfl, hfew, hbytes, hcached⟩
  · have haddress : t.description.map (·.address) = some sampling.first.description.address :=
      congrArg Cursor.description hforward.cursor
    constructor
    · rw [Worker.Orderly]
      simp only [hforward.stage, hforward.pending, haddress, List.dropLast_concat]
      exact hwaiting
    · refine ⟨hforward.loop, treated ++ [sampling.first.input], ?_⟩
      rw [← List.singleton_append]
      refine haccounted.forward hforward rfl hsampled.arrives.selected ?_ rfl
      rw [hhand]
      rfl
  · constructor
    · refine ⟨?_, hsampled.arrives, hsampled.boundary, hfew, ?_, hcached⟩
      · intro result hresult
        rcases List.mem_append.mp hresult with hresult | hresult
        · exact hwaiting result hresult
        · rw [List.mem_singleton.mp hresult]
          exact hof
      · rw [hbytes, hsampled.bytes]
        simp only [List.map_cons, List.map_append, List.sum_cons, List.sum_append, List.map_nil, List.sum_nil]
        omega
    · refine ⟨rfl, treated, ?_⟩
      have hpass := haccounted.pass
        (t := { s with
          pending := s.pending ++ [answer.read], stage := .sampling { sampling with sample := sample } })
        [] [.ahead answer.read] ?_ rfl rfl rfl
      · rwa [List.append_nil] at hpass
      · rw [hhand]
        rfl

/-- **One turn accounts for what it read.** -/
theorem turn_accounted {history events : List Event} {s t : Worker} {treated : List ReadResult} {answer : Answer}
    (hs : s.Orderly) (haccounted : Accounted history s treated) (h : s.turn answer = some (events, t))
    (hok : ¬t.Failed) : t.Orderly ∧ t.loop = s.loop ∧ ∃ treated, Accounted (history ++ events) t treated := by
  cases hstage : s.stage with
  | looping =>
    obtain ⟨input, rest, fetch, acts, rfl, htreat, htake⟩ := looping_turn hstage h
    exact treat_accounted (hs.taken hstage htake) haccounted htreat hok
  | sampling sampling =>
    obtain ⟨acts, rfl, hsample⟩ := sampling_turn hstage h
    exact sample_accounted hstage hs haccounted hsample hok
  | draining =>
    rw [Worker.turn, hstage] at h
    cases h
  | failed error =>
    rw [Worker.turn, hstage] at h
    cases h

/-- A worker that goes on has not failed. -/
theorem turn_running {s t : Worker} {answer : Answer} {events : List Event} (h : s.turn answer = some (events, t)) :
    ¬s.Failed ∧ s.stage ≠ .draining := by
  constructor
  · rintro ⟨error, hstage⟩
    rw [Worker.turn, hstage] at h
    cases h
  · intro hstage
    rw [Worker.turn, hstage] at h
    cases h

/-- **Where every result of a run is.** -/
theorem run_accounted {loop : Bool} {history : List Event} {s : Worker}
    (hrun : (system loop).Run { loop := loop } history s) (hok : ¬s.Failed) :
    s.Orderly ∧ s.loop = loop ∧ ∃ treated, Accounted history s treated := by
  induction hrun with
  | refl => exact ⟨fun _ h => absurd h List.not_mem_nil, rfl, [], rfl, rfl, rfl⟩
  | snoc hrun hstep ih =>
    obtain ⟨answer, h⟩ := hstep
    obtain ⟨hs, hloop, treated, haccounted⟩ := ih (turn_running h).1
    obtain ⟨ht, hsame, hnext⟩ := turn_accounted hs haccounted h hok
    exact ⟨ht, hsame.trans hloop, hnext⟩

/-! ### When things happen -/

/-- Every selected packet that was read is submitted. -/
def Settled (history : List Event) : Prop :=
  history.filterMap Event.submit? =
    ((history.filterMap Event.fetched?).filterMap ReadResult.selected?).map (·.2)

omit [Libav] in
theorem submitted_eq (history : List Event) :
    history.filterMap Event.submit? = (history.filterMap Event.output?).filterMap Output.packet? := by
  rw [List.filterMap_filterMap]
  refine List.filterMap_congr fun e _ => ?_
  cases e <;> rfl

theorem Accounted.submitted {history : List Event} {s : Worker} {treated : List ReadResult}
    (h : Accounted history s treated) :
    history.filterMap Event.submit? = (treated.filterMap ReadResult.selected?).map (·.2) := by
  rw [submitted_eq, h.outputs, Cursor.packets_outputs]

theorem Accounted.settled {history : List Event} {s : Worker} {treated : List ReadResult}
    (h : Accounted history s treated) (hhand : s.hand = []) (hpending : s.pending = []) : Settled history := by
  rw [Settled, h.submitted, h.fetched, hhand, hpending, List.append_nil, List.append_nil]

/-- What holds at an event, given the history before it and after it. -/
def Timely (loop : Bool) (before : List Event) (e : Event) (later : List Event) : Prop :=
  match e with
  | .read _ => Settled before
  | .preparing pending => pending = []
  | .probe packets bytes => packets.length ≤ kAudioPackets ∧ bytes ≤ kMaxBytes
  | .eof => Settled before ∧ (loop = false → later = [])
  | _ => True

/-- All events of a list are timely. -/
def Timeline (loop : Bool) (before : List Event) : List Event → List Event → Prop
  | [], _ => True
  | e :: events, later => Timely loop before e (events ++ later) ∧ Timeline loop (before ++ [e]) events later

omit [Libav] in
theorem timeline_append {loop : Bool} {before events more later : List Event} :
    Timeline loop before (events ++ more) later ↔
      Timeline loop before events (more ++ later) ∧ Timeline loop (before ++ events) more later := by
  induction events generalizing before with
  | nil => simp [Timeline]
  | cons e events ih => simp [Timeline, ih, and_assoc]

omit [Libav] in
theorem timeline_inner {loop : Bool} {before events later : List Event} (h : ∀ e ∈ events, e.Inner) :
    Timeline loop before events later := by
  induction events generalizing before with
  | nil => trivial
  | cons e events ih =>
    refine ⟨?_, ih fun e he => h e (List.mem_cons_of_mem _ he)⟩
    have hinner := h e List.mem_cons_self
    cases e with
    | probe packets bytes => exact hinner
    | read _ => exact absurd hinner id
    | preparing _ => exact absurd hinner id
    | eof => exact absurd hinner id
    | ahead _ => trivial
    | session _ => trivial
    | callback _ => trivial
    | submit _ => trivial

/-- **The events of one turn are timely**, when nothing happens once the loop was left. -/
theorem turn_timely {loop : Bool} {history events : List Event} (later : List Event) {s t : Worker}
    {treated : List ReadResult} {answer : Answer} (hs : s.Orderly) (hloop : s.loop = loop)
    (haccounted : Accounted history s treated) (h : s.turn answer = some (events, t)) (hok : ¬t.Failed)
    (hlater : t.stage = .draining → later = []) :
    Timeline loop history events later := by
  cases hstage : s.stage with
  | looping =>
    obtain ⟨input, rest, fetch, acts, rfl, htreat, htake⟩ := looping_turn hstage h
    have htaken := hs.taken hstage htake
    rw [timeline_append]
    constructor
    · rcases htake with ⟨hpending, -, rfl⟩ | ⟨-, rfl⟩
      · exact ⟨haccounted.settled (by rw [Worker.hand, hstage]) hpending, trivial⟩
      · trivial
    · rcases treat_cases htreat hok with ⟨heof, rfl, rfl⟩ | ⟨-, rfl, rfl⟩ | ⟨arrival, harrives, hadvance⟩
      · have hnone : input.selected? = none := by rw [ReadResult.selected?, heof]
        have hrest : rest = [] := htaken.last fun hof => by simp [ReadResult.Of, heof] at hof
        have hskip := htaken.skipped haccounted hnone [] rfl rfl
        have hsettled := hskip.2.settled (by simp [Worker.hand, hstage]) hrest
        rw [List.append_nil] at hsettled
        refine ⟨⟨hsettled, fun hfalse => ?_⟩, trivial⟩
        rw [← hloop] at hfalse
        exact hlater (by rw [if_neg (by simp [hfalse])])
      · trivial
      · rcases advance_cases harrives hadvance hok with ⟨acts, hforward, hevents⟩ | ⟨hother, _, rfl, -⟩
        · rcases hevents with rfl | ⟨rfl, hother⟩
          · exact timeline_inner hforward.inner
          · refine ⟨htaken.last fun hof => hother ?_, timeline_inner hforward.inner⟩
            rw [← hof.2, harrives.info]
            rfl
        · refine ⟨htaken.last fun hof => hother ?_, trivial⟩
          rw [← hof.2, harrives.info]
          rfl
  | sampling sampling =>
    obtain ⟨acts, rfl, hsample⟩ := sampling_turn hstage h
    rw [Worker.Orderly, hstage] at hs
    refine ⟨trivial, ?_⟩
    rcases sample_cases hs.2 hsample hok with hforward | ⟨-, sample, rfl, -⟩
    · exact timeline_inner hforward.inner
    · trivial
  | draining => exact absurd hstage (turn_running h).2
  | failed error => exact absurd ⟨error, hstage⟩ (turn_running h).1

omit [Libav] in
theorem Timeline.at {loop : Bool} {before events later fs₁ fs₂ : List Event} {e : Event}
    (h : Timeline loop before events later) (heq : events = fs₁ ++ e :: fs₂) :
    Timely loop (before ++ fs₁) e (fs₂ ++ later) := by
  rw [heq, timeline_append] at h
  exact h.2.1

/-- **Every event of a run is timely.** -/
theorem run_timely {loop : Bool} {history before later : List Event} {e : Event} {s : Worker}
    (hrun : (system loop).Run { loop := loop } history s) (hok : ¬s.Failed) (h : history = before ++ e :: later) :
    Timely loop before e later := by
  obtain ⟨as, fs₁, fs₂, bs, u, v, rfl, rfl, hbefore, ⟨answer, hturn⟩, hafter⟩ := hrun.split h
  have hgoes : (v.Failed ∨ v.stage = .draining) → bs = [] ∧ s = v := by
    intro hstopped
    clear hrun h hok
    induction hafter with
    | refl => exact ⟨rfl, rfl⟩
    | snoc _ hstep ih =>
      obtain ⟨rfl, rfl⟩ := ih
      obtain ⟨answer, hstep⟩ := hstep
      rcases hstopped with hfailed | hdraining
      · exact absurd hfailed (turn_running hstep).1
      · exact absurd hdraining (turn_running hstep).2
  have hv : ¬v.Failed := by
    intro hfailed
    obtain ⟨-, rfl⟩ := hgoes (.inl hfailed)
    exact hok hfailed
  obtain ⟨hu, hloop, treated, haccounted⟩ := run_accounted hbefore (turn_running hturn).1
  have htimeline := turn_timely bs hu hloop haccounted hturn hv fun hdraining =>
    (hgoes (.inr hdraining)).1
  exact htimeline.at rfl

/-! ### The law of the packet worker -/

/-- **The worker forwards every selected packet once, in order.**  In every run that has not failed, the sessions
and packets put out are those of the fold over the results that are treated, and what was read but not treated
is in the hands of `PrepareStreams` or pending.  `PrepareStreams` is entered with nothing pending; the loop
reads, and acts on an end of input, only when every packet read before is submitted, and nothing follows the end
of an input that is not looped.  A probe keeps its limits. -/
theorem remux_forwarding {loop : Bool} {history : List Event} {s : Worker}
    (hrun : (system loop).Run { loop := loop } history s) (hok : ¬s.Failed) :
    (∃ treated, history.filterMap Event.fetched? = treated ++ (s.hand ++ s.pending) ∧
      history.filterMap Event.output? = ({} : Cursor).outputs (treated.filterMap ReadResult.selected?) ∧
      history.filterMap Event.submit? = (treated.filterMap ReadResult.selected?).map (·.2)) ∧
    (∀ before e later, history = before ++ e :: later → Timely loop before e later) ∧
    (∀ sampling, s.stage = .sampling sampling →
      sampling.sample.packets.length ≤ kAudioPackets ∧ sampling.sample.bytes ≤ kMaxBytes ∧
      sampling.sample.bytes = ((s.hand ++ s.pending).map ReadResult.size).sum) ∧
    (s.stage = .draining → Settled history) := by
  obtain ⟨hs, -, treated, haccounted⟩ := run_accounted hrun hok
  refine ⟨⟨treated, haccounted.fetched, haccounted.outputs, haccounted.submitted⟩, ?_, ?_, ?_⟩
  · intro before e later h
    exact run_timely hrun hok h
  · intro sampling hstage
    rw [Worker.Orderly, hstage] at hs
    refine ⟨Nat.le_of_lt hs.2.few, hs.2.cached, ?_⟩
    rw [Worker.hand, hstage]
    exact hs.2.bytes
  · intro hstage
    rw [Worker.Orderly, hstage] at hs
    exact haccounted.settled (by rw [Worker.hand, hstage]) hs

end MwStreamer.RemuxForwarding

namespace MwStreamer.RemuxForwarding

attribute [local instance] Libav.reference

/-- A connection with a video track, and an AAC track without configuration. -/
def rawAac : Description where
  address := 1
  info := {
    streams := [⟨0, some { codecType := .video }, ⟨1, 1000⟩⟩,
      ⟨1, some { codecType := .audio, codecId := avCodecIdAac }, ⟨1, 1000⟩⟩]
    videoStreamIndex := 0
    audioStreamIndex := 1 }

/-- A packet of the connection. -/
def rawPacket (streamIndex dts : ℤ) (data : List UInt8) : ReadResult where
  status := .packet
  packet := some { streamIndex := streamIndex, pts := dts, dts := dts, timeBase := ⟨0, 1⟩, data := data }
  info := some rawAac

/-- A video packet, and the ADTS packet that ends the probe; the end of the input after that. -/
def probedAnswers : List Answer :=
  let probe := .ok ⟨1, some { codecType := .audio, codecId := avCodecIdAac, extradataSize := 2, extradata := true },
    ⟨1, 1000⟩⟩
  [{ read := rawPacket 0 0 [], probe := probe }, { read := rawPacket 1 0 [0xff, 0xf1, 0], probe := probe },
    { read := { status := .null }, probe := probe }, { read := { status := .eof }, probe := probe }]

/-- A run through a probe to the end of the input. -/
theorem remux_forwarding_probed : ∃ history s, (system false).Run { loop := false } history s ∧
    s.stage = .draining ∧ (history.filterMap Event.submit?).length = 2 ∧ Settled history := by
  have hacts : ∃ history s,
      Transition.execute (fun s answer => Worker.turn s answer) { loop := false } probedAnswers = some (history, s) ∧
        s.stage = .draining ∧ (history.filterMap Event.submit?).length = 2 := ⟨_, _, rfl, rfl, rfl⟩
  obtain ⟨history, s, hacts, hstage, hlength⟩ := hacts
  have hrun := Transition.execute_run (T := system false) (fun _ answer _ _ h => ⟨answer, h⟩) hacts
  have hok : ¬s.Failed := by
    rintro ⟨error, hfailed⟩
    rw [hstage] at hfailed
    cases hfailed
  exact ⟨history, s, hrun, hstage, hlength, (remux_forwarding hrun hok).2.2.2 hstage⟩

end MwStreamer.RemuxForwarding
