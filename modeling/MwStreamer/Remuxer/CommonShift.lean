import MwStreamer.Library.StateExcept
import MwStreamer.Remuxer.DtsMerge
import MwStreamer.Remuxer.MediaSession

/-!
# One shift for a session

The shift is computed from the first packets that wait in the interleaver when the first packet leaves.  Every
track that ever submits anything has its first packet among them: a packet leaves only after every track was
seen, or after the flush that ends the submissions.  Within a track decoding times do not decrease and no
packet is presented before it is decoded, so the smallest stamp of these packets is the smallest of the
session, whatever the order in which the tracks arrive.
-/

namespace MwStreamer

open Rounding

/-- A native stamp in milliseconds, rounded to nearest. -/
def millis (value : ℤ) (timeBase : AVRational) : ℤ := scaled value timeBase ⟨1, 1000⟩

def Packet.ptsMillis (packet : Packet) : ℤ := millis packet.pts packet.timeBase

def Packet.dtsMillis (packet : Packet) : ℤ := millis packet.dts packet.timeBase

theorem Packet.dtsMillis_le {packet : Packet} (hbase : packet.timeBase.Positive)
    (h : packet.dts ≤ packet.pts) : packet.dtsMillis ≤ packet.ptsMillis := by
  refine roundNear_mono (Int.mul_pos hbase.2 (by decide)) ?_
  refine mul_le_mul_of_nonneg_right h ?_
  exact (Int.mul_pos hbase.1 (by decide)).le

/-- The exceptions of arithmetic. -/
def Exception.IsOverflow (e : Exception) : Prop := ∃ what, e = .overflowError what

namespace MediaTimestampConverter

open StateExcept

section

variable [Libav]

theorem milliseconds_ok {value result : ℤ} {timeBase : AVRational} (hbase : timeBase.Positive)
    (h : milliseconds value timeBase = .ok result) : result = millis value timeBase :=
  ((rescaleChecked_ok_iff hbase (by decide)).mp h).1

theorem milliseconds_error {value : ℤ} {timeBase : AVRational} {e : Exception}
    (h : milliseconds value timeBase = .error e) : e.IsOverflow := by
  rw [milliseconds, rescaleChecked] at h
  split at h
  · exact ⟨_, (Except.error.inj h).symm⟩
  · cases h

/-- Only the streams decide what a packet is checked against. -/
theorem validate_congr {converter converter' : MediaTimestampConverter}
    (h : converter.streams = converter'.streams) (packet : Option Packet) :
    converter.validate packet = converter'.validate packet := by
  unfold validate
  rw [h]

end

theorem shift_ok {shiftMs value : ℤ} {result : ℕ} (h : shift shiftMs value = .ok result) :
    (result : ℤ) = value + shiftMs := by
  rw [shift] at h
  split at h
  · cases h
  · rename_i hlow
    split at h
    · cases h
    · rename_i hhigh
      have hsum : (value + shiftMs) % 2 ^ 64 = value + shiftMs := by
        refine Int.emod_eq_of_lt (by omega) ?_
        rw [int64Max] at hhigh
        omega
      rw [← Except.ok.inj h, hsum]
      omega

/-- From the origin on only an overflow is refused. -/
theorem shift_error {shiftMs value : ℤ} {e : Exception} (hvalue : -shiftMs ≤ value)
    (h : shift shiftMs value = .error e) : e.IsOverflow := by
  rw [shift, if_neg (by omega)] at h
  split at h
  · exact ⟨_, (Except.error.inj h).symm⟩
  · cases h

variable [Libav]

/-- **What a conversion returns.** -/
theorem convert_ok {converter : MediaTimestampConverter} {packet : Packet} {stamps : MediaTimestamps}
    (hbase : packet.timeBase.Positive) (h : converter.convert packet = .ok stamps) :
    ∃ shiftMs, converter.shiftMs = some shiftMs ∧ (stamps.ptsMs : ℤ) = packet.ptsMillis + shiftMs ∧
      (stamps.dtsMs : ℤ) = packet.dtsMillis + shiftMs := by
  obtain ⟨_, -, h⟩ := bind_ok h
  cases hshift : converter.shiftMs with
  | none =>
    rw [hshift] at h
    cases h
  | some shiftMs =>
    rw [hshift] at h
    obtain ⟨pts, hpts, h⟩ := bind_ok h
    obtain ⟨ptsMs, hptsMs, h⟩ := bind_ok h
    obtain ⟨dts, hdts, h⟩ := bind_ok h
    obtain ⟨dtsMs, hdtsMs, h⟩ := bind_ok h
    rw [← Except.ok.inj h, Packet.ptsMillis, Packet.dtsMillis, ← milliseconds_ok hbase hpts,
      ← milliseconds_ok hbase hdts]
    exact ⟨shiftMs, rfl, shift_ok hptsMs, shift_ok hdtsMs⟩

/-- **What a conversion refuses.**  A checked packet that is not before the origin can only overflow. -/
theorem convert_error {converter : MediaTimestampConverter} {packet : Packet} {shiftMs : ℤ} {e : Exception}
    (hbase : packet.timeBase.Positive) (hvalid : converter.validate (some packet) = .ok packet)
    (hshift : converter.shiftMs = some shiftMs) (hpts : -shiftMs ≤ packet.ptsMillis)
    (hdts : -shiftMs ≤ packet.dtsMillis) (h : converter.convert packet = .error e) : e.IsOverflow := by
  rcases bind_error h with h | ⟨_, -, h⟩
  · rw [hvalid] at h
    cases h
  rw [hshift] at h
  rcases bind_error h with hp | ⟨pts, hp, h⟩
  · exact milliseconds_error hp
  have hpts : -shiftMs ≤ pts := by rwa [milliseconds_ok hbase hp]
  rcases bind_error h with hs | ⟨ptsMs, -, h⟩
  · exact shift_error hpts hs
  rcases bind_error h with hd | ⟨dts, hd, h⟩
  · exact milliseconds_error hd
  have hdts : -shiftMs ≤ dts := by rwa [milliseconds_ok hbase hd]
  rcases bind_error h with hs | ⟨dtsMs, -, h⟩
  · exact shift_error hdts hs
  · cases h

/-- The exception for a stamp before the origin. -/
def beforeOrigin : Exception := .invalidArgument "媒体时间戳早于共同输出起点"

omit [Libav] in
theorem shift_before {shiftMs value : ℤ} (h : shift shiftMs value = .error beforeOrigin) :
    value < -shiftMs := by
  by_contra hvalue
  obtain ⟨what, heq⟩ := shift_error (Int.not_lt.mp hvalue) h
  cases heq

/-- **Only a packet with a stamp below the shift is before the origin.** -/
theorem convert_before {converter : MediaTimestampConverter} {packet : Packet}
    (h : converter.convert packet = .error beforeOrigin) :
    packet.timeBase.Positive ∧ ∃ shiftMs, converter.shiftMs = some shiftMs ∧
      (packet.ptsMillis < -shiftMs ∨ packet.dtsMillis < -shiftMs) := by
  have hmillis : ∀ value, milliseconds value packet.timeBase ≠ .error beforeOrigin := by
    intro value herror
    obtain ⟨what, heq⟩ := milliseconds_error herror
    cases heq
  rcases bind_error h with hcheck | ⟨input, hcheck, h⟩
  · have hvalid : converter.validate (some packet) = .error beforeOrigin := by
      cases hresult : converter.validate (some packet) with
      | error e =>
        rw [hresult] at hcheck
        exact congrArg Except.error (Except.error.inj hcheck)
      | ok input =>
        rw [hresult] at hcheck
        cases hcheck
    unfold validate at hvalid
    split at hvalid
    · simp [beforeOrigin] at hvalid
    · split at hvalid
      · simp [beforeOrigin] at hvalid
      · split at hvalid
        · simp [beforeOrigin] at hvalid
        · split at hvalid
          · simp [beforeOrigin] at hvalid
          · cases hvalid
  · have hbase : packet.timeBase.Positive := by
      by_contra hneg
      unfold validate at hcheck
      dsimp only at hcheck
      split at hcheck
      · cases hcheck
      · split at hcheck
        · cases hcheck
        · rw [if_pos (.inl hneg)] at hcheck
          cases hcheck
    refine ⟨hbase, ?_⟩
    cases hshift : converter.shiftMs with
    | none =>
      rw [hshift] at h
      simp [beforeOrigin, throw, throwThe, MonadExceptOf.throw] at h
    | some shiftMs =>
      refine ⟨shiftMs, rfl, ?_⟩
      rw [hshift] at h
      rcases bind_error h with hp | ⟨pts, hp, h⟩
      · exact absurd hp (hmillis _)
      rcases bind_error h with hs | ⟨ptsMs, -, h⟩
      · left
        rw [Packet.ptsMillis, ← milliseconds_ok hbase hp]
        exact shift_before hs
      rcases bind_error h with hd | ⟨dts, hd, h⟩
      · exact absurd hd (hmillis _)
      rcases bind_error h with hs | ⟨dtsMs, -, h⟩
      · right
        rw [Packet.dtsMillis, ← milliseconds_ok hbase hd]
        exact shift_before hs
      · cases h

/-- The smallest stamp of some packets, or `minimum`. -/
structure IsSmallest (minimum : ℤ) (packets : List Packet) (result : ℤ) : Prop where
  below : result ≤ minimum
  le : ∀ packet ∈ packets, result ≤ packet.ptsMillis ∧ result ≤ packet.dtsMillis
  reached : result = minimum ∨ ∃ packet ∈ packets, result = packet.ptsMillis ∨ result = packet.dtsMillis

theorem smallest_ok {converter : MediaTimestampConverter} {packets : List Packet} {minimum result : ℤ}
    (hbases : ∀ packet ∈ packets, packet.timeBase.Positive)
    (h : converter.smallest minimum packets = .ok result) : IsSmallest minimum packets result := by
  induction packets generalizing minimum with
  | nil =>
    obtain rfl := Except.ok.inj h
    refine ⟨le_refl _, fun packet hp => ?_, .inl rfl⟩
    cases hp
  | cons packet packets ih =>
    obtain ⟨_, -, h⟩ := bind_ok h
    obtain ⟨pts, hpts, h⟩ := bind_ok h
    obtain ⟨dts, hdts, h⟩ := bind_ok h
    have hbase := hbases packet List.mem_cons_self
    have hp : pts = packet.ptsMillis := milliseconds_ok hbase hpts
    have hd : dts = packet.dtsMillis := milliseconds_ok hbase hdts
    have hmin : min (min minimum pts) dts = minimum ∨ min (min minimum pts) dts = pts
        ∨ min (min minimum pts) dts = dts := by
      omega
    obtain ⟨hbelow, hle, hreached⟩ := ih (fun p hp => hbases p (List.mem_cons_of_mem _ hp)) h
    have hfirst : result ≤ minimum ∧ result ≤ pts ∧ result ≤ dts := by
      rw [le_min_iff, le_min_iff] at hbelow
      exact ⟨hbelow.1.1, hbelow.1.2, hbelow.2⟩
    refine ⟨hfirst.1, fun p hmem => ?_, ?_⟩
    · rcases List.mem_cons.mp hmem with rfl | hmem
      · rw [← hp, ← hd]
        exact hfirst.2
      · exact hle p hmem
    · rcases hreached with hreached | ⟨p, hmem, hreached⟩
      · rw [← hreached, hp, hd] at hmin
        rcases hmin with hmin | hmin
        · exact .inl hmin
        · exact .inr ⟨packet, List.mem_cons_self, hmin⟩
      · exact .inr ⟨p, List.mem_cons_of_mem _ hmem, hreached⟩

theorem smallest_error {converter : MediaTimestampConverter} {packets : List Packet} {minimum : ℤ}
    {e : Exception} (hvalid : ∀ packet ∈ packets, converter.validate (some packet) = .ok packet)
    (h : converter.smallest minimum packets = .error e) : e.IsOverflow := by
  induction packets generalizing minimum with
  | nil => cases h
  | cons packet packets ih =>
    rcases bind_error h with h | ⟨_, -, h⟩
    · rw [hvalid packet List.mem_cons_self] at h
      cases h
    rcases bind_error h with hp | ⟨pts, -, h⟩
    · exact milliseconds_error hp
    rcases bind_error h with hd | ⟨dts, -, h⟩
    · exact milliseconds_error hd
    exact ih (fun p hp => hvalid p (List.mem_cons_of_mem _ hp)) h

/-- `shiftMs` lifts the smallest stamp of these packets to zero, or is zero when none is below it. -/
structure IsShift (packets : List Packet) (shiftMs : ℤ) : Prop where
  nonneg : 0 ≤ shiftMs
  covers : ∀ packet ∈ packets, -shiftMs ≤ packet.ptsMillis ∧ -shiftMs ≤ packet.dtsMillis
  tight : shiftMs = 0 ∨ ∃ packet ∈ packets, packet.ptsMillis = -shiftMs ∨ packet.dtsMillis = -shiftMs

omit [Libav] in
theorem IsShift.zero_iff {packets : List Packet} {shiftMs : ℤ} (h : IsShift packets shiftMs) :
    shiftMs = 0 ↔ ∀ packet ∈ packets, 0 ≤ packet.ptsMillis ∧ 0 ≤ packet.dtsMillis := by
  constructor
  · intro hzero packet hp
    have := h.covers packet hp
    omega
  · intro hall
    rcases h.tight with hzero | ⟨packet, hp, hreached⟩
    · exact hzero
    · have := hall packet hp
      have := h.nonneg
      omega

/-- **What `Initialize` computes.** -/
theorem initializeShift_ok {converter converter' : MediaTimestampConverter} {packets : List Packet}
    (hnone : converter.shiftMs = none) (hbases : ∀ packet ∈ packets, packet.timeBase.Positive)
    (h : converter.initializeShift packets = .ok converter') :
    ∃ shiftMs, converter' = { converter with shiftMs := some shiftMs } ∧ IsShift packets shiftMs := by
  rw [initializeShift, hnone] at h
  obtain ⟨minimum, hmin, h⟩ := bind_ok h
  obtain ⟨hbelow, hle, hreached⟩ := smallest_ok hbases hmin
  refine ⟨-minimum, (Except.ok.inj h).symm, by omega, fun packet hp => ?_, ?_⟩
  · have := hle packet hp
    omega
  · rcases hreached with hreached | ⟨packet, hp, hreached⟩
    · exact .inl (by omega)
    · exact .inr ⟨packet, hp, by omega⟩

theorem initializeShift_error {converter : MediaTimestampConverter} {packets : List Packet} {e : Exception}
    (hvalid : ∀ packet ∈ packets, converter.validate (some packet) = .ok packet)
    (h : converter.initializeShift packets = .error e) : e.IsOverflow := by
  rw [initializeShift] at h
  split at h
  · cases h
  · rcases bind_error h with hmin | ⟨minimum, -, h⟩
    · exact smallest_error hvalid hmin
    · cases h

end MediaTimestampConverter

/-! ### The interleaver, packet by packet -/

namespace PacketInterleaver

open StableMerge MediaTimestampConverter

/-- The first packet of every track that has one, in the order of the tracks. -/
def firsts (streams : List StreamInfo) (packets : List Packet) : List Packet :=
  (indicesOf streams).filterMap fun i => (ofTrack Packet.streamIndex i packets).head?

theorem firsts_append {streams : List StreamInfo} {packets : List Packet} (more : List Packet)
    (h : ∀ i ∈ indicesOf streams, ofTrack Packet.streamIndex i packets ≠ []) :
    firsts streams (packets ++ more) = firsts streams packets := by
  refine List.filterMap_congr fun i hi => ?_
  rw [ofTrack_append]
  cases htrack : ofTrack Packet.streamIndex i packets with
  | nil => exact absurd htrack (h i hi)
  | cons first rest => rfl

theorem mem_firsts {streams : List StreamInfo} {packets : List Packet} {packet : Packet}
    (h : packet ∈ firsts streams packets) : packet ∈ packets := by
  obtain ⟨i, -, hfirst⟩ := List.mem_filterMap.mp h
  exact (mem_ofTrack.mp (List.mem_of_mem_head? hfirst)).1

variable {streams : List StreamInfo} {history : List Event} {impl impl' : PacketInterleaver}

/-- As long as nothing has left, the queue has the first packet of every track. -/
theorem Merging.firstPackets (hm : Merging streams history impl) (hnone : releasedPackets history = []) :
    impl.firstPackets = firsts streams (pushedPackets history) := by
  have hqueue : ∀ i, ofTrack Packet.streamIndex i impl.queue
      = ofTrack Packet.streamIndex i (pushedPackets history) := by
    intro i
    rw [← hm.conserved, hnone, List.nil_append]
  rw [firsts, ← hm.indices, List.filterMap_map, PacketInterleaver.firstPackets]
  refine List.filterMap_congr fun track _ => ?_
  rw [Function.comp, ← hqueue, ofTrack, List.head?_filter]
  rfl

/-- No packet is decoded before the first of its track. -/
theorem Merging.first_le (hm : Merging streams history impl) {packet : Packet}
    (h : packet ∈ pushedPackets history) :
    ∃ first ∈ firsts streams (pushedPackets history), first.dtsMillis ≤ packet.dtsMillis := by
  have hfits := hm.accepted packet h
  have hmem : packet ∈ ofTrack Packet.streamIndex packet.streamIndex (pushedPackets history) :=
    mem_ofTrack.mpr ⟨h, rfl⟩
  have hsorted := hm.ordered packet.streamIndex
  cases htrack : ofTrack Packet.streamIndex packet.streamIndex (pushedPackets history) with
  | nil =>
    rw [htrack] at hmem
    cases hmem
  | cons first rest =>
    rw [htrack] at hmem hsorted
    have hfirst : first ∈ pushedPackets history ∧ first.streamIndex = packet.streamIndex := by
      apply mem_ofTrack.mp
      rw [htrack]
      exact List.mem_cons_self
    refine ⟨first, List.mem_filterMap.mpr ⟨packet.streamIndex, hfits.mem, by rw [htrack]; rfl⟩, ?_⟩
    exact scaled_mono (by decide) (hm.accepted first hfirst.1).1 hfits.1 (hsorted.head_le hmem)

/-- Every track that was pushed a packet is marked as seen, and no other. -/
theorem Merging.seen (hm : Merging streams history impl)
    (h : impl.tracks.all (fun track => track.highest.isSome) = true) :
    ∀ i ∈ indicesOf streams, ofTrack Packet.streamIndex i (pushedPackets history) ≠ [] := by
  intro i hi hnil
  rw [← hm.indices, List.mem_map] at hi
  obtain ⟨track, htrack, rfl⟩ := hi
  have hsome := List.all_eq_true.mp h track htrack
  rw [hm.highest track htrack, hnil] at hsome
  cases hsome

variable [Libav]

theorem push_validated {packet : Packet} (h : impl.push (some packet) = (.ok (), impl')) :
    impl.flushed = false ∧ impl'.flushed = false ∧ impl'.initialized = impl.initialized ∧
      impl.validation.validate (some packet) = .ok packet := by
  unfold push at h
  split at h
  · cases h
  · rename_i hopen
    have hopen : impl.flushed = false := by simpa using hopen
    split at h
    · cases h
    · rename_i input hvalid
      have hinput : input = packet := by
        unfold MediaTimestampConverter.validate at hvalid
        split at hvalid
        · cases hvalid
        · rename_i p hp
          split at hvalid
          · cases hvalid
          · split at hvalid
            · cases hvalid
            · split at hvalid
              · cases hvalid
              · exact (Except.ok.inj hvalid).symm.trans (Option.some.inj hp).symm
      subst hinput
      split at h
      · cases h
      · split at h
        · cases h
        · obtain rfl := (Prod.mk.inj h).2
          exact ⟨hopen, hopen, rfl, hvalid⟩

theorem Merging.push (hexact : ExactCompare) (hvalid : ∀ stream ∈ streams, stream.timeBase.Positive)
    (hm : Merging streams history impl) {packet : Packet}
    (h : impl.push (some packet) = (.ok (), impl')) :
    ∃ history', Merging streams history' impl' ∧
      pushedPackets history' = pushedPackets history ++ [packet] ∧
      releasedPackets history' = releasedPackets history := by
  have hpushes : impl.Pushes (some packet) [.pushed packet] impl' := by
    unfold Pushes
    rw [h]
    exact ⟨rfl, rfl⟩
  exact ⟨_, hpushes.merging hexact hvalid hm, pushedPackets_push history packet,
    releasedPackets_push history packet⟩

theorem pushedPackets_releases (tracks : List InterleaverTrack) (flush : Bool) (queue : List Packet) :
    pushedPackets (releases tracks flush queue) = [] := by
  induction queue with
  | nil => rfl
  | cons first rest ih =>
    rw [releases]
    split
    · rw [pushedPackets, List.filterMap_cons]
      exact ih
    · rfl

theorem Merging.pop (hm : Merging streams history impl) {draining : Bool} {packets : List Packet}
    (h : impl.popReady draining = (.ok packets, impl')) :
    ∃ history', Merging streams history' impl' ∧ pushedPackets history' = pushedPackets history ∧
      releasedPackets history' = releasedPackets history ++ packets := by
  have hpops := pops_ok h
  refine ⟨_, hpops.merging hm, ?_, ?_⟩
  · rw [pushedPackets, List.filterMap_append]
    change pushedPackets history ++ pushedPackets _ = _
    split
    · rw [pushedPackets_releases, List.append_nil]
    · exact List.append_nil _
  · rw [releasedPackets, List.filterMap_append]
    change releasedPackets history ++ releasedPackets _ = _
    rw [(popReady_ok h).result]
    split
    · rw [popLoop_releases]
    · rfl

theorem popReady_initialized {draining : Bool} {packets : List Packet}
    (h : impl.popReady draining = (.ok packets, impl')) :
    impl'.initialized
      = (impl.initialized || draining || impl.tracks.all fun track => track.highest.isSome) := by
  cases draining with
  | true =>
    rw [(popReady_ok h).initialized (.inl rfl), Bool.or_true, Bool.true_or]
  | false =>
    unfold popReady at h
    simp only [Bool.false_eq_true, if_false, Bool.not_false, Bool.true_and, Bool.or_false] at h
    split at h
    · cases h
    · split at h
      · obtain rfl := (Prod.mk.inj h).2
        rw [Bool.or_false]
      · obtain rfl := (Prod.mk.inj h).2
        rw [Bool.or_false]

end PacketInterleaver

/-! ### Runs of a session -/

namespace MediaSession

open PacketInterleaver StableMerge MediaTimestampConverter

/-- The packets between the two halves of `Process`. -/
def pending (session : MediaSession) : List Packet :=
  match session.batch with
  | none => []
  | some batch => batch.packets

/-- The two stamps of a packet under a shift. -/
def Stamped (shiftMs : ℤ) (packet : Packet) (stamps : MediaTimestamps) : Prop :=
  (stamps.ptsMs : ℤ) = packet.ptsMillis + shiftMs ∧ (stamps.dtsMs : ℤ) = packet.dtsMillis + shiftMs

variable [Libav]

/-- **The invariant of sessions.** -/
structure Timed (streams : List StreamInfo) (events : List MediaEvent) (session : MediaSession) : Prop where
  merging : ∃ history, Merging streams history session.interleaver ∧
    pushedPackets history = interleavedPackets events ∧ releasedPackets history = poppedPackets events
  streams_eq : session.timestamps.streams = streams
  validated : ∀ packet ∈ interleavedPackets events,
    session.timestamps.validate (some packet) = .ok packet
  seen : session.interleaver.initialized = true → session.interleaver.flushed = true ∨
    ∀ i ∈ indicesOf streams, ofTrack Packet.streamIndex i (interleavedPackets events) ≠ []
  started : poppedPackets events ≠ [] → session.interleaver.initialized = true
  busy : session.batch ≠ none → session.closing = false
  waiting : ∃ before, poppedPackets events = before ++ session.pending ∧
    ((conversions events).map Prod.fst).Sublist before
  /-- Before the shift is known nothing was converted, and the batch in hand carries every first packet. -/
  fresh : session.timestamps.shiftMs = none → session.closing = false →
    poppedPackets events = session.pending ∧ ∀ batch, session.batch = some batch → batch.packets ≠ [] →
      batch.firstPackets = firsts streams (interleavedPackets events)
  shifted : ∀ shiftMs, session.timestamps.shiftMs = some shiftMs → poppedPackets events ≠ [] ∧
    IsShift (firsts streams (interleavedPackets events)) shiftMs
  snapshots_eq : snapshots events = if session.timestamps.shiftMs.isSome
    then [firsts streams (interleavedPackets events)] else []
  stamped : ∀ pair ∈ conversions events, ∃ shiftMs, session.timestamps.shiftMs = some shiftMs ∧
    Stamped shiftMs pair.1 pair.2
  refused : ∀ e ∈ refusals events, e.IsOverflow

variable {streams : List StreamInfo} {events : List MediaEvent} {session : MediaSession}

omit [Libav] in
theorem create_ok {recordOnly : Bool} (h : create streams recordOnly = .ok session) :
    PacketInterleaver.create streams = .ok session.interleaver ∧ session.timestamps.streams = streams ∧
      session.timestamps.shiftMs = none ∧ session.batch = none ∧ session.closing = false ∧
      session.interleaver.initialized = false := by
  obtain ⟨interleaver, hinterleaver, h⟩ := StateExcept.bind_ok h
  obtain ⟨timestamps, htimestamps, h⟩ := StateExcept.bind_ok h
  obtain rfl := Except.ok.inj h
  have hconverter : timestamps = { streams := streams } := by
    rw [MediaTimestampConverter.create] at htimestamps
    split at htimestamps
    · cases htimestamps
    · obtain ⟨_, -, htimestamps⟩ := StateExcept.bind_ok htimestamps
      exact (Except.ok.inj htimestamps).symm
  have hinitialized : interleaver.initialized = false := by
    obtain ⟨validation, -, hcreate⟩ := StateExcept.bind_ok hinterleaver
    obtain ⟨tracks, -, hcreate⟩ := StateExcept.bind_ok hcreate
    rw [← Except.ok.inj hcreate]
  rw [hconverter]
  exact ⟨hinterleaver, rfl, rfl, rfl, rfl, hinitialized⟩

theorem timed_init {recordOnly : Bool} (h : create streams recordOnly = .ok session) :
    Timed streams [] session := by
  obtain ⟨hcreate, hstreams, hshift, hbatch, hclosing, hinitialized⟩ := create_ok h
  have hpending : session.pending = [] := by rw [pending, hbatch]
  refine ⟨⟨[], (PacketInterleaver.create_ok hcreate).merging, rfl, rfl⟩, hstreams, fun _ hp => ?_,
    fun hinit => ?_, fun hne => absurd rfl hne, fun _ => hclosing, ⟨[], ?_, ?_⟩, fun _ _ => ⟨?_, ?_⟩,
    fun shiftMs hsome => ?_, ?_, fun _ hp => ?_, fun _ he => ?_⟩
  · cases hp
  · rw [hinitialized] at hinit
    cases hinit
  · rw [hpending]
    rfl
  · exact List.Sublist.refl _
  · rw [hpending]
    rfl
  · intro batch hsome
    rw [hbatch] at hsome
    cases hsome
  · rw [hshift] at hsome
    cases hsome
  · rw [hshift]
    rfl
  · cases hp
  · cases he

/-- Closing is allowed where no batch is in hand. -/
theorem Timed.close (ht : Timed streams events session) (hbatch : session.batch = none) :
    Timed streams events { session with closing := true } :=
  { ht with
    busy := fun hne => absurd hbatch hne
    fresh := fun _ hopen => by cases hopen }

theorem Timed.addPrepared (ht : Timed streams events session) :
    Timed streams events { session with recordOnly := false } :=
  { ht with }

/-- What was popped once came from the interleaver. -/
theorem Timed.mem_interleaved (ht : Timed streams events session) {packet : Packet}
    (h : packet ∈ poppedPackets events) : packet ∈ interleavedPackets events := by
  obtain ⟨history, hm, hpushed, hreleased⟩ := ht.merging
  rw [← hpushed]
  rw [← hreleased] at h
  exact hm.mem_pushed (List.mem_append_left _ h)

/-- **A packet enters the interleaver.**  Once packets have left, it is not the first of its track. -/
theorem Timed.push (hexact : ExactCompare) (hvalid : ∀ stream ∈ streams, stream.timeBase.Positive)
    (ht : Timed streams events session) (hbatch : session.batch = none) {packet : Packet}
    {interleaver : PacketInterleaver}
    (h : session.interleaver.push (some packet) = (.ok (), interleaver)) :
    Timed streams (events ++ [.interleaved packet]) { session with interleaver := interleaver } := by
  obtain ⟨history, hm, hpushed, hreleased⟩ := ht.merging
  obtain ⟨hopen, -, hinitialized, hcheck⟩ := push_validated h
  obtain ⟨history', hm', hpushed', hreleased'⟩ := hm.push hexact hvalid h
  have hnew : interleavedPackets (events ++ [.interleaved packet]) = interleavedPackets events ++ [packet] :=
    interleavedPackets_append ..
  have hpopped : poppedPackets (events ++ [.interleaved packet]) = poppedPackets events :=
    (poppedPackets_append ..).trans (List.append_nil _)
  have hconversions : conversions (events ++ [.interleaved packet]) = conversions events :=
    (conversions_append ..).trans (List.append_nil _)
  have hsnapshots : snapshots (events ++ [.interleaved packet]) = snapshots events :=
    (snapshots_append ..).trans (List.append_nil _)
  have hrefusals : refusals (events ++ [.interleaved packet]) = refusals events :=
    (refusals_append ..).trans (List.append_nil _)
  have hstarted : poppedPackets events ≠ [] →
      firsts streams (interleavedPackets events ++ [packet]) = firsts streams (interleavedPackets events) := by
    intro hne
    rcases ht.seen (ht.started hne) with hflushed | hall
    · rw [hopen] at hflushed
      cases hflushed
    · exact firsts_append [packet] hall
  refine ⟨⟨history', hm', ?_, ?_⟩, ht.streams_eq, ?_, ?_, ?_, ht.busy, ?_, ?_, ?_, ?_, ?_, ?_⟩
  · rw [hpushed', hpushed, hnew]
  · rw [hreleased', hreleased, hpopped]
  · intro p hp
    rw [hnew, List.mem_append, List.mem_singleton] at hp
    rcases hp with hp | rfl
    · exact ht.validated p hp
    · have hstreams : session.timestamps.streams = session.interleaver.validation.streams := by
        rw [ht.streams_eq, hm.checks]
      rw [← hcheck]
      exact validate_congr hstreams _
  · intro hinit
    rw [show ({ session with interleaver := interleaver } : MediaSession).interleaver.initialized
      = session.interleaver.initialized from hinitialized] at hinit
    rcases ht.seen hinit with hflushed | hall
    · rw [hopen] at hflushed
      cases hflushed
    · refine .inr fun i hi hnil => hall i hi ?_
      rw [hnew, ofTrack_append, List.append_eq_nil_iff] at hnil
      exact hnil.1
  · rw [hpopped]
    exact fun hne => hinitialized.trans (ht.started hne)
  · rw [hpopped, hconversions]
    exact ht.waiting
  · intro hnone hcl
    rw [hpopped]
    refine ⟨(ht.fresh hnone hcl).1, fun batch hsome => ?_⟩
    rw [show session.batch = some batch from hsome] at hbatch
    cases hbatch
  · intro shiftMs hsome
    obtain ⟨hne, hshift⟩ := ht.shifted shiftMs hsome
    rw [hpopped, hnew, hstarted hne]
    exact ⟨hne, hshift⟩
  · rw [hsnapshots, ht.snapshots_eq, hnew]
    cases hshift : session.timestamps.shiftMs with
    | none => rfl
    | some shiftMs => rw [hstarted (ht.shifted shiftMs hshift).1]
  · rw [hconversions]
    exact ht.stamped
  · rw [hrefusals]
    exact ht.refused

omit [Libav] in
theorem events_popped (packets : List Packet) :
    interleavedPackets (packets.map .popped) = [] ∧ poppedPackets (packets.map .popped) = packets ∧
      conversions (packets.map .popped) = [] ∧ snapshots (packets.map .popped) = [] ∧
      refusals (packets.map .popped) = [] := by
  induction packets with
  | nil => exact ⟨rfl, rfl, rfl, rfl, rfl⟩
  | cons packet packets ih =>
    obtain ⟨h1, h2, h3, h4, h5⟩ := ih
    exact ⟨h1, congrArg (packet :: ·) h2, h3, h4, h5⟩

/-- **A batch leaves the interleaver.**  The first packets are noted before it does. -/
theorem Timed.popBatch (ht : Timed streams events session) (hbatch : session.batch = none)
    (hopen : session.closing = false) {draining : Bool} {new : List MediaEvent}
    {answer : Except Exception Unit} {next : MediaSession}
    (h : session.popBatch draining = (new, answer, next)) :
    Timed streams (events ++ new) (next.close answer false) := by
  obtain ⟨history, hm, hpushed, hreleased⟩ := ht.merging
  rw [MediaSession.popBatch] at h
  cases hpop : session.interleaver.popReady draining with
  | mk result interleaver =>
    cases result with
    | error e =>
      simp only [hpop, Prod.mk.injEq] at h
      obtain ⟨rfl, rfl, rfl⟩ := h
      rw [popReady_error hpop, List.append_nil]
      exact ht.close hbatch
    | ok packets =>
      simp only [hpop, Prod.mk.injEq] at h
      obtain ⟨rfl, rfl, rfl⟩ := h
      obtain ⟨hinterleaved, hpopped, hconversions, hsnapshots, hrefusals⟩ := events_popped packets
      obtain ⟨history', hm', hpushed', hreleased'⟩ := hm.pop hpop
      have hend := popReady_ok hpop
      have hinitialized := popReady_initialized hpop
      have hsame : interleavedPackets (events ++ packets.map .popped) = interleavedPackets events := by
        rw [interleavedPackets_append, hinterleaved, List.append_nil]
      have hmore : poppedPackets (events ++ packets.map .popped) = poppedPackets events ++ packets := by
        rw [poppedPackets_append, hpopped]
      have hkept : conversions (events ++ packets.map .popped) = conversions events := by
        rw [conversions_append, hconversions, List.append_nil]
      have hpending : session.pending = [] := by rw [pending, hbatch]
      refine ⟨⟨history', hm', ?_, ?_⟩, ht.streams_eq, ?_, ?_, ?_, fun _ => ?_, ?_, ?_, ?_, ?_, ?_, ?_⟩
      · rw [hpushed', hpushed, hsame]
      · rw [hreleased', hreleased, hmore]
      · rw [hsame]
        exact ht.validated
      · intro hinit
        change interleaver.initialized = true at hinit
        show interleaver.flushed = true ∨ _
        rw [hinitialized, Bool.or_eq_true, Bool.or_eq_true] at hinit
        rw [hsame, hend.flushed]
        rcases hinit with (hinit | hdraining) | hall
        · rcases ht.seen hinit with hflushed | hseen
          · exact .inl (by rw [hflushed, Bool.true_or])
          · exact .inr hseen
        · exact .inl (by rw [hdraining, Bool.or_true])
        · right
          rw [← hpushed]
          exact hm.seen hall
      · intro hne
        show interleaver.initialized = true
        rw [hmore] at hne
        by_cases hbefore : poppedPackets events = []
        · rw [hbefore, List.nil_append] at hne
          by_contra hnot
          have hresult := hend.result
          rw [if_neg hnot] at hresult
          exact hne hresult
        · exact hend.initialized (.inr (ht.started hbefore))
      · show (session.closing || false) = false
        rw [hopen, Bool.or_false]
      · obtain ⟨before, hbefore, hsub⟩ := ht.waiting
        rw [hpending, List.append_nil] at hbefore
        rw [hmore, hkept]
        exact ⟨before, by rw [hbefore]; rfl, hsub⟩
      · intro hnone _
        have hnothing : poppedPackets events = [] := by
          rw [(ht.fresh hnone hopen).1, hpending]
        refine ⟨by rw [hmore, hnothing]; rfl, fun batch hsome _ => ?_⟩
        rw [← Option.some.inj hsome, hsame, ← hpushed]
        show (if session.timestamps.shiftMs.isSome then [] else session.interleaver.firstPackets) = _
        rw [show session.timestamps.shiftMs = none from hnone]
        exact hm.firstPackets (hreleased.trans hnothing)
      · intro shiftMs hsome
        obtain ⟨hne, hshift⟩ := ht.shifted shiftMs hsome
        rw [hmore, hsame]
        exact ⟨fun hnil => hne (List.append_eq_nil_iff.mp hnil).1, hshift⟩
      · rw [snapshots_append, hsnapshots, List.append_nil, hsame]
        exact ht.snapshots_eq
      · rw [hkept]
        exact ht.stamped
      · rw [refusals_append, hrefusals, List.append_nil]
        exact ht.refused

/-- **The half under the lock.** -/
theorem Timed.collect (hexact : ExactCompare) (hvalid : ∀ stream ∈ streams, stream.timeBase.Positive)
    (ht : Timed streams events session) (hbatch : session.batch = none) (hopen : session.closing = false)
    {packet : Option Packet} {draining : Bool} {new : List MediaEvent} {answer : Except Exception Unit}
    {next : MediaSession} (h : session.collect packet draining = (new, answer, next)) :
    Timed streams (events ++ new) (next.close answer false) := by
  cases packet with
  | none => exact ht.popBatch hbatch hopen h
  | some packet =>
    rw [MediaSession.collect] at h
    cases hpush : session.interleaver.push (some packet) with
    | mk result interleaver =>
      cases result with
      | error e =>
        simp only [hpush, Prod.mk.injEq] at h
        obtain ⟨rfl, rfl, rfl⟩ := h
        rw [push_error hpush, List.append_nil]
        exact ht.close hbatch
      | ok u =>
        simp only [hpush] at h
        have hpushed := ht.push hexact hvalid hbatch hpush
        cases hpop : MediaSession.popBatch { session with interleaver := interleaver } draining with
        | mk popped rest =>
          obtain ⟨result, last⟩ := rest
          simp only [hpop, Prod.mk.injEq] at h
          obtain ⟨rfl, rfl, rfl⟩ := h
          have hfinal := hpushed.popBatch hbatch hopen hpop
          rwa [List.append_assoc] at hfinal

/-! ### The half outside the lock -/

/-- What the loop over the popped packets does. -/
structure Delivered (timestamps : MediaTimestampConverter) (packets : List Packet)
    (events : List MediaEvent) : Prop where
  interleaved : interleavedPackets events = []
  popped : poppedPackets events = []
  snapshots : snapshots events = []
  converted : ((conversions events).map Prod.fst).Sublist packets
  stamped : ∀ pair ∈ conversions events, timestamps.convert pair.1 = .ok pair.2
  refused : ∀ e ∈ refusals events, ∃ packet ∈ packets, timestamps.convert packet = .error e

theorem deliver_delivered (timestamps : MediaTimestampConverter) (recordOnly : Bool)
    (outlets : Outlets) (packets : List Packet) :
    Delivered timestamps packets (deliver timestamps recordOnly outlets packets).1 := by
  induction packets with
  | nil =>
    refine ⟨rfl, rfl, rfl, List.Sublist.refl _, fun _ h => ?_, fun _ h => ?_⟩
    · cases h
    · cases h
  | cons packet packets ih =>
    obtain ⟨hinterleaved, hpopped, hsnapshots, hconverted, hstamped, hrefused⟩ := ih
    have hmore : ∀ e ∈ refusals (deliver timestamps recordOnly outlets packets).1,
        ∃ p ∈ packet :: packets, timestamps.convert p = .error e := by
      intro e he
      obtain ⟨p, hp, hconvert⟩ := hrefused e he
      exact ⟨p, List.mem_cons_of_mem _ hp, hconvert⟩
    rw [deliver]
    cases hrecorded : outlets.record packet with
    | error e =>
      refine ⟨rfl, rfl, rfl, List.nil_sublist _, fun _ h => ?_, fun _ h => ?_⟩
      · cases h
      · cases h
    | ok u =>
      dsimp only
      by_cases hrecord : recordOnly
      · rw [if_pos hrecord]
        exact ⟨hinterleaved, hpopped, hsnapshots, hconverted.cons _, hstamped, hmore⟩
      · rw [if_neg hrecord]
        cases hconvert : timestamps.convert packet with
        | error e =>
          refine ⟨rfl, rfl, rfl, List.nil_sublist _, fun _ h => ?_, fun e' h => ?_⟩
          · cases h
          · obtain rfl := List.mem_singleton.mp h
            exact ⟨packet, List.mem_cons_self, hconvert⟩
        | ok stamps =>
          have hone : ∀ pair ∈ [(packet, stamps)], timestamps.convert pair.1 = .ok pair.2 := by
            intro pair hpair
            rw [List.mem_singleton.mp hpair]
            exact hconvert
          cases hconsume : outlets.consume packet stamps with
          | error e =>
            simp only [hconsume]
            refine ⟨rfl, rfl, rfl, (List.nil_sublist _).cons_cons _, hone, fun _ h => ?_⟩
            cases h
          | ok u =>
            simp only [hconsume]
            refine ⟨hinterleaved, hpopped, hsnapshots, hconverted.cons_cons _, fun pair hpair => ?_, hmore⟩
            rcases List.mem_cons.mp hpair with hpair | hpair
            · exact hone pair (List.mem_singleton.mpr hpair)
            · exact hstamped pair hpair

/-- Every packet accepted is presented when it is decoded or later. -/
def Presentable (events : List MediaEvent) : Prop :=
  ∀ packet ∈ interleavedPackets events, packet.dts ≤ packet.pts

/-- **No accepted packet is before the origin.** -/
theorem Timed.covered (ht : Timed streams events session) (hpts : Presentable events) {shiftMs : ℤ}
    (hshift : session.timestamps.shiftMs = some shiftMs) {packet : Packet}
    (hpacket : packet ∈ interleavedPackets events) :
    packet.timeBase.Positive ∧ -shiftMs ≤ packet.dtsMillis ∧ packet.dtsMillis ≤ packet.ptsMillis := by
  obtain ⟨history, hm, hpushed, -⟩ := ht.merging
  rw [← hpushed] at hpacket
  have hbase := (hm.accepted packet hpacket).1
  obtain ⟨first, hfirst, hle⟩ := hm.first_le hpacket
  rw [hpushed] at hfirst hpacket
  have hcovers := ((ht.shifted shiftMs hshift).2.covers first hfirst).2
  exact ⟨hbase, le_trans hcovers hle, Packet.dtsMillis_le hbase (hpts packet hpacket)⟩

/-- **The shift is settled before the loop.** -/
theorem Timed.settle (ht : Timed streams events session) {batch : Batch}
    (hbatch : session.batch = some batch) {new : List MediaEvent}
    {result : Except Exception MediaTimestampConverter}
    (h : MediaSession.settle session.timestamps batch = (new, result)) :
    match result with
    | .error e => new = [.unshifted e] ∧ e.IsOverflow
    | .ok timestamps => Timed streams (events ++ new) { session with timestamps := timestamps } ∧
        (batch.packets ≠ [] → timestamps.shiftMs ≠ none) ∧ interleavedPackets new = [] := by
  have hopen : session.closing = false := by
    apply ht.busy
    rw [hbatch]
    intro hnone
    cases hnone
  have hpending : session.pending = batch.packets := by rw [pending, hbatch]
  rw [MediaSession.settle] at h
  by_cases hskip : (batch.packets.isEmpty || session.timestamps.shiftMs.isSome) = true
  · rw [if_pos hskip] at h
    obtain ⟨rfl, rfl⟩ := Prod.mk.inj h
    rw [List.append_nil]
    refine ⟨ht, fun hne hnone => ?_, rfl⟩
    rw [hnone, Bool.or_eq_true, List.isEmpty_iff] at hskip
    rcases hskip with hnil | hsome
    · exact hne hnil
    · cases hsome
  · rw [if_neg hskip] at h
    rw [Bool.or_eq_true, not_or, List.isEmpty_iff] at hskip
    obtain ⟨hne, hsome⟩ := hskip
    have hnone : session.timestamps.shiftMs = none := by simpa using hsome
    obtain ⟨hpopped, hfirsts⟩ := ht.fresh hnone hopen
    have hsnapshot := hfirsts batch hbatch hne
    have hmem : ∀ p ∈ batch.firstPackets, p ∈ interleavedPackets events := by
      intro p hp
      rw [hsnapshot] at hp
      exact mem_firsts hp
    have hvalid : ∀ p ∈ batch.firstPackets, session.timestamps.validate (some p) = .ok p :=
      fun p hp => ht.validated p (hmem p hp)
    have hbases : ∀ p ∈ batch.firstPackets, p.timeBase.Positive := by
      intro p hp
      obtain ⟨history, hm, hpushed, -⟩ := ht.merging
      refine (hm.accepted p ?_).1
      rw [hpushed]
      exact hmem p hp
    cases hinit : session.timestamps.initializeShift batch.firstPackets with
    | error e =>
      rw [hinit] at h
      obtain ⟨rfl, rfl⟩ := Prod.mk.inj h
      exact ⟨rfl, initializeShift_error hvalid hinit⟩
    | ok timestamps =>
      rw [hinit] at h
      obtain ⟨rfl, rfl⟩ := Prod.mk.inj h
      obtain ⟨shiftMs, rfl, hshift⟩ := initializeShift_ok hnone hbases hinit
      have hinterleaved : interleavedPackets (events ++ [.initialized batch.firstPackets])
          = interleavedPackets events := (interleavedPackets_append ..).trans (List.append_nil _)
      have hsame : poppedPackets (events ++ [.initialized batch.firstPackets]) = poppedPackets events :=
        (poppedPackets_append ..).trans (List.append_nil _)
      have hconversions : conversions (events ++ [.initialized batch.firstPackets]) = conversions events :=
        (conversions_append ..).trans (List.append_nil _)
      have hbefore : conversions events = [] := by
        cases hc : conversions events with
        | nil => rfl
        | cons pair pairs =>
          obtain ⟨k, hk, -⟩ := ht.stamped pair (by rw [hc]; exact List.mem_cons_self)
          rw [hnone] at hk
          cases hk
      refine ⟨⟨?_, ht.streams_eq, ?_, ?_, ?_, ht.busy, ?_, ?_, ?_, ?_, ?_, ?_⟩, ?_, rfl⟩
      · rw [hinterleaved, hsame]
        exact ht.merging
      · rw [hinterleaved]
        intro p hp
        rw [← ht.validated p hp]
        exact validate_congr rfl _
      · rw [hinterleaved]
        exact ht.seen
      · rw [hsame]
        exact ht.started
      · rw [hsame, hconversions]
        exact ht.waiting
      · intro hshifted
        cases hshifted
      · intro k hk
        obtain rfl := Option.some.inj hk
        rw [hsame, hinterleaved, ← hsnapshot, hpopped, hpending]
        exact ⟨hne, hshift⟩
      · rw [snapshots_append, ht.snapshots_eq, hnone, hinterleaved, ← hsnapshot]
        rfl
      · rw [hconversions, hbefore]
        intro pair hpair
        cases hpair
      · rw [refusals_append]
        exact fun e he => ht.refused e (by simpa [refusals, MediaEvent.refused?] using he)
      · intro _ hshifted
        cases hshifted

/-- **The loop over the batch.** -/
theorem Timed.deliver (ht : Timed streams events session) (hpts : Presentable events) {batch : Batch}
    (hbatch : session.batch = some batch)
    (hsettled : batch.packets ≠ [] → session.timestamps.shiftMs ≠ none) {new : List MediaEvent}
    (hd : Delivered session.timestamps batch.packets new) (closing : Bool) :
    Timed streams (events ++ new) { session with batch := none, closing := closing } := by
  have hpending : session.pending = batch.packets := by rw [pending, hbatch]
  obtain ⟨before, hbefore, hsub⟩ := ht.waiting
  rw [hpending] at hbefore
  have hinterleaved : interleavedPackets (events ++ new) = interleavedPackets events := by
    rw [interleavedPackets_append, hd.interleaved, List.append_nil]
  have hpopped : poppedPackets (events ++ new) = poppedPackets events := by
    rw [poppedPackets_append, hd.popped, List.append_nil]
  have haccepted : ∀ p ∈ batch.packets, p ∈ interleavedPackets events := by
    intro p hp
    apply ht.mem_interleaved
    rw [hbefore]
    exact List.mem_append_right _ hp
  refine ⟨?_, ht.streams_eq, ?_, ?_, ?_, fun hne => absurd rfl hne, ?_, ?_, ?_, ?_, ?_, ?_⟩
  · rw [hinterleaved, hpopped]
    exact ht.merging
  · rw [hinterleaved]
    exact ht.validated
  · rw [hinterleaved]
    exact ht.seen
  · rw [hpopped]
    exact ht.started
  · refine ⟨before ++ batch.packets, by rw [hpopped, hbefore]; exact (List.append_nil _).symm, ?_⟩
    rw [conversions_append, List.map_append]
    exact hsub.append hd.converted
  · intro hnone _
    have hnil : batch.packets = [] := by
      by_contra hne
      exact hsettled hne hnone
    have hopen : session.closing = false := by
      apply ht.busy
      rw [hbatch]
      intro hno
      cases hno
    refine ⟨?_, fun batch' hsome => ?_⟩
    · rw [hpopped, (ht.fresh hnone hopen).1, hpending, hnil]
      rfl
    · cases hsome
  · rw [hpopped, hinterleaved]
    exact ht.shifted
  · rw [snapshots_append, hd.snapshots, List.append_nil, hinterleaved]
    exact ht.snapshots_eq
  · intro pair hpair
    rw [conversions_append, List.mem_append] at hpair
    rcases hpair with hpair | hpair
    · exact ht.stamped pair hpair
    · have hmem := haccepted _ (hd.converted.subset (List.mem_map_of_mem hpair))
      obtain ⟨history, hm, hpushed, -⟩ := ht.merging
      rw [← hpushed] at hmem
      exact convert_ok (hm.accepted _ hmem).1 (hd.stamped pair hpair)
  · intro e he
    rw [refusals_append, List.mem_append] at he
    rcases he with he | he
    · exact ht.refused e he
    · obtain ⟨p, hp, hconvert⟩ := hd.refused e he
      cases hshift : session.timestamps.shiftMs with
      | none => exact absurd hshift (hsettled (List.ne_nil_of_mem hp))
      | some shiftMs =>
        obtain ⟨hbase, hlow, hle⟩ := ht.covered hpts hshift (haccepted p hp)
        exact convert_error hbase (ht.validated p (haccepted p hp)) hshift (le_trans hlow hle) hlow hconvert

/-- **The half outside the lock.** -/
theorem Timed.emit (ht : Timed streams events session) (hpts : Presentable events) {batch : Batch}
    (hbatch : session.batch = some batch)
    {outlets : Outlets} {new : List MediaEvent}
    {answer : Except Exception Unit} {next : MediaSession}
    (h : session.emit batch outlets = (new, answer, next)) :
    Timed streams (events ++ new) (next.close answer batch.finish) := by
  rw [MediaSession.emit] at h
  cases hsettle : MediaSession.settle session.timestamps batch with
  | mk first result =>
    have hsettled := ht.settle hbatch hsettle
    cases result with
    | error e =>
      simp only [hsettle, Prod.mk.injEq] at h
      obtain ⟨rfl, rfl, rfl⟩ := h
      obtain ⟨rfl, hoverflow⟩ := hsettled
      have hpending : session.pending = batch.packets := by rw [pending, hbatch]
      obtain ⟨before, hbefore, hsub⟩ := ht.waiting
      have hinterleaved : interleavedPackets (events ++ [.unshifted e]) = interleavedPackets events :=
        (interleavedPackets_append ..).trans (List.append_nil _)
      have hpopped : poppedPackets (events ++ [.unshifted e]) = poppedPackets events :=
        (poppedPackets_append ..).trans (List.append_nil _)
      have hconversions : conversions (events ++ [.unshifted e]) = conversions events :=
        (conversions_append ..).trans (List.append_nil _)
      refine ⟨?_, ht.streams_eq, ?_, ?_, ?_, fun hne => absurd rfl hne, ⟨poppedPackets events, ?_, ?_⟩,
        fun _ hopen => ?_, ?_, ?_, ?_, ?_⟩
      · rw [hinterleaved, hpopped]
        exact ht.merging
      · rw [hinterleaved]
        exact ht.validated
      · rw [hinterleaved]
        exact ht.seen
      · rw [hpopped]
        exact ht.started
      · rw [hpopped]
        exact (List.append_nil _).symm
      · rw [hconversions, hbefore]
        exact hsub.trans (List.sublist_append_left _ _)
      · cases hopen
      · rw [hpopped, hinterleaved]
        exact ht.shifted
      · rw [snapshots_append, hinterleaved]
        exact (List.append_nil _).trans ht.snapshots_eq
      · rw [hconversions]
        exact ht.stamped
      · intro e' he
        rw [refusals_append, List.mem_append] at he
        rcases he with he | he
        · exact ht.refused e' he
        · rw [List.mem_singleton.mp he]
          exact hoverflow
    | ok timestamps =>
      simp only [hsettle, Prod.mk.injEq] at h
      obtain ⟨rfl, rfl, rfl⟩ := h
      obtain ⟨htimed, hshift, hnothing⟩ := hsettled
      have hpts' : Presentable (events ++ first) := by
        intro p hp
        rw [interleavedPackets_append, hnothing, List.append_nil] at hp
        exact hpts p hp
      have hd := deliver_delivered timestamps session.recordOnly outlets batch.packets
      have hfinal := htimed.deliver hpts' hbatch hshift hd
      rw [← List.append_assoc]
      generalize MediaSession.deliver timestamps session.recordOnly outlets batch.packets = outcome at hfinal ⊢
      obtain ⟨delivered, result⟩ := outcome
      cases result with
      | error e => exact hfinal true
      | ok u => exact hfinal (session.closing || batch.finish)

theorem Step.timed (hexact : ExactCompare) (hvalid : ∀ stream ∈ streams, stream.timeBase.Positive)
    {new : List MediaEvent} {next : MediaSession} (h : Step session new next) (hpts : Presentable events)
    (ht : Timed streams events session) : Timed streams (events ++ new) next := by
  cases h with
  | collect packet draining hopen hbatch h => exact ht.collect hexact hvalid hbatch hopen h
  | emit batch outlets hbatch h => exact ht.emit hpts hbatch h
  | addPrepared =>
    rw [List.append_nil]
    exact ht.addPrepared

/-- **Every session keeps the invariant**, as long as no packet is decoded after it is presented. -/
theorem timed (hexact : ExactCompare) {start : MediaSession} {recordOnly : Bool}
    (hstart : create streams recordOnly = .ok start) (hrun : (system streams).Run start events session)
    (hpts : Presentable events) : Timed streams events session := by
  have hvalid := (PacketInterleaver.create_ok (create_ok hstart).1).valid
  have hreach : (system streams).Reachable start := .init ⟨recordOnly, hstart⟩
  have hinv : Presentable events → Timed streams events session := by
    refine @Transition.Run.induct _ _ _ (fun events session => Presentable events → Timed streams events session)
      _ _ _ hreach hrun (fun _ => timed_init hstart) ?_
    intro events session new next _ ih hstep hpts
    have hbefore : Presentable events := by
      intro p hp
      apply hpts p
      rw [interleavedPackets_append]
      exact List.mem_append_left _ hp
    exact Step.timed hexact hvalid hstep hbefore (ih hbefore)
  exact hinv hpts

omit [Libav] in
theorem millis_nonneg {value : ℤ} {timeBase : AVRational} (hbase : timeBase.Positive) (h : 0 ≤ value) :
    0 ≤ millis value timeBase := by
  refine roundNear_nonneg (Int.mul_pos hbase.2 (by decide)) (mul_nonneg h ?_)
  exact (Int.mul_pos hbase.1 (by decide)).le

/-- Packets of a track that were released are in order. -/
theorem Timed.ordered (ht : Timed streams events session) {x y : Packet} {i : ℤ}
    (h : [x, y].Sublist (ofTrack Packet.streamIndex i (poppedPackets events))) :
    x.dtsMillis ≤ y.dtsMillis := by
  obtain ⟨history, hm, hpushed, hreleased⟩ := ht.merging
  have hconserved := hm.conserved i
  rw [hreleased, ofTrack_append] at hconserved
  have hsub : [x, y].Sublist (ofTrack Packet.streamIndex i (pushedPackets history)) := by
    rw [← hconserved]
    exact h.trans (List.sublist_append_left _ _)
  have hpair : key (indicesOf streams) x ≤ key (indicesOf streams) y := by
    have hsorted := (hm.ordered i).sublist hsub
    exact (List.pairwise_cons.mp hsorted).1 y (List.mem_singleton_self y)
  have hbase : ∀ p ∈ [x, y], p.timeBase.Positive := fun p hp =>
    (hm.accepted p (mem_ofTrack.mp (hsub.subset hp)).1).1
  exact scaled_mono (by decide) (hbase x List.mem_cons_self)
    (hbase y (List.mem_cons_of_mem _ List.mem_cons_self)) hpair

/-- The converted packets of one track do not go back in time. -/
theorem Timed.monotone (ht : Timed streams events session) (i : ℤ) :
    ((conversions events).filter fun pair => decide (pair.1.streamIndex = i)).Pairwise
      fun x y => x.2.dtsMs ≤ y.2.dtsMs := by
  obtain ⟨before, hbefore, hsub⟩ := ht.waiting
  rw [List.pairwise_iff_forall_sublist]
  intro x y hxy
  have hboth := hxy.subset
  have hx := (List.mem_filter.mp (hboth List.mem_cons_self)).1
  have hy := (List.mem_filter.mp (hboth (List.mem_cons_of_mem _ List.mem_cons_self))).1
  have hordered : x.1.dtsMillis ≤ y.1.dtsMillis := by
    apply ht.ordered (i := i)
    have hpackets : [x.1, y.1].Sublist
        (((conversions events).filter fun pair => decide (pair.1.streamIndex = i)).map Prod.fst) :=
      hxy.map Prod.fst
    have hfilter : ((conversions events).filter fun pair => decide (pair.1.streamIndex = i)).map Prod.fst
        = ofTrack Packet.streamIndex i ((conversions events).map Prod.fst) := by
      rw [ofTrack, List.filter_map]
      rfl
    rw [hfilter] at hpackets
    have hreleased : ((conversions events).map Prod.fst).Sublist (poppedPackets events) := by
      rw [hbefore]
      exact hsub.trans (List.sublist_append_left _ _)
    exact hpackets.trans (hreleased.filter _)
  obtain ⟨shiftMs, hshift, hxstamp⟩ := ht.stamped x hx
  obtain ⟨shiftMs', hshift', hystamp⟩ := ht.stamped y hy
  rw [hshift] at hshift'
  obtain rfl := Option.some.inj hshift'
  have hxdts := hxstamp.2
  have hydts := hystamp.2
  omega

/-- **One shift serves the whole session.**  `Initialize` runs at most once, and the packets it is given hold
the first packet of every track that ever submits anything.  It and the conversions of accepted packets fail
only by overflow; nothing that was accepted, and nothing that starts at zero or later, is before the origin.
All stamps are the rounded native ones plus one and the same shift, which is zero exactly when no first stamp
is below zero; so they differ by what the native ones differ, presentation is not before decoding, and within
a track decoding does not go back. -/
theorem common_shift (hexact : ExactCompare) {start : MediaSession} {recordOnly : Bool}
    (hstart : create streams recordOnly = .ok start) (hrun : (system streams).Run start events session)
    (hpts : Presentable events) :
    ((snapshots events).length ≤ 1 ∧ ∀ first ∈ snapshots events, ∀ i packet,
      (ofTrack Packet.streamIndex i (interleavedPackets events)).head? = some packet → packet ∈ first) ∧
    (∀ e ∈ refusals events, e.IsOverflow) ∧
    (∀ packet, packet ∈ interleavedPackets events ∨ (0 ≤ packet.pts ∧ 0 ≤ packet.dts) →
      session.timestamps.convert packet ≠ .error beforeOrigin) ∧
    (∀ shiftMs, session.timestamps.shiftMs = some shiftMs →
      (∀ pair ∈ conversions events, Stamped shiftMs pair.1 pair.2) ∧
      (shiftMs = 0 ↔ ∀ i packet,
        (ofTrack Packet.streamIndex i (interleavedPackets events)).head? = some packet →
          0 ≤ packet.ptsMillis ∧ 0 ≤ packet.dtsMillis)) ∧
    (∀ x ∈ conversions events, ∀ y ∈ conversions events,
      (x.2.ptsMs : ℤ) - y.2.ptsMs = x.1.ptsMillis - y.1.ptsMillis ∧
      (x.2.dtsMs : ℤ) - y.2.dtsMs = x.1.dtsMillis - y.1.dtsMillis ∧
      (x.2.ptsMs : ℤ) - y.2.dtsMs = x.1.ptsMillis - y.1.dtsMillis) ∧
    (∀ pair ∈ conversions events, pair.2.dtsMs ≤ pair.2.ptsMs) ∧
    ∀ i, ((conversions events).filter fun pair => decide (pair.1.streamIndex = i)).Pairwise
      fun x y => x.2.dtsMs ≤ y.2.dtsMs := by
  have ht := timed hexact hstart hrun hpts
  have hfirsts : ∀ i packet, (ofTrack Packet.streamIndex i (interleavedPackets events)).head? = some packet →
      packet ∈ firsts streams (interleavedPackets events) := by
    intro i packet hhead
    obtain ⟨hmem, hindex⟩ := mem_ofTrack.mp (List.mem_of_mem_head? hhead)
    obtain ⟨history, hm, hpushed, -⟩ := ht.merging
    rw [← hpushed] at hmem
    have hfits := hm.accepted packet hmem
    refine List.mem_filterMap.mpr ⟨i, ?_, hhead⟩
    rw [← hindex]
    exact hfits.mem
  refine ⟨⟨?_, ?_⟩, ht.refused, ?_, ?_, ?_, ?_, ht.monotone⟩
  · rw [ht.snapshots_eq]
    split
    · exact le_refl 1
    · exact Nat.zero_le 1
  · intro first hfirst i packet hhead
    rw [ht.snapshots_eq] at hfirst
    split at hfirst
    · rw [List.mem_singleton.mp hfirst]
      exact hfirsts i packet hhead
    · cases hfirst
  · intro packet hpacket herror
    obtain ⟨hbase, shiftMs, hshift, hbefore⟩ := convert_before herror
    rcases hpacket with hpacket | ⟨hp, hd⟩
    · obtain ⟨-, hlow, hle⟩ := ht.covered hpts hshift hpacket
      omega
    · have hnonneg := (ht.shifted shiftMs hshift).2.nonneg
      have hpm : 0 ≤ packet.ptsMillis := millis_nonneg hbase hp
      have hdm : 0 ≤ packet.dtsMillis := millis_nonneg hbase hd
      omega
  · intro shiftMs hshift
    refine ⟨fun pair hpair => ?_, ?_⟩
    · obtain ⟨k, hk, hstamped⟩ := ht.stamped pair hpair
      rw [hshift] at hk
      rwa [Option.some.inj hk]
    · rw [(ht.shifted shiftMs hshift).2.zero_iff]
      constructor
      · exact fun hall i packet hhead => hall packet (hfirsts i packet hhead)
      · intro hall packet hpacket
        obtain ⟨i, -, hhead⟩ := List.mem_filterMap.mp hpacket
        exact hall i packet hhead
  · intro x hx y hy
    obtain ⟨k, hk, hxpts, hxdts⟩ := ht.stamped x hx
    obtain ⟨l, hl, hypts, hydts⟩ := ht.stamped y hy
    rw [hk] at hl
    obtain rfl := Option.some.inj hl
    omega
  · intro pair hpair
    obtain ⟨k, hk, hstamp⟩ := ht.stamped pair hpair
    have hmem : pair.1 ∈ interleavedPackets events := by
      obtain ⟨before, hbefore, hsub⟩ := ht.waiting
      apply ht.mem_interleaved
      rw [hbefore]
      exact List.mem_append_left _ (hsub.subset (List.mem_map_of_mem hpair))
    obtain ⟨-, -, hle⟩ := ht.covered hpts hk hmem
    have hp := hstamp.1
    have hd := hstamp.2
    omega

/-- `Process` with nothing in between: both halves, one after the other. -/
def process (session : MediaSession) (packet : Option Packet) (draining : Bool)
    (outlets : Outlets) : List MediaEvent × MediaSession :=
  let (collected, answer, next) := session.collect packet draining
  let next := next.close answer false
  match next.batch with
  | none => (collected, next)
  | some batch =>
    let (emitted, answer, last) := next.emit batch outlets
    (collected ++ emitted, last.close answer batch.finish)

theorem process_run (hopen : session.closing = false) (hbatch : session.batch = none)
    (packet : Option Packet) (draining : Bool)
    (outlets : Outlets) :
    (system streams).Run session (session.process packet draining outlets).1
      (session.process packet draining outlets).2 := by
  have hcollect : (system streams).step session (session.collect packet draining).1
      ((session.collect packet draining).2.2.close (session.collect packet draining).2.1 false) :=
    Step.collect packet draining hopen hbatch rfl
  rw [process]
  dsimp only
  split
  · exact .single hcollect
  · rename_i batch hsome
    exact (Transition.Run.single hcollect).snoc (Step.emit batch outlets hsome rfl)

end MediaSession

end MwStreamer

namespace MwStreamer.MediaSession

open PacketInterleaver MediaTimestampConverter

attribute [local instance] exactLibav

/-- Pictures at 25 a second and audio at 48 kHz. -/
def primingStreams : List StreamInfo :=
  [⟨0, some { codecType := .video }, ⟨1, 25⟩⟩, ⟨1, some { codecType := .audio }, ⟨1, 48000⟩⟩]

/-- A picture that is decoded two pictures early, and the priming of an audio encoder. -/
def primingPackets : List Packet := [⟨0, 0, -2, ⟨1, 25⟩, 0⟩, ⟨1, -1024, -1024, ⟨1, 48000⟩, 1⟩]

/-- The shift is the lead of the picture, and the priming keeps its distance to it. -/
theorem common_shift_priming :
    ∃ (start last : MediaSession) (events : List MediaEvent),
      create primingStreams false = .ok start ∧ (system primingStreams).Run start events last ∧
      conversions events = [(⟨0, 0, -2, ⟨1, 25⟩, 0⟩, ⟨80, 0⟩)] ∧
      last.timestamps.shiftMs = some 80 ∧
      last.timestamps.convert ⟨1, -1024, -1024, ⟨1, 48000⟩, 1⟩ ≠ .error beforeOrigin := by
  have hcreate : ∃ start : MediaSession, create primingStreams false = .ok start ∧
      start.closing = false ∧ start.batch = none ∧
      ∃ middle : List MediaEvent × MediaSession,
        start.process primingPackets.head? false ({}) = middle ∧
        middle.2.closing = false ∧ middle.2.batch = none ∧
        ∃ last : List MediaEvent × MediaSession,
          middle.2.process primingPackets.getLast? false ({}) = last ∧
          conversions (middle.1 ++ last.1) = [(⟨0, 0, -2, ⟨1, 25⟩, 0⟩, ⟨80, 0⟩)] ∧
          last.2.timestamps.shiftMs = some 80 ∧
          interleavedPackets (middle.1 ++ last.1) = primingPackets :=
    ⟨_, rfl, by decide +kernel, by decide +kernel, _, rfl, by decide +kernel, by decide +kernel, _, rfl,
      by decide +kernel, by decide +kernel, by decide +kernel⟩
  obtain ⟨start, hstart, hopen, hbatch, middle, rfl, hopen', hbatch', last, rfl, hconversions, hshift,
    hpackets⟩ := hcreate
  have hfirst : (system primingStreams).Run start _ _ :=
    process_run hopen hbatch primingPackets.head? false {}
  have hrun := hfirst.trans (process_run hopen' hbatch' primingPackets.getLast? false {})
  have hpts : Presentable (((start.process primingPackets.head? false {}).1) ++
      (((start.process primingPackets.head? false {}).2.process primingPackets.getLast? false
        {}).1)) := by
    intro packet hp
    rw [hpackets] at hp
    revert hp packet
    decide
  have hclaim := common_shift exactLibav_exact hstart hrun hpts
  refine ⟨start, _, _, hstart, hrun, hconversions, hshift, hclaim.2.2.1 _ (.inl ?_)⟩
  rw [hpackets]
  decide

end MwStreamer.MediaSession
