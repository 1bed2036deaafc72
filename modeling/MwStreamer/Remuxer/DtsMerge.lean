import Mathlib.Algebra.Order.Field.Rat
import Mathlib.Data.Prod.Lex
import Mathlib.Tactic.FieldSimp
import MwStreamer.Library.StableMerge
import MwStreamer.Library.Transition
import MwStreamer.Remuxer.PacketInterleaver

/-!
# The interleaver is a lossless merge

Packets are ordered by decoding time in seconds, a rational number, and then by the order in which the tracks
were created.  Over any run of pushes and reads the queue is sorted by this key, what has left and what waits
is together what was pushed of every track, in order, and a session that was flushed has returned everything.
As long as the ten-second window never forces a packet out, the returned list is sorted too, so it is the
stable sort of what was pushed and does not depend on the schedule.

The comparison of timestamps is taken as exact (`ExactCompare`).  The window is measured in microseconds, each
end rounded by itself.
-/

namespace MwStreamer

namespace PacketInterleaver

open StableMerge Rounding

/-! ### The order of packets -/

/-- The decoding time in seconds. -/
def seconds (packet : Packet) : ℚ := packet.dts * packet.timeBase.num / packet.timeBase.den

/-- Decoding time, then the position of the track. -/
def key (indices : List ℤ) (packet : Packet) : ℚ ×ₗ ℕ :=
  toLex (seconds packet, indices.findIdx (· == packet.streamIndex))

/-- `av_compare_ts` as an exact comparison of rational numbers. -/
def ExactCompare [Libav] : Prop :=
  ∀ a p b q, p.Positive → q.Positive →
    (avCompareTs a p b q < 0 ↔ a * (p.num * q.den) < b * (q.num * p.den)) ∧
      (0 < avCompareTs a p b q ↔ b * (q.num * p.den) < a * (p.num * q.den))

theorem seconds_lt_iff {x y : Packet} (hx : x.timeBase.Positive) (hy : y.timeBase.Positive) :
    seconds x < seconds y ↔ x.dts * (x.timeBase.num * y.timeBase.den)
      < y.dts * (y.timeBase.num * x.timeBase.den) := by
  have hxd : (0 : ℚ) < x.timeBase.den := by exact_mod_cast hx.2
  have hyd : (0 : ℚ) < y.timeBase.den := by exact_mod_cast hy.2
  rw [seconds, seconds, div_lt_div_iff₀ hxd hyd, mul_assoc, mul_assoc]
  exact_mod_cast Iff.rfl

theorem trackOrder_eq (tracks : List InterleaverTrack) (index : ℤ) :
    trackOrder tracks index = (tracks.map (·.index)).findIdx (· == index) := by
  rw [trackOrder, List.findIdx_map]
  rfl

variable [Libav]

/-- **The code's order is the order of the keys.** -/
theorem precedes_iff (hexact : ExactCompare) {tracks : List InterleaverTrack} {x y : Packet}
    (hx : x.timeBase.Positive) (hy : y.timeBase.Positive) :
    precedes tracks x y = true ↔ key (tracks.map (·.index)) x < key (tracks.map (·.index)) y := by
  obtain ⟨hlt, hgt⟩ := hexact x.dts x.timeBase y.dts y.timeBase hx hy
  rw [← seconds_lt_iff hx hy] at hlt
  rw [← seconds_lt_iff hy hx] at hgt
  rw [key, key, Prod.Lex.toLex_lt_toLex, ← trackOrder_eq, ← trackOrder_eq, precedes]
  generalize avCompareTs x.dts x.timeBase y.dts y.timeBase = comparison at *
  by_cases hzero : comparison = 0
  · have hsame : seconds x = seconds y := by
      refine le_antisymm (not_lt.mp fun h => ?_) (not_lt.mp fun h => ?_)
      · have := hgt.mpr h
        omega
      · have := hlt.mpr h
        omega
    simp [hzero, hsame]
  · have hne : seconds x ≠ seconds y := by
      intro hsame
      rw [hsame] at hlt hgt
      have h1 := mt hlt.mp (lt_irrefl _)
      have h2 := mt hgt.mp (lt_irrefl _)
      omega
    simp [hzero, hne, hlt]

theorem insertItem_eq (hexact : ExactCompare) {tracks : List InterleaverTrack} {x : Packet}
    (hx : x.timeBase.Positive) {queue : List Packet} (hqueue : ∀ y ∈ queue, y.timeBase.Positive) :
    insertItem tracks x queue = insertLast (key (tracks.map (·.index))) x queue := by
  have hpred : ∀ y ∈ queue, (!precedes tracks x y)
      = decide (key (tracks.map (·.index)) y ≤ key (tracks.map (·.index)) x) := by
    intro y hy
    rw [Bool.eq_iff_iff, Bool.not_eq_true', decide_eq_true_iff, ← not_lt,
      ← precedes_iff hexact hx (hqueue y hy), Bool.not_eq_true]
  rw [insertItem, insertLast]
  induction queue with
  | nil => rfl
  | cons y queue ih =>
    have ih := ih (fun z hz => hqueue z (List.mem_cons_of_mem _ hz))
      (fun z hz => hpred z (List.mem_cons_of_mem _ hz))
    have hy := hpred y List.mem_cons_self
    simp only [List.takeWhile_cons, List.dropWhile_cons, hy]
    by_cases hle : key (tracks.map (·.index)) y ≤ key (tracks.map (·.index)) x
    · simp only [hle, decide_true, if_true, List.cons_append, ih]
    · simp only [hle, decide_false, Bool.false_eq_true, if_false]

/-! ### Streams and tracks -/

/-- A packet of one of the streams, in a time base of the same ratio. -/
def Fits (streams : List StreamInfo) (packet : Packet) : Prop :=
  packet.timeBase.Positive ∧ ∃ stream, streams.find? (·.streamIndex == packet.streamIndex) = some stream ∧
    stream.timeBase.Positive ∧
    packet.timeBase.num * stream.timeBase.den = stream.timeBase.num * packet.timeBase.den

omit [Libav] in
theorem seconds_eq {packet : Packet} {stream : StreamInfo}
    (hb : packet.timeBase.Positive) (hs : stream.timeBase.Positive)
    (h : packet.timeBase.num * stream.timeBase.den = stream.timeBase.num * packet.timeBase.den) :
    seconds packet = packet.dts * (stream.timeBase.num / stream.timeBase.den : ℚ) := by
  have hbd : (packet.timeBase.den : ℚ) ≠ 0 := by exact_mod_cast hb.2.ne'
  have hsd : (stream.timeBase.den : ℚ) ≠ 0 := by exact_mod_cast hs.2.ne'
  have hq : (packet.timeBase.num : ℚ) * stream.timeBase.den = stream.timeBase.num * packet.timeBase.den := by
    exact_mod_cast h
  rw [seconds]
  field_simp
  rw [mul_assoc, hq]
  ring

omit [Libav] in
/-- Within a track the keys are ordered as the timestamps are. -/
theorem key_le_of_dts {streams : List StreamInfo} {indices : List ℤ} {x y : Packet} (hx : Fits streams x)
    (hy : Fits streams y) (hsame : x.streamIndex = y.streamIndex) (hdts : x.dts ≤ y.dts) :
    key indices x ≤ key indices y := by
  obtain ⟨hxb, stream, hfind, hs, hxs⟩ := hx
  obtain ⟨hyb, stream', hfind', -, hys⟩ := hy
  rw [hsame, hfind', Option.some.injEq] at hfind
  rw [hfind] at hys
  have htick : (0 : ℚ) ≤ stream.timeBase.num / stream.timeBase.den := by
    apply div_nonneg
    · exact_mod_cast hs.1.le
    · exact_mod_cast hs.2.le
  have hle : seconds x ≤ seconds y := by
    rw [seconds_eq hxb hs hxs, seconds_eq hyb hs hys]
    exact mul_le_mul_of_nonneg_right (by exact_mod_cast hdts) htick
  rw [key, key, hsame, Prod.Lex.toLex_le_toLex]
  rcases hle.lt_or_eq with hlt | heq
  · exact .inl hlt
  · exact .inr ⟨heq, le_refl _⟩

def indicesOf (streams : List StreamInfo) : List ℤ := streams.map (·.streamIndex)

omit [Libav] in
theorem Fits.mem {streams : List StreamInfo} {packet : Packet} (h : Fits streams packet) :
    packet.streamIndex ∈ indicesOf streams := by
  obtain ⟨-, stream, hfind, -⟩ := h
  have hindex : stream.streamIndex = packet.streamIndex := by
    simpa using List.find?_some hfind
  rw [indicesOf, List.mem_map]
  exact ⟨stream, List.mem_of_find?_eq_some hfind, hindex⟩

omit [Libav] in
/-- Packets with one key are of one track. -/
theorem key_ties {indices : List ℤ} {x y : Packet} (hx : x.streamIndex ∈ indices)
    (hy : y.streamIndex ∈ indices) (h : key indices x = key indices y) : x.streamIndex = y.streamIndex := by
  have hpos : indices.findIdx (· == x.streamIndex) = indices.findIdx (· == y.streamIndex) :=
    congrArg (fun k => (ofLex k).2) h
  have hfound : ∀ i ∈ indices, indices[indices.findIdx (· == i)]? = some i := by
    intro i hi
    have hlt := List.findIdx_lt_length_of_exists (p := (· == i)) ⟨i, hi, beq_self_eq_true i⟩
    rw [List.getElem?_eq_getElem hlt]
    have := List.findIdx_getElem (w := hlt)
    simpa using this
  have hxi := hfound _ hx
  rw [hpos, hfound _ hy] at hxi
  exact (Option.some.inj hxi).symm

omit [Libav] in
theorem checkStreams_ok {seen streams : List StreamInfo}
    (h : MediaTimestampConverter.checkStreams seen streams = .ok ()) :
    ∀ stream ∈ streams, stream.timeBase.Positive := by
  induction streams generalizing seen with
  | nil =>
    intro stream hs
    cases hs
  | cons stream streams ih =>
    rw [MediaTimestampConverter.checkStreams] at h
    cases hvalid : stream.validate with
    | error e =>
      rw [hvalid] at h
      cases h
    | ok parameters =>
      have hpositive : stream.timeBase.Positive := by
        by_contra hneg
        unfold StreamInfo.validate at hvalid
        split at hvalid
        · cases hvalid
        · rw [if_pos (.inr (.inl hneg))] at hvalid
          cases hvalid
      rw [hvalid] at h
      by_cases hdup : seen.any (·.streamIndex == stream.streamIndex)
      · simp only [hdup] at h
        cases h
      · simp only [hdup] at h
        intro s hs
        rcases List.mem_cons.mp hs with rfl | hs
        · exact hpositive
        · exact ih h s hs

omit [Libav] in
theorem addTracks_ok {tracks result : List InterleaverTrack} {streams : List StreamInfo}
    (h : addTracks tracks streams = .ok result) (hnone : ∀ track ∈ tracks, track.highest = none) :
    result.map (·.index) = tracks.map (·.index) ++ indicesOf streams ∧
      ∀ track ∈ result, track.highest = none := by
  induction streams generalizing tracks with
  | nil =>
    cases h
    exact ⟨(List.append_nil _).symm, hnone⟩
  | cons stream streams ih =>
    rw [addTracks] at h
    split at h
    · cases h
    · split at h
      · cases h
      · obtain ⟨hindices, hresult⟩ := ih h (by
          intro track ht
          rcases List.mem_append.mp ht with ht | ht
          · exact hnone track ht
          · rw [List.mem_singleton.mp ht])
        refine ⟨?_, hresult⟩
        rw [hindices, List.map_append, List.append_assoc]
        rfl

/-- A new interleaver for these streams. -/
structure Created (streams : List StreamInfo) (impl : PacketInterleaver) : Prop where
  checks : impl.validation.streams = streams
  indices : impl.tracks.map (·.index) = indicesOf streams
  nonempty : streams ≠ []
  valid : ∀ stream ∈ streams, stream.timeBase.Positive
  highest : ∀ track ∈ impl.tracks, track.highest = none
  queue : impl.queue = []
  flushed : impl.flushed = false

omit [Libav] in
theorem create_ok {streams : List StreamInfo} {impl : PacketInterleaver}
    (h : create streams = .ok impl) : Created streams impl := by
  rw [create] at h
  cases hconverter : MediaTimestampConverter.create streams with
  | error e =>
    rw [hconverter] at h
    cases h
  | ok converter =>
    rw [hconverter] at h
    cases htracks : addTracks [] streams with
    | error e =>
      simp only [htracks, bind, Except.bind] at h
      cases h
    | ok tracks =>
      simp only [htracks, bind, Except.bind, pure, Except.pure, Except.ok.injEq] at h
      subst h
      obtain ⟨hindices, hnone⟩ := addTracks_ok htracks (by
        intro track ht
        cases ht)
      rw [MediaTimestampConverter.create] at hconverter
      split at hconverter
      · cases hconverter
      · rename_i hempty
        cases hcheck : MediaTimestampConverter.checkStreams [] streams with
        | error e =>
          rw [hcheck] at hconverter
          cases hconverter
        | ok u =>
          rw [hcheck] at hconverter
          cases hconverter
          exact ⟨rfl, hindices, by simpa using hempty, checkStreams_ok hcheck, hnone, rfl, rfl⟩

theorem validate_ok {converter : MediaTimestampConverter} {packet : Option Packet} {input : Packet}
    (hvalid : ∀ stream ∈ converter.streams, stream.timeBase.Positive)
    (h : converter.validate packet = .ok input) :
    packet = some input ∧ Fits converter.streams input := by
  unfold MediaTimestampConverter.validate at h
  split at h
  · cases h
  · split at h
    · cases h
    · split at h
      · cases h
      · rename_i stream hfind
        split at h
        · cases h
        · rename_i hok
          rw [not_or, Decidable.not_not, Decidable.not_not] at hok
          cases h
          have hs := hvalid stream (List.mem_of_find?_eq_some hfind)
          exact ⟨rfl, hok.1, stream, hfind, hs, (Libav.avCmpQ_eq_zero _ _ hok.1 hs).mp hok.2⟩

/-! ### Runs -/

/-- A packet was accepted, or left the queue; `forced` tells that a track had none in the queue then, though
the session was not being flushed. -/
inductive Event where
  | pushed (packet : Packet)
  | released (packet : Packet) (forced : Bool)
  deriving DecidableEq, Repr

def Event.pushed? : Event → Option Packet
  | .pushed packet => some packet
  | .released _ _ => none

def Event.released? : Event → Option Packet
  | .pushed _ => none
  | .released packet _ => some packet

def pushedPackets (events : List Event) : List Packet := events.filterMap Event.pushed?

def releasedPackets (events : List Event) : List Packet := events.filterMap Event.released?

/-- The ten-second window forced no packet out. -/
def Unforced (events : List Event) : Prop := ∀ packet, .released packet true ∉ events

/-- What the loop of `PopReady` emits. -/
def releases (tracks : List InterleaverTrack) (flush : Bool) : List Packet → List Event
  | [] => []
  | first :: rest =>
    if flush || allTracksBuffered tracks (first :: rest) || exceedsDelta (first :: rest) then
      .released first (!flush && !allTracksBuffered tracks (first :: rest)) :: releases tracks flush rest
    else []

/-- A push and what it does. -/
def Pushes (impl : PacketInterleaver) (packet : Option Packet) (events : List Event)
    (impl' : PacketInterleaver) : Prop :=
  match impl.push packet with
  | (.ok (), next) => events = packet.toList.map .pushed ∧ impl' = next
  | (.error _, next) => events = [] ∧ impl' = next

/-- A read and what it does: it returns the packets it releases. -/
def Pops (impl : PacketInterleaver) (flush : Bool) (events : List Event) (impl' : PacketInterleaver) :
    Prop :=
  match impl.popReady flush with
  | (.ok result, next) =>
    events = (if next.initialized then releases impl.tracks flush impl.queue else []) ∧
      releasedPackets events = result ∧ impl' = next
  | (.error _, next) => events = [] ∧ impl' = next

/-- Pushes and reads in any order. -/
def system (streams : List StreamInfo) : Transition PacketInterleaver Event where
  init impl := create streams = .ok impl
  step impl events impl' :=
    (∃ packet, impl.Pushes packet events impl') ∨ ∃ flush, impl.Pops flush events impl'

/-- The loop returns what it emits. -/
theorem popLoop_releases (tracks : List InterleaverTrack) (flush : Bool) (queue : List Packet) :
    (popLoop tracks flush queue).1 = releasedPackets (releases tracks flush queue) := by
  induction queue with
  | nil => rfl
  | cons first rest ih =>
    rw [popLoop, releases]
    split
    · rw [releasedPackets, List.filterMap_cons]
      exact congrArg _ ih
    · rfl

/-- The loop stops at an empty queue, or where a track waits and the window is kept. -/
theorem popLoop_stop (tracks : List InterleaverTrack) (flush : Bool) (queue : List Packet) :
    (popLoop tracks flush queue).2 = [] ∨
      (flush = false ∧ allTracksBuffered tracks (popLoop tracks flush queue).2 = false ∧
        exceedsDelta (popLoop tracks flush queue).2 = false) := by
  induction queue with
  | nil => exact .inl rfl
  | cons first rest ih =>
    rw [popLoop]
    split
    · exact ih
    · rename_i hstop
      simp only [Bool.or_eq_true, not_or, Bool.not_eq_true] at hstop
      exact .inr ⟨hstop.1.1, hstop.1.2, hstop.2⟩

/-- **The invariant of runs.** -/
structure Merging (streams : List StreamInfo) (events : List Event) (impl : PacketInterleaver) : Prop where
  checks : impl.validation.streams = streams
  indices : impl.tracks.map (·.index) = indicesOf streams
  accepted : ∀ packet ∈ pushedPackets events, Fits streams packet
  highest : ∀ track ∈ impl.tracks, track.highest
    = (ofTrack Packet.streamIndex track.index (pushedPackets events)).getLast?.map (·.dts)
  ordered : ∀ i, Sorted (key (indicesOf streams))
    (ofTrack Packet.streamIndex i (pushedPackets events))
  sorted : Sorted (key (indicesOf streams)) impl.queue
  conserved : ∀ i, ofTrack Packet.streamIndex i (releasedPackets events ++ impl.queue)
    = ofTrack Packet.streamIndex i (pushedPackets events)
  /-- Without force everything returned comes before everything else, now and later. -/
  unforced : Unforced events →
    Sorted (key (indicesOf streams)) (releasedPackets events ++ impl.queue) ∧
      (impl.flushed = false → ∀ r ∈ releasedPackets events, ∀ i ∈ indicesOf streams,
        ∃ p ∈ pushedPackets events, p.streamIndex = i ∧
          key (indicesOf streams) r ≤ key (indicesOf streams) p)

omit [Libav] in
theorem Merging.mem_pushed {streams : List StreamInfo} {events : List Event} {impl : PacketInterleaver}
    (hm : Merging streams events impl) {packet : Packet}
    (h : packet ∈ releasedPackets events ++ impl.queue) : packet ∈ pushedPackets events := by
  have hmem : packet ∈ ofTrack Packet.streamIndex packet.streamIndex (pushedPackets events) := by
    rw [← hm.conserved]
    exact mem_ofTrack.mpr ⟨h, rfl⟩
  exact (mem_ofTrack.mp hmem).1

omit [Libav] in
theorem Created.merging {streams : List StreamInfo} {impl : PacketInterleaver}
    (h : Created streams impl) : Merging streams [] impl := by
  refine ⟨h.checks, h.indices, fun _ hp => ?_, h.highest, fun _ => ?_, ?_, fun _ => ?_, fun _ => ⟨?_, ?_⟩⟩
  · cases hp
  · exact List.Pairwise.nil
  · rw [h.queue]
    exact List.Pairwise.nil
  · rw [h.queue]
    rfl
  · rw [h.queue]
    exact List.Pairwise.nil
  · intro _ r hr
    cases hr

omit [Libav] in
/-- Only the flags changed, and a flush is not taken back. -/
theorem Merging.of_flags {streams : List StreamInfo} {events : List Event} {impl impl' : PacketInterleaver}
    (hm : Merging streams events impl) (hchecks : impl'.validation = impl.validation)
    (htracks : impl'.tracks = impl.tracks) (hqueue : impl'.queue = impl.queue)
    (hflushed : impl'.flushed = false → impl.flushed = false) : Merging streams events impl' := by
  refine ⟨by rw [hchecks]; exact hm.checks, by rw [htracks]; exact hm.indices, hm.accepted,
    by rw [htracks]; exact hm.highest, hm.ordered, by rw [hqueue]; exact hm.sorted,
    by rw [hqueue]; exact hm.conserved, fun hunforced => ?_⟩
  rw [hqueue]
  obtain ⟨hsorted, hlate⟩ := hm.unforced hunforced
  exact ⟨hsorted, fun hopen => hlate (hflushed hopen)⟩

omit [Libav] in
/-- A packet that no packet of its track in the history is later than. -/
theorem Merging.newest {streams : List StreamInfo} {events : List Event} {impl : PacketInterleaver}
    (hm : Merging streams events impl) {track : InterleaverTrack} {packet : Packet}
    (htrack : track ∈ impl.tracks) (hindex : track.index = packet.streamIndex)
    (hfits : Fits streams packet)
    (hback : track.highest.any (fun highest => decide (packet.dts < highest)) = false) :
    ∀ y ∈ pushedPackets events, y.streamIndex = packet.streamIndex →
      key (indicesOf streams) y ≤ key (indicesOf streams) packet := by
  intro y hy hsame
  have hmem : y ∈ ofTrack Packet.streamIndex packet.streamIndex (pushedPackets events) :=
    mem_ofTrack.mpr ⟨hy, hsame⟩
  obtain ⟨front, last, hlast⟩ : ∃ front last,
      ofTrack Packet.streamIndex packet.streamIndex (pushedPackets events) = front ++ [last] := by
    have hne := List.ne_nil_of_mem hmem
    exact ⟨_, _, (List.dropLast_append_getLast hne).symm⟩
  have hlastmem : last ∈ pushedPackets events ∧ last.streamIndex = packet.streamIndex := by
    apply mem_ofTrack.mp
    rw [hlast]
    simp
  have hhighest : track.highest = some last.dts := by
    rw [hm.highest track htrack, hindex, hlast, List.getLast?_concat]
    rfl
  have hdts : last.dts ≤ packet.dts := by
    rw [hhighest, Option.any_some, decide_eq_false_iff_not] at hback
    omega
  have hyl : key (indicesOf streams) y ≤ key (indicesOf streams) last := by
    have hsorted := hm.ordered packet.streamIndex
    rw [hlast] at hsorted hmem
    rcases List.mem_append.mp hmem with hfront | hend
    · exact (List.pairwise_append.mp hsorted).2.2 y hfront last (List.mem_singleton_self last)
    · rw [List.mem_singleton.mp hend]
  exact le_trans hyl (key_le_of_dts (hm.accepted last hlastmem.1) hfits hlastmem.2 hdts)

omit [Libav] in
theorem pushedPackets_push (events : List Event) (packet : Packet) :
    pushedPackets (events ++ [.pushed packet]) = pushedPackets events ++ [packet] := by
  rw [pushedPackets, List.filterMap_append]
  rfl

omit [Libav] in
theorem releasedPackets_push (events : List Event) (packet : Packet) :
    releasedPackets (events ++ [.pushed packet]) = releasedPackets events := by
  rw [releasedPackets, List.filterMap_append]
  exact List.append_nil _

omit [Libav] in
theorem Unforced.of_append {events new : List Event} (h : Unforced (events ++ new)) : Unforced events :=
  fun packet hmem => h packet (List.mem_append_left _ hmem)

/-- The state after an accepted packet. -/
def accept (impl : PacketInterleaver) (packet : Packet) : PacketInterleaver :=
  { impl with
    queue := insertItem impl.tracks packet impl.queue
    tracks := impl.tracks.map fun t =>
      if t.index = packet.streamIndex then { t with highest := some packet.dts } else t }

omit [Libav] in
theorem Merging.highest_push {streams : List StreamInfo} {events : List Event} {impl : PacketInterleaver}
    (hm : Merging streams events impl) (packet : Packet) :
    ∀ track ∈ impl.tracks.map fun t =>
        if t.index = packet.streamIndex then { t with highest := some packet.dts } else t,
      track.highest = (ofTrack Packet.streamIndex track.index
        (pushedPackets events ++ [packet])).getLast?.map (·.dts) := by
  intro track ht
  obtain ⟨t, hmem, rfl⟩ := List.mem_map.mp ht
  by_cases hindex : t.index = packet.streamIndex
  · have hlast : ofTrack Packet.streamIndex t.index [packet] = [packet] := by
      rw [hindex, ofTrack_cons_self]
      rfl
    simp only [if_pos hindex]
    rw [ofTrack_append, hlast, List.getLast?_concat]
    rfl
  · have hlast : ofTrack Packet.streamIndex t.index [packet] = [] := by
      rw [ofTrack, List.filter_cons_of_neg (by simpa using fun h => hindex h.symm), List.filter_nil]
    simp only [if_neg hindex]
    rw [ofTrack_append, hlast, List.append_nil]
    exact hm.highest t hmem

/-- **An accepted packet.** -/
theorem Merging.accept (hexact : ExactCompare) {streams : List StreamInfo} {events : List Event}
    {impl : PacketInterleaver} (hm : Merging streams events impl) {packet : Packet}
    (hfits : Fits streams packet) (hopen : impl.flushed = false)
    (hnewest : ∀ y ∈ pushedPackets events, y.streamIndex = packet.streamIndex →
      key (indicesOf streams) y ≤ key (indicesOf streams) packet) :
    Merging streams (events ++ [.pushed packet]) (impl.accept packet) := by
  have hwaiting : ∀ y ∈ impl.queue, y ∈ pushedPackets events :=
    fun y hy => hm.mem_pushed (List.mem_append_right _ hy)
  have hinsert : (impl.accept packet).queue = insertLast (key (indicesOf streams)) packet impl.queue := by
    rw [← hm.indices]
    exact insertItem_eq hexact hfits.1 fun y hy => (hm.accepted y (hwaiting y hy)).1
  have hindices : (impl.accept packet).tracks.map (·.index) = indicesOf streams := by
    rw [← hm.indices, PacketInterleaver.accept, List.map_map]
    refine List.map_congr_left fun t _ => ?_
    simp only [Function.comp]
    split <;> rfl
  refine ⟨hm.checks, hindices, ?_, ?_, ?_, ?_, ?_, fun hunforced => ?_⟩
  · intro p hp
    rw [pushedPackets_push, List.mem_append, List.mem_singleton] at hp
    rcases hp with hp | rfl
    · exact hm.accepted p hp
    · exact hfits
  · rw [pushedPackets_push]
    exact hm.highest_push packet
  · intro i
    rw [pushedPackets_push, ofTrack_append]
    refine List.pairwise_append.mpr ⟨hm.ordered i, List.Pairwise.filter _ (List.pairwise_singleton ..), ?_⟩
    intro x hx y hy
    obtain ⟨hxmem, hxi⟩ := mem_ofTrack.mp hx
    obtain ⟨hymem, hyi⟩ := mem_ofTrack.mp hy
    obtain rfl := List.mem_singleton.mp hymem
    exact hnewest x hxmem (hxi.trans hyi.symm)
  · rw [hinsert]
    exact insertLast_sorted hm.sorted
  · intro i
    rw [hinsert, releasedPackets_push, pushedPackets_push, ofTrack_append, ofTrack_append,
      ofTrack_insertLast hm.sorted (fun y hy => hnewest y (hwaiting y hy)), ofTrack_append,
      ← hm.conserved, ofTrack_append, List.append_assoc]
  · obtain ⟨hsorted, hlate⟩ := hm.unforced hunforced.of_append
    have hbefore : ∀ r ∈ releasedPackets events,
        key (indicesOf streams) r ≤ key (indicesOf streams) packet := by
      intro r hr
      obtain ⟨p, hp, hpi, hle⟩ := hlate hopen r hr _ hfits.mem
      exact le_trans hle (hnewest p hp hpi)
    rw [hinsert, releasedPackets_push]
    obtain ⟨hfront, -, hcross⟩ := List.pairwise_append.mp hsorted
    refine ⟨List.pairwise_append.mpr ⟨hfront, insertLast_sorted hm.sorted, ?_⟩, ?_⟩
    · intro r hr y hy
      rcases mem_insertLast.mp hy with rfl | hy
      · exact hbefore r hr
      · exact hcross r hr y hy
    · intro _ r hr i hi
      obtain ⟨p, hp, hpi, hle⟩ := hlate hopen r hr i hi
      refine ⟨p, ?_, hpi, hle⟩
      rw [pushedPackets_push]
      exact List.mem_append_left _ hp

theorem Pushes.merging (hexact : ExactCompare) {streams : List StreamInfo}
    (hvalid : ∀ stream ∈ streams, stream.timeBase.Positive) {events new : List Event}
    {impl impl' : PacketInterleaver} {packet : Option Packet} (h : impl.Pushes packet new impl')
    (hm : Merging streams events impl) : Merging streams (events ++ new) impl' := by
  have hsame : Merging streams (events ++ []) impl := by rwa [List.append_nil]
  unfold Pushes push at h
  by_cases hflushed : impl.flushed
  · simp only [if_pos hflushed] at h
    obtain ⟨rfl, rfl⟩ := h
    exact hsame
  · simp only [if_neg hflushed] at h
    cases hcheck : impl.validation.validate packet with
    | error e =>
      simp only [hcheck] at h
      obtain ⟨rfl, rfl⟩ := h
      exact hsame
    | ok input =>
      simp only [hcheck] at h
      have hvalidated : packet = some input ∧ Fits streams input := by
        rw [← hm.checks] at hvalid ⊢
        exact validate_ok hvalid hcheck
      obtain ⟨hinput, hfits⟩ := hvalidated
      cases hfind : impl.tracks.find? (·.index == input.streamIndex) with
      | none =>
        simp only [hfind] at h
        obtain ⟨rfl, rfl⟩ := h
        exact hsame
      | some track =>
        simp only [hfind] at h
        by_cases hback : track.highest.any fun highest => decide (input.dts < highest)
        · simp only [if_pos hback] at h
          obtain ⟨rfl, rfl⟩ := h
          exact hsame
        · simp only [if_neg hback] at h
          obtain ⟨rfl, rfl⟩ := h
          have hindex : track.index = input.streamIndex := by simpa using List.find?_some hfind
          subst hinput
          exact hm.accept hexact hfits (by simpa using hflushed)
            (hm.newest (List.mem_of_find?_eq_some hfind) hindex hfits (by simpa using hback))

omit [Libav] in
theorem pushedPackets_release (events : List Event) (packet : Packet) (forced : Bool) :
    pushedPackets (events ++ [.released packet forced]) = pushedPackets events := by
  rw [pushedPackets, List.filterMap_append]
  exact List.append_nil _

omit [Libav] in
theorem releasedPackets_release (events : List Event) (packet : Packet) (forced : Bool) :
    releasedPackets (events ++ [.released packet forced]) = releasedPackets events ++ [packet] := by
  rw [releasedPackets, List.filterMap_append]
  rfl

omit [Libav] in
/-- **One packet leaves.**  Unless it is forced out, every track has a packet that is not before it. -/
theorem Merging.release {streams : List StreamInfo} {events : List Event} {impl : PacketInterleaver}
    (hm : Merging streams events impl) {first : Packet} {rest : List Packet}
    (hqueue : impl.queue = first :: rest) {forced : Bool}
    (hforced : forced = false → impl.flushed = true ∨ allTracksBuffered impl.tracks impl.queue = true) :
    Merging streams (events ++ [.released first forced]) { impl with queue := rest } := by
  have hmove : ∀ l : List Packet, l ++ [first] ++ rest = l ++ impl.queue := by
    intro l
    rw [hqueue, List.append_assoc]
    rfl
  have hqsorted := hm.sorted
  rw [hqueue] at hqsorted
  refine ⟨hm.checks, hm.indices, ?_, ?_, ?_, hqsorted.tail, ?_, fun hunforced => ?_⟩
  · rw [pushedPackets_release]
    exact hm.accepted
  · rw [pushedPackets_release]
    exact hm.highest
  · rw [pushedPackets_release]
    exact hm.ordered
  · intro i
    rw [pushedPackets_release, releasedPackets_release, hmove]
    exact hm.conserved i
  · obtain ⟨hsorted, hlate⟩ := hm.unforced hunforced.of_append
    rw [pushedPackets_release, releasedPackets_release, hmove]
    refine ⟨hsorted, fun hopen r hr i hi => ?_⟩
    rcases List.mem_append.mp hr with hr | hr
    · exact hlate hopen r hr i hi
    · obtain rfl := List.mem_singleton.mp hr
      -- Not forced and not flushed, so the track has a packet in the queue.
      have hkept : forced = false := by
        by_contra hne
        have htrue : forced = true := by simpa using hne
        refine hunforced r (List.mem_append_right _ ?_)
        rw [htrue]
        exact List.mem_singleton_self _
      have hall : allTracksBuffered impl.tracks impl.queue = true := by
        rcases hforced hkept with hflushed | hall
        · rw [hflushed] at hopen
          cases hopen
        · exact hall
      rw [← hm.indices, List.mem_map] at hi
      obtain ⟨track, htrack, rfl⟩ := hi
      rw [allTracksBuffered, List.all_eq_true] at hall
      obtain ⟨p, hp, hpi⟩ := List.any_eq_true.mp (hall track htrack)
      refine ⟨p, hm.mem_pushed (List.mem_append_right _ hp), by simpa using hpi, ?_⟩
      rw [hqueue] at hp
      exact hqsorted.head_le hp

theorem Merging.releases {streams : List StreamInfo} {events : List Event} {impl : PacketInterleaver}
    (hm : Merging streams events impl) {flush : Bool} (hflush : flush = true → impl.flushed = true)
    {tracks : List InterleaverTrack} (htracks : impl.tracks = tracks) {queue : List Packet}
    (hqueue : impl.queue = queue) :
    Merging streams (events ++ releases tracks flush queue)
      { impl with queue := (popLoop tracks flush queue).2 } := by
  induction queue generalizing impl events with
  | nil =>
    rw [PacketInterleaver.releases, List.append_nil, popLoop, ← hqueue]
    exact hm
  | cons first rest ih =>
    rw [PacketInterleaver.releases, popLoop]
    by_cases hgo : (flush || allTracksBuffered tracks (first :: rest) || exceedsDelta (first :: rest)) = true
    · have hkept : (!flush && !allTracksBuffered tracks (first :: rest)) = false →
          impl.flushed = true ∨ allTracksBuffered impl.tracks impl.queue = true := by
        intro hkept
        rw [Bool.and_eq_false_iff, Bool.not_eq_false', Bool.not_eq_false'] at hkept
        rw [hqueue, htracks]
        exact hkept.imp_left hflush
      have hrest := ih (hm.release hqueue hkept) hflush htracks rfl
      rw [List.append_assoc] at hrest
      simp only [if_pos hgo]
      exact hrest
    · simp only [if_neg hgo]
      rw [List.append_nil, ← hqueue]
      exact hm

/-- The state after a read in which no exception was thrown. -/
structure PopEnd (impl : PacketInterleaver) (flush : Bool) (result : List Packet)
    (impl' : PacketInterleaver) : Prop where
  validation : impl'.validation = impl.validation
  tracks : impl'.tracks = impl.tracks
  flushed : impl'.flushed = (impl.flushed || flush)
  initialized : flush = true ∨ impl.initialized = true → impl'.initialized = true
  result : result = if impl'.initialized then (popLoop impl.tracks flush impl.queue).1 else []
  queue : impl'.queue = if impl'.initialized then (popLoop impl.tracks flush impl.queue).2 else impl.queue

theorem popReady_ok {impl impl' : PacketInterleaver} {flush : Bool} {result : List Packet}
    (h : impl.popReady flush = (.ok result, impl')) : PopEnd impl flush result impl' := by
  unfold popReady at h
  cases flush with
  | true =>
    simp only [if_true, Bool.not_true, Bool.false_and, Bool.false_eq_true, if_false, Bool.or_true,
      Bool.true_or] at h
    cases h
    exact ⟨rfl, rfl, (Bool.or_true _).symm, fun _ => rfl, rfl, rfl⟩
  | false =>
    simp only [Bool.false_eq_true, if_false, Bool.not_false, Bool.true_and, Bool.or_false] at h
    split at h
    · cases h
    · split at h
      · rename_i hinit
        cases h
        simp only [Bool.not_eq_true'] at hinit
        refine ⟨rfl, rfl, (Bool.or_false _).symm, fun hopen => ?_, ?_, ?_⟩
        · rw [Bool.or_eq_false_iff] at hinit
          rcases hopen with hopen | hopen
          · cases hopen
          · rw [hinit.1] at hopen
            cases hopen
        · simp only [hinit, Bool.false_eq_true, if_false]
        · simp only [hinit, Bool.false_eq_true, if_false]
      · rename_i hinit
        cases h
        simp only [Bool.not_eq_true', Bool.not_eq_false] at hinit
        refine ⟨rfl, rfl, (Bool.or_false _).symm, fun _ => hinit, ?_, ?_⟩
        · simp only [hinit, if_true]
        · simp only [hinit, if_true]

/-- A read that throws nothing is a step. -/
theorem pops_ok {impl impl' : PacketInterleaver} {flush : Bool} {result : List Packet}
    (h : impl.popReady flush = (.ok result, impl')) :
    impl.Pops flush (if impl'.initialized then releases impl.tracks flush impl.queue else []) impl' := by
  have hresult := (popReady_ok h).result
  rw [Pops, h]
  refine ⟨rfl, ?_, rfl⟩
  rw [hresult]
  split
  · exact (popLoop_releases _ _ _).symm
  · rfl

theorem popReady_error {impl impl' : PacketInterleaver} {flush : Bool} {e : Exception}
    (h : impl.popReady flush = (.error e, impl')) : impl' = impl := by
  unfold popReady at h
  cases flush with
  | true =>
    simp only [if_true, Bool.not_true, Bool.false_and, Bool.false_eq_true, if_false, Bool.or_true,
      Bool.true_or] at h
    cases h
  | false =>
    simp only [Bool.false_eq_true, if_false, Bool.not_false, Bool.true_and, Bool.or_false] at h
    split at h
    · cases h
      rfl
    · split at h <;> cases h

theorem push_ok {impl impl' : PacketInterleaver} {packet : Option Packet}
    (h : impl.push packet = (.ok (), impl')) :
    impl.flushed = false ∧ ∃ input, impl' = impl.accept input := by
  unfold push at h
  split at h
  · cases h
  · rename_i hopen
    split at h
    · cases h
    · rename_i input _
      split at h
      · cases h
      · split at h
        · cases h
        · cases h
          exact ⟨by simpa using hopen, input, rfl⟩

theorem push_error {impl impl' : PacketInterleaver} {packet : Option Packet} {e : Exception}
    (h : impl.push packet = (.error e, impl')) : impl' = impl := by
  unfold push at h
  split at h
  · cases h
    rfl
  · split at h
    · cases h
      rfl
    · split at h
      · cases h
        rfl
      · split at h
        · cases h
          rfl
        · cases h

theorem Pops.merging {streams : List StreamInfo} {events new : List Event}
    {impl impl' : PacketInterleaver} {flush : Bool} (h : impl.Pops flush new impl')
    (hm : Merging streams events impl) : Merging streams (events ++ new) impl' := by
  unfold Pops at h
  cases hpop : impl.popReady flush with
  | mk answer next =>
    cases answer with
    | error e =>
      simp only [hpop] at h
      obtain ⟨rfl, rfl⟩ := h
      rw [popReady_error hpop, List.append_nil]
      exact hm
    | ok result =>
      simp only [hpop] at h
      obtain ⟨rfl, -, rfl⟩ := h
      have hend := popReady_ok hpop
      -- The flags are set first; then the loop runs.
      have hflags : Merging streams events { impl' with queue := impl.queue } := by
        refine hm.of_flags hend.validation hend.tracks rfl fun hopen => ?_
        have hflushed : (impl.flushed || flush) = false := hend.flushed.symm.trans hopen
        exact (Bool.or_eq_false_iff.mp hflushed).1
      have hqueue := hend.queue
      by_cases hinit : impl'.initialized = true
      · have hflush : flush = true → impl'.flushed = true := by
          intro hf
          rw [hend.flushed, hf, Bool.or_true]
        have hloop := hflags.releases hflush hend.tracks rfl
        rw [if_pos hinit] at hqueue ⊢
        rw [← hqueue] at hloop
        exact hloop
      · rw [if_neg hinit] at hqueue ⊢
        rw [List.append_nil]
        simp only [← hqueue] at hflags
        exact hflags

theorem merging (hexact : ExactCompare) {streams : List StreamInfo} {start impl : PacketInterleaver}
    {events : List Event} (hstart : create streams = .ok start)
    (hrun : (system streams).Run start events impl) : Merging streams events impl := by
  have hcreated := create_ok hstart
  refine hrun.induct (.init hstart) hcreated.merging ?_
  intro events impl new impl' _ hm hstep
  rcases hstep with ⟨packet, hpush⟩ | ⟨flush, hpop⟩
  · exact hpush.merging hexact hcreated.valid hm
  · exact hpop.merging hm

/-- A flushed session has returned everything. -/
def Drained (impl : PacketInterleaver) : Prop := impl.flushed = true → impl.queue = []

theorem drained {streams : List StreamInfo} {impl : PacketInterleaver}
    (hreach : (system streams).Reachable impl) : Drained impl := by
  refine hreach.invariant ?_ ?_
  · intro impl hstart hflushed
    rw [(create_ok hstart).flushed] at hflushed
    cases hflushed
  · intro impl new impl' _ hd hstep hflushed
    rcases hstep with ⟨packet, hpush⟩ | ⟨flush, hpop⟩
    · unfold Pushes at hpush
      cases hanswer : impl.push packet with
      | mk answer next =>
        cases answer with
        | error e =>
          simp only [hanswer] at hpush
          obtain ⟨-, rfl⟩ := hpush
          obtain rfl := push_error hanswer
          exact hd hflushed
        | ok u =>
          simp only [hanswer] at hpush
          obtain ⟨-, rfl⟩ := hpush
          obtain ⟨hopen, input, rfl⟩ := push_ok hanswer
          have hclosed : impl.flushed = true := hflushed
          rw [hopen] at hclosed
          cases hclosed
    · unfold Pops at hpop
      cases hanswer : impl.popReady flush with
      | mk answer next =>
        cases answer with
        | error e =>
          simp only [hanswer] at hpop
          obtain ⟨-, rfl⟩ := hpop
          obtain rfl := popReady_error hanswer
          exact hd hflushed
        | ok result =>
          simp only [hanswer] at hpop
          obtain ⟨-, -, rfl⟩ := hpop
          have hend := popReady_ok hanswer
          rw [hend.queue]
          rw [hend.flushed, Bool.or_eq_true] at hflushed
          rcases hflushed with hflushed | hflush
          · rw [hd hflushed]
            split <;> rfl
          · rw [if_pos (hend.initialized (.inl hflush))]
            rcases popLoop_stop impl.tracks flush impl.queue with hempty | ⟨hnot, -⟩
            · exact hempty
            · rw [hflush] at hnot
              cases hnot

/-! ### The window -/

/-- The decoding time in microseconds, rounded to nearest. -/
def micros (packet : Packet) : ℤ := scaled packet.dts packet.timeBase ⟨1, 1000000⟩

/-- Any two buffered packets are at most ten seconds apart, in microseconds that are `int64_t`. -/
def WithinWindow (queue : List Packet) : Prop :=
  (∀ packet ∈ queue, int64Min < micros packet ∧ micros packet < int64Max) →
    ∀ x ∈ queue, ∀ y ∈ queue, micros y - micros x ≤ 10000000

omit [Libav] in
/-- A later packet is not earlier in any other time base. -/
theorem scaled_mono {indices : List ℤ} {x y : Packet} {timeBase : AVRational} (hbase : timeBase.Positive)
    (hx : x.timeBase.Positive) (hy : y.timeBase.Positive) (h : key indices x ≤ key indices y) :
    scaled x.dts x.timeBase timeBase ≤ scaled y.dts y.timeBase timeBase := by
  have hle : ¬seconds y < seconds x := by
    rw [key, key, Prod.Lex.toLex_le_toLex] at h
    rcases h with hlt | ⟨heq, -⟩
    · exact not_lt.mpr hlt.le
    · exact not_lt.mpr heq.le
  rw [seconds_lt_iff hy hx, not_lt] at hle
  refine roundNear_mono_div (Int.mul_pos hx.2 hbase.1) (Int.mul_pos hy.2 hbase.1) ?_
  have hscale : 0 ≤ timeBase.num * timeBase.den := (Int.mul_pos hbase.1 hbase.2).le
  have hmul := mul_le_mul_of_nonneg_right hle hscale
  linarith

omit [Libav] in
theorem micros_mono {indices : List ℤ} {x y : Packet} (hx : x.timeBase.Positive)
    (hy : y.timeBase.Positive) (h : key indices x ≤ key indices y) : micros x ≤ micros y :=
  scaled_mono (by decide) hx hy h

theorem exceedsDelta_false {indices : List ℤ} {queue : List Packet}
    (hbases : ∀ packet ∈ queue, packet.timeBase.Positive) (hsorted : Sorted (key indices) queue)
    (h : exceedsDelta queue = false) : WithinWindow queue := by
  intro hrange x hx y hy
  unfold exceedsDelta at h
  split at h
  · cases hx
  · rw [List.mem_singleton.mp hx, List.mem_singleton.mp hy, Int.sub_self]
    decide
  · rename_i first second rest
    have hlast : (first :: second :: rest).getLast (List.cons_ne_nil _ _)
        = (second :: rest).getLast (List.cons_ne_nil _ _) := List.getLast_cons _
    have hlastmem := List.getLast_mem (List.cons_ne_nil first (second :: rest))
    have hexact : ∀ p ∈ first :: second :: rest,
        avRescaleQ p.dts p.timeBase ⟨1, 1000000⟩ = micros p := fun p hp =>
      Libav.avRescaleQ_exact _ _ _ (hbases p hp) (by decide) (hrange p hp).1 (hrange p hp).2
    dsimp only at h
    rw [← hlast, hexact first List.mem_cons_self, hexact _ hlastmem, Bool.and_eq_false_iff,
      decide_eq_false_iff_not, decide_eq_false_iff_not] at h
    have hlo := micros_mono (hbases first List.mem_cons_self) (hbases x hx) (hsorted.head_le hx)
    have hhi := micros_mono (hbases y hy) (hbases _ hlastmem) (hsorted.le_getLast hy)
    omega

/-! ### The merge -/

/-- What was pushed of every track is the same. -/
def SameTracks (events events' : List Event) : Prop :=
  ∀ i, ofTrack Packet.streamIndex i (pushedPackets events)
    = ofTrack Packet.streamIndex i (pushedPackets events')

omit [Libav] in
theorem Merging.ties {streams : List StreamInfo} {events : List Event} {impl : PacketInterleaver}
    (hm : Merging streams events impl) : ∀ x ∈ releasedPackets events ++ impl.queue,
      ∀ y ∈ releasedPackets events ++ impl.queue,
      key (indicesOf streams) x = key (indicesOf streams) y → x.streamIndex = y.streamIndex :=
  fun _ hx _ hy => key_ties (hm.accepted _ (hm.mem_pushed hx)).mem (hm.accepted _ (hm.mem_pushed hy)).mem

omit [Libav] in
/-- **Without force the returned list is the stable sort of what was pushed.** -/
theorem Merging.stable {streams : List StreamInfo} {events : List Event} {impl : PacketInterleaver}
    (hm : Merging streams events impl) (hunforced : Unforced events) :
    releasedPackets events ++ impl.queue
      = stableSort (key (indicesOf streams)) (pushedPackets events) :=
  eq_stableSort hm.ties (hm.unforced hunforced).1 hm.conserved

/-- **The interleaver is a lossless merge.**  In every state of every run the queue is sorted by decoding time
and track, and of every track what was returned and what waits is what was pushed, in push order; a flushed
session has returned every packet once.  A refused push and a throwing read change nothing.  Unless the window
forced a packet out, the packets leave in sorted order, and two flushed sessions that were pushed the same
tracks returned the same list.  After every read of an initialized session some track has no packet in the
queue, and the queue keeps to the window. -/
theorem dts_merge (hexact : ExactCompare) {streams : List StreamInfo} {start impl : PacketInterleaver}
    {events : List Event} (hstart : create streams = .ok start)
    (hrun : (system streams).Run start events impl) :
    Sorted (key (indicesOf streams)) impl.queue ∧
    (∀ i, ofTrack Packet.streamIndex i (releasedPackets events ++ impl.queue)
      = ofTrack Packet.streamIndex i (pushedPackets events)) ∧
    (impl.flushed = true → (releasedPackets events).Perm (pushedPackets events) ∧
      ∀ i, ofTrack Packet.streamIndex i (releasedPackets events)
        = ofTrack Packet.streamIndex i (pushedPackets events)) ∧
    (∀ packet e impl', impl.push packet = (.error e, impl') → impl' = impl) ∧
    (∀ flush e impl', impl.popReady flush = (.error e, impl') → impl' = impl) ∧
    (Unforced events → Sorted (key (indicesOf streams)) (releasedPackets events) ∧
      (impl.flushed = true →
        releasedPackets events = stableSort (key (indicesOf streams)) (pushedPackets events) ∧
        ∀ events' impl', (system streams).Run start events' impl' → impl'.flushed = true →
          Unforced events' → SameTracks events events' →
          releasedPackets events' = releasedPackets events)) ∧
    (∀ flush result impl', impl.popReady flush = (.ok result, impl') → impl'.initialized = true →
      (∃ track ∈ impl'.tracks, ∀ packet ∈ impl'.queue, packet.streamIndex ≠ track.index) ∧
        WithinWindow impl'.queue) := by
  have hm := merging hexact hstart hrun
  have hdrained := drained (.run (.init hstart) hrun)
  have hall : impl.flushed = true → ∀ i, ofTrack Packet.streamIndex i (releasedPackets events)
      = ofTrack Packet.streamIndex i (pushedPackets events) := by
    intro hflushed i
    have hi := hm.conserved i
    rwa [hdrained hflushed, List.append_nil] at hi
  refine ⟨hm.sorted, hm.conserved, fun hflushed => ⟨perm_of_tracks (hall hflushed), hall hflushed⟩,
    fun _ _ _ => push_error, fun _ _ _ => popReady_error, fun hunforced => ⟨?_, fun hflushed => ?_⟩, ?_⟩
  · exact (List.pairwise_append.mp (hm.unforced hunforced).1).1
  · have hstable := hm.stable hunforced
    rw [hdrained hflushed, List.append_nil] at hstable
    refine ⟨hstable, fun events' impl' hrun' hflushed' hunforced' hsame => ?_⟩
    have hm' := merging hexact hstart hrun'
    have hempty' := drained (.run (.init hstart) hrun') hflushed'
    have hties := hm.ties
    have hsorted := (hm.unforced hunforced).1
    have hsorted' := (hm'.unforced hunforced').1
    rw [hdrained hflushed, List.append_nil] at hties hsorted
    rw [hempty', List.append_nil] at hsorted'
    refine (eq_of_tracks hties hsorted hsorted' fun i => ?_).symm
    have hi := hm'.conserved i
    rw [hempty', List.append_nil] at hi
    rw [hall hflushed i, hi]
    exact hsame i
  · intro flush result impl' hpop hinit
    have hend := popReady_ok hpop
    have hstep : (system streams).step impl
        (if impl'.initialized then releases impl.tracks flush impl.queue else []) impl' :=
      .inr ⟨flush, pops_ok hpop⟩
    have hm' := merging hexact hstart (.snoc hrun hstep)
    have hbases : ∀ packet ∈ impl'.queue, packet.timeBase.Positive := fun packet hp =>
      (hm'.accepted packet (hm'.mem_pushed (List.mem_append_right _ hp))).1
    have hqueue := hend.queue
    rw [if_pos hinit] at hqueue
    rcases popLoop_stop impl.tracks flush impl.queue with hempty | ⟨-, htrack, hwindow⟩
    · rw [← hqueue] at hempty
      have hne : impl'.tracks ≠ [] := by
        intro hnil
        have hindices := hm'.indices
        rw [hnil] at hindices
        exact (create_ok hstart).nonempty (List.map_eq_nil_iff.mp hindices.symm)
      obtain ⟨track, htrack⟩ := List.exists_mem_of_ne_nil _ hne
      rw [hempty]
      refine ⟨⟨track, htrack, fun packet hp => ?_⟩, fun _ x hx => ?_⟩
      · cases hp
      · cases hx
    · rw [← hqueue] at htrack hwindow
      refine ⟨?_, exceedsDelta_false hbases hm'.sorted hwindow⟩
      rw [allTracksBuffered, List.all_eq_false] at htrack
      obtain ⟨track, hmem, hnone⟩ := htrack
      rw [← hend.tracks] at hmem
      refine ⟨track, hmem, fun packet hp heq => hnone ?_⟩
      rw [List.any_eq_true]
      exact ⟨packet, hp, by simpa using heq⟩

/-! ### Replaying calls -/

inductive Call where
  | push (packet : Packet)
  | pop (flush : Bool)
  deriving DecidableEq, Repr

def perform (impl : PacketInterleaver) : Call → List Event × PacketInterleaver
  | .push packet =>
    match impl.push (some packet) with
    | (.ok (), next) => ([.pushed packet], next)
    | (.error _, next) => ([], next)
  | .pop flush =>
    match impl.popReady flush with
    | (.ok _, next) => (if next.initialized then releases impl.tracks flush impl.queue else [], next)
    | (.error _, next) => ([], next)

theorem perform_step {streams : List StreamInfo} (impl : PacketInterleaver) (call : Call) :
    (system streams).step impl (impl.perform call).1 (impl.perform call).2 := by
  cases call with
  | push packet =>
    refine .inl ⟨some packet, ?_⟩
    simp only [Pushes, perform]
    split <;> exact ⟨rfl, rfl⟩
  | pop flush =>
    refine .inr ⟨flush, ?_⟩
    cases hpop : impl.popReady flush with
    | mk answer next =>
      cases answer with
      | ok result =>
        simp only [perform, hpop]
        exact pops_ok hpop
      | error e =>
        simp only [Pops, perform, hpop, and_self]

def replay (impl : PacketInterleaver) (calls : List Call) : List Event × PacketInterleaver :=
  Transition.replay perform impl calls

theorem replay_run {streams : List StreamInfo} (impl : PacketInterleaver) (calls : List Call) :
    (system streams).Run impl (impl.replay calls).1 (impl.replay calls).2 :=
  Transition.replay_run perform_step impl calls

end PacketInterleaver

end MwStreamer

namespace MwStreamer.PacketInterleaver

open StableMerge

/-- The comparison of rational timestamps. -/
def compareExact (a : ℤ) (p : AVRational) (b : ℤ) (q : AVRational) : ℤ :=
  if a * (p.num * q.den) < b * (q.num * p.den) then -1
  else if b * (q.num * p.den) < a * (p.num * q.den) then 1 else 0

theorem compareExact_lt (a : ℤ) (p : AVRational) (b : ℤ) (q : AVRational) :
    compareExact a p b q < 0 ↔ a * (p.num * q.den) < b * (q.num * p.den) := by
  rw [compareExact]
  split
  · simpa
  · split <;> simp_all

theorem compareExact_gt (a : ℤ) (p : AVRational) (b : ℤ) (q : AVRational) :
    0 < compareExact a p b q ↔ b * (q.num * p.den) < a * (p.num * q.den) := by
  rw [compareExact]
  split
  · rename_i hlt
    simp only [Int.not_lt.mpr hlt.le, iff_false]
    decide
  · split <;> simp_all

/-- The library with an exact comparison of timestamps. -/
@[reducible]
def exactLibav : Libav :=
  { Libav.reference with
    avCompareTs := compareExact
    avCompareTs_lt := fun a p b q _ _ _ _ => compareExact_lt a p b q
    avCompareTs_gt := fun a p b q _ _ _ _ => compareExact_gt a p b q }

attribute [local instance] exactLibav

theorem exactLibav_exact : ExactCompare :=
  fun a p b q _ _ => ⟨compareExact_lt a p b q, compareExact_gt a p b q⟩

/-- A picture and an audio track, both in thirds of a microsecond. -/
def twoTracks : List StreamInfo :=
  [⟨9, some { codecType := .video }, ⟨1, 3000000⟩⟩, ⟨1, some { codecType := .audio }, ⟨1, 3000000⟩⟩]

def packetAt (index dts : ℤ) : Packet := ⟨index, dts, dts, ⟨1, 3000000⟩, 0⟩

/-- Both tracks, with a tie, read in between and flushed. -/
def tieCalls : List Call :=
  [.push (packetAt 1 0), .pop false, .push (packetAt 9 0), .pop false, .push (packetAt 9 6), .push (packetAt 1 3),
    .pop true]

/-- The tie goes to the track created first, and everything comes out in order. -/
theorem dts_merge_tie :
    ∃ start : PacketInterleaver, create twoTracks = .ok start ∧
      releasedPackets (start.replay tieCalls).1
        = stableSort (key (indicesOf twoTracks)) (pushedPackets (start.replay tieCalls).1) ∧
      releasedPackets (start.replay tieCalls).1
        = [packetAt 9 0, packetAt 1 0, packetAt 1 3, packetAt 9 6] := by
  have hcreate : ∃ start : PacketInterleaver, create twoTracks = .ok start ∧
      (start.replay tieCalls).2.flushed = true ∧
      (∀ packet ∈ releasedPackets (start.replay tieCalls).1,
        .released packet true ∉ (start.replay tieCalls).1) ∧
      releasedPackets (start.replay tieCalls).1
        = [packetAt 9 0, packetAt 1 0, packetAt 1 3, packetAt 9 6] :=
    ⟨{ validation := { streams := twoTracks }
       tracks := [⟨9, .video, ⟨1, 3000000⟩, none⟩, ⟨1, .audio, ⟨1, 3000000⟩, none⟩] }, by decide +kernel⟩
  obtain ⟨start, hstart, hflushed, hforced, hreleased⟩ := hcreate
  have hunforced : Unforced (start.replay tieCalls).1 := by
    intro packet hmem
    exact hforced packet (List.mem_filterMap.mpr ⟨_, hmem, rfl⟩) hmem
  have hmerge := dts_merge exactLibav_exact hstart (replay_run start tieCalls)
  exact ⟨start, hstart, ((hmerge.2.2.2.2.2.1 hunforced).2 hflushed).1, hreleased⟩

/-- The picture track runs ahead by a hair more than ten seconds. -/
def aheadCalls : List Call :=
  [.push (packetAt 1 0), .push (packetAt 9 2), .pop false, .push (packetAt 9 30000003)]

/-- Ten seconds and a third of a microsecond stay in the queue: rounded they are ten seconds. -/
theorem dts_merge_span :
    ¬∀ (streams : List StreamInfo) (start impl : PacketInterleaver) (events : List Event),
      create streams = .ok start → (system streams).Run start events impl →
      ∀ flush result impl', impl.popReady flush = (.ok result, impl') → impl'.initialized = true →
        ∀ x ∈ impl'.queue, ∀ y ∈ impl'.queue, seconds y - seconds x ≤ 10 := by
  intro hclaim
  have hrun : ∃ start : PacketInterleaver, create twoTracks = .ok start ∧
      (start.replay aheadCalls).2.popReady false = (.ok [], ((start.replay aheadCalls).2.popReady false).2) ∧
      ((start.replay aheadCalls).2.popReady false).2.initialized = true ∧
      ((start.replay aheadCalls).2.popReady false).2.queue = [packetAt 9 2, packetAt 9 30000003] :=
    ⟨{ validation := { streams := twoTracks }
       tracks := [⟨9, .video, ⟨1, 3000000⟩, none⟩, ⟨1, .audio, ⟨1, 3000000⟩, none⟩] }, by decide +kernel⟩
  obtain ⟨start, hstart, hpop, hinit, hqueue⟩ := hrun
  have hspan := hclaim twoTracks start _ _ hstart (replay_run start aheadCalls) false [] _ hpop hinit
    (packetAt 9 2) (by rw [hqueue]; decide) (packetAt 9 30000003) (by rw [hqueue]; decide)
  norm_num [seconds, packetAt] at hspan

end MwStreamer.PacketInterleaver
