import MwStreamer.Encoder.AvEncoder

/-!
# What a step of the encoder can do

`Stepped` says of each step what it found and what it wrote; the invariants are proved from it and never unfold
the step function.  `Coherent` is the invariant of the locks, the queues and the owner: admission is open only
while both queues are, so a `TryPush` that has passed its checks finds room, and a failure closes it.
-/

namespace MwStreamer

namespace AvEncoder

variable [LibAudio] [LibCodec]

variable {s s' : AvEncoder} {events : List Event} {video : Bool}

/-! ### Tracks -/

@[simp] theorem setTrack_self (track : Track) : (s.setTrack video track).tracks video = track := if_pos rfl

theorem setTrack_ne {v : Bool} (track : Track) (h : v ≠ video) : (s.setTrack video track).tracks v = s.tracks v :=
  if_neg h

theorem setTrack_cases (s : AvEncoder) (video v : Bool) (track : Track) :
    v = video ∧ (s.setTrack video track).tracks v = track ∨
      v ≠ video ∧ (s.setTrack video track).tracks v = s.tracks v := by
  by_cases h : v = video
  · subst h
    exact .inl ⟨rfl, setTrack_self track⟩
  · exact .inr ⟨h, setTrack_ne track h⟩

/-- The frames that wait in the queue of a track. -/
def Track.items (track : Track) : List Frame := track.frames.elim [] (·.queue)

theorem Track.items_length (track : Track) :
    (track.frames.elim 0 fun queue => queue.queue.length) = track.items.length := by
  rw [Track.items]
  cases track.frames with
  | none => rfl
  | some queue => rfl

theorem unlocked (h : s.locked = false) (v : Bool) : (s.tracks v).producer = none := by
  rw [locked, Bool.or_eq_false_iff] at h
  cases v with
  | true => exact Option.not_isSome_iff_eq_none.mp (by simp [h.1])
  | false => exact Option.not_isSome_iff_eq_none.mp (by simp [h.2])

theorem workerless (h : s.hasWorkers = false) (v : Bool) : (s.tracks v).worker = none := by
  rw [hasWorkers, Bool.or_eq_false_iff] at h
  cases v with
  | true => exact Option.not_isSome_iff_eq_none.mp (by simp [h.1])
  | false => exact Option.not_isSome_iff_eq_none.mp (by simp [h.2])

/-- The result of a call that admitted nothing. -/
def Event.Refusal (video : Bool) : Event → Prop
  | .rejected v => v = video
  | .threw v _ => v = video
  | _ => False

/-! ### Inversion -/

inductive Stepped [Libav] (s : AvEncoder) : List Event → AvEncoder → Prop where
  | configured (hidle : s.owner = .idle) (hworkers : ∀ v, (s.tracks v).worker = none) (present : Bool) :
      Stepped s [] { s with onError := present }
  | same : Stepped s [] s
  | started (hidle : s.owner = .idle) (hworkers : ∀ v, (s.tracks v).worker = none) (hfree : s.locked = false)
      (config : AvEncoderConfig) : Stepped s [.started] { s with error := none, owner := .opening config }
  | stop (hidle : s.owner = .idle) : Stepped s [] { s with owner := .stopping .entering none }
  | unopened {config : AvEncoderConfig} (howner : s.owner = .opening config) (e : Exception) :
      Stepped s [] { s with owner := .stopping .entering (some e) }
  | installed {config : AvEncoderConfig} {codecs : Bool → Option Codec} {filter : Option Graph}
      (howner : s.owner = .opening config) (hopen : openSession config = .ok (codecs, filter))
      (hfree : s.locked = false) :
      Stepped s [.running config s.onError] (s.install config codecs filter none).2
  | uninstalled {config : AvEncoderConfig} {codecs : Bool → Option Codec} {filter : Option Graph}
      (howner : s.owner = .opening config) (hopen : openSession config = .ok (codecs, filter))
      (hfree : s.locked = false) {failed : Bool} (henabled : config.enabled failed = true) :
      Stepped s [] (s.install config codecs filter (some failed)).2
  | entered {failure : Option Exception} (howner : s.owner = .stopping .entering failure)
      (hfree : s.locked = false) :
      Stepped s [] { s with accepting := false, owner := .stopping (.closing [true, false]) failure }
  | closed {video : Bool} {queues : List Bool} {failure : Option Exception}
      (howner : s.owner = .stopping (.closing (video :: queues)) failure) :
      Stepped s [] { s.setFrames video ((s.tracks video).frames.map fun queue => (queue.close []).2) with
        owner := .stopping (.closing queues) failure }
  | joins {failure : Option Exception} (howner : s.owner = .stopping (.closing []) failure) :
      Stepped s [] { s with owner := .stopping (.joining [true, false]) failure }
  | joined {video : Bool} {tracks : List Bool} {failure : Option Exception}
      (howner : s.owner = .stopping (.joining (video :: tracks)) failure)
      (hworker : (s.tracks video).worker = none ∨ (s.tracks video).worker = some .done) :
      Stepped s [] { s.setWorker video none with owner := .stopping (.joining tracks) failure }
  | clears {failure : Option Exception} (howner : s.owner = .stopping (.joining []) failure) :
      Stepped s [] { s with owner := .stopping .clearing failure }
  | cleared {failure : Option Exception} (howner : s.owner = .stopping .clearing failure)
      (hfree : s.locked = false) :
      Stepped s (if failure.isNone then [.stopped] else []) { s with
        tracks := fun video => { s.tracks video with frames := none, backpressured := false, codec := none }
        session := none
        filter := none
        owner := failure.elim .idle .resetting }
  | reset {e : Exception} (howner : s.owner = .resetting e) (hfree : s.locked = false) :
      Stepped s [.unstarted e] { s with accepting := false, session := none, error := some e, owner := .idle }
  | refused {video : Bool} {event : Event} (h : event.Refusal video) : Stepped s [event] s
  | full (video : Bool) :
      Stepped s [.rejected video] (s.setTrack video { s.tracks video with backpressured := true })
  | checked {video : Bool} (frame : Frame) {config : AvEncoderConfig} (haccepting : s.accepting = true)
      (hsession : s.session = some config) (hcodec : (s.tracks video).codec.isSome = true)
      (hroom : (s.tracks video).items.length < frameCapacity) (hfree : s.locked = false) :
      Stepped s [] (s.setTrack video { s.tracks video with producer := some frame })
  | pushed {video : Bool} {frame : Frame} {queue : BlockingQueue Frame}
      (hproducer : (s.tracks video).producer = some frame) (hframes : (s.tracks video).frames = some queue)
      (hopen : queue.closed = false) (hroom : queue.queue.length < queue.capacity) :
      Stepped s [.accepted video frame] (s.setTrack video { s.tracks video with
        producer := none, frames := some { queue with queue := queue.queue ++ [frame] } })
  | unpushed {video : Bool} {frame : Frame} {event : Event} (hproducer : (s.tracks video).producer = some frame)
      (h : event.Refusal video) :
      Stepped s [event] (s.setTrack video { s.tracks video with producer := none })
  | quit {video : Bool} {worker : Worker} (hworker : (s.tracks video).worker = some worker)
      (hplace : worker = .entering ∨ ∃ frame, worker = .checking frame) (herror : s.error ≠ none) :
      Stepped s [] (s.setWorker video (some .done))
  | ready {video : Bool} (hworker : (s.tracks video).worker = some .entering) (herror : s.error = none) :
      Stepped s [] (s.setWorker video (some .popping))
  | popped {video : Bool} {frame : Frame} {rest : List Frame} {queue : BlockingQueue Frame}
      (hworker : (s.tracks video).worker = some .popping) (hframes : (s.tracks video).frames = some queue)
      (hqueue : queue.queue = frame :: rest) :
      Stepped s [] (s.setTrack video { s.tracks video with
        frames := some { queue with queue := rest }, worker := some (.checking (some frame)) })
  | drained {video : Bool} {queue : BlockingQueue Frame} (hworker : (s.tracks video).worker = some .popping)
      (hframes : (s.tracks video).frames = some queue) (hqueue : queue.queue = []) (hclosed : queue.closed = true) :
      Stepped s [] (s.setWorker video (some (.checking none)))
  | consumed {video : Bool} {frame : Option Frame} (hworker : (s.tracks video).worker = some (.checking frame))
      (herror : s.error = none) (backpressured : Bool) :
      Stepped s [.consumed video frame] (s.setTrack video { s.tracks video with
        backpressured := backpressured, worker := some (.encoding frame.isNone (.enter video frame)) })
  | encoded {video last : Bool} {place : Place} {config : AvEncoderConfig} {callback : Option Exception}
      {codec codec' : Codec} {calls : List Call} {flow : Flow} {filter : Option Graph}
      (hworker : (s.tracks video).worker = some (.encoding last place)) (hsession : s.session = some config)
      (hcodec : (s.tracks video).codec = some codec)
      (hadvance : advance config callback codec s.filter place = (calls, flow, codec', filter)) :
      Stepped s (calls.map (.called video)) ({ s with filter := filter }.setTrack video { s.tracks video with
        codec := some codec', worker := some (flow.worker last) })
  | failed {video last : Bool} {e : Exception} (hworker : (s.tracks video).worker = some (.failing last e))
      (hfree : s.locked = false) :
      Stepped s (if s.error.isNone then [.failed video e] else [])
        ({ s with error := some (s.error.getD e), accepting := false }.setWorker video
          (some (.discarding s.error.isNone e false [true, false])))
  | discardClosed {video first : Bool} {e : Exception} {track : Bool} {queues : List Bool}
      {queue : BlockingQueue Frame}
      (hworker : (s.tracks video).worker = some (.discarding first e false (track :: queues)))
      (hframes : (s.tracks track).frames = some queue) :
      Stepped s [] ((s.setFrames track (some (queue.close []).2)).setWorker video
        (some (.discarding first e true (track :: queues))))
  | discarded {video first : Bool} {e : Exception} {track : Bool} {queues : List Bool}
      {queue : BlockingQueue Frame} {frame : Frame} {rest : List Frame}
      (hworker : (s.tracks video).worker = some (.discarding first e true (track :: queues)))
      (hframes : (s.tracks track).frames = some queue) (hqueue : queue.queue = frame :: rest) :
      Stepped s [] (s.setFrames track (some { queue with queue := rest }))
  | discardedAll {video first closed : Bool} {e : Exception} {track : Bool} {queues : List Bool}
      (hworker : (s.tracks video).worker = some (.discarding first e closed (track :: queues)))
      (hempty : (s.tracks track).items = []) :
      Stepped s [] (s.setWorker video (some (.discarding first e false queues)))
  | reports {video first closed : Bool} {e : Exception}
      (hworker : (s.tracks video).worker = some (.discarding first e closed [])) :
      Stepped s [] (s.setWorker video (some (.reporting first e)))
  | reported {video first : Bool} {e : Exception}
      (hworker : (s.tracks video).worker = some (.reporting first e)) :
      Stepped s (if first && s.onError then [.reported e] else []) (s.setWorker video (some .done))

omit [LibAudio] [LibCodec] in
theorem pushImpl_cases (queue : BlockingQueue Frame) (frame : Frame) :
    (queue.closed = false ∧ queue.queue.length < queue.capacity ∧ ∃ work,
      queue.pushImpl [] frame true true false
        = (.notifying .success work, { queue with queue := queue.queue ++ [frame] })) ∨
    (queue.closed = true ∨ queue.capacity ≤ queue.queue.length) ∧ ∃ answer work,
      answer ≠ .success ∧ queue.pushImpl [] frame true true false = (.notifying answer work, queue) := by
  rw [BlockingQueue.pushImpl]
  by_cases hclosed : queue.closed = true
  · rw [if_neg (by simp [hclosed]), if_pos hclosed]
    exact .inr ⟨.inl hclosed, _, _, by simp, rfl⟩
  · rw [Bool.not_eq_true] at hclosed
    by_cases hroom : queue.queue.length < queue.capacity
    · rw [if_neg (by simp [hroom]), if_neg (by simp [hclosed]), if_neg Bool.false_ne_true]
      exact .inl ⟨hclosed, hroom, _, rfl⟩
    · rw [if_pos (by simp [hclosed, hroom]), if_pos rfl]
      exact .inr ⟨.inr (Nat.le_of_not_lt hroom), _, _, by simp, rfl⟩

theorem push_stepped [Libav] {throws : Option Exception} (h : s.push video throws = some (events, s')) :
    Stepped s events s' := by
  rw [push] at h
  obtain ⟨frame, hproducer, h⟩ := Option.bind_eq_some_iff.mp h
  obtain ⟨queue, hframes, h⟩ := Option.bind_eq_some_iff.mp h
  cases throws with
  | some e =>
    obtain ⟨rfl, rfl⟩ := Prod.mk.inj (Option.some.inj h)
    exact .unpushed hproducer rfl
  | none =>
    rcases pushImpl_cases queue frame with ⟨hopen, hroom, work, heq⟩ | ⟨-, answer, work, hanswer, heq⟩
    · rw [Option.isSome_none, heq] at h
      obtain ⟨rfl, rfl⟩ := Prod.mk.inj (Option.some.inj h)
      exact .pushed hproducer hframes hopen hroom
    · rw [Option.isSome_none, heq] at h
      have hreject : (events, s') =
          ([.rejected video], s.setTrack video { s.tracks video with producer := none }) := by
        cases answer with
        | success => exact absurd rfl hanswer
        | value _ => exact (Option.some.inj h).symm
        | timeout => exact (Option.some.inj h).symm
        | empty => exact (Option.some.inj h).symm
        | closed => exact (Option.some.inj h).symm
        | threw => exact (Option.some.inj h).symm
        | done => exact (Option.some.inj h).symm
      obtain ⟨rfl, rfl⟩ := Prod.mk.inj hreject
      exact .unpushed hproducer rfl

omit [LibAudio] [LibCodec] in
theorem pop_cases {queue queue' : BlockingQueue Frame} {thread : BlockingQueue.Thread Frame}
    (h : queue.pop [] false = (thread, queue')) :
    (∃ frame rest work, queue.queue = frame :: rest ∧ thread = .notifying (.value frame) work ∧
        queue' = { queue with queue := rest }) ∨
      (queue.queue = [] ∧ queue.closed = true ∧ thread = .notifying .closed []) ∨ thread = .waiting .pop := by
  rw [BlockingQueue.pop] at h
  by_cases hready : (queue.closed || !queue.queue.isEmpty) = true
  · rw [if_pos hready, BlockingQueue.popImpl] at h
    split at h
    · rename_i hqueue
      obtain ⟨rfl, rfl⟩ := Prod.mk.inj h
      rw [hqueue, List.isEmpty_nil, Bool.not_true, Bool.or_false] at hready
      rw [if_pos hready]
      exact .inr (.inl ⟨hqueue, hready, rfl⟩)
    · rename_i frame rest hqueue
      rw [if_neg Bool.false_ne_true] at h
      obtain ⟨rfl, rfl⟩ := Prod.mk.inj h
      exact .inl ⟨frame, rest, _, hqueue, rfl, rfl⟩
  · rw [if_neg hready] at h
    obtain ⟨rfl, -⟩ := Prod.mk.inj h
    exact .inr (.inr rfl)

theorem discardNext_stepped [Libav] {first closed : Bool} {e : Exception} {queues : List Bool}
    (hworker : (s.tracks video).worker = some (.discarding first e closed queues)) :
    Stepped s [] (s.discardNext video first e closed queues) := by
  cases queues with
  | nil => exact .reports hworker
  | cons track queues =>
    rw [discardNext]
    cases hframes : (s.tracks track).frames with
    | none =>
      refine .discardedAll hworker ?_
      rw [Track.items, hframes]
      rfl
    | some queue =>
      cases closed with
      | false => exact .discardClosed hworker hframes
      | true =>
        dsimp only
        rw [if_neg (by decide), BlockingQueue.popImpl]
        split
        · rename_i heq
          split at heq
          · exact absurd heq (by cases queue.closed <;> simp)
          · rename_i frame rest hqueue
            rw [if_neg Bool.false_ne_true] at heq
            obtain ⟨-, rfl⟩ := Prod.mk.inj heq
            exact .discarded hworker hframes hqueue
        · rename_i hother
          refine .discardedAll hworker ?_
          rw [Track.items, hframes]
          show queue.queue = []
          cases hqueue : queue.queue with
          | nil => rfl
          | cons frame rest =>
            rw [hqueue] at hother
            exact absurd rfl (hother _ _ _)

theorem own_stepped [Libav] {failed : Option Bool} (h : s.own failed = some (events, s')) : Stepped s events s' := by
  rw [own] at h
  split at h
  · cases h
  · rename_i config howner
    split at h
    · rename_i e hopen
      obtain ⟨rfl, rfl⟩ := Prod.mk.inj (Option.some.inj h)
      exact .unopened howner e
    · rename_i codecs filter hopen
      split at h
      · cases h
      · rename_i hguard
        rw [Bool.not_eq_true, Bool.or_eq_false_iff] at hguard
        have heq := Option.some.inj h
        cases failed with
        | none =>
          have hstep := Stepped.installed howner hopen hguard.1
          obtain ⟨rfl, rfl⟩ := Prod.mk.inj heq
          exact hstep
        | some failed =>
          have henabled : config.enabled failed = true := by simpa using hguard.2
          have hstep := Stepped.uninstalled howner hopen hguard.1 henabled
          obtain ⟨rfl, rfl⟩ := Prod.mk.inj heq
          exact hstep
  · rename_i failure howner
    split at h
    · cases h
    · rename_i hfree
      obtain ⟨rfl, rfl⟩ := Prod.mk.inj (Option.some.inj h)
      exact .entered howner (Bool.eq_false_iff.mpr hfree)
  · rename_i failure howner
    obtain ⟨rfl, rfl⟩ := Prod.mk.inj (Option.some.inj h)
    exact .joins howner
  · rename_i video queues failure howner
    obtain ⟨rfl, rfl⟩ := Prod.mk.inj (Option.some.inj h)
    exact .closed howner
  · rename_i failure howner
    obtain ⟨rfl, rfl⟩ := Prod.mk.inj (Option.some.inj h)
    exact .clears howner
  · rename_i video tracks failure howner
    split at h
    · rename_i hworker
      obtain ⟨rfl, rfl⟩ := Prod.mk.inj (Option.some.inj h)
      exact .joined howner (.inl hworker)
    · rename_i hworker
      obtain ⟨rfl, rfl⟩ := Prod.mk.inj (Option.some.inj h)
      exact .joined howner (.inr hworker)
    · cases h
  · rename_i failure howner
    split at h
    · cases h
    · rename_i hfree
      obtain ⟨rfl, rfl⟩ := Prod.mk.inj (Option.some.inj h)
      exact .cleared howner (Bool.eq_false_iff.mpr hfree)
  · rename_i e howner
    split at h
    · cases h
    · rename_i hfree
      obtain ⟨rfl, rfl⟩ := Prod.mk.inj (Option.some.inj h)
      exact .reset howner (Bool.eq_false_iff.mpr hfree)

section

variable [Libav]

theorem tryPush_stepped (video : Bool) (frame : Frame) (hfree : s.locked = false) :
    Stepped s (s.tryPush frame video).1 (s.tryPush frame video).2 := by
  rw [tryPush]
  split
  · rename_i config haccepting hsession
    cases hcheck : checkInput config (s.tracks video).codec.isSome frame video with
    | error e =>
      have hrefusal : Event.Refusal video (.threw video e) := rfl
      exact .refused hrefusal
    | ok _ =>
      dsimp only
      split
      · exact .full video
      · rename_i hroom
        have hcodec : (s.tracks video).codec.isSome = true := by
          cases hsome : (s.tracks video).codec.isSome with
          | true => rfl
          | false =>
            rw [hsome] at hcheck
            cases hcheck
        exact .checked frame haccepting hsession hcodec (Nat.lt_of_not_le (Track.items_length _ ▸ hroom)) hfree
  · have hrefusal : Event.Refusal video (.rejected video) := rfl
    exact .refused hrefusal

theorem encode_stepped {last : Bool} {place : Place} {callback : Option Exception}
    (hworker : (s.tracks video).worker = some (.encoding last place))
    (h : s.encode video last place callback = some (events, s')) : Stepped s events s' := by
  rw [encode] at h
  obtain ⟨config, hsession, h⟩ := Option.bind_eq_some_iff.mp h
  obtain ⟨codec, hcodec, h⟩ := Option.bind_eq_some_iff.mp h
  obtain ⟨calls, flow, codec', filter, hadvance⟩ : ∃ calls flow codec' filter,
      advance config callback codec s.filter place = (calls, flow, codec', filter) := ⟨_, _, _, _, rfl⟩
  rw [hadvance] at h
  obtain ⟨rfl, rfl⟩ := Prod.mk.inj (Option.some.inj h)
  exact .encoded hworker hsession hcodec hadvance

theorem work_stepped {callback : Option Exception} (h : s.work video callback = some (events, s')) :
    Stepped s events s' := by
  rw [work] at h
  cases hworker : (s.tracks video).worker with
  | none =>
    rw [hworker] at h
    cases h
  | some worker =>
    rw [hworker] at h
    cases worker with
    | entering =>
      dsimp only at h
      split at h
      · cases h
      · obtain ⟨rfl, rfl⟩ := Prod.mk.inj (Option.some.inj h)
        cases herror : s.error with
        | none => exact .ready hworker herror
        | some e => exact .quit hworker (.inl rfl) (by simp [herror])
    | popping =>
      dsimp only at h
      cases hframes : (s.tracks video).frames with
      | none =>
        rw [hframes] at h
        cases h
      | some queue =>
        rw [hframes, Option.map_some] at h
        obtain ⟨thread, queue', heq⟩ : ∃ thread queue', queue.pop [] false = (thread, queue') := ⟨_, _, rfl⟩
        rw [heq] at h
        rcases pop_cases heq with ⟨frame, rest, work, hqueue, rfl, rfl⟩ | ⟨hqueue, hclosed, rfl⟩ | rfl
        · obtain ⟨rfl, rfl⟩ := Prod.mk.inj (Option.some.inj h)
          exact .popped hworker hframes hqueue
        · obtain ⟨rfl, rfl⟩ := Prod.mk.inj (Option.some.inj h)
          exact .drained hworker hframes hqueue hclosed
        · cases h
    | checking frame =>
      dsimp only at h
      split at h
      · cases h
      · split at h
        · rename_i herror
          obtain ⟨rfl, rfl⟩ := Prod.mk.inj (Option.some.inj h)
          exact .quit hworker (.inr ⟨frame, rfl⟩) (Option.ne_none_iff_isSome.mpr herror)
        · rename_i herror
          obtain ⟨rfl, rfl⟩ := Prod.mk.inj (Option.some.inj h)
          exact .consumed hworker (Option.not_isSome_iff_eq_none.mp herror) _
    | encoding last place => exact encode_stepped hworker h
    | failing last e =>
      dsimp only at h
      split at h
      · cases h
      · rename_i hfree
        obtain ⟨rfl, rfl⟩ := Prod.mk.inj (Option.some.inj h)
        exact .failed hworker (Bool.eq_false_iff.mpr hfree)
    | discarding first e closed queues =>
      obtain ⟨rfl, rfl⟩ := Prod.mk.inj (Option.some.inj h)
      exact discardNext_stepped hworker
    | reporting first e =>
      obtain ⟨rfl, rfl⟩ := Prod.mk.inj (Option.some.inj h)
      exact .reported hworker
    | done => cases h

/-- **Inversion of a step.** -/
theorem stepped {act : Act} (h : s.next act = some (events, s')) : Stepped s events s' := by
  cases act with
  | setOnError present =>
    rw [next] at h
    split at h
    · rename_i hguard
      obtain ⟨rfl, rfl⟩ := Prod.mk.inj (Option.some.inj h)
      exact .configured hguard.1 (workerless hguard.2) present
    · cases h
  | start config =>
    rw [next] at h
    split at h
    · cases h
    · rename_i hidle
      split at h
      · obtain ⟨rfl, rfl⟩ := Prod.mk.inj (Option.some.inj h)
        exact .same
      · rename_i hworkers
        split at h
        · cases h
        · rename_i hfree
          obtain ⟨rfl, rfl⟩ := Prod.mk.inj (Option.some.inj h)
          exact .started (not_not.mp hidle) (workerless (Bool.eq_false_iff.mpr hworkers))
            (Bool.eq_false_iff.mpr hfree) config
  | stop =>
    rw [next] at h
    split at h
    · rename_i hidle
      obtain ⟨rfl, rfl⟩ := Prod.mk.inj (Option.some.inj h)
      exact .stop hidle
    · cases h
  | own failed => exact own_stepped h
  | tryPush video frame =>
    rw [next] at h
    split at h
    · cases h
    · rename_i hfree
      have hstep := tryPush_stepped video frame (Bool.eq_false_iff.mpr hfree)
      rwa [Option.some.inj h] at hstep
  | push video throws => exact push_stepped h
  | work video callback => exact work_stepped h

end

/-! ### The invariant -/

/-- Admission may be open. -/
def Owner.admits : Owner → Bool
  | .idle | .stopping .entering _ => true
  | _ => false

/-- There is no queue without a worker. -/
def Owner.settled : Owner → Bool
  | .idle | .opening _ | .resetting _ => true
  | _ => false

/-- The track has been joined in this `Stop`. -/
def Owner.past (video : Bool) : Owner → Bool
  | .stopping (.joining tracks) _ => !tracks.contains video
  | .stopping .clearing _ | .resetting _ => true
  | _ => false

/-- The worker has found its queue closed and empty, or has nothing more to do. -/
def Worker.spent : Worker → Bool
  | .checking none => true
  | .encoding last _ => last
  | .failing last _ => last
  | .done => true
  | _ => false

/-- The worker has recorded a failure. -/
def Worker.broken : Worker → Bool
  | .discarding _ _ _ _ | .reporting _ _ => true
  | _ => false

/-- The queue of a track is there, open and of the constant capacity. -/
def Track.Open (track : Track) : Prop :=
  ∃ queue, track.frames = some queue ∧ queue.closed = false ∧ queue.capacity = frameCapacity

/-- What holds of one track, given what holds of the encoder. -/
structure Track.Sound (track : Track) (accepting : Bool) (error : Option Exception) (owner : Owner)
    (video : Bool) : Prop where
  ready : accepting = true → track.codec.isSome = true → track.worker.isSome = true ∧ track.Open
  pushing : ∀ frame, track.producer = some frame →
    accepting = true ∧ track.codec.isSome = true ∧ track.items.length < frameCapacity
  fresh : owner.settled = true → track.worker = none → track.frames = none
  starting : ∀ config, owner = .opening config → track.worker = none
  joined : owner.past video = true → track.worker = none
  spent : error = none → ∀ worker, track.worker = some worker → worker.spent = true →
    track.items = [] ∧ ∀ queue, track.frames = some queue → queue.closed = true
  empty : error = none → track.worker = none → track.items = []
  broken : ∀ worker, track.worker = some worker → worker.broken = true → error ≠ none

structure Coherent (s : AvEncoder) : Prop where
  admission : s.accepting = true → s.error = none ∧ s.owner.admits = true ∧ s.session.isSome = true ∧
    ∃ v, (s.tracks v).codec.isSome = true
  opening : ∀ config, s.owner = .opening config → s.error = none
  tracks : ∀ v, (s.tracks v).Sound s.accepting s.error s.owner v

theorem Track.items_eq {track : Track} {queue : BlockingQueue Frame} (h : track.frames = some queue) :
    track.items = queue.queue := by
  rw [items, h]
  rfl

theorem Track.items_none {track : Track} (h : track.frames = none) : track.items = [] := by
  rw [items, h]
  rfl

/-- A step of one track. -/
theorem Coherent.track (h : Coherent s) {track : Track}
    (hcodec : track.codec.isSome = (s.tracks video).codec.isSome)
    (hsound : track.Sound s.accepting s.error s.owner video) : Coherent (s.setTrack video track) := by
  refine ⟨fun haccepting => ?_, h.opening, fun v => ?_⟩
  · obtain ⟨herror, hadmits, hsession, v, hv⟩ := h.admission haccepting
    refine ⟨herror, hadmits, hsession, v, ?_⟩
    rcases setTrack_cases s video v track with ⟨rfl, heq⟩ | ⟨-, heq⟩
    · rw [heq, hcodec]
      exact hv
    · rw [heq]
      exact hv
  · rcases setTrack_cases s video v track with ⟨rfl, heq⟩ | ⟨-, heq⟩
    · rw [heq]
      exact hsound
    · rw [heq]
      exact h.tracks v

/-- A worker goes on, without a word about its queue. -/
theorem Track.Sound.work {track : Track} {accepting : Bool} {error : Option Exception} {owner : Owner}
    (h : track.Sound accepting error owner video) {worker worker' : Worker} (hworker : track.worker = some worker)
    (hspent : worker'.spent = true → error = none → track.items = [] ∧
      ∀ queue, track.frames = some queue → queue.closed = true)
    (hbroken : worker'.broken = true → error ≠ none) :
    Track.Sound { track with worker := some worker' } accepting error owner video where
  ready haccepting hcodec := ⟨rfl, (h.ready haccepting hcodec).2⟩
  pushing := h.pushing
  fresh _ hnone := by cases hnone
  starting config howner := absurd (h.starting config howner) (by simp [hworker])
  joined hpast := absurd (h.joined hpast) (by simp [hworker])
  spent herror w hw ho := by
    obtain rfl := Option.some.inj hw
    exact hspent ho herror
  empty _ hnone := by cases hnone
  broken w hw hb := by
    obtain rfl := Option.some.inj hw
    exact hbroken hb

/-- A queue loses frames or is closed, which is not done while admission is open. -/
theorem Track.Sound.lower {track : Track} {accepting : Bool} {error : Option Exception} {owner : Owner}
    (h : track.Sound accepting error owner video) {queue queue' : BlockingQueue Frame}
    (hframes : track.frames = some queue) (haccepting : accepting = false)
    (hitems : queue.queue = [] → queue'.queue = []) (hclosed : queue.closed = true → queue'.closed = true) :
    Track.Sound { track with frames := some queue' } accepting error owner video where
  ready hon := absurd (haccepting.symm.trans hon) (by decide)
  pushing frame hproducer := absurd (haccepting.symm.trans (h.pushing frame hproducer).1) (by decide)
  fresh hsettled hnone := absurd (h.fresh hsettled hnone) (by simp [hframes])
  starting := h.starting
  joined := h.joined
  spent herror worker hworker ho := by
    obtain ⟨hnil, hshut⟩ := h.spent herror worker hworker ho
    rw [items_eq hframes] at hnil
    refine ⟨hitems hnil, fun q hq => ?_⟩
    obtain rfl := Option.some.inj hq
    exact hclosed (hshut queue hframes)
  empty herror hnone := by
    have hnil := h.empty herror hnone
    rw [items_eq hframes] at hnil
    exact hitems hnil
  broken := h.broken

theorem Coherent.quiet (h : Coherent s) (hadmits : s.owner.admits = false) : s.accepting = false := by
  cases haccepting : s.accepting with
  | false => rfl
  | true => exact absurd ((h.admission haccepting).2.1.symm.trans hadmits) (by decide)

theorem Coherent.quiet_of_error (h : Coherent s) (herror : s.error ≠ none) : s.accepting = false := by
  cases haccepting : s.accepting with
  | false => rfl
  | true => exact absurd (h.admission haccepting).1 herror

/-- Nothing is between the checks and the push once admission is closed. -/
theorem Coherent.unproduced (h : Coherent s) (haccepting : s.accepting = false) (v : Bool) :
    (s.tracks v).producer = none := by
  cases hproducer : (s.tracks v).producer with
  | none => rfl
  | some frame => exact absurd (haccepting.symm.trans ((h.tracks v).pushing frame hproducer).1) (by decide)

/-- The owner goes on while admission is closed. -/
theorem Coherent.own (h : Coherent s) {owner : Owner} (haccepting : s.accepting = false)
    (hsettled : owner.settled = false)
    (hpast : ∀ v, owner.past v = true → (s.tracks v).worker = none) : Coherent { s with owner := owner } where
  admission hon := absurd (haccepting.symm.trans hon) (by decide)
  opening config howner := by
    obtain rfl : owner = .opening config := howner
    cases hsettled
  tracks v :=
    { ready := (h.tracks v).ready
      pushing := (h.tracks v).pushing
      fresh := fun hs => absurd (hsettled.symm.trans hs) (by decide)
      starting := fun config howner => by
        obtain rfl : owner = .opening config := howner
        cases hsettled
      joined := hpast v
      spent := (h.tracks v).spent
      empty := (h.tracks v).empty
      broken := (h.tracks v).broken }

/-- The codecs and the filter of a session. -/
structure Opened (config : AvEncoderConfig) (codecs : Bool → Option Codec) (filter : Option Graph) : Prop where
  enabled : ∃ v, config.enabled v = true
  present : ∀ v, (codecs v).isSome = config.enabled v
  codec : ∀ v codec, codecs v = some codec → openCodec config v = .ok codec
  filter : ∀ graph, filter = some graph → ∃ codec, openCodec config false = .ok codec ∧
    createFilter config codec = .ok graph

theorem openSession_ok {config : AvEncoderConfig} {codecs : Bool → Option Codec} {filter : Option Graph}
    (h : openSession config = .ok (codecs, filter)) : Opened config codecs filter := by
  rw [openSession] at h
  cases hvideo : config.enabled true with
  | true =>
    simp only [hvideo, reduceCtorEq, false_and, if_false] at h
    split at h
    · cases h
    · cases hopen : openCodec config true with
      | error e => simp [hopen, Functor.map, Except.map, bind, Except.bind] at h
      | ok codec =>
        cases haudio : config.enabled false with
        | false =>
          simp [hopen, haudio, Functor.map, Except.map, bind, Except.bind, pure, Except.pure] at h
          obtain ⟨rfl, rfl⟩ := h
          refine ⟨⟨true, hvideo⟩, fun v => ?_, fun v codec' hcodec => ?_, fun graph hgraph => (by cases hgraph)⟩
          · cases v <;> simp [hvideo, haudio]
          · cases v <;> simp_all
        | true =>
          cases haopen : openCodec config false with
          | error e => simp [hopen, haudio, haopen, Functor.map, Except.map, bind, Except.bind] at h
          | ok audio =>
            cases hfilter : createFilter config audio with
            | error e => simp [hopen, haudio, haopen, hfilter, Functor.map, Except.map, bind, Except.bind] at h
            | ok graph =>
              simp [hopen, haudio, haopen, hfilter, Functor.map, Except.map, bind, Except.bind, pure,
                Except.pure] at h
              obtain ⟨rfl, rfl⟩ := h
              refine ⟨⟨true, hvideo⟩, fun v => ?_, fun v codec' hcodec => ?_, fun graph' hgraph =>
                ⟨audio, haopen, hfilter.trans (congrArg _ (Option.some.inj hgraph))⟩⟩
              · cases v <;> simp [hvideo, haudio]
              · cases v <;> simp_all
  | false =>
    cases haudio : config.enabled false with
    | false => simp [hvideo, haudio, bind, Except.bind, throw, throwThe, MonadExceptOf.throw] at h
    | true =>
      cases haopen : openCodec config false with
      | error e => simp [hvideo, haudio, haopen, bind, Except.bind, pure, Except.pure] at h
      | ok audio =>
        cases hfilter : createFilter config audio with
        | error e => simp [hvideo, haudio, haopen, hfilter, bind, Except.bind, pure, Except.pure] at h
        | ok graph =>
          simp [hvideo, haudio, haopen, hfilter, bind, Except.bind, pure, Except.pure] at h
          obtain ⟨rfl, rfl⟩ := h
          refine ⟨⟨false, haudio⟩, fun v => ?_, fun v codec' hcodec => ?_, fun graph' hgraph =>
            ⟨audio, haopen, hfilter.trans (congrArg _ (Option.some.inj hgraph))⟩⟩
          · cases v <;> simp [hvideo, haudio]
          · cases v <;> simp_all

theorem Coherent.quiet_of_workerless (h : Coherent s) (hworkers : ∀ v, (s.tracks v).worker = none) :
    s.accepting = false := by
  cases haccepting : s.accepting with
  | false => rfl
  | true =>
    obtain ⟨-, -, -, v, hcodec⟩ := h.admission haccepting
    have hworker := ((h.tracks v).ready haccepting hcodec).1
    rw [hworkers v] at hworker
    cases hworker

/-- A worker that recorded a failure has closed admission. -/
theorem Coherent.quiet_of_broken (h : Coherent s) {worker : Worker} (hworker : (s.tracks video).worker = some worker)
    (hbroken : worker.broken = true) : s.error ≠ none ∧ s.accepting = false := by
  have herror := (h.tracks video).broken worker hworker hbroken
  exact ⟨herror, h.quiet_of_error herror⟩

/-- The worker of a track goes on. -/
theorem Coherent.work (h : Coherent s) {worker worker' : Worker} (hworker : (s.tracks video).worker = some worker)
    (hspent : worker'.spent = true → s.error = none → (s.tracks video).items = [] ∧
      ∀ queue, (s.tracks video).frames = some queue → queue.closed = true)
    (hbroken : worker'.broken = true → s.error ≠ none) : Coherent (s.setWorker video (some worker')) :=
  h.track rfl ((h.tracks video).work hworker hspent hbroken)

/-- A queue loses frames or is closed. -/
theorem Coherent.lower (h : Coherent s) {queue queue' : BlockingQueue Frame}
    (hframes : (s.tracks video).frames = some queue) (haccepting : s.accepting = false)
    (hitems : queue.queue = [] → queue'.queue = []) (hclosed : queue.closed = true → queue'.closed = true) :
    Coherent (s.setFrames video (some queue')) :=
  h.track rfl ((h.tracks video).lower hframes haccepting hitems hclosed)

theorem Coherent.started (h : Coherent s) (hidle : s.owner = .idle) (hworkers : ∀ v, (s.tracks v).worker = none)
    (hfree : s.locked = false) (config : AvEncoderConfig) :
    Coherent { s with error := none, owner := .opening config } where
  admission hon := absurd ((h.quiet_of_workerless hworkers).symm.trans hon) (by decide)
  opening _ _ := rfl
  tracks v :=
    { ready := fun hon => absurd ((h.quiet_of_workerless hworkers).symm.trans hon) (by decide)
      pushing := fun frame hproducer => absurd ((unlocked hfree v).symm.trans hproducer) (by simp)
      fresh := fun _ hnone => (h.tracks v).fresh (hidle ▸ rfl) hnone
      starting := fun _ _ => hworkers v
      joined := fun hpast => by cases hpast
      spent := fun _ worker hworker => absurd ((hworkers v).symm.trans hworker) (by simp)
      empty := fun _ hnone => Track.items_none ((h.tracks v).fresh (hidle ▸ rfl) hnone)
      broken := fun worker hworker => absurd ((hworkers v).symm.trans hworker) (by simp) }

theorem Coherent.installed (h : Coherent s) {config : AvEncoderConfig} {codecs : Bool → Option Codec}
    {filter : Option Graph} (howner : s.owner = .opening config)
    (hopen : openSession config = .ok (codecs, filter)) (hfree : s.locked = false) :
    Coherent (s.install config codecs filter none).2 := by
  obtain ⟨⟨w, hw⟩, hcodecs, -, -⟩ := openSession_ok hopen
  have hworkers : ∀ v, (s.tracks v).worker = none := fun v => (h.tracks v).starting config howner
  have hframes : ∀ v, (s.tracks v).frames = none := fun v => (h.tracks v).fresh (howner ▸ rfl) (hworkers v)
  refine ⟨fun _ => ⟨h.opening config howner, rfl, rfl, w, (hcodecs w).trans hw⟩, fun _ hcontra => (by cases hcontra),
    fun v => ?_⟩
  cases henabled : config.enabled v with
  | true =>
    have hworker : (((s.install config codecs filter none).2).tracks v).worker = some .entering :=
      if_pos ⟨henabled, by simp, by simp⟩
    have hqueue : (((s.install config codecs filter none).2).tracks v).frames = some { capacity := frameCapacity } :=
      if_pos henabled
    exact
      { ready := fun _ _ => ⟨by rw [hworker]; rfl, _, hqueue, rfl, rfl⟩
        pushing := fun frame hproducer => absurd ((unlocked hfree v).symm.trans hproducer) (by simp)
        fresh := fun _ hnone => absurd (hworker.symm.trans hnone) (by simp)
        starting := fun _ hcontra => by cases hcontra
        joined := fun hpast => by cases hpast
        spent := fun _ worker hsome hspent => by
          obtain rfl := Option.some.inj (hworker.symm.trans hsome)
          cases hspent
        empty := fun _ hnone => absurd (hworker.symm.trans hnone) (by simp)
        broken := fun worker hsome hbroken => by
          obtain rfl := Option.some.inj (hworker.symm.trans hsome)
          cases hbroken }
  | false =>
    have hworker : (((s.install config codecs filter none).2).tracks v).worker = none :=
      (if_neg (by simp [henabled])).trans (hworkers v)
    have hqueue : (((s.install config codecs filter none).2).tracks v).frames = none :=
      (if_neg (by simp [henabled])).trans (hframes v)
    exact
      { ready := fun _ hcodec => absurd ((hcodecs v).symm.trans hcodec) (by simp [henabled])
        pushing := fun frame hproducer => absurd ((unlocked hfree v).symm.trans hproducer) (by simp)
        fresh := fun _ _ => hqueue
        starting := fun _ hcontra => by cases hcontra
        joined := fun hpast => by cases hpast
        spent := fun _ worker hsome => absurd (hworker.symm.trans hsome) (by simp)
        empty := fun _ _ => Track.items_none hqueue
        broken := fun worker hsome => absurd (hworker.symm.trans hsome) (by simp) }

/-- A partial failure of `Start`: the workers there are have not entered. -/
theorem Coherent.uninstalled (h : Coherent s) {config : AvEncoderConfig} {codecs : Bool → Option Codec}
    {filter : Option Graph} (howner : s.owner = .opening config) (hfree : s.locked = false) (failed : Bool) :
    Coherent (s.install config codecs filter (some failed)).2 := by
  have hworkers : ∀ v, (s.tracks v).worker = none := fun v => (h.tracks v).starting config howner
  refine ⟨fun hon => (by cases hon), fun _ hcontra => (by cases hcontra), fun v => ?_⟩
  exact
    { ready := fun hon => by cases hon
      pushing := fun frame hproducer => absurd ((unlocked hfree v).symm.trans hproducer) (by simp)
      fresh := fun hsettled => by cases hsettled
      starting := fun _ hcontra => by cases hcontra
      joined := fun hpast => by cases hpast
      spent := fun hnone => by cases hnone
      empty := fun hnone => by cases hnone
      broken := fun _ _ _ hnone => by cases hnone }

theorem Coherent.cleared (h : Coherent s) {failure : Option Exception} (howner : s.owner = .stopping .clearing failure)
    (hfree : s.locked = false) :
    Coherent { s with
      tracks := fun video => { s.tracks video with frames := none, backpressured := false, codec := none }
      session := none
      filter := none
      owner := failure.elim .idle .resetting } := by
  have haccepting : s.accepting = false := h.quiet (howner ▸ rfl)
  have hworkers : ∀ v, (s.tracks v).worker = none := fun v => (h.tracks v).joined (howner ▸ rfl)
  refine ⟨fun hon => absurd (haccepting.symm.trans hon) (by decide), fun config hcontra => ?_, fun v => ?_⟩
  · cases failure <;> cases hcontra
  · exact
      { ready := fun hon => absurd (haccepting.symm.trans hon) (by decide)
        pushing := fun frame hproducer => absurd ((unlocked hfree v).symm.trans hproducer) (by simp)
        fresh := fun _ _ => rfl
        starting := fun _ _ => hworkers v
        joined := fun _ => hworkers v
        spent := fun _ worker hworker => absurd ((hworkers v).symm.trans hworker) (by simp)
        empty := fun _ _ => rfl
        broken := fun worker hworker => absurd ((hworkers v).symm.trans hworker) (by simp) }

theorem Coherent.pushed (h : Coherent s) {frame : Frame} {queue : BlockingQueue Frame}
    (hproducer : (s.tracks video).producer = some frame) (hframes : (s.tracks video).frames = some queue) :
    Coherent (s.setTrack video { s.tracks video with
      producer := none, frames := some { queue with queue := queue.queue ++ [frame] } }) := by
  have hs := h.tracks video
  obtain ⟨haccepting, hcodec, -⟩ := hs.pushing frame hproducer
  obtain ⟨hworker, q, hq, hopen, hcapacity⟩ := hs.ready haccepting hcodec
  obtain rfl := Option.some.inj (hframes.symm.trans hq)
  refine h.track rfl ⟨fun _ _ => ⟨hworker, _, rfl, hopen, hcapacity⟩, fun _ hnone => (by cases hnone),
    fun _ hnone => ?_, hs.starting, hs.joined, fun herror worker hsome hspent => ?_, fun _ hnone => ?_, hs.broken⟩
  · exact absurd hnone (Option.ne_none_iff_isSome.mpr hworker)
  · exact absurd (hopen.symm.trans ((hs.spent herror worker hsome hspent).2 queue hframes)) (by decide)
  · exact absurd hnone (Option.ne_none_iff_isSome.mpr hworker)

theorem Coherent.popped (h : Coherent s) {frame : Frame} {rest : List Frame} {queue : BlockingQueue Frame}
    (hworker : (s.tracks video).worker = some .popping) (hframes : (s.tracks video).frames = some queue)
    (hqueue : queue.queue = frame :: rest) :
    Coherent (s.setTrack video { s.tracks video with
      frames := some { queue with queue := rest }, worker := some (.checking (some frame)) }) := by
  have hs := h.tracks video
  refine h.track rfl ⟨fun haccepting hcodec => ?_, fun f hproducer => ?_, fun _ hnone => (by cases hnone),
    fun config howner => absurd (hs.starting config howner) (by simp [hworker]),
    fun hpast => absurd (hs.joined hpast) (by simp [hworker]), fun _ worker hsome hspent => ?_,
    fun _ hnone => (by cases hnone), fun worker hsome hbroken => ?_⟩
  · obtain ⟨-, q, hq, hopen, hcapacity⟩ := hs.ready haccepting hcodec
    obtain rfl := Option.some.inj (hframes.symm.trans hq)
    exact ⟨rfl, _, rfl, hopen, hcapacity⟩
  · obtain ⟨haccepting, hcodec, hroom⟩ := hs.pushing f hproducer
    rw [Track.items_eq hframes, hqueue, List.length_cons] at hroom
    exact ⟨haccepting, hcodec, Nat.lt_of_succ_lt hroom⟩
  · obtain rfl := Option.some.inj hsome
    cases hspent
  · obtain rfl := Option.some.inj hsome
    cases hbroken

omit [LibAudio] [LibCodec] in
theorem Flow.worker_spent (flow : Flow) (last : Bool) : (flow.worker last).spent = last := by
  cases flow with
  | goto place => rfl
  | returned => cases last <;> rfl
  | thrown e => rfl

omit [LibAudio] [LibCodec] in
theorem Flow.worker_broken (flow : Flow) (last : Bool) : (flow.worker last).broken = false := by
  cases flow with
  | goto place => rfl
  | returned => cases last <;> rfl
  | thrown e => rfl

theorem Coherent.failed (h : Coherent s) {last : Bool} {e e' : Exception}
    (hworker : (s.tracks video).worker = some (.failing last e)) (hfree : s.locked = false) (first : Bool)
    (queues : List Bool) :
    Coherent ({ s with error := some e', accepting := false }.setWorker video
      (some (.discarding first e false queues))) := by
  have hbase : Coherent { s with error := some e', accepting := false } := by
    refine ⟨fun hon => (by cases hon), fun config howner => ?_, fun v => ?_⟩
    · exact absurd ((h.tracks video).starting config howner) (by simp [hworker])
    · exact
        { ready := fun hon => by cases hon
          pushing := fun frame hproducer => absurd ((unlocked hfree v).symm.trans hproducer) (by simp)
          fresh := (h.tracks v).fresh
          starting := (h.tracks v).starting
          joined := (h.tracks v).joined
          spent := fun hnone => by cases hnone
          empty := fun hnone => by cases hnone
          broken := fun _ _ _ hnone => by cases hnone }
  exact hbase.work hworker (fun hspent => (by cases hspent)) (fun _ hnone => (by cases hnone))

/-- **Every step keeps the encoder coherent.** -/
theorem Coherent.step [Libav] (h : Coherent s) (hstep : Stepped s events s') : Coherent s' := by
  cases hstep with
  | configured hidle hworkers present => exact ⟨h.admission, h.opening, h.tracks⟩
  | same => exact h
  | started hidle hworkers hfree config => exact h.started hidle hworkers hfree config
  | stop hidle =>
    refine ⟨fun hon => ?_, fun _ hcontra => (by cases hcontra), fun v => ?_⟩
    · obtain ⟨herror, -, hsession⟩ := h.admission hon
      exact ⟨herror, rfl, hsession⟩
    · have hs := h.tracks v
      exact ⟨hs.ready, hs.pushing, fun hcontra => (by cases hcontra), fun _ hcontra => (by cases hcontra),
        fun hcontra => (by cases hcontra), hs.spent, hs.empty, hs.broken⟩
  | unopened howner e => exact h.own (h.quiet (howner ▸ rfl)) rfl fun _ hpast => by cases hpast
  | installed howner hopen hfree => exact h.installed howner hopen hfree
  | uninstalled howner hopen hfree henabled => exact h.uninstalled howner hfree _
  | entered howner hfree =>
    refine ⟨fun hon => (by cases hon), fun _ hcontra => (by cases hcontra), fun v => ?_⟩
    have hs := h.tracks v
    exact ⟨fun hon => (by cases hon), fun frame hproducer => absurd ((unlocked hfree v).symm.trans hproducer) (by simp),
      fun hcontra => (by cases hcontra), fun _ hcontra => (by cases hcontra), fun hcontra => (by cases hcontra),
      hs.spent, hs.empty, hs.broken⟩
  | @closed video queues failure howner =>
    have haccepting : s.accepting = false := h.quiet (howner ▸ rfl)
    have hclosed : Coherent (s.setFrames video ((s.tracks video).frames.map fun queue => (queue.close []).2)) := by
      cases hframes : (s.tracks video).frames with
      | none =>
        have hs := h.tracks video
        refine h.track rfl ⟨fun hon => absurd (haccepting.symm.trans hon) (by decide),
          fun frame hproducer => absurd ((h.unproduced haccepting video).symm.trans hproducer) (by simp),
          fun _ _ => rfl, hs.starting, hs.joined, fun _ _ _ _ => ⟨rfl, fun _ hnone => (by cases hnone)⟩,
          fun _ _ => rfl, hs.broken⟩
      | some queue => exact h.lower hframes haccepting id fun _ => rfl
    exact hclosed.own haccepting rfl fun _ hpast => by cases hpast
  | joins howner =>
    refine h.own (h.quiet (howner ▸ rfl)) rfl fun v hpast => ?_
    cases v <;> cases hpast
  | @joined video tracks failure howner hworker =>
    have haccepting : s.accepting = false := h.quiet (howner ▸ rfl)
    have hs := h.tracks video
    have hjoined : Coherent (s.setWorker video none) := by
      refine h.track rfl ⟨fun hon => absurd (haccepting.symm.trans hon) (by decide), hs.pushing,
        fun hcontra => absurd (howner ▸ hcontra) (by simp [Owner.settled]), fun _ _ => rfl, fun _ => rfl,
        fun _ _ hsome => (by cases hsome), fun herror _ => ?_, fun _ hsome => (by cases hsome)⟩
      rcases hworker with hworker | hworker
      · exact hs.empty herror hworker
      · exact (hs.spent herror _ hworker rfl).1
    refine hjoined.own haccepting rfl fun v hpast => ?_
    rcases setTrack_cases s video v { s.tracks video with worker := none } with
      ⟨rfl, heq⟩ | ⟨hne, heq⟩
    · exact congrArg Track.worker heq
    · refine (congrArg Track.worker heq).trans ((h.tracks v).joined ?_)
      rw [howner]
      have hout : v ∉ tracks := by simpa [Owner.past] using hpast
      simp [Owner.past, hout, hne]
  | clears howner =>
    refine h.own (h.quiet (howner ▸ rfl)) rfl fun v _ => (h.tracks v).joined ?_
    rw [howner]
    rfl
  | cleared howner hfree => exact h.cleared howner hfree
  | reset howner hfree =>
    refine ⟨fun hon => (by cases hon), fun _ hcontra => (by cases hcontra), fun v => ?_⟩
    have hs := h.tracks v
    exact ⟨fun hon => (by cases hon), fun frame hproducer => absurd ((unlocked hfree v).symm.trans hproducer) (by simp),
      fun _ => hs.fresh (howner ▸ rfl), fun _ hcontra => (by cases hcontra), fun hcontra => (by cases hcontra),
      fun hnone => (by cases hnone), fun hnone => (by cases hnone), fun _ _ _ hnone => (by cases hnone)⟩
  | refused _ => exact h
  | full video =>
    have hs := h.tracks video
    exact h.track rfl ⟨hs.ready, hs.pushing, hs.fresh, hs.starting, hs.joined, hs.spent, hs.empty, hs.broken⟩
  | @checked video frame config haccepting hsession hcodec hroom hfree =>
    have hs := h.tracks video
    exact h.track rfl ⟨hs.ready, fun _ _ => ⟨haccepting, hcodec, hroom⟩, hs.fresh, hs.starting, hs.joined, hs.spent,
      hs.empty, hs.broken⟩
  | pushed hproducer hframes hopen hroom => exact h.pushed hproducer hframes
  | @unpushed video frame event hproducer _ =>
    have hs := h.tracks video
    exact h.track rfl ⟨hs.ready, fun _ hnone => (by cases hnone), hs.fresh, hs.starting, hs.joined, hs.spent, hs.empty,
      hs.broken⟩
  | quit hworker hplace herror =>
    exact h.work hworker (fun _ hnone => absurd hnone herror) fun hbroken => by cases hbroken
  | ready hworker herror =>
    exact h.work hworker (fun hspent => (by cases hspent)) fun hbroken => by cases hbroken
  | popped hworker hframes hqueue => exact h.popped hworker hframes hqueue
  | drained hworker hframes hqueue hclosed =>
    refine h.work hworker (fun _ _ => ⟨(Track.items_eq hframes).trans hqueue, fun q hq => ?_⟩) fun hbroken => by
      cases hbroken
    obtain rfl := Option.some.inj (hframes.symm.trans hq)
    exact hclosed
  | @consumed video frame hworker herror backpressured =>
    have hs : Track.Sound { s.tracks video with worker := some (.encoding frame.isNone (.enter video frame)) }
        s.accepting s.error s.owner video := by
      refine (h.tracks video).work hworker (fun hspent hnone => ?_) fun hbroken => by cases hbroken
      cases frame with
      | some frame => cases hspent
      | none => exact (h.tracks video).spent hnone _ hworker rfl
    exact h.track rfl ⟨hs.ready, hs.pushing, hs.fresh, hs.starting, hs.joined, hs.spent, hs.empty, hs.broken⟩
  | @encoded video last place config callback codec codec' calls flow filter hworker hsession hcodec hadvance =>
    have hsome : (s.tracks video).codec.isSome = true := Option.isSome_of_mem hcodec
    have hs : Track.Sound { s.tracks video with worker := some (flow.worker last) } s.accepting s.error s.owner
        video := (h.tracks video).work hworker (fun hspent hnone =>
        (h.tracks video).spent hnone _ hworker ((flow.worker_spent last).symm.trans hspent))
      fun hbroken => absurd ((flow.worker_broken last).symm.trans hbroken) (by decide)
    have hbase : Coherent { s with filter := filter } := ⟨h.admission, h.opening, h.tracks⟩
    exact hbase.track hsome.symm
      ⟨fun hon _ => hs.ready hon hsome, fun f hf => ⟨(hs.pushing f hf).1, rfl, (hs.pushing f hf).2.2⟩, hs.fresh,
        hs.starting, hs.joined, hs.spent, hs.empty, hs.broken⟩
  | failed hworker hfree => exact h.failed hworker hfree _ _
  | @discardClosed video first e track queues queue hworker hframes =>
    obtain ⟨herror, haccepting⟩ := h.quiet_of_broken hworker rfl
    have hlower : Coherent (s.setFrames track (some (queue.close []).2)) :=
      h.lower hframes haccepting id fun _ => rfl
    have hworker' : ((s.setFrames track (some (queue.close []).2)).tracks video).worker
        = some (.discarding first e false (track :: queues)) := by
      rcases setTrack_cases s track video
        { s.tracks track with frames := some (queue.close []).2 } with ⟨rfl, heq⟩ | ⟨-, heq⟩
      · exact (congrArg Track.worker heq).trans hworker
      · exact (congrArg Track.worker heq).trans hworker
    exact hlower.work hworker' (fun hspent => (by cases hspent)) fun _ => herror
  | discarded hworker hframes hqueue =>
    exact h.lower hframes (h.quiet_of_broken hworker rfl).2 (fun hnil => absurd (hqueue.symm.trans hnil) (by simp)) id
  | discardedAll hworker hempty =>
    exact h.work hworker (fun hspent => (by cases hspent)) fun _ => (h.quiet_of_broken hworker rfl).1
  | reports hworker => exact h.work hworker (fun hspent => (by cases hspent)) fun _ => (h.quiet_of_broken hworker rfl).1
  | reported hworker =>
    exact h.work hworker (fun _ hnone => absurd hnone (h.quiet_of_broken hworker rfl).1) fun hbroken => by cases hbroken

theorem coherent_init : Coherent {} where
  admission hon := by cases hon
  opening _ howner := by cases howner
  tracks _ :=
    { ready := fun hon => by cases hon
      pushing := fun _ hproducer => by cases hproducer
      fresh := fun _ _ => rfl
      starting := fun _ _ => rfl
      joined := fun _ => rfl
      spent := fun _ _ hworker => by cases hworker
      empty := fun _ _ => rfl
      broken := fun _ hworker => by cases hworker }

end AvEncoder

end MwStreamer
