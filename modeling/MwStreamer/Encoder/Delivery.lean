import Mathlib.Data.List.ReduceOption
import MwStreamer.Encoder.Steps
import MwStreamer.Library.Sessions

/-!
# The encoder encodes what it accepted

`Conserved` follows the frames of one track through a session without an error: what was accepted went to the codec
path, is in the hand of the worker or waits in the queue, and the end of the stream follows the last of it.
`Recorded` follows the first failure: one event, one call of `OnError`, and queues that stay empty.
-/

namespace MwStreamer

namespace AvEncoder

/-! ### What a session did -/

def Event.opens : Event → Bool
  | .started => true
  | _ => false

def Event.accepted? (video : Bool) : Event → Option Frame
  | .accepted v frame => if v = video then some frame else none
  | _ => none

def Event.consumed? (video : Bool) : Event → Option (Option Frame)
  | .consumed v frame => if v = video then some frame else none
  | _ => none

def Event.running? : Event → Option (AvEncoderConfig × Bool)
  | .running config onError => some (config, onError)
  | _ => none

def Event.failed? : Event → Option Exception
  | .failed _ e => some e
  | _ => none

def Event.reported? : Event → Option Exception
  | .reported e => some e
  | _ => none

/-- The frames of a track whose `TryPush` returned true, in the current session. -/
def accepted (video : Bool) (history : List Event) : List Frame :=
  Sessions.select Event.opens (Event.accepted? video) history

/-- What the codec path of a track was given; nothing stands for the end of the stream. -/
def consumed (video : Bool) (history : List Event) : List (Option Frame) :=
  Sessions.select Event.opens (Event.consumed? video) history

/-- The configuration of the current session, once it runs, and whether `OnError` was registered. -/
def runs (history : List Event) : List (AvEncoderConfig × Bool) :=
  Sessions.select Event.opens Event.running? history

/-- The first failures the workers recorded. -/
def failures (history : List Event) : List Exception := Sessions.select Event.opens Event.failed? history

/-- The calls of `OnError`. -/
def reports (history : List Event) : List Exception := Sessions.select Event.opens Event.reported? history

/-- The current session has had a worker for the track. -/
def ran (video : Bool) (history : List Event) : Bool := (runs history).any (·.1.enabled video)

variable {history events : List Event} {v video : Bool}

/-- Events that carry no frame of a track and start nothing. -/
def Quiet (v : Bool) (events : List Event) : Prop :=
  ∀ e ∈ events, e.opens = false ∧ e.accepted? v = none ∧ e.consumed? v = none ∧ e.running? = none

theorem Quiet.same (h : Quiet v events) (history : List Event) :
    accepted v (history ++ events) = accepted v history ∧
    consumed v (history ++ events) = consumed v history ∧ runs (history ++ events) = runs history :=
  ⟨Sessions.select_same (fun e he => (h e he).1) fun e he => (h e he).2.1,
    Sessions.select_same (fun e he => (h e he).1) fun e he => (h e he).2.2.1,
    Sessions.select_same (fun e he => (h e he).1) fun e he => (h e he).2.2.2⟩

theorem quiet_nil : Quiet v [] := fun e he => by cases he

theorem quiet_single {e : Event}
    (h : e.opens = false ∧ e.accepted? v = none ∧ e.consumed? v = none ∧ e.running? = none) : Quiet v [e] := by
  intro e' he
  obtain rfl := List.mem_singleton.mp he
  exact h

theorem started_nil (history : List Event) (v : Bool) : accepted v (history ++ [.started]) = [] ∧
    consumed v (history ++ [.started]) = [] ∧ runs (history ++ [.started]) = [] ∧
    failures (history ++ [.started]) = [] ∧ reports (history ++ [.started]) = [] :=
  ⟨Sessions.select_opened rfl, Sessions.select_opened rfl, Sessions.select_opened rfl, Sessions.select_opened rfl,
    Sessions.select_opened rfl⟩

/-! ### The frames of one track -/

/-- A popped frame that has not gone to the codec path. -/
def Worker.hand : Worker → List Frame
  | .checking frame => frame.toList
  | _ => []

/-- The codec path was given the end of the stream. -/
def Worker.last : Worker → Bool
  | .encoding last _ => last
  | .failing last _ => last
  | .done => true
  | _ => false

variable [LibAudio] [LibCodec] {s s' : AvEncoder}

def Track.hand (track : Track) : List Frame := track.worker.elim [] Worker.hand

/-- The end of the stream has gone to the codec path; a worker that was joined gave it. -/
def Track.last (track : Track) (history : List Event) (video : Bool) : Bool :=
  track.worker.elim (ran video history) Worker.last

/-- **The frames of a track in a session without an error.** -/
structure Conserved (history : List Event) (s : AvEncoder) (v : Bool) : Prop where
  frames : accepted v history
    = (consumed v history).reduceOption ++ (s.tracks v).hand ++ (s.tracks v).items
  ended : consumed v history = (consumed v history).reduceOption.map some
    ++ (if (s.tracks v).last history v then [none] else [])
  ran : (s.tracks v).worker.isSome = true → ran v history = true

/-- A step that neither admits a frame of the track nor gives one to its codec path. -/
theorem Conserved.moved (h : Conserved history s v) (hquiet : Quiet v events)
    (hframes : (s'.tracks v).hand ++ (s'.tracks v).items = (s.tracks v).hand ++ (s.tracks v).items)
    (hlast : (s'.tracks v).last history v = (s.tracks v).last history v)
    (hworker : (s'.tracks v).worker.isSome = true → (s.tracks v).worker.isSome = true) :
    Conserved (history ++ events) s' v := by
  obtain ⟨haccepted, hconsumed, hruns⟩ := hquiet.same history
  have hran : AvEncoder.ran v (history ++ events) = AvEncoder.ran v history := by
    rw [AvEncoder.ran, hruns, ← AvEncoder.ran]
  have hsame : (s'.tracks v).last (history ++ events) v = (s'.tracks v).last history v := by
    rw [Track.last, Track.last, hran]
  refine ⟨?_, ?_, fun hsome => ?_⟩
  · rw [haccepted, hconsumed, h.frames, List.append_assoc, List.append_assoc, hframes]
  · rw [hconsumed, hsame, hlast]
    exact h.ended
  · rw [hran]
    exact h.ran (hworker hsome)

/-- A step of another track, or of the owner. -/
theorem Conserved.frame (h : Conserved history s v) (hquiet : Quiet v events)
    (hworker : (s'.tracks v).worker = (s.tracks v).worker) (hitems : (s'.tracks v).items = (s.tracks v).items) :
    Conserved (history ++ events) s' v := by
  refine h.moved hquiet ?_ ?_ fun hsome => ?_
  · rw [Track.hand, hworker, hitems, ← Track.hand]
  · rw [Track.last, hworker, ← Track.last]
  · rwa [hworker] at hsome

theorem Conserved.accept (h : Conserved history s v) {frame : Frame}
    (hworker : (s'.tracks v).worker = (s.tracks v).worker)
    (hitems : (s'.tracks v).items = (s.tracks v).items ++ [frame]) :
    Conserved (history ++ [.accepted v frame]) s' v := by
  have hopens : ∀ e ∈ [Event.accepted v frame], e.opens = false := fun e he => List.mem_singleton.mp he ▸ rfl
  have haccepted : accepted v (history ++ [.accepted v frame]) = accepted v history ++ [frame] := by
    rw [accepted, Sessions.select_append hopens, ← accepted]
    show accepted v history ++ [Event.accepted v frame].filterMap (Event.accepted? v) = accepted v history ++ [frame]
    rw [List.filterMap_cons, Event.accepted?, if_pos rfl]
    rfl
  have hconsumed : consumed v (history ++ [.accepted v frame]) = consumed v history :=
    Sessions.select_same hopens fun e he => List.mem_singleton.mp he ▸ rfl
  have hruns : runs (history ++ [.accepted v frame]) = runs history :=
    Sessions.select_same hopens fun e he => List.mem_singleton.mp he ▸ rfl
  refine ⟨?_, ?_, fun hsome => ?_⟩
  · have hhand : (s'.tracks v).hand = (s.tracks v).hand := by rw [Track.hand, hworker, ← Track.hand]
    rw [haccepted, hconsumed, h.frames, hhand, hitems]
    simp only [List.append_assoc]
  · rw [hconsumed, Track.last, hworker, AvEncoder.ran, hruns, ← AvEncoder.ran, ← Track.last]
    exact h.ended
  · rw [AvEncoder.ran, hruns, ← AvEncoder.ran]
    rw [hworker] at hsome
    exact h.ran hsome

theorem Conserved.consume (h : Conserved history s v) {frame : Option Frame} {place : Place}
    (hold : (s.tracks v).worker = some (.checking frame))
    (hworker : (s'.tracks v).worker = some (.encoding frame.isNone place))
    (hitems : (s'.tracks v).items = (s.tracks v).items) : Conserved (history ++ [.consumed v frame]) s' v := by
  have hopens : ∀ e ∈ [Event.consumed v frame], e.opens = false := fun e he => List.mem_singleton.mp he ▸ rfl
  have haccepted : accepted v (history ++ [.consumed v frame]) = accepted v history :=
    Sessions.select_same hopens fun e he => List.mem_singleton.mp he ▸ rfl
  have hconsumed : consumed v (history ++ [.consumed v frame]) = consumed v history ++ [frame] := by
    rw [consumed, Sessions.select_append hopens, ← consumed]
    show consumed v history ++ [Event.consumed v frame].filterMap (Event.consumed? v) = consumed v history ++ [frame]
    rw [List.filterMap_cons, Event.consumed?, if_pos rfl]
    rfl
  have hruns : runs (history ++ [.consumed v frame]) = runs history :=
    Sessions.select_same hopens fun e he => List.mem_singleton.mp he ▸ rfl
  have hlast : (s.tracks v).last history v = false := by
    rw [Track.last, hold]
    rfl
  have hended := h.ended
  rw [hlast, if_neg Bool.false_ne_true, List.append_nil] at hended
  have hlast' : (s'.tracks v).last (history ++ [.consumed v frame]) v = frame.isNone := by
    rw [Track.last, hworker]
    rfl
  refine ⟨?_, ?_, fun _ => ?_⟩
  · rw [haccepted, hconsumed, h.frames, Track.hand, hold, Track.hand, hworker, hitems, List.reduceOption_append]
    cases frame with
    | none =>
      show (consumed v history).reduceOption ++ [] ++ (s.tracks v).items
        = (consumed v history).reduceOption ++ [] ++ [] ++ (s.tracks v).items
      rw [List.append_nil, List.append_nil]
    | some frame =>
      show (consumed v history).reduceOption ++ [frame] ++ (s.tracks v).items
        = (consumed v history).reduceOption ++ [frame] ++ [] ++ (s.tracks v).items
      rw [List.append_nil]
  · rw [hconsumed, hlast', List.reduceOption_append, List.map_append, ← hended]
    cases frame with
    | none =>
      show consumed v history ++ [none] = consumed v history ++ [] ++ [none]
      rw [List.append_nil]
    | some frame =>
      show consumed v history ++ [some frame] = consumed v history ++ [some frame] ++ []
      rw [List.append_nil]
  · rw [AvEncoder.ran, hruns, ← AvEncoder.ran]
    exact h.ran (by rw [hold]; rfl)

/-- A started session has no worker and no frame. -/
theorem Conserved.started (hc : Coherent s') (herror : s'.error = none) (hworker : (s'.tracks v).worker = none) :
    Conserved (history ++ [.started]) s' v := by
  obtain ⟨haccepted, hconsumed, hruns, -⟩ := started_nil history v
  have hran : AvEncoder.ran v (history ++ [.started]) = false := by
    rw [AvEncoder.ran, hruns]
    rfl
  refine ⟨?_, ?_, fun hsome => ?_⟩
  · rw [haccepted, hconsumed, Track.hand, hworker, (hc.tracks v).empty herror hworker]
    rfl
  · rw [hconsumed, Track.last, hworker]
    show [] = [] ++ (if AvEncoder.ran v (history ++ [.started]) then [none] else [])
    rw [hran]
    rfl
  · rw [hworker] at hsome
    cases hsome

/-- The workers of a session start. -/
theorem Conserved.install (h : Conserved history s v) (hc : Coherent s) {config : AvEncoderConfig}
    {codecs : Bool → Option Codec} {filter : Option Graph} (howner : s.owner = .opening config)
    (hruns : runs history = []) :
    Conserved (history ++ [.running config s.onError]) (s.install config codecs filter none).2 v := by
  have hopens : ∀ e ∈ [Event.running config s.onError], e.opens = false := fun e he => List.mem_singleton.mp he ▸ rfl
  have haccepted : accepted v (history ++ [.running config s.onError]) = accepted v history :=
    Sessions.select_same hopens fun e he => List.mem_singleton.mp he ▸ rfl
  have hconsumed : consumed v (history ++ [.running config s.onError]) = consumed v history :=
    Sessions.select_same hopens fun e he => List.mem_singleton.mp he ▸ rfl
  have hran : AvEncoder.ran v (history ++ [.running config s.onError]) = config.enabled v := by
    rw [AvEncoder.ran, runs, Sessions.select_append hopens, ← runs, hruns]
    exact Bool.or_false _
  have hnone : (s.tracks v).worker = none := (hc.tracks v).starting config howner
  have hframes : (s.tracks v).frames = none := (hc.tracks v).fresh (howner ▸ rfl) hnone
  have hlast : (s.tracks v).last history v = false := by
    rw [Track.last, hnone]
    show AvEncoder.ran v history = false
    rw [AvEncoder.ran, hruns]
    rfl
  have hconserved := h.frames
  rw [Track.hand, hnone, Track.items_none hframes, List.append_nil] at hconserved
  have hended := h.ended
  rw [hlast, if_neg Bool.false_ne_true] at hended
  have hempty : ((s.install config codecs filter none).2.tracks v).hand = [] ∧
      ((s.install config codecs filter none).2.tracks v).items = [] ∧
      ((s.install config codecs filter none).2.tracks v).last (history ++ [.running config s.onError]) v = false := by
    cases henabled : config.enabled v with
    | true =>
      have hworker : ((s.install config codecs filter none).2.tracks v).worker = some .entering :=
        if_pos ⟨henabled, by simp, by simp⟩
      have hqueue : ((s.install config codecs filter none).2.tracks v).frames = some { capacity := frameCapacity } :=
        if_pos henabled
      rw [Track.hand, Track.last, hworker, Track.items_eq hqueue]
      exact ⟨rfl, rfl, rfl⟩
    | false =>
      have hworker : ((s.install config codecs filter none).2.tracks v).worker = none :=
        (if_neg (by simp [henabled])).trans hnone
      have hqueue : ((s.install config codecs filter none).2.tracks v).frames = none :=
        (if_neg (by simp [henabled])).trans hframes
      rw [Track.hand, Track.last, hworker, Track.items_none hqueue]
      exact ⟨rfl, rfl, hran.trans henabled⟩
  refine ⟨?_, ?_, fun hsome => ?_⟩
  · rw [haccepted, hconsumed, hempty.1, hempty.2.1, hconserved]
    exact (List.append_nil _).symm
  · rw [hconsumed, hempty.2.2]
    exact hended
  · rw [hran]
    cases henabled : config.enabled v with
    | true => rfl
    | false =>
      have hworker : ((s.install config codecs filter none).2.tracks v).worker = none :=
        (if_neg (by simp [henabled])).trans hnone
      rw [hworker] at hsome
      cases hsome

/-! ### The first failure -/

/-- Events that no session account counts. -/
def Silent (events : List Event) : Prop :=
  ∀ e ∈ events, e.opens = false ∧ e.running? = none ∧ e.failed? = none ∧ e.reported? = none

omit [LibAudio] [LibCodec] in
theorem Silent.same (h : Silent events) (history : List Event) : runs (history ++ events) = runs history ∧
    failures (history ++ events) = failures history ∧ reports (history ++ events) = reports history :=
  ⟨Sessions.select_same (fun e he => (h e he).1) fun e he => (h e he).2.1,
    Sessions.select_same (fun e he => (h e he).1) fun e he => (h e he).2.2.1,
    Sessions.select_same (fun e he => (h e he).1) fun e he => (h e he).2.2.2⟩

omit [LibAudio] [LibCodec] in
theorem silent_nil : Silent [] := fun e he => by cases he

omit [LibAudio] [LibCodec] in
theorem silent_single {e : Event}
    (h : e.opens = false ∧ e.running? = none ∧ e.failed? = none ∧ e.reported? = none) : Silent [e] := by
  intro e' he
  obtain rfl := List.mem_singleton.mp he
  exact h

/-- Events that no account of a track or a session counts. -/
def Uncounted (events : List Event) : Prop :=
  ∀ e ∈ events, (e.opens = false ∧ e.running? = none ∧ e.failed? = none ∧ e.reported? = none) ∧
    ∀ v, e.accepted? v = none ∧ e.consumed? v = none

omit [LibAudio] [LibCodec] in
theorem Uncounted.silent (h : Uncounted events) : Silent events := fun e he => (h e he).1

omit [LibAudio] [LibCodec] in
theorem Uncounted.quiet (h : Uncounted events) (v : Bool) : Quiet v events := fun e he =>
  ⟨(h e he).1.1, ((h e he).2 v).1, ((h e he).2 v).2, (h e he).1.2.1⟩

omit [LibAudio] [LibCodec] in
theorem uncounted_nil : Uncounted [] := fun e he => by cases he

omit [LibAudio] [LibCodec] in
theorem uncounted_single {e : Event}
    (h : (e.opens = false ∧ e.running? = none ∧ e.failed? = none ∧ e.reported? = none) ∧
      ∀ v, e.accepted? v = none ∧ e.consumed? v = none) : Uncounted [e] := by
  intro e' he
  obtain rfl := List.mem_singleton.mp he
  exact h

omit [LibAudio] [LibCodec] in
theorem uncounted_calls (video : Bool) (calls : List Call) : Uncounted (calls.map (.called video)) := by
  intro e he
  obtain ⟨call, -, rfl⟩ := List.mem_map.mp he
  exact ⟨⟨rfl, rfl, rfl, rfl⟩, fun _ => ⟨rfl, rfl⟩⟩

omit [LibAudio] [LibCodec] in
theorem Event.Refusal.uncounted {e : Event} (h : e.Refusal video) : Uncounted [e] := by
  refine uncounted_single ?_
  cases e with
  | rejected _ => exact ⟨⟨rfl, rfl, rfl, rfl⟩, fun _ => ⟨rfl, rfl⟩⟩
  | threw _ _ => exact ⟨⟨rfl, rfl, rfl, rfl⟩, fun _ => ⟨rfl, rfl⟩⟩
  | started => cases h
  | running _ _ => cases h
  | unstarted _ => cases h
  | accepted _ _ => cases h
  | consumed _ _ => cases h
  | called _ _ => cases h
  | failed _ _ => cases h
  | reported _ => cases h
  | stopped => cases h

/-- The failure of the `Start` the owner is in. -/
def Owner.failure : Owner → Option Exception
  | .stopping _ failure => failure
  | .resetting e => some e
  | _ => none

/-- The worker handles the first failure. -/
def Worker.first : Worker → Bool
  | .discarding first _ _ _ => first
  | .reporting first _ => first
  | _ => false

/-- The failure a worker handles. -/
def Worker.cause : Worker → Option Exception
  | .discarding _ e _ _ => some e
  | .reporting _ e => some e
  | _ => none

/-- The queues it has still to empty. -/
def Worker.left : Worker → List Bool
  | .discarding _ _ _ queues => queues
  | _ => []

omit [LibAudio] [LibCodec] in
theorem Worker.first_broken {w : Worker} (h : w.broken = false) : w.first = false := by
  cases w with
  | discarding _ _ _ _ => cases h
  | reporting _ _ => cases h
  | entering => rfl
  | popping => rfl
  | checking _ => rfl
  | encoding _ _ => rfl
  | failing _ _ => rfl
  | done => rfl

/-- No worker has failed.  After a failed `Start` those there are do not enter. -/
structure Unrecorded (history : List Event) (s : AvEncoder) : Prop where
  unreported : reports history = []
  whole : ∀ v w, (s.tracks v).worker = some w → w.broken = false
  halted : s.error ≠ none → ∀ v w, (s.tracks v).worker = some w → w = .entering ∨ w = .done
  aborted : s.owner.failure ≠ none → s.error = none → ∀ v, (s.tracks v).worker = none

/-- A worker handles the first failure. -/
structure Handling (history : List Event) (s : AvEncoder) (e : Exception) (v : Bool) (w : Worker) : Prop where
  worker : (s.tracks v).worker = some w
  first : w.first = true
  cause : w.cause = some e
  others : ∀ u, u ≠ v → ∀ w', (s.tracks u).worker = some w' → w'.first = false
  unreported : reports history = []
  emptied : ∀ t, t ∉ w.left → (s.tracks t).items = []

/-- The first failure has been handled. -/
structure Handled (history : List Event) (s : AvEncoder) (e : Exception) : Prop where
  others : ∀ u w, (s.tracks u).worker = some w → w.first = false
  emptied : ∀ t, (s.tracks t).items = []
  told : ∀ p ∈ runs history, reports history = if p.2 then [e] else []
  once : reports history = [] ∨ reports history = [e]

structure Recorded (history : List Event) (s : AvEncoder) (e : Exception) : Prop where
  error : s.error = some e
  owner : s.owner.failure = none
  progress : (∃ v w, Handling history s e v w) ∨ Handled history s e

/-- **The accounts of a session.** -/
structure Books (history : List Event) (s : AvEncoder) : Prop where
  coherent : Coherent s
  opening : ∀ config, s.owner = .opening config → runs history = [] ∧ failures history = []
  frames : s.error = none → ∀ v, Conserved history s v
  registered : ∀ p ∈ runs history, (∃ v, (s.tracks v).worker.isSome = true) → s.onError = p.2
  failure : (failures history = [] ∧ Unrecorded history s) ∨
    ∃ e, failures history = [e] ∧ Recorded history s e

/-- The step touches one worker, or none, and no queue gains a frame. -/
theorem Unrecorded.step (h : Unrecorded history s) (hsilent : Silent events) (herror : s'.error = s.error)
    (howner : s.owner.failure = none → s'.owner.failure = none)
    (hworkers : ∀ v w, (s'.tracks v).worker = some w → (s.tracks v).worker = some w ∨
      w.broken = false ∧ (s.error ≠ none → w = .entering ∨ w = .done))
    (hworkerless : (∀ v, (s.tracks v).worker = none) → ∀ v, (s'.tracks v).worker = none) :
    Unrecorded (history ++ events) s' := by
  refine ⟨?_, fun v w hw => ?_, fun hne v w hw => ?_, fun hfailure hnone v => ?_⟩
  · rw [(hsilent.same history).2.2]
    exact h.unreported
  · rcases hworkers v w hw with hold | ⟨hnew, -⟩
    · exact h.whole v w hold
    · exact hnew
  · rw [herror] at hne
    rcases hworkers v w hw with hold | ⟨-, hnew⟩
    · exact h.halted hne v w hold
    · exact hnew hne
  · exact hworkerless (h.aborted (fun hnone => hfailure (howner hnone)) (herror.symm.trans hnone)) v

/-- The owner or a producer takes a step; a worker is joined when it is done. -/
theorem Recorded.step {e : Exception} (h : Recorded history s e) (hsilent : Silent events)
    (herror : s'.error = s.error) (howner : s'.owner.failure = none)
    (hworkers : ∀ v, (s'.tracks v).worker = (s.tracks v).worker ∨ (s'.tracks v).worker = none ∧
      ∀ w, (s.tracks v).worker = some w → w.first = false)
    (hitems : ∀ v, (s.tracks v).items = [] → (s'.tracks v).items = []) : Recorded (history ++ events) s' e := by
  obtain ⟨hruns, -, hreports⟩ := hsilent.same history
  have hothers : ∀ u w, (s'.tracks u).worker = some w → (s.tracks u).worker = some w := by
    intro u w hw
    rcases hworkers u with heq | ⟨hnone, -⟩
    · exact heq.symm.trans hw
    · exact absurd (hnone.symm.trans hw) (by simp)
  refine ⟨herror.trans h.error, howner, ?_⟩
  rcases h.progress with ⟨v, w, hv⟩ | hdone
  · refine .inl ⟨v, w, ?_, hv.first, hv.cause, fun u hu w' hw' => hv.others u hu w' (hothers u w' hw'),
      hreports.trans hv.unreported, fun t ht => hitems t (hv.emptied t ht)⟩
    rcases hworkers v with heq | ⟨-, hfirst⟩
    · exact heq.trans hv.worker
    · exact absurd (hv.first.symm.trans (hfirst w hv.worker)) (by decide)
  · refine .inr ⟨fun u w hw => hdone.others u w (hothers u w hw), fun t => hitems t (hdone.emptied t), ?_, ?_⟩
    · rw [hruns, hreports]
      exact hdone.told
    · rw [hreports]
      exact hdone.once

/-- A worker takes a step. -/
theorem Recorded.work {e : Exception} (h : Recorded history s e) (hsilent : Silent events)
    (herror : s'.error = s.error) (howner : s'.owner = s.owner) {w w' : Worker}
    (hworker : (s.tracks video).worker = some w) (hworker' : (s'.tracks video).worker = some w')
    (hothers : ∀ u, u ≠ video → (s'.tracks u).worker = (s.tracks u).worker)
    (hitems : ∀ v, (s.tracks v).items = [] → (s'.tracks v).items = []) (hfirst : w'.first = w.first)
    (hcause : w.first = true → w'.cause = w.cause)
    (hleft : w.first = true → ∀ t, t ∉ w'.left → t ∉ w.left ∨ (s'.tracks t).items = []) :
    Recorded (history ++ events) s' e := by
  obtain ⟨hruns, -, hreports⟩ := hsilent.same history
  have hfirsts : ∀ u x, (s'.tracks u).worker = some x →
      ∃ y, (s.tracks u).worker = some y ∧ x.first = y.first := by
    intro u x hx
    by_cases hu : u = video
    · subst hu
      obtain rfl := Option.some.inj (hworker'.symm.trans hx)
      exact ⟨w, hworker, hfirst⟩
    · exact ⟨x, (hothers u hu).symm.trans hx, rfl⟩
  refine ⟨herror.trans h.error, howner ▸ h.owner, ?_⟩
  rcases h.progress with ⟨v, x, hv⟩ | hdone
  · have hrest : ∀ u, u ≠ v → ∀ y, (s'.tracks u).worker = some y → y.first = false := by
      intro u hu y hy
      obtain ⟨z, hz, heq⟩ := hfirsts u y hy
      exact heq.trans (hv.others u hu z hz)
    by_cases hvideo : v = video
    · subst hvideo
      obtain rfl := Option.some.inj (hworker.symm.trans hv.worker)
      refine .inl ⟨v, w', hworker', hfirst.trans hv.first, (hcause hv.first).trans hv.cause, hrest,
        hreports.trans hv.unreported, fun t ht => ?_⟩
      rcases hleft hv.first t ht with hout | hnil
      · exact hitems t (hv.emptied t hout)
      · exact hnil
    · exact .inl ⟨v, x, (hothers v hvideo).trans hv.worker, hv.first, hv.cause, hrest, hreports.trans hv.unreported,
        fun t ht => hitems t (hv.emptied t ht)⟩
  · refine .inr ⟨fun u x hx => ?_, fun t => hitems t (hdone.emptied t), ?_, ?_⟩
    · obtain ⟨y, hy, heq⟩ := hfirsts u x hx
      exact heq.trans (hdone.others u y hy)
    · rw [hruns, hreports]
      exact hdone.told
    · rw [hreports]
      exact hdone.once

/-- A step that changes no worker and takes frames only from the queues of a session that has failed. -/
theorem Books.frame (h : Books history s) (hc : Coherent s') (huncounted : Uncounted events)
    (herror : s'.error = s.error)
    (hopening : ∀ config, s'.owner = .opening config → s.owner = .opening config)
    (hfailure : s.owner.failure = none → s'.owner.failure = none) (honError : s'.onError = s.onError)
    (hworkers : ∀ v, (s'.tracks v).worker = (s.tracks v).worker)
    (hsame : s.error = none → ∀ v, (s'.tracks v).items = (s.tracks v).items)
    (hitems : ∀ v, (s.tracks v).items = [] → (s'.tracks v).items = []) : Books (history ++ events) s' := by
  obtain ⟨hruns, hfailures, -⟩ := huncounted.silent.same history
  refine ⟨hc, fun config howner => ?_, fun hnone v => ?_, fun p hp ⟨v, hv⟩ => ?_, ?_⟩
  · rw [hruns, hfailures]
    exact h.opening config (hopening config howner)
  · have hnone' : s.error = none := herror.symm.trans hnone
    exact (h.frames hnone' v).frame (huncounted.quiet v) (hworkers v) (hsame hnone' v)
  · rw [hruns] at hp
    rw [hworkers v] at hv
    exact honError.trans (h.registered p hp ⟨v, hv⟩)
  · rw [hfailures]
    rcases h.failure with ⟨hno, hun⟩ | ⟨e, he, hrec⟩
    · exact .inl ⟨hno, hun.step huncounted.silent herror hfailure (fun v w hw => .inl ((hworkers v).symm.trans hw))
        fun hnone v => (hworkers v).trans (hnone v)⟩
    · exact .inr ⟨e, he, hrec.step huncounted.silent herror (hfailure hrec.owner) (fun v => .inl (hworkers v)) hitems⟩

/-- A step of one worker. -/
theorem Books.work (h : Books history s) (hc : Coherent s') (huncounted : Uncounted events)
    (herror : s'.error = s.error)
    (howner : s'.owner = s.owner) (honError : s'.onError = s.onError) {w w' : Worker}
    (hworker : (s.tracks video).worker = some w) (hworker' : (s'.tracks video).worker = some w')
    (hothers : ∀ u, u ≠ video → (s'.tracks u).worker = (s.tracks u).worker)
    (hframes : s.error = none → w'.hand ++ (s'.tracks video).items = w.hand ++ (s.tracks video).items)
    (hsame : s.error = none → ∀ u, u ≠ video → (s'.tracks u).items = (s.tracks u).items)
    (hitems : ∀ v, (s.tracks v).items = [] → (s'.tracks v).items = [])
    (hlast : s.error = none → w'.last = w.last) (hbroken : failures history = [] → w'.broken = true → w.broken = true)
    (hhalted : w = .entering ∨ w = .done → s.error ≠ none → w' = .done) (hfirst : w'.first = w.first)
    (hcause : w.first = true → w'.cause = w.cause)
    (hleft : w.first = true → ∀ t, t ∉ w'.left → t ∉ w.left ∨ (s'.tracks t).items = []) :
    Books (history ++ events) s' := by
  obtain ⟨hruns, hfailures, -⟩ := huncounted.silent.same history
  refine ⟨hc, fun config heq => ?_, fun hnone v => ?_, fun p hp ⟨v, hv⟩ => ?_, ?_⟩
  · rw [hruns, hfailures]
    exact h.opening config (howner.symm.trans heq)
  · have hnone' : s.error = none := herror.symm.trans hnone
    by_cases hv : v = video
    · subst hv
      refine (h.frames hnone' v).moved (huncounted.quiet v) ?_ ?_ fun _ => ?_
      · rw [Track.hand, Track.hand, hworker, hworker']
        exact hframes hnone'
      · rw [Track.last, Track.last, hworker, hworker']
        exact hlast hnone'
      · rw [hworker]
        rfl
    · exact (h.frames hnone' v).frame (huncounted.quiet v) (hothers v hv) (hsame hnone' v hv)
  · rw [hruns] at hp
    refine honError.trans (h.registered p hp ?_)
    by_cases hvideo : v = video
    · exact ⟨video, by rw [hworker]; rfl⟩
    · exact ⟨v, (hothers v hvideo) ▸ hv⟩
  · rw [hfailures]
    rcases h.failure with ⟨hno, hun⟩ | ⟨e, he, hrec⟩
    · refine .inl ⟨hno, ?_⟩
      refine hun.step huncounted.silent herror (fun hnone => howner ▸ hnone) (fun v x hx => ?_) fun hnone =>
        absurd ((hnone video).symm.trans hworker) (by simp)
      by_cases hv : v = video
      · subst hv
        obtain rfl := Option.some.inj (hworker'.symm.trans hx)
        refine .inr ⟨?_, fun hne => .inr (hhalted (hun.halted hne v w hworker) hne)⟩
        cases hb : w'.broken with
        | false => rfl
        | true => exact absurd ((hbroken hno hb).symm.trans (hun.whole v w hworker)) (by decide)
      · exact .inl ((hothers v hv).symm.trans hx)
    · refine .inr ⟨e, he, ?_⟩
      exact hrec.work huncounted.silent herror howner hworker hworker' hothers hitems hfirst hcause hleft

/-- A session begins. -/
theorem Books.started (hc : Coherent s') (herror : s'.error = none)
    (hworkers : ∀ v, (s'.tracks v).worker = none) : Books (history ++ [.started]) s' := by
  obtain ⟨-, -, hruns, hfailures, hreports⟩ := started_nil history true
  refine ⟨hc, fun _ _ => ⟨hruns, hfailures⟩, fun _ v => Conserved.started hc herror (hworkers v), fun p hp => ?_,
    .inl ⟨hfailures, hreports, fun v w hw => ?_, fun hne => absurd herror hne, fun _ _ => hworkers⟩⟩
  · rw [hruns] at hp
    cases hp
  · exact absurd ((hworkers v).symm.trans hw) (by simp)

/-- The workers start, all of them or, when a thread cannot be created, some. -/
theorem Books.installed (h : Books history s) {config : AvEncoderConfig} {codecs : Bool → Option Codec}
    {filter : Option Graph} (howner : s.owner = .opening config)
    (hc : Coherent (s.install config codecs filter none).2) :
    Books (history ++ [.running config s.onError]) (s.install config codecs filter none).2 := by
  obtain ⟨hruns, hfailures⟩ := h.opening config howner
  have hopens : ∀ e ∈ [Event.running config s.onError], e.opens = false := fun e he => List.mem_singleton.mp he ▸ rfl
  have hfailures' : failures (history ++ [.running config s.onError]) = failures history :=
    Sessions.select_same hopens fun e he => List.mem_singleton.mp he ▸ rfl
  have hreports' : reports (history ++ [.running config s.onError]) = reports history :=
    Sessions.select_same hopens fun e he => List.mem_singleton.mp he ▸ rfl
  have hruns' : runs (history ++ [.running config s.onError]) = [(config, s.onError)] := by
    rw [runs, Sessions.select_append hopens, ← runs, hruns]
    rfl
  have hnone : s.error = none := h.coherent.opening config howner
  have hworkers : ∀ v w, ((s.install config codecs filter none).2.tracks v).worker = some w → w = .entering := by
    intro v w hw
    have hold : (s.tracks v).worker = none := (h.coherent.tracks v).starting config howner
    have hif : (if config.enabled v ∧ (none : Option Bool) ≠ some v ∧ (none : Option Bool) ≠ some true
        then some Worker.entering else (s.tracks v).worker) = some w := hw
    split at hif
    · exact (Option.some.inj hif).symm
    · exact absurd (hold.symm.trans hif) (by simp)
  refine ⟨hc, fun _ heq => (by cases heq), fun _ v => (h.frames hnone v).install h.coherent howner hruns,
    fun p hp _ => ?_, .inl ⟨hfailures'.trans hfailures, ?_, fun v w hw => ?_, fun hne => absurd hnone hne,
      fun hfailure => absurd rfl hfailure⟩⟩
  · rw [hruns', List.mem_singleton] at hp
    rw [hp]
    rfl
  · rcases h.failure with ⟨-, hun⟩ | ⟨e, he, -⟩
    · exact hreports'.trans hun.unreported
    · exact absurd (hfailures.symm.trans he) (by simp)
  · rw [hworkers v w hw]
    rfl

theorem Books.uninstalled (h : Books history s) {config : AvEncoderConfig} {codecs : Bool → Option Codec}
    {filter : Option Graph} (howner : s.owner = .opening config) {failed : Bool}
    (hc : Coherent (s.install config codecs filter (some failed)).2) :
    Books history (s.install config codecs filter (some failed)).2 := by
  obtain ⟨hruns, hfailures⟩ := h.opening config howner
  have hworkers : ∀ v w, ((s.install config codecs filter (some failed)).2.tracks v).worker = some w →
      w = .entering := by
    intro v w hw
    have hold : (s.tracks v).worker = none := (h.coherent.tracks v).starting config howner
    have hif : (if config.enabled v ∧ some failed ≠ some v ∧ some failed ≠ some true
        then some Worker.entering else (s.tracks v).worker) = some w := hw
    split at hif
    · exact (Option.some.inj hif).symm
    · exact absurd (hold.symm.trans hif) (by simp)
  refine ⟨hc, fun _ heq => (by cases heq), fun hnone => (by cases hnone), fun p hp => ?_,
    .inl ⟨hfailures, ?_, fun v w hw => ?_, fun _ v w hw => .inl (hworkers v w hw), fun _ hnone => (by cases hnone)⟩⟩
  · rw [hruns] at hp
    cases hp
  · rcases h.failure with ⟨-, hun⟩ | ⟨e, he, -⟩
    · exact hun.unreported
    · exact absurd (hfailures.symm.trans he) (by simp)
  · rw [hworkers v w hw]
    rfl

theorem Books.unopened (h : Books history s) {config : AvEncoderConfig} (howner : s.owner = .opening config)
    (e : Exception) (hc : Coherent { s with owner := .stopping .entering (some e) }) :
    Books history { s with owner := .stopping .entering (some e) } := by
  obtain ⟨-, hfailures⟩ := h.opening config howner
  refine ⟨hc, fun _ heq => (by cases heq), fun hnone v => ?_, h.registered, .inl ⟨hfailures, ?_⟩⟩
  · exact ⟨(h.frames hnone v).frames, (h.frames hnone v).ended, (h.frames hnone v).ran⟩
  · rcases h.failure with ⟨-, hun⟩ | ⟨e, he, -⟩
    · exact ⟨hun.unreported, hun.whole, hun.halted, fun _ _ v => (h.coherent.tracks v).starting config howner⟩
    · exact absurd (hfailures.symm.trans he) (by simp)

theorem Books.configured (h : Books history s) (hworkers : ∀ v, (s.tracks v).worker = none) (present : Bool) :
    Books history { s with onError := present } := by
  refine ⟨⟨h.coherent.admission, h.coherent.opening, h.coherent.tracks⟩, h.opening, fun hnone v => ?_,
    fun p _ ⟨v, hv⟩ => ?_, ?_⟩
  · exact ⟨(h.frames hnone v).frames, (h.frames hnone v).ended, (h.frames hnone v).ran⟩
  · exact absurd (hworkers v) (Option.ne_none_iff_isSome.mpr hv)
  · rcases h.failure with ⟨hno, hun⟩ | ⟨e, he, hrec⟩
    · exact .inl ⟨hno, hun.unreported, hun.whole, hun.halted, hun.aborted⟩
    · refine .inr ⟨e, he, hrec.error, hrec.owner, ?_⟩
      rcases hrec.progress with ⟨v, w, hv⟩ | hdone
      · exact absurd ((hworkers v).symm.trans hv.worker) (by simp)
      · exact .inr ⟨hdone.others, hdone.emptied, hdone.told, hdone.once⟩

/-- A worker is joined. -/
theorem Books.joined (h : Books history s) {tracks : List Bool} {failure : Option Exception}
    (howner : s.owner = .stopping (.joining (video :: tracks)) failure)
    (hworker : (s.tracks video).worker = none ∨ (s.tracks video).worker = some .done)
    (hc : Coherent { s.setWorker video none with owner := .stopping (.joining tracks) failure }) :
    Books history { s.setWorker video none with owner := .stopping (.joining tracks) failure } := by
  have hcases : ∀ v, v = video ∧ (s.setWorker video none).tracks v = { s.tracks v with worker := none } ∨
      v ≠ video ∧ (s.setWorker video none).tracks v = s.tracks v := by
    intro v
    rcases setTrack_cases s video v { s.tracks video with worker := none } with
      ⟨rfl, heq⟩ | hother
    · exact .inl ⟨rfl, heq⟩
    · exact .inr hother
  have hitems : ∀ v, ((s.setWorker video none).tracks v).items = (s.tracks v).items := by
    intro v
    rcases hcases v with ⟨rfl, heq⟩ | ⟨-, heq⟩
    · rw [heq]
      rfl
    · rw [heq]
  have hworkers : ∀ v, ((s.setWorker video none).tracks v).worker = (s.tracks v).worker ∨
      ((s.setWorker video none).tracks v).worker = none ∧
        ∀ w, (s.tracks v).worker = some w → w.first = false := by
    intro v
    rcases hcases v with ⟨rfl, heq⟩ | ⟨-, heq⟩
    · refine .inr ⟨by rw [heq], fun w hw => ?_⟩
      rcases hworker with hnone | hdone
      · exact absurd (hnone.symm.trans hw) (by simp)
      · obtain rfl := Option.some.inj (hdone.symm.trans hw)
        rfl
    · exact .inl (by rw [heq])
  refine ⟨hc, fun _ heq => (by cases heq), fun hnone v => ?_, fun p hp ⟨v, hv⟩ => ?_, ?_⟩
  · have hold := h.frames hnone v
    rcases hcases v with ⟨rfl, heq⟩ | ⟨-, heq⟩
    · rw [← List.append_nil history]
      refine hold.moved quiet_nil ?_ ?_ fun hsome => ?_
      · show ((s.setWorker v none).tracks v).hand ++ ((s.setWorker v none).tracks v).items = _
        rw [hitems v, Track.hand, heq]
        rcases hworker with hw | hw
        · rw [Track.hand, hw]
        · rw [Track.hand, hw]
          rfl
      · show ((s.setWorker v none).tracks v).last history v = _
        rw [Track.last, heq]
        rcases hworker with hw | hw
        · rw [Track.last, hw]
        · rw [Track.last, hw]
          exact hold.ran (by rw [hw]; rfl)
      · have hsome' : ((s.setWorker v none).tracks v).worker.isSome = true := hsome
        rw [heq] at hsome'
        cases hsome'
    · rw [← List.append_nil history]
      refine hold.frame quiet_nil ?_ (hitems v)
      show ((s.setWorker video none).tracks v).worker = _
      rw [heq]
  · refine h.registered p hp ⟨v, ?_⟩
    rcases hworkers v with heq | ⟨hnone, -⟩
    · exact (congrArg Option.isSome heq).symm.trans hv
    · have hsome : ((s.setWorker video none).tracks v).worker.isSome = true := hv
      rw [hnone] at hsome
      cases hsome
  · rcases h.failure with ⟨hno, hun⟩ | ⟨e, he, hrec⟩
    · refine .inl ⟨hno, ?_⟩
      rw [← List.append_nil history]
      refine hun.step silent_nil rfl (fun hfailure => ?_) (fun v w hw => ?_) fun hnone v => ?_
      · rw [howner] at hfailure
        exact hfailure
      · rcases hworkers v with heq | ⟨hnone, -⟩
        · exact .inl (heq.symm.trans hw)
        · exact absurd (hnone.symm.trans hw) (by simp)
      · rcases hworkers v with heq | ⟨hnone', -⟩
        · exact heq.trans (hnone v)
        · exact hnone'
    · refine .inr ⟨e, he, ?_⟩
      rw [← List.append_nil history]
      refine hrec.step silent_nil rfl ?_ hworkers fun v hnil => (hitems v).trans hnil
      have hfailure := hrec.owner
      rw [howner] at hfailure
      exact hfailure

theorem Books.reset (h : Books history s) {e : Exception} (howner : s.owner = .resetting e)
    (hc : Coherent { s with accepting := false, session := none, error := some e, owner := .idle }) :
    Books (history ++ [.unstarted e])
      { s with accepting := false, session := none, error := some e, owner := .idle } := by
  obtain ⟨hruns, hfailures, hreports⟩ :=
    (silent_single (e := Event.unstarted e) ⟨rfl, rfl, rfl, rfl⟩).same history
  have hnone : ∀ v, (s.tracks v).worker = none := fun v => (h.coherent.tracks v).joined (howner ▸ rfl)
  refine ⟨hc, fun _ heq => (by cases heq), fun hcontra => (by cases hcontra),
    fun p hp hsome => h.registered p (hruns ▸ hp) hsome, ?_⟩
  rcases h.failure with ⟨hno, hun⟩ | ⟨e', -, hrec⟩
  · exact .inl ⟨hfailures.trans hno, hreports.trans hun.unreported, hun.whole,
      fun _ v w hw => absurd ((hnone v).symm.trans hw) (by simp), fun _ _ => hnone⟩
  · have hfailure := hrec.owner
    rw [howner] at hfailure
    cases hfailure

/-- A frame enters a queue. -/
theorem Books.pushed (h : Books history s) {frame : Frame} {queue : BlockingQueue Frame}
    (hproducer : (s.tracks video).producer = some frame) (hframes : (s.tracks video).frames = some queue)
    (hc : Coherent (s.setTrack video { s.tracks video with
      producer := none, frames := some { queue with queue := queue.queue ++ [frame] } })) :
    Books (history ++ [.accepted video frame]) (s.setTrack video { s.tracks video with
      producer := none, frames := some { queue with queue := queue.queue ++ [frame] } }) := by
  obtain ⟨hruns, hfailures, -⟩ :=
    (silent_single (e := Event.accepted video frame) ⟨rfl, rfl, rfl, rfl⟩).same history
  have hnone : s.error = none :=
    (h.coherent.admission ((h.coherent.tracks video).pushing frame hproducer).1).1
  have hworkers : ∀ v, ((s.setTrack video { s.tracks video with
      producer := none, frames := some { queue with queue := queue.queue ++ [frame] } }).tracks v).worker
        = (s.tracks v).worker := by
    intro v
    rcases setTrack_cases s video v { s.tracks video with
      producer := none, frames := some { queue with queue := queue.queue ++ [frame] } } with ⟨rfl, heq⟩ | ⟨-, heq⟩
    · rw [heq]
    · rw [heq]
  refine ⟨hc, fun config howner => ?_, fun _ v => ?_, fun p hp ⟨v, hv⟩ => ?_, ?_⟩
  · rw [hruns, hfailures]
    exact h.opening config howner
  · rcases setTrack_cases s video v { s.tracks video with
      producer := none, frames := some { queue with queue := queue.queue ++ [frame] } } with ⟨rfl, heq⟩ | ⟨hne, heq⟩
    · refine (h.frames hnone v).accept (hworkers v) ?_
      rw [heq, Track.items_eq hframes]
      rfl
    · have hne' : video ≠ v := fun heq => hne heq.symm
      have hquiet : Quiet v [Event.accepted video frame] := quiet_single ⟨rfl, if_neg hne', rfl, rfl⟩
      exact (h.frames hnone v).frame hquiet (hworkers v) (by rw [heq])
  · rw [hruns] at hp
    rw [hworkers v] at hv
    exact h.registered p hp ⟨v, hv⟩
  · rw [hfailures]
    rcases h.failure with ⟨hno, hun⟩ | ⟨e, -, hrec⟩
    · exact .inl ⟨hno, hun.step (silent_single ⟨rfl, rfl, rfl, rfl⟩) rfl id
        (fun v w hw => .inl ((hworkers v).symm.trans hw)) fun hnone v => (hworkers v).trans (hnone v)⟩
    · exact absurd (hnone.symm.trans hrec.error) (by simp)

/-- A frame, or the end of the stream, goes to the codec path. -/
theorem Books.consumed (h : Books history s) {frame : Option Frame} {place : Place}
    (hworker : (s.tracks video).worker = some (.checking frame)) (herror : s.error = none) (backpressured : Bool)
    (hc : Coherent (s.setTrack video { s.tracks video with
      backpressured := backpressured, worker := some (.encoding frame.isNone place) })) :
    Books (history ++ [.consumed video frame]) (s.setTrack video { s.tracks video with
      backpressured := backpressured, worker := some (.encoding frame.isNone place) }) := by
  obtain ⟨hruns, hfailures, -⟩ :=
    (silent_single (e := Event.consumed video frame) ⟨rfl, rfl, rfl, rfl⟩).same history
  have hcases := fun v => setTrack_cases s video v { s.tracks video with
    backpressured := backpressured, worker := some (.encoding frame.isNone place) }
  refine ⟨hc, fun config howner => ?_, fun _ v => ?_, fun p hp ⟨v, hv⟩ => ?_, ?_⟩
  · rw [hruns, hfailures]
    exact h.opening config howner
  · rcases hcases v with ⟨rfl, heq⟩ | ⟨hne, heq⟩
    · have hnew : ((s.setTrack v { s.tracks v with
          backpressured := backpressured, worker := some (.encoding frame.isNone place) }).tracks v).worker
            = some (.encoding frame.isNone place) := by rw [heq]
      refine (h.frames herror v).consume hworker hnew ?_
      rw [heq]
      rfl
    · have hne' : video ≠ v := fun heq => hne heq.symm
      have hquiet : Quiet v [Event.consumed video frame] := quiet_single ⟨rfl, rfl, if_neg hne', rfl⟩
      exact (h.frames herror v).frame hquiet (by rw [heq]) (by rw [heq])
  · rw [hruns] at hp
    refine h.registered p hp ⟨video, ?_⟩
    rw [hworker]
    rfl
  · rw [hfailures]
    rcases h.failure with ⟨hno, hun⟩ | ⟨e, -, hrec⟩
    · refine .inl ⟨hno, hun.step (silent_single ⟨rfl, rfl, rfl, rfl⟩) rfl id (fun v w hw => ?_) fun hnone =>
        absurd ((hnone video).symm.trans hworker) (by simp)⟩
      rcases hcases v with ⟨rfl, heq⟩ | ⟨-, heq⟩
      · rw [heq] at hw
        obtain rfl := Option.some.inj hw
        exact .inr ⟨rfl, fun hne => absurd herror hne⟩
      · exact .inl (by rwa [heq] at hw)
    · exact absurd (herror.symm.trans hrec.error) (by simp)

/-- A worker records a failure. -/
theorem Books.failed (h : Books history s) {last : Bool} {e : Exception}
    (hworker : (s.tracks video).worker = some (.failing last e))
    (hc : Coherent ({ s with error := some (s.error.getD e), accepting := false }.setWorker video
      (some (.discarding s.error.isNone e false [true, false])))) :
    Books (history ++ (if s.error.isNone then [.failed video e] else []))
      ({ s with error := some (s.error.getD e), accepting := false }.setWorker video
        (some (.discarding s.error.isNone e false [true, false]))) := by
  have hcases := fun v => setTrack_cases { s with error := some (s.error.getD e), accepting := false } video v
    { s.tracks video with worker := some (.discarding s.error.isNone e false [true, false]) }
  cases herror : s.error with
  | some e₀ =>
    rw [herror] at hcases hc
    show Books (history ++ []) _
    have hnew : (({ s with error := some e₀, accepting := false }.setWorker video
        (some (.discarding false e false [true, false]))).tracks video).worker
          = some (.discarding false e false [true, false]) := congrArg Track.worker (setTrack_self _)
    refine h.work hc uncounted_nil herror.symm rfl rfl hworker hnew (fun u hu => ?_)
      (fun hnone => absurd (hnone.symm.trans herror) (by simp))
      (fun hnone => absurd (hnone.symm.trans herror) (by simp))
      (fun v hnil => ?_) (fun hnone => absurd (hnone.symm.trans herror) (by simp)) (fun hno _ => ?_)
      (fun hplace => (by rcases hplace with hplace | hplace <;> cases hplace)) rfl (fun hfirst => (by cases hfirst))
      fun hfirst => (by cases hfirst)
    · exact congrArg Track.worker (setTrack_ne _ hu)
    · rcases hcases v with ⟨rfl, heq⟩ | ⟨-, heq⟩
      · exact (congrArg Track.items heq).trans hnil
      · exact (congrArg Track.items heq).trans hnil
    · rcases h.failure with ⟨-, hun⟩ | ⟨e', he', -⟩
      · rcases hun.halted (by simp [herror]) video _ hworker with hplace | hplace <;> cases hplace
      · exact absurd (hno.symm.trans he') (by simp)
  | none =>
    rw [herror] at hcases hc
    have hopens : ∀ x ∈ [Event.failed video e], x.opens = false := fun x hx => List.mem_singleton.mp hx ▸ rfl
    have hruns : runs (history ++ [.failed video e]) = runs history :=
      Sessions.select_same hopens fun x hx => List.mem_singleton.mp hx ▸ rfl
    have hreports : reports (history ++ [.failed video e]) = reports history :=
      Sessions.select_same hopens fun x hx => List.mem_singleton.mp hx ▸ rfl
    obtain ⟨hno, hun⟩ : failures history = [] ∧ Unrecorded history s := by
      rcases h.failure with hfirst | ⟨e', -, hrec⟩
      · exact hfirst
      · exact absurd (herror.symm.trans hrec.error) (by simp)
    have hfailures : failures (history ++ [.failed video e]) = [e] := by
      rw [failures, Sessions.select_append hopens, ← failures, hno]
      rfl
    refine ⟨hc, fun config howner => ?_, fun hnone => (by cases hnone), fun p hp _ => ?_, .inr ⟨e, hfailures, rfl, ?_,
      .inl ⟨video, .discarding true e false [true, false], congrArg Track.worker (setTrack_self _), rfl, rfl,
        fun u hu w hw => ?_, hreports.trans hun.unreported, fun t ht => ?_⟩⟩⟩
    · exact absurd ((h.coherent.tracks video).starting config howner) (by simp [hworker])
    · have hp' : p ∈ runs history := hruns ▸ hp
      exact h.registered p hp' ⟨video, by rw [hworker]; rfl⟩
    · show s.owner.failure = none
      cases hfailure : s.owner.failure with
      | none => rfl
      | some _ => exact absurd (hun.aborted (by simp [hfailure]) herror video) (by simp [hworker])
    · have hold : (s.tracks u).worker = some w := (congrArg Track.worker (setTrack_ne _ hu)).symm.trans hw
      exact Worker.first_broken (hun.whole u w hold)
    · cases t <;> simp [Worker.left] at ht

/-- The worker that recorded the first failure has called `OnError`. -/
theorem Books.reported (h : Books history s) {e : Exception}
    (hworker : (s.tracks video).worker = some (.reporting true e))
    (hc : Coherent (s.setWorker video (some .done))) :
    Books (history ++ (if s.onError then [.reported e] else [])) (s.setWorker video (some .done)) := by
  have hopens : ∀ x ∈ (if s.onError then [Event.reported e] else []), x.opens = false := by
    intro x hx
    cases honError : s.onError <;> rw [honError] at hx <;> simp at hx
    rw [hx]
    rfl
  have hruns : runs (history ++ (if s.onError then [.reported e] else [])) = runs history := by
    refine Sessions.select_same hopens fun x hx => ?_
    cases honError : s.onError <;> rw [honError] at hx <;> simp at hx
    rw [hx]
    rfl
  have hfailures : failures (history ++ (if s.onError then [.reported e] else [])) = failures history := by
    refine Sessions.select_same hopens fun x hx => ?_
    cases honError : s.onError <;> rw [honError] at hx <;> simp at hx
    rw [hx]
    rfl
  have hreports : reports (history ++ (if s.onError then [.reported e] else []))
      = reports history ++ (if s.onError then [e] else []) := by
    rw [reports, Sessions.select_append hopens, ← reports]
    cases s.onError <;> rfl
  have hbroken := h.coherent.quiet_of_broken hworker rfl
  have hitems : ∀ t, ((s.setWorker video (some .done)).tracks t).items = (s.tracks t).items := by
    intro t
    rcases setTrack_cases s video t { s.tracks video with worker := some .done } with
      ⟨rfl, heq⟩ | ⟨-, heq⟩
    · exact (congrArg Track.items heq).trans rfl
    · exact congrArg Track.items heq
  refine ⟨hc, fun config howner => ?_, fun hnone => absurd hnone hbroken.1, fun p hp _ => ?_, ?_⟩
  · rw [hruns, hfailures]
    exact h.opening config howner
  · have hp' : p ∈ runs history := hruns ▸ hp
    exact h.registered p hp' ⟨video, by rw [hworker]; rfl⟩
  · rcases h.failure with ⟨-, hun⟩ | ⟨e', he', hrec⟩
    · exact absurd (hun.whole video _ hworker) (by simp [Worker.broken])
    · obtain ⟨v, w, hv⟩ : ∃ v w, Handling history s e' v w := by
        rcases hrec.progress with hhandling | hdone
        · exact hhandling
        · exact absurd (hdone.others video _ hworker) (by simp [Worker.first])
      have hvideo : v = video := by
        by_contra hne
        exact absurd (hv.others video (fun heq => hne heq.symm) _ hworker) (by simp [Worker.first])
      subst hvideo
      obtain rfl := Option.some.inj (hworker.symm.trans hv.worker)
      obtain rfl : e = e' := Option.some.inj hv.cause
      refine .inr ⟨e, hfailures.trans he', hrec.error, hrec.owner, .inr ⟨fun u w hw => ?_, fun t => ?_, fun p hp => ?_,
        ?_⟩⟩
      · by_cases hu : u = v
        · subst hu
          obtain rfl := Option.some.inj ((congrArg Track.worker (setTrack_self _)).symm.trans hw)
          rfl
        · exact hv.others u hu w ((congrArg Track.worker (setTrack_ne _ hu)).symm.trans hw)
      · rw [hitems t]
        exact hv.emptied t (by simp [Worker.left])
      · have hp' : p ∈ runs history := hruns ▸ hp
        rw [hreports, hv.unreported, h.registered p hp' ⟨v, by rw [hworker]; rfl⟩]
        rfl
      · rw [hreports, hv.unreported]
        cases s.onError with
        | true => exact .inr rfl
        | false => exact .inl rfl

/-- What a step writes into one track is seen there only. -/
theorem setTrack_items {track : Track} (h : (s.tracks video).items = [] → track.items = []) (v : Bool)
    (hnil : (s.tracks v).items = []) : ((s.setTrack video track).tracks v).items = [] := by
  rcases setTrack_cases s video v track with ⟨rfl, heq⟩ | ⟨-, heq⟩
  · rw [heq]
    exact h hnil
  · rw [heq]
    exact hnil

theorem setTrack_same {β : Type} {track : Track} (f : Track → β) (h : f track = f (s.tracks video)) (v : Bool) :
    f ((s.setTrack video track).tracks v) = f (s.tracks v) := by
  rcases setTrack_cases s video v track with ⟨rfl, heq⟩ | ⟨-, heq⟩
  · rw [heq, h]
  · rw [heq]

@[simp] theorem setWorker_items (worker : Option Worker) (v : Bool) :
    ((s.setWorker video worker).tracks v).items = (s.tracks v).items := by
  refine setTrack_same Track.items ?_ v
  rfl

@[simp] theorem setFrames_worker (frames : Option (BlockingQueue Frame)) (v : Bool) :
    ((s.setFrames video frames).tracks v).worker = (s.tracks v).worker := by
  refine setTrack_same Track.worker ?_ v
  rfl

/-- A worker that has recorded no failure goes on. -/
theorem Books.goes (h : Books history s) (hc : Coherent s') (huncounted : Uncounted events)
    (herror : s'.error = s.error) (howner : s'.owner = s.owner) (honError : s'.onError = s.onError) {w w' : Worker}
    (hworker : (s.tracks video).worker = some w) (hworker' : (s'.tracks video).worker = some w')
    (hwhole : w.broken = false) (hwhole' : w'.broken = false)
    (hothers : ∀ u, u ≠ video → (s'.tracks u).worker = (s.tracks u).worker)
    (hframes : s.error = none → w'.hand ++ (s'.tracks video).items = w.hand ++ (s.tracks video).items)
    (hsame : s.error = none → ∀ u, u ≠ video → (s'.tracks u).items = (s.tracks u).items)
    (hitems : ∀ v, (s.tracks v).items = [] → (s'.tracks v).items = []) (hlast : s.error = none → w'.last = w.last)
    (hhalted : w = .entering ∨ w = .done → s.error ≠ none → w' = .done) : Books (history ++ events) s' := by
  have hfirst : w.first = false := Worker.first_broken hwhole
  exact h.work hc huncounted herror howner honError hworker hworker' hothers hframes hsame hitems hlast
    (fun _ hbroken => absurd (hwhole'.symm.trans hbroken) (by decide)) hhalted
    ((Worker.first_broken hwhole').trans hfirst.symm) (fun hcontra => absurd (hfirst.symm.trans hcontra) (by decide))
    fun hcontra => absurd (hfirst.symm.trans hcontra) (by decide)

/-- A worker goes on with the failure it has recorded. -/
theorem Books.handles (h : Books history s) (hc : Coherent s') (herror : s'.error = s.error)
    (howner : s'.owner = s.owner) (honError : s'.onError = s.onError) {w w' : Worker}
    (hworker : (s.tracks video).worker = some w) (hworker' : (s'.tracks video).worker = some w')
    (hbroken : w.broken = true) (hothers : ∀ u, u ≠ video → (s'.tracks u).worker = (s.tracks u).worker)
    (hitems : ∀ v, (s.tracks v).items = [] → (s'.tracks v).items = []) (hfirst : w'.first = w.first)
    (hcause : w.first = true → w'.cause = w.cause)
    (hleft : ∀ t, t ∉ w'.left → t ∉ w.left ∨ (s'.tracks t).items = []) : Books (history ++ []) s' := by
  have hfailed := (h.coherent.quiet_of_broken hworker hbroken).1
  refine h.work hc uncounted_nil herror howner honError hworker hworker' hothers (fun hnone => absurd hnone hfailed)
    (fun hnone => absurd hnone hfailed) hitems (fun hnone => absurd hnone hfailed) (fun _ _ => hbroken)
    (fun hplace => ?_) hfirst hcause fun _ => hleft
  rcases hplace with rfl | rfl <;> cases hbroken

/-- `Stop` closes a queue. -/
theorem Books.closed (h : Books history s) {queues : List Bool} {failure : Option Exception}
    (howner : s.owner = .stopping (.closing (video :: queues)) failure)
    (hc : Coherent { s.setFrames video ((s.tracks video).frames.map fun queue => (queue.close []).2) with
      owner := .stopping (.closing queues) failure }) :
    Books (history ++ []) { s.setFrames video ((s.tracks video).frames.map fun queue => (queue.close []).2) with
      owner := .stopping (.closing queues) failure } := by
  have hclosed : Track.items { s.tracks video with
      frames := (s.tracks video).frames.map fun queue => (queue.close []).2 } = (s.tracks video).items := by
    rw [Track.items, Track.items]
    cases (s.tracks video).frames with
    | none => rfl
    | some queue => rfl
  refine h.frame hc uncounted_nil rfl (fun _ heq => (by cases heq)) (fun hfailure => ?_) rfl
    (setTrack_same Track.worker rfl) (fun _ => setTrack_same Track.items hclosed) (setTrack_items hclosed.trans)
  rw [howner] at hfailure
  exact hfailure

/-- The last section of `Stop`. -/
theorem Books.cleared (h : Books history s) {failure : Option Exception}
    (howner : s.owner = .stopping .clearing failure)
    (hc : Coherent { s with
      tracks := fun video => { s.tracks video with frames := none, backpressured := false, codec := none }
      session := none
      filter := none
      owner := failure.elim .idle .resetting }) :
    Books (history ++ if failure.isNone then [.stopped] else []) { s with
      tracks := fun video => { s.tracks video with frames := none, backpressured := false, codec := none }
      session := none
      filter := none
      owner := failure.elim .idle .resetting } := by
  have hnone : ∀ v, (s.tracks v).worker = none := fun v => (h.coherent.tracks v).joined (howner ▸ rfl)
  have hevents : Uncounted (if failure.isNone then [.stopped] else []) := by
    cases failure with
    | none => exact uncounted_single ⟨⟨rfl, rfl, rfl, rfl⟩, fun _ => ⟨rfl, rfl⟩⟩
    | some _ => exact uncounted_nil
  refine h.frame hc hevents rfl (fun _ heq => ?_) (fun hfailure => ?_) rfl (fun _ => rfl) (fun herror v => ?_)
    fun _ _ => rfl
  · cases failure <;> cases heq
  · rw [howner] at hfailure
    obtain rfl : failure = none := hfailure
    rfl
  · exact ((h.coherent.tracks v).empty herror (hnone v)).symm

/-- A worker leaves after a failure. -/
theorem Books.quit (h : Books history s) {worker : Worker} (hworker : (s.tracks video).worker = some worker)
    (hplace : worker = .entering ∨ ∃ frame, worker = .checking frame) (herror : s.error ≠ none)
    (hc : Coherent (s.setWorker video (some .done))) : Books (history ++ []) (s.setWorker video (some .done)) := by
  have hwhole : worker.broken = false := by rcases hplace with rfl | ⟨frame, rfl⟩ <;> rfl
  exact h.goes hc uncounted_nil rfl rfl rfl hworker (congrArg Track.worker (setTrack_self _)) hwhole rfl
    (fun u hu => congrArg Track.worker (setTrack_ne _ hu)) (fun hnone => absurd hnone herror)
    (fun hnone => absurd hnone herror) (setTrack_items id) (fun hnone => absurd hnone herror) fun _ _ => rfl

/-- A worker goes on with the same frames. -/
theorem Books.turns (h : Books history s) {w w' : Worker} (hworker : (s.tracks video).worker = some w)
    (hwhole : w.broken = false) (hwhole' : w'.broken = false) (hhand : w'.hand = w.hand) (hlast : w'.last = w.last)
    (hhalted : w = .entering ∨ w = .done → s.error ≠ none → w' = .done)
    (hc : Coherent (s.setWorker video (some w'))) : Books (history ++ []) (s.setWorker video (some w')) := by
  refine h.goes hc uncounted_nil rfl rfl rfl hworker (congrArg Track.worker (setTrack_self _)) hwhole hwhole'
    (fun u hu => congrArg Track.worker (setTrack_ne _ hu)) (fun _ => ?_)
    (fun _ u hu => congrArg Track.items (setTrack_ne _ hu)) (setTrack_items id) (fun _ => hlast) hhalted
  rw [hhand, setWorker_items]

/-- A worker takes a frame out of its queue. -/
theorem Books.popped (h : Books history s) {frame : Frame} {rest : List Frame} {queue : BlockingQueue Frame}
    (hworker : (s.tracks video).worker = some .popping) (hframes : (s.tracks video).frames = some queue)
    (hqueue : queue.queue = frame :: rest)
    (hc : Coherent (s.setTrack video { s.tracks video with
      frames := some { queue with queue := rest }, worker := some (.checking (some frame)) })) :
    Books (history ++ []) (s.setTrack video { s.tracks video with
      frames := some { queue with queue := rest }, worker := some (.checking (some frame)) }) := by
  refine h.goes hc uncounted_nil rfl rfl rfl hworker (congrArg Track.worker (setTrack_self _)) rfl rfl
    (fun u hu => congrArg Track.worker (setTrack_ne _ hu)) (fun _ => ?_)
    (fun _ u hu => congrArg Track.items (setTrack_ne _ hu)) (setTrack_items fun hnil => ?_) (fun _ => rfl)
    fun hplace => (by rcases hplace with hplace | hplace <;> cases hplace)
  · rw [setTrack_self, Track.items_eq hframes, hqueue]
    rfl
  · rw [Track.items_eq hframes, hqueue] at hnil
    cases hnil

/-- A step of a codec path. -/
theorem Books.encoded (h : Books history s) {last : Bool} {place : Place}
    (hworker : (s.tracks video).worker = some (.encoding last place)) (calls : List Call) (flow : Flow)
    (codec : Option Codec) (filter : Option Graph)
    (hc : Coherent ({ s with filter := filter }.setTrack video { s.tracks video with
      codec := codec, worker := some (flow.worker last) })) :
    Books (history ++ calls.map (.called video)) ({ s with filter := filter }.setTrack video { s.tracks video with
      codec := codec, worker := some (flow.worker last) }) := by
  have hflow : (flow.worker last).hand = [] ∧ (flow.worker last).last = last := by
    cases flow with
    | goto place => exact ⟨rfl, rfl⟩
    | returned => cases last <;> exact ⟨rfl, rfl⟩
    | thrown e => exact ⟨rfl, rfl⟩
  refine h.goes hc (uncounted_calls video calls) rfl rfl rfl hworker (congrArg Track.worker (setTrack_self _)) rfl
    (flow.worker_broken last) (fun u hu => congrArg Track.worker (setTrack_ne _ hu)) (fun _ => ?_)
    (fun _ u hu => congrArg Track.items (setTrack_ne _ hu)) ?_ (fun _ => hflow.2)
    fun hplace => (by rcases hplace with hplace | hplace <;> cases hplace)
  · rw [hflow.1, setTrack_self]
    rfl
  · exact setTrack_items (s := { s with filter := filter }) id

/-- A queue is closed for a failure. -/
theorem Books.discardClosed (h : Books history s) {first : Bool} {e : Exception} {track : Bool} {queues : List Bool}
    {queue : BlockingQueue Frame}
    (hworker : (s.tracks video).worker = some (.discarding first e false (track :: queues)))
    (hframes : (s.tracks track).frames = some queue)
    (hc : Coherent ((s.setFrames track (some (queue.close []).2)).setWorker video
      (some (.discarding first e true (track :: queues))))) :
    Books (history ++ []) ((s.setFrames track (some (queue.close []).2)).setWorker video
      (some (.discarding first e true (track :: queues)))) := by
  refine h.handles hc rfl rfl rfl hworker (congrArg Track.worker (setTrack_self _)) rfl (fun u hu => ?_)
    (fun v hnil => ?_) rfl (fun _ => rfl) fun t ht => .inl ht
  · exact (congrArg Track.worker (setTrack_ne _ hu)).trans (setFrames_worker _ u)
  · rw [setWorker_items]
    refine setTrack_items (fun hold => ?_) v hnil
    exact (Track.items_eq hframes).symm.trans hold

/-- A frame is discarded for a failure. -/
theorem Books.discarded (h : Books history s) {first : Bool} {e : Exception} {track : Bool} {queues : List Bool}
    {queue : BlockingQueue Frame} {frame : Frame} {rest : List Frame}
    (hworker : (s.tracks video).worker = some (.discarding first e true (track :: queues)))
    (hframes : (s.tracks track).frames = some queue) (hqueue : queue.queue = frame :: rest)
    (hc : Coherent (s.setFrames track (some { queue with queue := rest }))) :
    Books (history ++ []) (s.setFrames track (some { queue with queue := rest })) := by
  refine h.handles hc rfl rfl rfl hworker ((setFrames_worker _ video).trans hworker) rfl
    (fun u _ => setFrames_worker _ u) (setTrack_items fun hnil => ?_) rfl (fun _ => rfl) fun t ht => .inl ht
  rw [Track.items_eq hframes, hqueue] at hnil
  cases hnil

/-- A queue has been emptied for a failure. -/
theorem Books.discardedAll (h : Books history s) {first closed : Bool} {e : Exception} {track : Bool}
    {queues : List Bool} (hworker : (s.tracks video).worker = some (.discarding first e closed (track :: queues)))
    (hempty : (s.tracks track).items = [])
    (hc : Coherent (s.setWorker video (some (.discarding first e false queues)))) :
    Books (history ++ []) (s.setWorker video (some (.discarding first e false queues))) := by
  refine h.handles hc rfl rfl rfl hworker (congrArg Track.worker (setTrack_self _)) rfl
    (fun u hu => congrArg Track.worker (setTrack_ne _ hu)) (setTrack_items id) rfl (fun _ => rfl) fun t ht => ?_
  by_cases htrack : t = track
  · subst htrack
    exact .inr ((setWorker_items _ t).trans hempty)
  · exact .inl fun hmem => (List.mem_cons.mp hmem).elim htrack ht

/-- **Every step keeps the books.** -/
theorem Books.step [Libav] (h : Books history s) (hstep : Stepped s events s') : Books (history ++ events) s' := by
  have hc : Coherent s' := h.coherent.step hstep
  cases hstep with
  | configured hidle hworkers present =>
    rw [List.append_nil]
    exact h.configured hworkers present
  | same =>
    rw [List.append_nil]
    exact h
  | started hidle hworkers hfree config => exact .started hc rfl hworkers
  | stop hidle =>
    exact h.frame hc uncounted_nil rfl (fun _ heq => (by cases heq)) (fun _ => rfl) rfl
      (fun _ => rfl) (fun _ _ => rfl) fun _ => id
  | unopened howner e =>
    rw [List.append_nil]
    exact h.unopened howner e hc
  | installed howner hopen hfree => exact h.installed howner hc
  | uninstalled howner hopen hfree henabled =>
    rw [List.append_nil]
    exact h.uninstalled howner hc
  | entered howner hfree =>
    exact h.frame hc uncounted_nil rfl (fun _ heq => (by cases heq))
      (fun hfailure => by rw [howner] at hfailure; exact hfailure) rfl (fun _ => rfl) (fun _ _ => rfl) fun _ => id
  | closed howner => exact h.closed howner hc
  | joins howner =>
    exact h.frame hc uncounted_nil rfl (fun _ heq => (by cases heq))
      (fun hfailure => by rw [howner] at hfailure; exact hfailure) rfl (fun _ => rfl) (fun _ _ => rfl) fun _ => id
  | joined howner hworker =>
    rw [List.append_nil]
    exact h.joined howner hworker hc
  | clears howner =>
    exact h.frame hc uncounted_nil rfl (fun _ heq => (by cases heq))
      (fun hfailure => by rw [howner] at hfailure; exact hfailure) rfl (fun _ => rfl) (fun _ _ => rfl) fun _ => id
  | cleared howner hfree => exact h.cleared howner hc
  | reset howner hfree => exact h.reset howner hc
  | refused hrefusal =>
    exact h.frame hc hrefusal.uncounted rfl (fun _ heq => heq) id rfl (fun _ => rfl) (fun _ _ => rfl) fun _ => id
  | full video =>
    exact h.frame hc (uncounted_single ⟨⟨rfl, rfl, rfl, rfl⟩, fun _ => ⟨rfl, rfl⟩⟩) rfl (fun _ heq => heq) id rfl
      (setTrack_same Track.worker rfl) (fun _ => setTrack_same Track.items rfl) (setTrack_items id)
  | checked frame haccepting hsession hcodec hroom hfree =>
    exact h.frame hc uncounted_nil rfl (fun _ heq => heq) id rfl (setTrack_same Track.worker rfl)
      (fun _ => setTrack_same Track.items rfl) (setTrack_items id)
  | pushed hproducer hframes hopen hroom => exact h.pushed hproducer hframes hc
  | unpushed hproducer hrefusal =>
    exact h.frame hc hrefusal.uncounted rfl (fun _ heq => heq) id rfl (setTrack_same Track.worker rfl)
      (fun _ => setTrack_same Track.items rfl) (setTrack_items id)
  | quit hworker hplace herror => exact h.quit hworker hplace herror hc
  | ready hworker herror => exact h.turns hworker rfl rfl rfl rfl (fun _ hne => absurd herror hne) hc
  | popped hworker hframes hqueue => exact h.popped hworker hframes hqueue hc
  | drained hworker hframes hqueue hclosed =>
    exact h.turns hworker rfl rfl rfl rfl (fun hplace => by rcases hplace with hplace | hplace <;> cases hplace) hc
  | consumed hworker herror backpressured => exact h.consumed hworker herror backpressured hc
  | encoded hworker hsession hcodec hadvance => exact h.encoded hworker _ _ _ _ hc
  | failed hworker hfree => exact h.failed hworker hc
  | discardClosed hworker hframes => exact h.discardClosed hworker hframes hc
  | discarded hworker hframes hqueue => exact h.discarded hworker hframes hqueue hc
  | discardedAll hworker hempty => exact h.discardedAll hworker hempty hc
  | reports hworker =>
    exact h.handles hc rfl rfl rfl hworker (congrArg Track.worker (setTrack_self _)) rfl
      (fun u hu => congrArg Track.worker (setTrack_ne _ hu)) (setTrack_items id) rfl (fun _ => rfl) fun t ht => .inl ht
  | @reported video first e hworker =>
    cases first with
    | true => exact h.reported hworker hc
    | false =>
      exact h.handles hc rfl rfl rfl hworker (congrArg Track.worker (setTrack_self _)) rfl
        (fun u hu => congrArg Track.worker (setTrack_ne _ hu)) (setTrack_items id) rfl
        (fun hfirst => by cases hfirst) fun _ _ => .inl List.not_mem_nil

/-- Until the next start nothing is admitted and nothing goes to a codec path. -/
theorem Coherent.halted [Libav] (hc : Coherent s) (herror : s.error ≠ none) (hstep : Stepped s events s')
    (hopens : ∀ e ∈ events, e.opens = false) :
    s'.error ≠ none ∧ ∀ e ∈ events, ∀ v, e.accepted? v = none ∧ e.consumed? v = none := by
  have hnothing : ∀ {e : Event}, e ∈ ([] : List Event) → ∀ v, e.accepted? v = none ∧ e.consumed? v = none :=
    fun he => by cases he
  have hsingle : ∀ {e₀ : Event}, (∀ v, e₀.accepted? v = none ∧ e₀.consumed? v = none) →
      ∀ e ∈ [e₀], ∀ v, e.accepted? v = none ∧ e.consumed? v = none :=
    fun h e he => List.mem_singleton.mp he ▸ h
  have hrefused : ∀ {video : Bool} {e : Event}, e.Refusal video → ∀ v, e.accepted? v = none ∧ e.consumed? v = none :=
    fun h => (h.uncounted _ (List.mem_singleton_self _)).2
  cases hstep with
  | configured hidle hworkers present => exact ⟨herror, fun _ => hnothing⟩
  | same => exact ⟨herror, fun _ => hnothing⟩
  | started hidle hworkers hfree config => exact absurd (hopens _ (List.mem_singleton_self _)) (by simp [Event.opens])
  | stop hidle => exact ⟨herror, fun _ => hnothing⟩
  | unopened howner e => exact ⟨herror, fun _ => hnothing⟩
  | installed howner hopen hfree => exact absurd (hc.opening _ howner) herror
  | uninstalled howner hopen hfree henabled => exact ⟨fun hnone => (by cases hnone), fun _ => hnothing⟩
  | entered howner hfree => exact ⟨herror, fun _ => hnothing⟩
  | closed howner => exact ⟨herror, fun _ => hnothing⟩
  | joins howner => exact ⟨herror, fun _ => hnothing⟩
  | joined howner hworker => exact ⟨herror, fun _ => hnothing⟩
  | clears howner => exact ⟨herror, fun _ => hnothing⟩
  | @cleared failure howner hfree =>
    cases failure with
    | none => exact ⟨herror, hsingle fun _ => ⟨rfl, rfl⟩⟩
    | some _ => exact ⟨herror, fun _ => hnothing⟩
  | reset howner hfree => exact ⟨fun hnone => (by cases hnone), hsingle fun _ => ⟨rfl, rfl⟩⟩
  | refused hrefusal => exact ⟨herror, hsingle (hrefused hrefusal)⟩
  | full video => exact ⟨herror, hsingle fun _ => ⟨rfl, rfl⟩⟩
  | checked frame haccepting hsession hcodec hroom hfree => exact ⟨herror, fun _ => hnothing⟩
  | @pushed video frame queue hproducer hframes hopen hroom =>
    exact absurd (hc.admission ((hc.tracks video).pushing frame hproducer).1).1 herror
  | unpushed hproducer hrefusal => exact ⟨herror, hsingle (hrefused hrefusal)⟩
  | quit hworker hplace herror' => exact ⟨herror, fun _ => hnothing⟩
  | ready hworker herror' => exact ⟨herror, fun _ => hnothing⟩
  | popped hworker hframes hqueue => exact ⟨herror, fun _ => hnothing⟩
  | drained hworker hframes hqueue hclosed => exact ⟨herror, fun _ => hnothing⟩
  | consumed hworker herror' backpressured => exact absurd herror' herror
  | @encoded video last place config callback codec codec' calls flow filter hworker hsession hcodec hadvance =>
    exact ⟨herror, fun e he => (uncounted_calls video calls e he).2⟩
  | failed hworker hfree =>
    refine ⟨fun hnone => (by cases hnone), ?_⟩
    cases s.error with
    | none => exact hsingle fun _ => ⟨rfl, rfl⟩
    | some _ => exact fun _ => hnothing
  | discardClosed hworker hframes => exact ⟨herror, fun _ => hnothing⟩
  | discarded hworker hframes hqueue => exact ⟨herror, fun _ => hnothing⟩
  | discardedAll hworker hempty => exact ⟨herror, fun _ => hnothing⟩
  | reports hworker => exact ⟨herror, fun _ => hnothing⟩
  | @reported video first e hworker =>
    refine ⟨herror, ?_⟩
    cases first && s.onError with
    | true => exact hsingle fun _ => ⟨rfl, rfl⟩
    | false => exact fun _ => hnothing

section

variable [Libav]

theorem Books.run (h : Books history s) (hrun : system.Run s events s') : Books (history ++ events) s' := by
  induction hrun with
  | refl =>
    rw [List.append_nil]
    exact h
  | snoc _ hstep ih =>
    obtain ⟨act, hact⟩ := hstep
    rw [← List.append_assoc]
    exact ih.step (stepped hact)

end

section

variable [Libav]

/-! ### The handling of a failure ends -/

/-- The worker of the track, left alone, comes to its end. -/
def Ends (s : AvEncoder) (video : Bool) : Prop :=
  ∃ n events s', Transition.execute next s (List.replicate n (.work video none)) = some (events, s') ∧
    (s'.tracks video).worker = some .done ∧ (∀ u, u ≠ video → (s'.tracks u).worker = (s.tracks u).worker) ∧
    ∀ e ∈ events, e.opens = false ∧ e.failed? = none

theorem Ends.step {events : List Event} (hwork : s.work video none = some (events, s'))
    (hothers : ∀ u, u ≠ video → (s'.tracks u).worker = (s.tracks u).worker)
    (hevents : ∀ e ∈ events, e.opens = false ∧ e.failed? = none) (h : s'.Ends video) : s.Ends video := by
  obtain ⟨n, later, t, hacts, hdone, hlater, hsilent⟩ := h
  refine ⟨n + 1, events ++ later, t, ?_, hdone, fun u hu => (hlater u hu).trans (hothers u hu), fun e he =>
    (List.mem_append.mp he).elim (hevents e) (hsilent e)⟩
  show Transition.execute next s (.work video none :: List.replicate n (.work video none)) = some (events ++ later, t)
  rw [Transition.execute, next, hwork]
  show (Transition.execute next s' (List.replicate n (.work video none))).map
    (fun later => (events ++ later.1, later.2)) = some (events ++ later, t)
  rw [hacts]
  rfl

theorem Ends.reporting {first : Bool} {e : Exception} (hworker : (s.tracks video).worker = some (.reporting first e)) :
    s.Ends video := by
  have hwork : s.work video none
      = some (if first && s.onError then [.reported e] else [], s.setWorker video (some .done)) := by
    rw [work, hworker]
  have hothers : ∀ u, u ≠ video → ((s.setWorker video (some .done)).tracks u).worker = (s.tracks u).worker :=
    fun u hu => congrArg Track.worker (setTrack_ne _ hu)
  refine .step hwork hothers (fun e' he => ?_)
    ⟨0, [], _, rfl, congrArg Track.worker (setTrack_self _), fun _ _ => rfl, fun _ he => by cases he⟩
  split at he
  · obtain rfl := List.mem_singleton.mp he
    exact ⟨rfl, rfl⟩
  · cases he

omit [Libav] in
theorem discardNext_others {first closed : Bool} {e : Exception} {queues : List Bool} (u : Bool) (hu : u ≠ video) :
    ((s.discardNext video first e closed queues).tracks u).worker = (s.tracks u).worker := by
  cases queues with
  | nil => exact congrArg Track.worker (setTrack_ne _ hu)
  | cons track queues =>
    have hframes : ∀ frames, ((s.setFrames track frames).tracks u).worker = (s.tracks u).worker := by
      intro frames
      refine setTrack_same Track.worker ?_ u
      rfl
    rw [discardNext]
    split
    · exact congrArg Track.worker (setTrack_ne _ hu)
    · split
      · exact (congrArg Track.worker (setTrack_ne _ hu)).trans (hframes _)
      · split
        · exact hframes _
        · exact congrArg Track.worker (setTrack_ne _ hu)

theorem Ends.discard {first closed : Bool} {e : Exception} {queues : List Bool}
    (hworker : (s.tracks video).worker = some (.discarding first e closed queues))
    (h : (s.discardNext video first e closed queues).Ends video) : s.Ends video := by
  have hwork : s.work video none = some ([], s.discardNext video first e closed queues) := by
    rw [work, hworker]
  exact .step hwork discardNext_others (fun _ he => by cases he) h

/-- A closed queue is emptied frame by frame; `rest` says how the handling goes on from there. -/
theorem Ends.emptying {first : Bool} {e : Exception} {track : Bool} {queues : List Bool}
    (rest : ∀ s : AvEncoder, (s.tracks video).worker = some (.discarding first e false queues) → s.Ends video)
    (frames : List Frame) : ∀ (s : AvEncoder) (queue : BlockingQueue Frame),
      (s.tracks video).worker = some (.discarding first e true (track :: queues)) →
      (s.tracks track).frames = some queue → queue.queue = frames → s.Ends video := by
  induction frames with
  | nil =>
    intro s queue hworker hframes hqueue
    refine .discard hworker (rest _ ?_)
    rw [discardNext, hframes]
    dsimp only
    rw [if_neg (by decide), BlockingQueue.popImpl, hqueue]
    cases queue.closed with
    | false => exact congrArg Track.worker (setTrack_self _)
    | true => exact congrArg Track.worker (setTrack_self _)
  | cons frame frames ih =>
    intro s queue hworker hframes hqueue
    have hnext : s.discardNext video first e true (track :: queues)
        = s.setFrames track (some { queue with queue := frames }) := by
      rw [discardNext, hframes]
      dsimp only
      rw [if_neg (by decide), BlockingQueue.popImpl, hqueue]
      rfl
    refine .discard hworker ?_
    rw [hnext]
    refine ih _ { queue with queue := frames } ?_ (congrArg Track.frames (setTrack_self _)) rfl
    rw [← hworker]
    refine setTrack_same Track.worker ?_ video
    rfl

theorem Ends.discarding {first : Bool} {e : Exception} (queues : List Bool) : ∀ (s : AvEncoder),
    (s.tracks video).worker = some (.discarding first e false queues) → s.Ends video := by
  induction queues with
  | nil =>
    intro s hworker
    exact .discard hworker (.reporting (congrArg Track.worker (setTrack_self _)))
  | cons track queues ih =>
    intro s hworker
    refine .discard hworker ?_
    rw [discardNext]
    cases hframes : (s.tracks track).frames with
    | none => exact ih _ (congrArg Track.worker (setTrack_self _))
    | some queue =>
      refine .emptying ih queue.queue _ (queue.close []).2 (congrArg Track.worker (setTrack_self _)) ?_ rfl
      refine (setTrack_same Track.frames ?_ track).trans (congrArg Track.frames (setTrack_self _))
      rfl

theorem Ends.first {w : Worker} (hworker : (s.tracks video).worker = some w) (hfirst : w.first = true) :
    s.Ends video := by
  cases w with
  | discarding first e closed queues =>
    cases closed with
    | false => exact .discarding queues s hworker
    | true =>
      cases queues with
      | nil => exact .discard hworker (.reporting (congrArg Track.worker (setTrack_self _)))
      | cons track queues =>
        cases hframes : (s.tracks track).frames with
        | none =>
          refine .discard hworker ?_
          rw [discardNext, hframes]
          exact .discarding queues _ (congrArg Track.worker (setTrack_self _))
        | some queue => exact .emptying (.discarding queues) queue.queue s queue hworker hframes rfl
  | reporting first e => exact .reporting hworker
  | entering => cases hfirst
  | popping => cases hfirst
  | checking frame => cases hfirst
  | encoding last place => cases hfirst
  | failing last e => cases hfirst
  | done => cases hfirst

/-! ### Whole runs -/

/-- When `Stop` returns there is no worker. -/
theorem Coherent.stopped (hc : Coherent s) (hstep : Stepped s events s') (hstopped : .stopped ∈ events) :
    (∀ v, (s.tracks v).worker = none) ∧ s'.error = s.error := by
  cases hstep with
  | cleared howner hfree => exact ⟨fun v => (hc.tracks v).joined (by rw [howner]; rfl), rfl⟩
  | refused hrefusal =>
    rw [← List.mem_singleton.mp hstopped] at hrefusal
    exact hrefusal.elim
  | unpushed hproducer hrefusal =>
    rw [← List.mem_singleton.mp hstopped] at hrefusal
    exact hrefusal.elim
  | failed hworker hfree =>
    split at hstopped
    · cases List.mem_singleton.mp hstopped
    · cases hstopped
  | reported hworker =>
    split at hstopped
    · cases List.mem_singleton.mp hstopped
    · cases hstopped
  | _ => simp at hstopped

/-- Both queues are empty, and `OnError`, where it was set, was called once, with the failure. -/
def Settled (history : List Event) (s : AvEncoder) (e : Exception) : Prop :=
  (∀ t, (s.tracks t).items = []) ∧ ∀ p ∈ runs history, reports history = if p.2 then [e] else []

omit [Libav] in
theorem Recorded.settled {e : Exception} (h : Recorded history s e)
    (hnone : ∀ u w, (s.tracks u).worker = some w → w.first = false) : Settled history s e := by
  rcases h.progress with ⟨v, w, hhandling⟩ | hhandled
  · exact absurd ((hnone v w hhandling.worker).symm.trans hhandling.first) (by decide)
  · exact ⟨hhandled.emptied, hhandled.told⟩

/-- The worker that handles the failure needs no other thread. -/
theorem Books.settles (h : Books history s) {e : Exception} (hrecorded : Recorded history s e)
    (hfailures : failures history = [e]) :
    ∃ v n later s', Transition.execute next s (List.replicate n (.work v none)) = some (later, s') ∧
      Settled (history ++ later) s' e := by
  rcases hrecorded.progress with ⟨v, w, hhandling⟩ | hhandled
  · obtain ⟨n, later, s', hacts, hdone, hothers, hevents⟩ := Ends.first hhandling.worker hhandling.first
    have hrun : system.Run s later s' := Transition.execute_run (T := system) (fun _ act _ _ h => ⟨act, h⟩) hacts
    have hlater := h.run hrun
    refine ⟨v, n, later, s', hacts, ?_⟩
    have hnone : ∀ u w, (s'.tracks u).worker = some w → w.first = false := by
      intro u w' hw'
      by_cases hu : u = v
      · subst hu
        obtain rfl := Option.some.inj (hdone.symm.trans hw')
        rfl
      · exact hhandling.others u hu w' ((hothers u hu).symm.trans hw')
    have hsame : failures (history ++ later) = failures history :=
      Sessions.select_same (fun e he => (hevents e he).1) fun e he => (hevents e he).2
    rcases hlater.failure with ⟨hnil, -⟩ | ⟨e', he', hrecorded'⟩
    · rw [hsame, hfailures] at hnil
      cases hnil
    · rw [hsame, hfailures] at he'
      obtain rfl := (List.cons.inj he').1
      exact hrecorded'.settled hnone
  · refine ⟨true, 0, [], s, rfl, ?_⟩
    rw [List.append_nil]
    exact ⟨hhandled.emptied, hhandled.told⟩

end

end AvEncoder

end MwStreamer
