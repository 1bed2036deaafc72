import Mathlib.Data.List.Perm.Basic
import MwStreamer.Filter.AvMediaFilter
import MwStreamer.Library.Sessions

/-!
# Sessions of the business filter

`Stepped` lists what one step can do.  `Sound` says how the counter, the flags and the waiting `Stop` calls go
together in every reachable state, and `Told` what the events since the last `Start` say about them.
-/

namespace MwStreamer

namespace AvMediaFilter

open Impl

namespace Impl

/-- A successful `Start` opens a session. -/
def Event.opens : Event → Bool
  | .started => true
  | _ => false

def Event.isOnStop : Event → Bool
  | .onStop => true
  | _ => false

def Event.isStopBegan : Event → Bool
  | .stopBegan => true
  | _ => false

def Event.isEntered : Event → Bool
  | .entered _ => true
  | _ => false

def Event.isCalled : Event → Bool
  | .called _ => true
  | _ => false

/-- The call with this ticket is admitted. -/
def Event.admits (ticket : ℕ) : Event → Bool
  | .entered t => t == ticket
  | _ => false

/-- The call with this ticket calls its callback. -/
def Event.calls (ticket : ℕ) : Event → Bool
  | .called t => t == ticket
  | _ => false

/-- The call with this ticket ends. -/
def Event.finishes (ticket : ℕ) : Event → Bool
  | .finished t _ => t == ticket
  | _ => false

/-- The failure of a call or of `OnReset`. -/
def Event.failure? : Event → Option Exception
  | .finished _ result => Impl.failure? result
  | .resetFailed e => some e
  | _ => none

/-- After this event of a session no further frame is admitted in it. -/
def Event.seals (e : Event) : Bool := e.isStopBegan || e.failure?.isSome

/-- Events of steps that leave the filter as it is. -/
def Event.idle : Event → Bool
  | .unstarted _ | .passed _ | .rejected _ | .stopReturned _ _ | .resetRejected _ | .onReset => true
  | _ => false

/-- The call waits for its callback. -/
def Phase.isEntered : Phase → Bool
  | .entered => true
  | _ => false

/-- The business callback of the call is running. -/
def Phase.isCalled : Phase → Bool
  | .called => true
  | _ => false

variable {e : Event}

theorem Event.idle_opens (h : e.idle = true) : e.opens = false := by
  cases e <;> first | rfl | cases h

theorem Event.idle_isOnStop (h : e.idle = true) : e.isOnStop = false := by
  cases e <;> first | rfl | cases h

theorem Event.idle_isEntered (h : e.idle = true) : e.isEntered = false := by
  cases e <;> first | rfl | cases h

theorem Event.idle_isCalled (h : e.idle = true) : e.isCalled = false := by
  cases e <;> first | rfl | cases h

theorem Event.idle_isStopBegan (h : e.idle = true) : e.isStopBegan = false := by
  cases e <;> first | rfl | cases h

theorem Event.idle_failure (h : e.idle = true) : e.failure? = none := by
  cases e <;> first | rfl | cases h

end Impl

namespace Serving

variable {s s' : Serving} {events history : List Event}

/-! ### What one step can do -/

/-- A call gets on to another phase. -/
def phase (s : Serving) (i : ℕ) (call : Call) (phase : Phase) : Serving :=
  { s with calls := s.calls.set i { call with phase := phase } }

/-- The session is over. -/
def ended (s : Serving) : Serving := { s with impl := { s.impl with started := false, stopping := false } }

/-- What the `Stop` that does the work emits at its end. -/
def farewell (s : Serving) (session : ℕ) (thrown : Option Exception) : List Event :=
  if s.impl.onStop then [.onStop, .stopReturned (some session) thrown] else [.stopReturned (some session) none]

inductive Stepped (s : Serving) : List Event → Serving → Prop where
  | configured {onStop onReset : Bool} {onFrame : Bool → Bool} (hstarted : s.impl.started = false) : Stepped s []
      { s with impl := { s.impl with onStop := onStop, onReset := onReset, onFrame := onFrame } }
  | idle {events : List Event} {resets : ℕ} (hidle : ∀ e ∈ events, e.idle = true)
      (hreturned : ∀ k thrown, .stopReturned (some k) thrown ∉ events) : Stepped s events { s with resets := resets }
  | started (hstarted : s.impl.started = false) : Stepped s [.started]
      { s with impl := { s.impl with error := none, started := true }, session := s.session + 1 }
  | entered {call : Call} (hhealthy : s.healthy = true) (hsession : call.session = s.session)
      (hticket : call.ticket = s.admitted) (hphase : call.phase = .entered) : Stepped s [.entered s.admitted]
      { s with
        impl := { s.impl with activeCalls := s.impl.activeCalls + 1 }
        admitted := s.admitted + 1
        calls := s.calls ++ [call] }
  | called {i : ℕ} {call : Call} (hcall : s.calls[i]? = some call) (hphase : call.phase = .entered) :
      Stepped s [.called call.ticket] (s.phase i call .called)
  | answered {i : ℕ} {call : Call} {result : Except Exception AvDecoderReadResult} (hcall : s.calls[i]? = some call) :
      Stepped s [] (s.phase i call (.answered result))
  | finished {i : ℕ} {call : Call} {result : Except Exception AvDecoderReadResult} (hcall : s.calls[i]? = some call)
      (hphase : call.phase = .answered result) : Stepped s [.finished call.ticket result]
      { s with impl := s.impl.finishProcessing (Impl.failure? result), calls := s.calls.eraseIdx i }
  | joins (hstarted : s.impl.started = true) (hstopping : s.impl.stopping = true) :
      Stepped s [] { s with stops := s.stops ++ [.later s.session] }
  | began (hstarted : s.impl.started = true) (hstopping : s.impl.stopping = false) : Stepped s [.stopBegan]
      { s with impl := { s.impl with stopping := true }, stops := s.stops ++ [.first s.session] }
  | stopped {thrown : Option Exception} (hstarted : s.impl.started = true) (hstopping : s.impl.stopping = false)
      (hactive : s.impl.activeCalls = 0) : Stepped s (.stopBegan :: s.farewell s.session thrown) s.ended
  | finishes {i session : ℕ} {thrown : Option Exception} (hstop : s.stops[i]? = some (.first session))
      (hactive : s.impl.activeCalls = 0) : Stepped s (s.farewell session thrown)
      { s with stops := s.stops.eraseIdx i }.ended
  | leaves {i session : ℕ} (hstop : s.stops[i]? = some (.later session)) (hstopping : s.impl.stopping = false) :
      Stepped s [.stopReturned (some session) none] { s with stops := s.stops.eraseIdx i }
  | resetFailed {e : Exception} {resets : ℕ} (herror : s.impl.error = none) : Stepped s [.onReset, .resetFailed e]
      { s with impl := { s.impl with error := some e }, resets := resets }

theorem Stepped.alone {e : Event} (hidle : e.idle = true) (hreturned : ∀ k thrown, e ≠ .stopReturned (some k) thrown) :
    Stepped s [e] s :=
  show Stepped s [e] { s with resets := s.resets } from .idle (fun _ he => List.mem_singleton.mp he ▸ hidle)
    fun k thrown hmem => hreturned k thrown (List.mem_singleton.mp hmem).symm

theorem stepped_start (thrown : Option Exception) : Stepped s (s.start thrown).1 (s.start thrown).2 := by
  unfold start
  split
  · exact .alone rfl nofun
  · rename_i hstarted
    cases thrown with
    | some e => exact .alone rfl nofun
    | none => exact .started (by simpa using hstarted)

theorem stepped_process (video : Bool) (input : AvDecoderReadResult) (consume : Bool) :
    Stepped s (s.process video input consume).1 (s.process video input consume).2 := by
  unfold process
  split
  · exact .alone rfl nofun
  rename_i hhealthy
  split
  · exact .alone rfl nofun
  split
  · exact .alone rfl nofun
  split
  · exact .alone rfl nofun
  exact .entered (by simpa using hhealthy) rfl rfl rfl

theorem stepped_advance {i : ℕ} {act : CallAct} (h : s.advance i act = some (events, s')) : Stepped s events s' := by
  unfold advance at h
  split at h
  · cases h
  rename_i call hcall
  split at h
  · obtain ⟨rfl, rfl⟩ := Prod.mk.inj (Option.some.inj h)
    exact .answered hcall
  · rename_i hphase
    obtain ⟨rfl, rfl⟩ := Prod.mk.inj (Option.some.inj h)
    exact .called hcall hphase
  · obtain ⟨rfl, rfl⟩ := Prod.mk.inj (Option.some.inj h)
    exact .answered hcall
  · rename_i hphase
    obtain ⟨rfl, rfl⟩ := Prod.mk.inj (Option.some.inj h)
    exact .finished hcall hphase
  · cases h

theorem stepped_stop (thrown : Option Exception) : Stepped s (s.stop thrown).1 (s.stop thrown).2 := by
  unfold stop
  split
  · exact .alone rfl nofun
  rename_i hstarted
  split
  · rename_i hstopping
    exact .joins (by simpa using hstarted) hstopping
  rename_i hstopping
  show Stepped s (if _ then _ else _ : List Event × Serving).1 (if _ then _ else _ : List Event × Serving).2
  split
  · rename_i hactive
    exact .stopped (by simpa using hstarted) (by simpa using hstopping) hactive
  · exact .began (by simpa using hstarted) (by simpa using hstopping)

theorem stepped_wake {i : ℕ} {thrown : Option Exception} (h : s.wake i thrown = some (events, s')) :
    Stepped s events s' := by
  unfold wake at h
  split at h
  · cases h
  · rename_i session hstop
    split at h
    · rename_i hactive
      obtain ⟨rfl, rfl⟩ := Prod.mk.inj (Option.some.inj h)
      exact .finishes hstop hactive
    · cases h
  · rename_i session hstop
    split at h
    · cases h
    · rename_i hstopping
      obtain ⟨rfl, rfl⟩ := Prod.mk.inj (Option.some.inj h)
      exact .leaves hstop (by simpa using hstopping)

theorem stepped_resetEnd (resets : ℕ) (thrown : Option Exception) :
    Stepped s ({ s with resets := resets }.resetEnd thrown).1 ({ s with resets := resets }.resetEnd thrown).2 := by
  unfold resetEnd
  split
  · exact .idle (by simp [Event.idle]) (by simp)
  rename_i herror
  split
  · exact .idle (by simp) (by simp)
  cases thrown with
  | none => exact .idle (by simp [Event.idle]) (by simp)
  | some e => exact .resetFailed (by simpa using herror)

theorem stepped_reset (thrown : Option Exception) : Stepped s (s.reset thrown).1 (s.reset thrown).2 := by
  unfold reset
  split
  · exact .alone rfl nofun
  split
  · exact stepped_resetEnd s.resets thrown
  · exact .idle (by simp) (by simp)

theorem stepped {act : Act} (h : s.next act = some (events, s')) : Stepped s events s' := by
  cases act with
  | configure onStop onReset onFrame =>
    rw [next] at h
    split at h
    · cases h
    · rename_i hstarted
      obtain ⟨rfl, rfl⟩ := Prod.mk.inj (Option.some.inj h)
      exact .configured (by simpa using hstarted)
  | start thrown =>
    obtain ⟨hevents, hs⟩ := Prod.mk.inj (Option.some.inj h)
    exact hevents ▸ hs ▸ stepped_start thrown
  | process video input consume =>
    obtain ⟨hevents, hs⟩ := Prod.mk.inj (Option.some.inj h)
    exact hevents ▸ hs ▸ stepped_process video input consume
  | advance i act => exact stepped_advance h
  | stop thrown =>
    obtain ⟨hevents, hs⟩ := Prod.mk.inj (Option.some.inj h)
    exact hevents ▸ hs ▸ stepped_stop thrown
  | wake i thrown => exact stepped_wake h
  | reset thrown =>
    obtain ⟨hevents, hs⟩ := Prod.mk.inj (Option.some.inj h)
    exact hevents ▸ hs ▸ stepped_reset thrown
  | resume thrown =>
    rw [next, resume] at h
    split at h
    · cases h
    · obtain ⟨hevents, hs⟩ := Prod.mk.inj (Option.some.inj h)
      exact hevents ▸ hs ▸ stepped_resetEnd _ thrown

/-! ### The counter, the flags and the waiting calls -/

structure Sound (s : Serving) : Prop where
  counted : s.impl.activeCalls = s.calls.length
  serving : s.calls ≠ [] → s.impl.started = true
  current : ∀ call ∈ s.calls, call.session = s.session
  stopping : s.impl.stopping = true → s.impl.started = true
  first : s.stops.countP Waiter.isFirst = if s.impl.stopping then 1 else 0
  later : ∀ k, .later k ∈ s.stops → k ≤ s.session ∧ (k = s.session → s.impl.started = true → s.impl.stopping = true)

theorem Sound.idle (h : Sound s) (hcalls : s.impl.activeCalls = 0) : s.calls = [] :=
  List.length_eq_zero_iff.mp (h.counted.symm.trans hcalls)

theorem Sound.closed (h : Sound s) (hstarted : s.impl.started = false) : s.calls = [] ∧ s.impl.stopping = false := by
  constructor
  · by_contra hcalls
    exact absurd (hstarted.symm.trans (h.serving hcalls)) (by decide)
  · cases hstopping : s.impl.stopping with
    | false => rfl
    | true => exact absurd (hstarted.symm.trans (h.stopping hstopping)) (by decide)

/-- The `Stop` that does the work waits only while it is under way. -/
theorem Sound.working (h : Sound s) {i k : ℕ} (hstop : s.stops[i]? = some (.first k)) : s.impl.stopping = true := by
  have hpos : 0 < s.stops.countP Waiter.isFirst :=
    List.countP_pos_iff.mpr ⟨_, List.mem_of_getElem? hstop, rfl⟩
  rw [h.first] at hpos
  cases hstopping : s.impl.stopping with
  | true => rfl
  | false => rw [hstopping] at hpos; exact absurd hpos (by decide)

theorem countP_eraseIdx {α : Type} {p : α → Bool} {l : List α} {i : ℕ} {a : α} (h : l[i]? = some a) :
    l.countP p = (l.eraseIdx i).countP p + if p a then 1 else 0 := by
  obtain ⟨hi, rfl⟩ := List.getElem?_eq_some_iff.mp h
  have hperm := (List.getElem_cons_eraseIdx_perm hi).countP_eq p
  rw [List.countP_cons] at hperm
  exact hperm.symm

theorem Sound.phase (h : Sound s) {i : ℕ} {call : Call} {phase : Phase} (hcall : s.calls[i]? = some call) :
    Sound (s.phase i call phase) where
  counted := h.counted.trans List.length_set.symm
  serving hne := h.serving fun hnil => by
    rw [hnil] at hcall
    cases hcall
  current call' hmem := by
    rcases List.mem_or_eq_of_mem_set hmem with hold | rfl
    · exact h.current _ hold
    · exact h.current call (List.mem_of_getElem? hcall)
  stopping := h.stopping
  first := h.first
  later := h.later

/-- The session ends with no call in it. -/
theorem Sound.ended (h : Sound s) (stops : List Waiter) (hcalls : s.calls = [])
    (hstops : ∀ stop ∈ stops, stop ∈ s.stops) (hfirst : stops.countP Waiter.isFirst = 0) :
    Sound { s with stops := stops }.ended where
  counted := h.counted
  serving hne := absurd hcalls hne
  current := h.current
  stopping hcontra := by cases hcontra
  first := hfirst
  later k hk := ⟨(h.later k (hstops _ hk)).1, fun _ hcontra => (by cases hcontra)⟩

theorem Sound.step (h : Sound s) (hstep : Stepped s events s') : Sound s' := by
  cases hstep with
  | configured hstarted => exact ⟨h.counted, h.serving, h.current, h.stopping, h.first, h.later⟩
  | idle hidle => exact ⟨h.counted, h.serving, h.current, h.stopping, h.first, h.later⟩
  | started hstarted =>
    obtain ⟨hcalls, -⟩ := h.closed hstarted
    refine ⟨h.counted, fun _ => rfl, fun call hmem => ?_, fun _ => rfl, h.first, fun k hk => ?_⟩
    · rw [hcalls] at hmem
      cases hmem
    · have hle := (h.later k hk).1
      exact ⟨by show k ≤ s.session + 1; omega, fun hcontra => absurd hcontra (by show k ≠ s.session + 1; omega)⟩
  | @entered call hhealthy hsession hticket hphase =>
    have hstarted : s.impl.started = true := by
      rw [healthy, Bool.and_eq_true, Bool.and_eq_true] at hhealthy
      exact hhealthy.1.1
    refine ⟨?_, fun _ => hstarted, fun call' hmem => ?_, h.stopping, h.first, h.later⟩
    · show s.impl.activeCalls + 1 = (s.calls ++ [call]).length
      rw [List.length_append, h.counted]
      rfl
    · rcases List.mem_append.mp hmem with hold | hnew
      · exact h.current _ hold
      · rw [List.mem_singleton.mp hnew]
        exact hsession
  | called hcall hphase => exact h.phase hcall
  | answered hcall => exact h.phase hcall
  | @finished i call result hcall hphase =>
    have hi : i < s.calls.length := (List.getElem?_eq_some_iff.mp hcall).1
    refine ⟨?_, fun _ => h.serving fun hnil => ?_, fun call' hmem => h.current _ (List.mem_of_mem_eraseIdx hmem),
      h.stopping, h.first, h.later⟩
    · show s.impl.activeCalls - 1 = (s.calls.eraseIdx i).length
      rw [List.length_eraseIdx_of_lt hi, h.counted]
    · rw [hnil] at hcall
      cases hcall
  | joins hstarted hstopping =>
    refine ⟨h.counted, h.serving, h.current, h.stopping, ?_, fun k hk => ?_⟩
    · show (s.stops ++ [Waiter.later s.session]).countP Waiter.isFirst = _
      rw [List.countP_append]
      exact h.first
    · rcases List.mem_append.mp hk with hold | hnew
      · exact h.later k hold
      · obtain rfl := Waiter.later.inj (List.mem_singleton.mp hnew)
        exact ⟨Nat.le_refl _, fun _ _ => hstopping⟩
  | began hstarted hstopping =>
    refine ⟨h.counted, h.serving, h.current, fun _ => hstarted, ?_, fun k hk => ?_⟩
    · show (s.stops ++ [Waiter.first s.session]).countP Waiter.isFirst = 1
      rw [List.countP_append, h.first, hstopping]
      rfl
    · rcases List.mem_append.mp hk with hold | hnew
      · exact ⟨(h.later k hold).1, fun _ _ => rfl⟩
      · cases List.mem_singleton.mp hnew
  | stopped hstarted hstopping hactive =>
    refine h.ended s.stops (h.idle hactive) (fun _ hmem => hmem) ?_
    rw [h.first, hstopping]
    rfl
  | @finishes i k thrown hstop hactive =>
    refine h.ended _ (h.idle hactive) (fun _ hmem => List.mem_of_mem_eraseIdx hmem) ?_
    have hcount := countP_eraseIdx (p := Waiter.isFirst) hstop
    rw [h.first, h.working hstop] at hcount
    exact (Nat.succ.inj hcount).symm
  | @leaves i k hstop hstopping =>
    refine ⟨h.counted, h.serving, h.current, h.stopping, ?_, fun k' hk' => h.later k' (List.mem_of_mem_eraseIdx hk')⟩
    have hcount := countP_eraseIdx (p := Waiter.isFirst) hstop
    rw [h.first] at hcount
    exact hcount.symm
  | resetFailed herror => exact ⟨h.counted, h.serving, h.current, h.stopping, h.first, h.later⟩

theorem sound_init : Sound {} := by
  refine ⟨rfl, fun hne => absurd rfl hne, fun _ hmem => ?_, fun hcontra => ?_, rfl, fun _ hmem => ?_⟩
  · cases hmem
  · cases hcontra
  · cases hmem

theorem sound_reachable (h : system.Reachable s) : Sound s := by
  refine h.invariant (fun s hinit => ?_) fun s events s' _ hsound hstep => ?_
  · obtain rfl : s = {} := hinit
    exact sound_init
  · obtain ⟨act, hact⟩ := hstep
    exact hsound.step (stepped hact)

/-! ### What the events of a session say -/

/-- The calls that wait for their callbacks. -/
def waiting (s : Serving) : ℕ := s.calls.countP fun call => call.phase.isEntered

/-- Each admission is followed by at most one callback. -/
structure Told (history : List Event) (s : Serving) : Prop where
  once : (Sessions.latest Event.opens history).countP Event.isOnStop + (if s.impl.started then 1 else 0) ≤ 1
  starts : history.countP Event.isOnStop + (if s.impl.started then 1 else 0) ≤ history.countP Event.opens
  stopped : ∀ e ∈ Sessions.latest Event.opens history, e.isStopBegan = true →
    s.impl.started = true → s.impl.stopping = true
  sealed : (Sessions.latest Event.opens history).Pairwise fun x e => x.seals = true → e.isEntered = false
  error : s.impl.error = (Sessions.select Event.opens Event.failure? history).head?
  tried : (Sessions.latest Event.opens history).countP Event.isCalled + s.waiting ≤
    (Sessions.latest Event.opens history).countP Event.isEntered

theorem pairwise_extended {history events : List Event}
    (h : history.Pairwise fun x e => x.seals = true → e.isEntered = false)
    (hevents : ∀ e ∈ events, e.isEntered = false) :
    (history ++ events).Pairwise fun x e => x.seals = true → e.isEntered = false :=
  List.pairwise_append.mpr ⟨h, List.pairwise_of_forall_mem_list fun _ _ e he _ => hevents e he,
    fun _ _ e he _ => hevents e he⟩

/-- Steps that admit no frame and open no session. -/
theorem Told.extend (h : Told history s) (hopens : ∀ e ∈ events, e.opens = false)
    (hentered : ∀ e ∈ events, e.isEntered = false)
    (honce : events.countP Event.isOnStop + (if s'.impl.started then 1 else 0) ≤ if s.impl.started then 1 else 0)
    (hstopped : (s'.impl.started = true → s.impl.started = true) ∧
      ((s.impl.stopping = true ∨ ∃ e ∈ events, e.isStopBegan = true) → s'.impl.started = true →
        s'.impl.stopping = true))
    (herror : s'.impl.error = s.impl.error.or (events.filterMap Event.failure?).head?)
    (htried : events.countP Event.isCalled + s'.waiting ≤ s.waiting) : Told (history ++ events) s' := by
  have hlatest : Sessions.latest Event.opens (history ++ events) = Sessions.latest Event.opens history ++ events :=
    Sessions.latest_append hopens
  have hzero : events.countP Event.opens = 0 :=
    List.countP_eq_zero.mpr fun e he => by rw [hopens e he]; decide
  have hnone : events.countP Event.isEntered = 0 :=
    List.countP_eq_zero.mpr fun e he => by rw [hentered e he]; decide
  refine ⟨?_, ?_, ?_, ?_, ?_, ?_⟩
  · rw [hlatest, List.countP_append]
    have hbefore := h.once
    omega
  · rw [List.countP_append, List.countP_append, hzero]
    have hbefore := h.starts
    omega
  · intro e he hbegan hstarted
    rw [hlatest] at he
    rcases List.mem_append.mp he with hold | hnew
    · exact hstopped.2 (.inl (h.stopped e hold hbegan (hstopped.1 hstarted))) hstarted
    · exact hstopped.2 (.inr ⟨e, hnew, hbegan⟩) hstarted
  · rw [hlatest]
    exact pairwise_extended h.sealed hentered
  · rw [herror, h.error, Sessions.select_append hopens, List.head?_append]
  · rw [hlatest, List.countP_append, List.countP_append, hnone]
    have hbefore := h.tried
    omega

/-- In a session that admits frames nothing has happened that ends it. -/
theorem Told.unsealed (h : Told history s) (hhealthy : s.healthy = true) :
    ∀ e ∈ Sessions.latest Event.opens history, e.seals = false := by
  rw [healthy, Bool.and_eq_true, Bool.and_eq_true, Bool.not_eq_true', Option.isNone_iff_eq_none] at hhealthy
  obtain ⟨⟨hstarted, hstopping⟩, herror⟩ := hhealthy
  intro e he
  rw [Event.seals, Bool.or_eq_false_iff]
  constructor
  · cases hbegan : e.isStopBegan with
    | false => rfl
    | true => exact absurd (hstopping.symm.trans (h.stopped e he hbegan hstarted)) (by decide)
  · cases hfailure : e.failure? with
    | none => rfl
    | some failure =>
      have hnil : Sessions.select Event.opens Event.failure? history = [] :=
        List.head?_eq_none_iff.mp (h.error.symm.trans herror)
      have hmem : failure ∈ Sessions.select Event.opens Event.failure? history :=
        List.mem_filterMap.mpr ⟨e, he, hfailure⟩
      rw [hnil] at hmem
      cases hmem

theorem countP_phase {p : Call → Bool} {i : ℕ} {call : Call} (phase : Phase) (hcall : s.calls[i]? = some call) :
    (s.phase i call phase).calls.countP p + (if p call then 1 else 0) =
      s.calls.countP p + if p { call with phase := phase } then 1 else 0 := by
  obtain ⟨hi, rfl⟩ := List.getElem?_eq_some_iff.mp hcall
  have hset := List.countP_set (p := p) (a := { s.calls[i] with phase := phase }) hi
  have hle : (if p s.calls[i] then 1 else 0) ≤ s.calls.countP p := by
    split
    · rename_i htrue
      exact List.countP_pos_iff.mpr ⟨_, List.getElem_mem hi, htrue⟩
    · exact Nat.zero_le _
  show (s.calls.set i { s.calls[i] with phase := phase }).countP p + _ = s.calls.countP p + _
  rw [hset]
  show _ - (if p s.calls[i] then 1 else 0) + (if p { s.calls[i] with phase := phase } then 1 else 0) + _ =
    _ + if p { s.calls[i] with phase := phase } then 1 else 0
  omega

theorem waiting_phase {i : ℕ} {call : Call} (phase : Phase) (hcall : s.calls[i]? = some call) :
    (s.phase i call phase).waiting + (if call.phase.isEntered then 1 else 0) =
      s.waiting + if phase.isEntered then 1 else 0 := countP_phase phase hcall

theorem countP_farewell {p : Event → Bool} (hreturned : ∀ k thrown, p (.stopReturned k thrown) = false) (k : ℕ)
    (thrown : Option Exception) : (s.farewell k thrown).countP p = if s.impl.onStop && p .onStop then 1 else 0 := by
  unfold farewell
  cases s.impl.onStop with
  | true =>
    show [Event.onStop, .stopReturned (some k) thrown].countP p = _
    rw [List.countP_cons, List.countP_singleton, hreturned]
    cases p .onStop <;> rfl
  | false =>
    show [Event.stopReturned (some k) none].countP p = _
    rw [List.countP_singleton, hreturned]
    rfl

theorem mem_farewell {e : Event} {k : ℕ} {thrown : Option Exception} (h : e ∈ s.farewell k thrown) :
    e = .onStop ∨ ∃ thrown, e = .stopReturned (some k) thrown := by
  unfold farewell at h
  split at h
  · rcases List.mem_cons.mp h with rfl | h
    · exact .inl rfl
    · exact .inr ⟨thrown, List.mem_singleton.mp h⟩
  · exact .inr ⟨none, List.mem_singleton.mp h⟩

theorem idle_farewell {e : Event} {k : ℕ} {thrown : Option Exception} (h : e ∈ s.farewell k thrown) :
    e.opens = false ∧ e.isEntered = false ∧ e.isCalled = false ∧ e.failure? = none := by
  rcases mem_farewell h with rfl | ⟨thrown', rfl⟩
  · exact ⟨rfl, rfl, rfl, rfl⟩
  · exact ⟨rfl, rfl, rfl, rfl⟩

/-- The session is over: its `OnStop` ran in a session that was started. -/
theorem Told.farewell (h : Told history s) (stops : List Waiter) (lead : List Event) {k : ℕ}
    {thrown : Option Exception} (hstarted : s.impl.started = true) (hlead : ∀ e ∈ lead, e.isStopBegan = true) :
    Told (history ++ (lead ++ s.farewell k thrown)) { s with stops := stops }.ended := by
  have hquiet : ∀ e ∈ lead, e.opens = false ∧ e.isEntered = false ∧ e.isCalled = false ∧ e.failure? = none ∧
      e.isOnStop = false := by
    intro e he
    have hbegan := hlead e he
    cases e <;> first | exact ⟨rfl, rfl, rfl, rfl, rfl⟩ | cases hbegan
  refine h.extend (fun e he => ?_) (fun e he => ?_) ?_ ⟨fun _ => hstarted, fun _ hcontra => (by cases hcontra)⟩ ?_ ?_
  · rcases List.mem_append.mp he with he | he
    · exact (hquiet e he).1
    · exact (idle_farewell he).1
  · rcases List.mem_append.mp he with he | he
    · exact (hquiet e he).2.1
    · exact (idle_farewell he).2.1
  · have hzero : lead.countP Event.isOnStop = 0 :=
      List.countP_eq_zero.mpr fun e he => by rw [(hquiet e he).2.2.2.2]; decide
    have hcount := countP_farewell (s := s) (p := Event.isOnStop) (fun _ _ => rfl) k thrown
    rw [List.countP_append, hzero, hcount, hstarted]
    show 0 + _ + 0 ≤ 1
    split <;> decide
  · have hnone : (lead ++ s.farewell k thrown).filterMap Event.failure? = [] := by
      refine List.filterMap_eq_nil_iff.mpr fun e he => ?_
      rcases List.mem_append.mp he with he | he
      · exact (hquiet e he).2.2.2.1
      · exact (idle_farewell he).2.2.2
    rw [hnone]
    exact (Option.or_none).symm
  · have hzero : (lead ++ s.farewell k thrown).countP Event.isCalled = 0 := by
      refine List.countP_eq_zero.mpr fun e he => ?_
      rcases List.mem_append.mp he with he | he
      · rw [(hquiet e he).2.2.1]
        decide
      · rw [(idle_farewell he).2.2.1]
        decide
    rw [hzero, Nat.zero_add]
    exact Nat.le_refl _

/-- Steps that change none of the flags. -/
theorem Told.idle (h : Told history s) (hidle : ∀ e ∈ events, e.idle = true)
    (hstarted : s'.impl.started = s.impl.started) (hstopping : s'.impl.stopping = s.impl.stopping)
    (herror : s'.impl.error = s.impl.error) (hwaiting : s'.waiting ≤ s.waiting) : Told (history ++ events) s' := by
  have hstop : events.countP Event.isOnStop = 0 :=
    List.countP_eq_zero.mpr fun e he => by rw [Event.idle_isOnStop (hidle e he)]; decide
  have hcalled : events.countP Event.isCalled = 0 :=
    List.countP_eq_zero.mpr fun e he => by rw [Event.idle_isCalled (hidle e he)]; decide
  have hfailure : events.filterMap Event.failure? = [] :=
    List.filterMap_eq_nil_iff.mpr fun e he => Event.idle_failure (hidle e he)
  refine h.extend (fun e he => Event.idle_opens (hidle e he)) (fun e he => Event.idle_isEntered (hidle e he))
    ?_ ?_ ?_ ?_
  · rw [hstop, hstarted, Nat.zero_add]
  · rw [hstarted, hstopping]
    refine ⟨fun hsame => hsame, fun hor _ => ?_⟩
    rcases hor with hsame | ⟨e, he, hbegan⟩
    · exact hsame
    · exact absurd ((Event.idle_isStopBegan (hidle e he)).symm.trans hbegan) (by decide)
  · rw [hfailure, herror]
    exact Option.or_none.symm
  · rw [hcalled, Nat.zero_add]
    exact hwaiting

/-- A step inside a session with one event that does not end it. -/
theorem Told.single (h : Told history s) {e : Event} (hopens : e.opens = false) (hentered : e.isEntered = false)
    (honStop : e.isOnStop = false) (hstarted : s'.impl.started = s.impl.started)
    (hstopping : s.impl.stopping = true ∨ e.isStopBegan = true → s'.impl.stopping = true)
    (herror : s'.impl.error = s.impl.error.or e.failure?)
    (hcalled : (if e.isCalled then 1 else 0) + s'.waiting ≤ s.waiting) : Told (history ++ [e]) s' := by
  refine h.extend (fun e' he => List.mem_singleton.mp he ▸ hopens) (fun e' he => List.mem_singleton.mp he ▸ hentered)
    ?_ ?_ ?_ ?_
  · rw [List.countP_singleton, honStop, hstarted]
    exact (Nat.zero_add _).le
  · rw [hstarted]
    refine ⟨fun hsame => hsame, fun hor _ => hstopping ?_⟩
    rcases hor with hsame | ⟨e', he, hbegan⟩
    · exact .inl hsame
    · exact .inr (List.mem_singleton.mp he ▸ hbegan)
  · rw [herror]
    cases hfailure : e.failure? with
    | none => rw [List.filterMap_cons_none hfailure]; rfl
    | some failure => rw [List.filterMap_cons_some hfailure]; rfl
  · rw [List.countP_singleton]
    exact hcalled

theorem Told.step (h : Told history s) (hsound : Sound s) (hstep : Stepped s events s') :
    Told (history ++ events) s' := by
  cases hstep with
  | configured hstarted =>
    exact h.idle (fun _ he => absurd he List.not_mem_nil) rfl rfl rfl (Nat.le_refl _)
  | @idle events resets hidle hreturned => exact h.idle hidle rfl rfl rfl (Nat.le_refl _)
  | started hstarted =>
    obtain ⟨hcalls, hstopping⟩ := hsound.closed hstarted
    have hlatest : Sessions.latest Event.opens (history ++ [.started]) = [] := Sessions.latest_opened rfl
    refine ⟨?_, ?_, ?_, ?_, ?_, ?_⟩
    · rw [hlatest]
      exact Nat.le_refl 1
    · have hbefore := h.starts
      rw [hstarted] at hbefore
      rw [List.countP_append, List.countP_append]
      show _ + 0 + 1 ≤ _ + 1
      exact Nat.succ_le_succ hbefore
    · intro e he
      rw [hlatest] at he
      cases he
    · rw [hlatest]
      exact .nil
    · rw [Sessions.select_opened rfl]
      rfl
    · rw [hlatest]
      show 0 + s.calls.countP _ ≤ 0
      rw [hcalls]
      exact Nat.le_refl 0
  | @entered call hhealthy hsession hticket hphase =>
    have hlatest : Sessions.latest Event.opens (history ++ [.entered s.admitted]) =
        Sessions.latest Event.opens history ++ [.entered s.admitted] :=
      Sessions.latest_append fun _ he => List.mem_singleton.mp he ▸ rfl
    refine ⟨?_, ?_, ?_, ?_, ?_, ?_⟩
    · rw [hlatest, List.countP_append]
      exact h.once
    · rw [List.countP_append, List.countP_append]
      exact h.starts
    · intro e he hbegan
      rw [hlatest] at he
      rcases List.mem_append.mp he with hold | hnew
      · exact h.stopped e hold hbegan
      · rw [List.mem_singleton.mp hnew] at hbegan
        cases hbegan
    · rw [hlatest]
      refine List.pairwise_append.mpr ⟨h.sealed, List.pairwise_singleton _ _, fun x hx e he hseals => ?_⟩
      exact absurd ((h.unsealed hhealthy x hx).symm.trans hseals) (by decide)
    · rw [Sessions.select_append fun _ he => List.mem_singleton.mp he ▸ rfl]
      show s.impl.error = (_ ++ []).head?
      rw [List.append_nil]
      exact h.error
    · have hbefore := h.tried
      rw [hlatest, List.countP_append, List.countP_append]
      show _ + 0 + (s.calls ++ [call]).countP _ ≤ _ + 1
      rw [List.countP_append, List.countP_singleton, hphase]
      show _ + 0 + (s.waiting + 1) ≤ _ + 1
      omega
  | @called i call hcall hphase =>
    have hwaiting := waiting_phase .called hcall
    rw [hphase] at hwaiting
    refine h.single rfl rfl rfl rfl (fun hor => ?_) Option.or_none.symm ?_
    · rcases hor with hsame | hcontra
      · exact hsame
      · cases hcontra
    · show 1 + (s.phase i call .called).waiting ≤ s.waiting
      rw [Nat.add_comm]
      exact hwaiting.le
  | @answered i call result hcall =>
    have hwaiting := waiting_phase (.answered result) hcall
    refine h.idle (fun _ he => absurd he List.not_mem_nil) rfl rfl rfl ?_
    exact (Nat.le_add_right _ _).trans hwaiting.le
  | @finished i call result hcall hphase =>
    have hcount := countP_eraseIdx (p := fun call : Call => call.phase.isEntered) hcall
    refine h.single rfl rfl rfl rfl (fun hor => ?_) ?_ ?_
    · rcases hor with hsame | hcontra
      · exact hsame
      · cases hcontra
    · exact Option.orElse_eq_or
    · show 0 + (s.calls.eraseIdx i).countP _ ≤ s.waiting
      rw [Nat.zero_add]
      exact (Nat.le_add_right _ _).trans hcount.ge
  | joins hstarted hstopping => exact h.idle (fun _ he => absurd he List.not_mem_nil) rfl rfl rfl (Nat.le_refl _)
  | began hstarted hstopping =>
    exact h.single rfl rfl rfl rfl (fun _ => rfl) Option.or_none.symm (Nat.zero_add _).le
  | @stopped thrown hstarted hstopping hactive =>
    exact h.farewell s.stops [.stopBegan] hstarted fun _ he => List.mem_singleton.mp he ▸ rfl
  | @finishes i k thrown hstop hactive =>
    exact h.farewell _ [] (hsound.stopping (hsound.working hstop)) fun _ he => absurd he List.not_mem_nil
  | leaves hstop hstopping =>
    exact h.idle (fun _ he => List.mem_singleton.mp he ▸ rfl) rfl rfl rfl (Nat.le_refl _)
  | @resetFailed e resets herror =>
    have hran : Told (history ++ [.onReset]) s :=
      h.idle (fun _ he => List.mem_singleton.mp he ▸ rfl) rfl rfl rfl (Nat.le_refl _)
    have hfailed : Told (history ++ [.onReset] ++ [.resetFailed e])
        { s with impl := { s.impl with error := some e }, resets := resets } := by
      refine hran.single rfl rfl rfl rfl (fun hor => ?_) ?_ (Nat.zero_add _).le
      · rcases hor with hsame | hcontra
        · exact hsame
        · cases hcontra
      · show some e = s.impl.error.or (some e)
        rw [herror]
        rfl
    rwa [List.append_assoc] at hfailed

theorem told_init : Told [] {} := by
  refine ⟨Nat.zero_le 1, Nat.le_refl 0, ?_, .nil, rfl, Nat.le_refl 0⟩
  intro e he
  cases he

theorem told (h : system.Run {} history s) : Told history s := by
  refine h.induct (.init rfl) told_init fun history s events s' hs htold hstep => ?_
  obtain ⟨act, hact⟩ := hstep
  exact htold.step (sound_reachable hs) (stepped hact)

/-! ### The calls of the callbacks -/

/-- The call with this ticket waits for its callback. -/
def waitsFor (s : Serving) (ticket : ℕ) : ℕ :=
  s.calls.countP fun call => call.ticket == ticket && call.phase.isEntered

/-- What became of each call that was admitted. -/
structure Ticketed (history : List Event) (s : Serving) : Prop where
  admitted : ∀ ticket, history.countP (Event.admits ticket) = if ticket < s.admitted then 1 else 0
  held : ∀ ticket, s.calls.countP (·.ticket == ticket) + history.countP (Event.finishes ticket) =
    history.countP (Event.admits ticket)
  tried : ∀ ticket, history.countP (Event.calls ticket) + s.waitsFor ticket ≤ history.countP (Event.admits ticket)
  ordered : ∀ ticket, history.Pairwise fun x e => x.finishes ticket = true → e.calls ticket = false

theorem Ticketed.once (h : Ticketed history s) (ticket : ℕ) : history.countP (Event.admits ticket) ≤ 1 := by
  rw [h.admitted ticket]
  split <;> decide

/-- Events of no call. -/
def Unticketed (events : List Event) : Prop :=
  ∀ e ∈ events, ∀ ticket, e.admits ticket = false ∧ e.calls ticket = false ∧ e.finishes ticket = false

theorem unticketed_nil : Unticketed [] := fun e he => by cases he

theorem unticketed_single {e : Event}
    (h : ∀ ticket, e.admits ticket = false ∧ e.calls ticket = false ∧ e.finishes ticket = false) : Unticketed [e] :=
  fun _ he => List.mem_singleton.mp he ▸ h

theorem unticketed_idle (h : ∀ e ∈ events, e.idle = true) : Unticketed events := by
  intro e he ticket
  have hidle := h e he
  cases e <;> first | exact ⟨rfl, rfl, rfl⟩ | cases hidle

theorem unticketed_farewell (k : ℕ) (thrown : Option Exception) : Unticketed (s.farewell k thrown) := by
  intro e he ticket
  rcases mem_farewell he with rfl | ⟨thrown', rfl⟩
  · exact ⟨rfl, rfl, rfl⟩
  · exact ⟨rfl, rfl, rfl⟩

theorem Unticketed.append {later : List Event} (h : Unticketed events) (hlater : Unticketed later) :
    Unticketed (events ++ later) :=
  fun e he => (List.mem_append.mp he).elim (h e) (hlater e)

theorem Ticketed.keep (h : Ticketed history s) (hevents : Unticketed events) (hadmitted : s'.admitted = s.admitted)
    (hheld : ∀ ticket, s'.calls.countP (·.ticket == ticket) = s.calls.countP (·.ticket == ticket))
    (hwaits : ∀ ticket, s'.waitsFor ticket ≤ s.waitsFor ticket) : Ticketed (history ++ events) s' := by
  have hnone : ∀ {p : Event → Bool}, (∀ e ∈ events, p e = false) → (history ++ events).countP p = history.countP p := by
    intro p hp
    have hzero : events.countP p = 0 := List.countP_eq_zero.mpr fun e he => by rw [hp e he]; decide
    rw [List.countP_append, hzero, Nat.add_zero]
  refine ⟨fun ticket => ?_, fun ticket => ?_, fun ticket => ?_, fun ticket => ?_⟩
  · rw [hnone fun e he => (hevents e he ticket).1, hadmitted]
    exact h.admitted ticket
  · rw [hnone fun e he => (hevents e he ticket).1, hnone fun e he => (hevents e he ticket).2.2, hheld]
    exact h.held ticket
  · rw [hnone fun e he => (hevents e he ticket).1, hnone fun e he => (hevents e he ticket).2.1]
    exact (Nat.add_le_add_left (hwaits ticket) _).trans (h.tried ticket)
  · exact List.pairwise_append.mpr ⟨h.ordered ticket,
      List.pairwise_of_forall_mem_list fun _ _ e he _ => (hevents e he ticket).2.1,
      fun _ _ e he _ => (hevents e he ticket).2.1⟩

/-- Steps that leave the calls alone. -/
theorem Ticketed.same (h : Ticketed history s) (hevents : Unticketed events) (hadmitted : s'.admitted = s.admitted)
    (hcalls : s'.calls = s.calls) : Ticketed (history ++ events) s' := by
  refine h.keep hevents hadmitted (fun _ => ?_) fun _ => ?_
  · rw [hcalls]
  · rw [waitsFor, waitsFor, hcalls]

/-- A frame is admitted. -/
theorem Ticketed.entered (h : Ticketed history s) (impl : Impl) {call : Call} (hticket : call.ticket = s.admitted)
    (hphase : call.phase = .entered) : Ticketed (history ++ [.entered s.admitted])
      { s with impl := impl, admitted := s.admitted + 1, calls := s.calls ++ [call] } := by
  have hnew : ∀ ticket, (history ++ [Event.entered s.admitted]).countP (Event.admits ticket) =
      history.countP (Event.admits ticket) + if s.admitted == ticket then 1 else 0 := by
    intro ticket
    rw [List.countP_append, List.countP_singleton]
    rfl
  refine ⟨fun ticket => ?_, fun ticket => ?_, fun ticket => ?_, fun ticket => ?_⟩
  · rw [hnew, h.admitted ticket]
    show _ = if ticket < s.admitted + 1 then 1 else 0
    simp only [beq_iff_eq]
    split <;> split <;> split <;> omega
  · rw [hnew, ← h.held ticket, List.countP_append, List.countP_append, List.countP_singleton, hticket]
    show _ + _ + (_ + 0) = _
    omega
  · have hbefore := h.tried ticket
    have hwaits : waitsFor { s with impl := impl, admitted := s.admitted + 1, calls := s.calls ++ [call] } ticket =
        s.waitsFor ticket + if s.admitted == ticket then 1 else 0 := by
      rw [waitsFor, List.countP_append, List.countP_singleton, hticket, hphase, Phase.isEntered, Bool.and_true]
      rfl
    rw [hnew, hwaits, List.countP_append]
    show _ + 0 + _ ≤ _
    omega
  · exact List.pairwise_append.mpr ⟨h.ordered ticket, List.pairwise_singleton _ _, fun _ _ e he _ =>
      List.mem_singleton.mp he ▸ rfl⟩

/-- The context of a frame is bound and the callback called. -/
theorem Ticketed.called (h : Ticketed history s) {i : ℕ} {call : Call} (hcall : s.calls[i]? = some call)
    (hphase : call.phase = .entered) : Ticketed (history ++ [.called call.ticket]) (s.phase i call .called) := by
  have hnone : ∀ ticket, (history ++ [Event.called call.ticket]).countP (Event.admits ticket) =
      history.countP (Event.admits ticket) := fun ticket => List.countP_append
  have hheld : ∀ ticket, (s.phase i call .called).calls.countP (·.ticket == ticket) =
      s.calls.countP (·.ticket == ticket) := fun ticket => Nat.add_right_cancel (countP_phase .called hcall)
  refine ⟨fun ticket => ?_, fun ticket => ?_, fun ticket => ?_, fun ticket => ?_⟩
  · rw [hnone]
    exact h.admitted ticket
  · rw [hnone, hheld, ← h.held ticket, List.countP_append]
    rfl
  · have hbefore := h.tried ticket
    have hwaits : (s.phase i call .called).waitsFor ticket + (if call.ticket == ticket then 1 else 0) =
        s.waitsFor ticket := by
      have hcount := countP_phase (p := fun call : Call => call.ticket == ticket && call.phase.isEntered) .called hcall
      dsimp only at hcount
      rw [hphase, Phase.isEntered, Bool.and_true, show Phase.called.isEntered = false from rfl,
        Bool.and_false] at hcount
      exact hcount
    rw [hnone, List.countP_append, List.countP_singleton]
    show _ + (if call.ticket == ticket then 1 else 0) + _ ≤ _
    omega
  · refine List.pairwise_append.mpr ⟨h.ordered ticket, List.pairwise_singleton _ _, fun x hx e he hfinishes => ?_⟩
    rw [List.mem_singleton.mp he]
    by_contra hcalls
    rw [Bool.not_eq_false] at hcalls
    have hopen : 0 < s.calls.countP (·.ticket == ticket) :=
      List.countP_pos_iff.mpr ⟨call, List.mem_of_getElem? hcall, hcalls⟩
    have hfinished : 0 < history.countP (Event.finishes ticket) := List.countP_pos_iff.mpr ⟨x, hx, hfinishes⟩
    have hbefore := h.held ticket
    have honce := h.once ticket
    omega

/-- A call ends. -/
theorem Ticketed.finished (h : Ticketed history s) (impl : Impl) {i : ℕ} {call : Call}
    {result : Except Exception AvDecoderReadResult} (hcall : s.calls[i]? = some call) :
    Ticketed (history ++ [.finished call.ticket result]) { s with impl := impl, calls := s.calls.eraseIdx i } := by
  have hnone : ∀ ticket, (history ++ [Event.finished call.ticket result]).countP (Event.admits ticket) =
      history.countP (Event.admits ticket) := fun ticket => List.countP_append
  refine ⟨fun ticket => ?_, fun ticket => ?_, fun ticket => ?_, fun ticket => ?_⟩
  · rw [hnone]
    exact h.admitted ticket
  · have hcount := countP_eraseIdx (p := fun call : Call => call.ticket == ticket) hcall
    rw [hnone, ← h.held ticket, List.countP_append, List.countP_singleton, hcount]
    show (s.calls.eraseIdx i).countP _ + (_ + if call.ticket == ticket then 1 else 0) = _
    omega
  · have hbefore := h.tried ticket
    have hcount := countP_eraseIdx (p := fun call : Call => call.ticket == ticket && call.phase.isEntered) hcall
    rw [hnone, List.countP_append]
    show _ + 0 + (s.calls.eraseIdx i).countP _ ≤ _
    rw [waitsFor, hcount] at hbefore
    omega
  · exact List.pairwise_append.mpr ⟨h.ordered ticket, List.pairwise_singleton _ _, fun _ _ e he _ =>
      List.mem_singleton.mp he ▸ rfl⟩

theorem Ticketed.step (h : Ticketed history s) (hstep : Stepped s events s') : Ticketed (history ++ events) s' := by
  cases hstep with
  | configured hstarted => exact h.same unticketed_nil rfl rfl
  | idle hidle hreturned => exact h.same (unticketed_idle hidle) rfl rfl
  | started hstarted => exact h.same (unticketed_single fun _ => ⟨rfl, rfl, rfl⟩) rfl rfl
  | entered hhealthy hsession hticket hphase => exact h.entered _ hticket hphase
  | called hcall hphase => exact h.called hcall hphase
  | @answered i call result hcall =>
    refine h.keep unticketed_nil rfl (fun ticket => Nat.add_right_cancel (countP_phase _ hcall)) fun ticket => ?_
    have hcount := countP_phase (p := fun call : Call => call.ticket == ticket && call.phase.isEntered)
      (.answered result) hcall
    dsimp only at hcount
    rw [show (Phase.answered result).isEntered = false from rfl, Bool.and_false] at hcount
    exact (Nat.le_add_right _ _).trans hcount.le
  | finished hcall hphase => exact h.finished _ hcall
  | joins hstarted hstopping => exact h.same unticketed_nil rfl rfl
  | began hstarted hstopping => exact h.same (unticketed_single fun _ => ⟨rfl, rfl, rfl⟩) rfl rfl
  | stopped hstarted hstopping hactive =>
    exact h.same ((unticketed_single fun _ => ⟨rfl, rfl, rfl⟩).append (unticketed_farewell _ _)) rfl rfl
  | finishes hstop hactive => exact h.same (unticketed_farewell _ _) rfl rfl
  | leaves hstop hstopping => exact h.same (unticketed_single fun _ => ⟨rfl, rfl, rfl⟩) rfl rfl
  | @resetFailed e resets herror =>
    have hevents : Unticketed ([Event.onReset] ++ [Event.resetFailed e]) :=
      (unticketed_single fun _ => ⟨rfl, rfl, rfl⟩).append (unticketed_single fun _ => ⟨rfl, rfl, rfl⟩)
    exact h.same hevents rfl rfl

theorem ticketed_init : Ticketed [] {} :=
  ⟨fun _ => rfl, fun _ => rfl, fun _ => Nat.le_refl 0, fun _ => .nil⟩

theorem ticketed (h : system.Run {} history s) : Ticketed history s := by
  induction h with
  | refl => exact ticketed_init
  | snoc _ hstep ih =>
    obtain ⟨act, hact⟩ := hstep
    exact ih.step (stepped hact)

/-! ### The protocol -/

/-- `OnStop` runs where no call is left. -/
theorem Sound.onStop (h : Sound s) (hstep : Stepped s events s') (hmem : .onStop ∈ events) :
    s.calls = [] ∧ s'.calls = [] := by
  have hsame : Event.onStop.isOnStop = true := rfl
  cases hstep with
  | configured hstarted => cases hmem
  | idle hidle => exact absurd ((Event.idle_isOnStop (hidle _ hmem)).symm.trans hsame) (by decide)
  | started hstarted => cases List.mem_singleton.mp hmem
  | entered hhealthy hsession hticket hphase => cases List.mem_singleton.mp hmem
  | called hcall hphase => cases List.mem_singleton.mp hmem
  | answered hcall => cases hmem
  | finished hcall hphase => cases List.mem_singleton.mp hmem
  | joins hstarted hstopping => cases hmem
  | began hstarted hstopping => cases List.mem_singleton.mp hmem
  | stopped hstarted hstopping hactive => exact ⟨h.idle hactive, h.idle hactive⟩
  | finishes hstop hactive => exact ⟨h.idle hactive, h.idle hactive⟩
  | leaves hstop hstopping => cases List.mem_singleton.mp hmem
  | resetFailed herror => simp at hmem

/-- A `Stop` returns where no call of the session it found is left. -/
theorem Sound.returned (h : Sound s) (hstep : Stepped s events s') {k : ℕ} {thrown : Option Exception}
    (hmem : .stopReturned (some k) thrown ∈ events) : ∀ call ∈ s'.calls, call.session ≠ k := by
  have hnone : s.impl.activeCalls = 0 → ∀ call ∈ s.calls, call.session ≠ k := by
    intro hactive call hcall
    rw [h.idle hactive] at hcall
    cases hcall
  cases hstep with
  | configured hstarted => cases hmem
  | idle hidle hreturned => exact absurd hmem (hreturned k thrown)
  | started hstarted => cases List.mem_singleton.mp hmem
  | entered hhealthy hsession hticket hphase => cases List.mem_singleton.mp hmem
  | called hcall hphase => cases List.mem_singleton.mp hmem
  | answered hcall => cases hmem
  | finished hcall hphase => cases List.mem_singleton.mp hmem
  | joins hstarted hstopping => cases hmem
  | began hstarted hstopping => cases List.mem_singleton.mp hmem
  | stopped hstarted hstopping hactive => exact hnone hactive
  | finishes hstop hactive => exact hnone hactive
  | @leaves i session hstop hstopping =>
    obtain ⟨hk, -⟩ := Event.stopReturned.inj (List.mem_singleton.mp hmem)
    obtain rfl := Option.some.inj hk
    intro call hcall heq
    have hstarted := h.serving fun hnil => by rw [hnil] at hcall; cases hcall
    have hlater := (h.later k (List.mem_of_getElem? hstop)).2 (heq.symm.trans (h.current call hcall)) hstarted
    exact absurd (hstopping.symm.trans hlater) (by decide)
  | resetFailed herror => simp at hmem

/-- **The session protocol.**  A call is in progress from its admission to `FinishProcessing`, and calls its callback
at most once, in between. -/
theorem session_protocol (h : system.Run {} history s) :
    s.impl.activeCalls = s.calls.length ∧
    ((Sessions.latest Event.opens history).countP Event.isCalled ≤
      (Sessions.latest Event.opens history).countP Event.isEntered) ∧
    (∀ ticket, history.countP (Event.admits ticket) ≤ 1 ∧
      history.countP (Event.calls ticket) ≤ history.countP (Event.admits ticket) ∧
      history.Pairwise fun x e => x.finishes ticket = true → e.calls ticket = false) ∧
    ((Sessions.latest Event.opens history).countP Event.isOnStop ≤ 1 ∧
      history.countP Event.isOnStop ≤ history.countP Event.opens) ∧
    (∀ events s', system.step s events s' → .onStop ∈ events → s.calls = [] ∧ s'.calls = []) ∧
    ((Sessions.latest Event.opens history).Pairwise fun x e => x.seals = true → e.isEntered = false) ∧
    (∀ events s' k thrown, system.step s events s' → .stopReturned (some k) thrown ∈ events →
      ∀ call ∈ s'.calls, call.session ≠ k) ∧
    s.impl.error = (Sessions.select Event.opens Event.failure? history).head? ∧
    ∀ video input consume, input.status ≠ .frame → (s.process video input consume).2 = s ∧
      (s.healthy = true → (s.process video input consume).1 = [.passed input]) := by
  have hsound := sound_reachable (Transition.Reachable.run (.init rfl) h)
  have htold := told h
  have hticketed := ticketed h
  refine ⟨hsound.counted, ?_, fun ticket => ⟨hticketed.once ticket, ?_, hticketed.ordered ticket⟩, ⟨?_, ?_⟩,
    fun events s' hstep => ?_, htold.sealed, fun events s' k thrown hstep => ?_, htold.error,
    fun video input consume hstatus => ?_⟩
  · exact (Nat.le_add_right _ _).trans htold.tried
  · exact (Nat.le_add_right _ _).trans (hticketed.tried ticket)
  · exact (Nat.le_add_right _ _).trans htold.once
  · exact (Nat.le_add_right _ _).trans htold.starts
  · obtain ⟨act, hact⟩ := hstep
    exact hsound.onStop (stepped hact)
  · obtain ⟨act, hact⟩ := hstep
    exact hsound.returned (stepped hact)
  · cases hhealthy : s.healthy with
    | false =>
      have hprocess : s.process video input consume =
          ([.rejected (.logicError "AvMediaFilter 处理帧前需要成功 Start")], s) := by
        rw [process, hhealthy]
        rfl
      rw [hprocess]
      exact ⟨rfl, fun hcontra => (by cases hcontra)⟩
    | true =>
      have hprocess : s.process video input consume = ([.passed input], s) := by
        rw [process, hhealthy]
        exact if_pos hstatus
      rw [hprocess]
      exact ⟨rfl, fun _ => rfl⟩

/-- A video frame for the business callback. -/
def pictureCall : Act := .process true { status := .frame, frame := some {} } false

/-- Two calls are admitted; the first of them calls its callback after a `Stop` began. -/
def overlapping : List Act :=
  [.configure true false id, .start none, pictureCall, pictureCall, .stop none, .advance 0 (.prepare none)]

theorem session_protocol_overlapping : ∃ history s, system.Run {} history s ∧ s.impl.activeCalls = 2 ∧
    s.calls.length = 2 := by
  have hacts : ∃ history s, Transition.execute next {} overlapping = some (history, s) ∧ s.impl.activeCalls = 2 :=
    ⟨_, _, rfl, rfl⟩
  obtain ⟨history, s, hacts, hactive⟩ := hacts
  have hrun : system.Run {} history s := Transition.execute_run (T := system) (fun _ act _ _ h => ⟨act, h⟩) hacts
  exact ⟨history, s, hrun, hactive, (session_protocol hrun).1.symm.trans hactive⟩

/-- The counter is ahead of the callbacks that are running, and a callback starts after a `Stop` began. -/
theorem callback_after_stop : ∃ history s, system.Run {} history s ∧
    s.impl.activeCalls ≠ s.calls.countP (fun call => call.phase.isCalled) ∧
    ¬ (Sessions.latest Event.opens history).Pairwise (fun x e => x.isStopBegan = true → e.isCalled = false) := by
  have hacts : ∃ history s, Transition.execute next {} overlapping = some (history, s) ∧
      s.impl.activeCalls ≠ s.calls.countP (fun call => call.phase.isCalled) ∧
      ¬ (Sessions.latest Event.opens history).Pairwise (fun x e => x.isStopBegan = true → e.isCalled = false) :=
    ⟨_, _, rfl, by decide, by decide⟩
  obtain ⟨history, s, hacts, hactive, hpairwise⟩ := hacts
  exact ⟨history, s, Transition.execute_run (T := system) (fun _ act _ _ h => ⟨act, h⟩) hacts, hactive, hpairwise⟩

end Serving

end AvMediaFilter

end MwStreamer
