import MwStreamer.Input.AvInputProxy

/-!
# What a step of the input proxy can do

One relation for each kind of thread: `Performed` for the sections a thread is bound to take, `Worked` for the control
worker, `Fetched` for a reader and `Consumed` for the consumer.  `Stepped` puts them together; the invariants are
proved from them and never unfold the step function.
-/

namespace MwStreamer

namespace AvInputProxy

inductive Performed (s : AvInputProxy) (thread : Thread) : List Event → AvInputProxy → Prop where
  | stopRecorded {rest : List Task} (htodo : s.todo thread = .requestStop :: rest) :
      Performed s thread [.stopRecorded]
        ({ s with stopping := true }.bind thread (s.input.toList.map Task.cancel ++ rest))
  | cancelled {k : ℕ} {rest : List Task} (htodo : s.todo thread = .cancel k :: rest) :
      Performed s thread [] ((s.setInput k (s.inputs k).cancel).bind thread
        ((if (s.inputs k).packets then [Task.closeQueue k] else []) ++ rest))
  | queueClosed {k : ℕ} {rest : List Task} (htodo : s.todo thread = .closeQueue k :: rest) :
      Performed s thread [] ((s.setInput k (s.inputs k).closeQueue).bind thread rest)
  | inputPublished {k : ℕ} {status : AvInputStatus} {rest : List Task}
      (htodo : s.todo thread = .publishInput k status :: rest) :
      Performed s thread [.inputPublished k status.state] ((s.setInput k ((s.inputs k).publish status)).bind thread
        ((if status.state.closesQueue && (s.inputs k).packets then [Task.closeQueue k] else []) ++
          .inputChanged k status :: rest))
  | foreign {k : ℕ} {status : AvInputStatus} {rest : List Task} (htodo : s.todo thread = .inputChanged k status :: rest)
      (hother : s.input ≠ some k) : Performed s thread [] (s.bind thread rest)
  | inputChanged {k : ℕ} {status : AvInputStatus} {rest : List Task}
      (htodo : s.todo thread = .inputChanged k status :: rest) (hinput : s.input = some k) :
      Performed s thread [] ({ s with
        terminal := if s.terminal.isNone && breaks status then some status else s.terminal }.bind thread
        ((if s.stopping && status.state == AvInputState.opening then [Task.cancel k] else []) ++ rest))
  | published {state : AvInputProxyState} {retries delay : ℕ} {error : Option Exception} {rest : List Task}
      (htodo : s.todo thread = .publish state retries delay error :: rest) :
      Performed s thread [.published state] ({ s with
        status := { s.status with
          state := state, retryCount := retries, retryDelay := delay, error := error } }.bind thread rest)
  | announced {rest : List Task} (htodo : s.todo thread = .announce :: rest) :
      Performed s thread [] ({ s with readStateChanged := true }.bind thread rest)

inductive Worked (s : AvInputProxy) : List Event → AvInputProxy → Prop where
  | breaks (hpc : s.control.pc = .checking ∨ s.control.pc = .delaying ∨ ∃ t, s.control.pc = .deciding t)
      (hstopping : s.stopping = true) : Worked s [] (s.finish .stopped 0 none)
  | loops (hpc : s.control.pc = .checking) (hgoing : s.stopping = false) : Worked s [] (s.goto .creating)
  | created (hpc : s.control.pc = .creating) : Worked s [.created s.made] (({ s with
      made := s.made + 1, input := some s.made, terminal := none
      status := { s.status with info := none } }.goto (.rechecking s.made)).announces .connecting s.control.retries
        0 none)
  | unopened {k : ℕ} (hpc : s.control.pc = .rechecking k) (hstopping : s.stopping = true) :
      Worked s [] (s.goto (.retiring k {}))
  | rechecked {k : ℕ} (hpc : s.control.pc = .rechecking k) (hgoing : s.stopping = false) :
      Worked s [] (s.goto (.uncancelling k))
  | uncancelled {k : ℕ} (hpc : s.control.pc = .uncancelling k) :
      Worked s [.opening k] ((s.setInput k (s.inputs k).uncancel).goto (.queueing k))
  | queued {k : ℕ} (hpc : s.control.pc = .queueing k) :
      Worked s [] (((s.setInput k ((s.inputs k).makeQueue s.capacity)).goto (.opening k)).bind .control
        [.publishInput k { state := .opening }])
  | gaveUp {k : ℕ} (hpc : s.control.pc = .opening k ∨ s.control.pc = .probing k ∨ s.control.pc = .launching k)
      (e : Exception) : Worked s [] (s.goto (.giving k e))
  | connected {k : ℕ} (hpc : s.control.pc = .opening k) (huncancelled : (s.inputs k).cancelled = false) :
      Worked s [] (s.goto (.probing k))
  | probed {k : ℕ} (hpc : s.control.pc = .probing k) (huncancelled : (s.inputs k).cancelled = false)
      (info : AvInputInfo) : Worked s [] (s.goto (.describing k info))
  | described {k : ℕ} {info : AvInputInfo} (hpc : s.control.pc = .describing k info) :
      Worked s [] (((s.setInput k ((s.inputs k).describe info)).goto (.launching k)).bind .control
        [.publishInput k { state := .opened }])
  | launched {k : ℕ} (hpc : s.control.pc = .launching k) :
      Worked s [.opened k] ((s.setReader k .checking).goto (.settling k))
  | failed {k : ℕ} {e : Exception} (hpc : s.control.pc = .giving k e) :
      Worked s [] ((s.goto (.retiring k { state := .failed, error := some e })).bind .control
        [.publishInput k ((s.inputs k).failure e)])
  | settled {k : ℕ} (hpc : s.control.pc = .settling k) : Worked s [] { s with
      status := { s.status with info := some { input := k, info := (s.inputs k).info } }
      control := { pc := .connecting k, retries := 0 } }
  | unannounced {k : ℕ} (hpc : s.control.pc = .connecting k) (hstopping : s.stopping = true) :
      Worked s [] (s.goto (.offering k))
  | announced {k : ℕ} (hpc : s.control.pc = .connecting k) (hgoing : s.stopping = false) :
      Worked s [] ((s.goto (.offering k)).announces .connected 0 0 none)
  | offered {k : ℕ} (hpc : s.control.pc = .offering k) :
      Worked s [] ({ s with available := !s.stopping }.goto (.waiting k))
  | stopSeen {k : ℕ} (hpc : s.control.pc = .waiting k) (hstopping : s.stopping = true) :
      Worked s [] (s.goto (.retiring k {}))
  | ended {k : ℕ} {terminal : AvInputStatus} (hpc : s.control.pc = .waiting k) (hgoing : s.stopping = false)
      (hterminal : s.terminal = some terminal) : Worked s [] (s.goto (.retiring k terminal))
  | retired {k : ℕ} {terminal : AvInputStatus} (hpc : s.control.pc = .retiring k terminal) :
      Worked s [] ({ s with available := false }.goto (.closing k terminal))
  | unclosed {k : ℕ} {terminal : AvInputStatus} (hpc : s.control.pc = .closing k terminal)
      (hclosed : (s.inputs k).status.state = .closed) : Worked s [] (s.goto (.releasing k terminal))
  | closes {k : ℕ} {terminal : AvInputStatus} (hpc : s.control.pc = .closing k terminal)
      (hopen : (s.inputs k).status.state ≠ .closed) :
      Worked s [] ((s.goto (.joining k terminal)).bind .control [.cancel k])
  | joined {k : ℕ} {terminal : AvInputStatus} (hpc : s.control.pc = .joining k terminal)
      (hdone : s.readers k = .absent ∨ s.readers k = .done) (hquiet : s.todo (.reader k) = []) :
      Worked s [] (s.goto (.detaching k terminal))
  | detached {k : ℕ} {terminal : AvInputStatus} (hpc : s.control.pc = .detaching k terminal) :
      Worked s [] ((s.setInput k (s.inputs k).detach).goto (.discarding k terminal))
  | discarded {k : ℕ} {terminal : AvInputStatus} {packet : Packet} {rest : List Packet}
      (hpc : s.control.pc = .discarding k terminal) (hqueue : (s.inputs k).queued = packet :: rest) :
      Worked s [.discarded k packet]
        (s.setInput k { s.inputs k with queue := { (s.inputs k).queue with queue := rest } })
  | emptied {k : ℕ} {terminal : AvInputStatus} (hpc : s.control.pc = .discarding k terminal)
      (hqueue : (s.inputs k).queued = []) :
      Worked s [] ((s.goto (.releasing k terminal)).bind .control [.publishInput k { state := .closed }])
  | released {k : ℕ} {terminal : AvInputStatus} (hpc : s.control.pc = .releasing k terminal) :
      Worked s [] ({ s with input := none }.goto (.deciding terminal))
  | reopens {terminal : AvInputStatus} (hpc : s.control.pc = .deciding terminal) (hgoing : s.stopping = false)
      (hended : terminal.state = .ended) (hloop : s.loop = true) : Worked s [] (s.goto .checking)
  | exhausts {terminal : AvInputStatus} (hpc : s.control.pc = .deciding terminal) (hgoing : s.stopping = false)
      (hended : terminal.state = .ended) (hloop : s.loop = false) : Worked s [] (s.finish .ended 0 none)
  | givesUp {terminal : AvInputStatus} (hpc : s.control.pc = .deciding terminal) (hgoing : s.stopping = false)
      (hfailed : terminal.state = .failed) : Worked s [] (s.finish .failed s.control.retries terminal.error)
  | retries {terminal : AvInputStatus} (hpc : s.control.pc = .deciding terminal) (hgoing : s.stopping = false)
      (hfailed : terminal.state = .failed) : Worked s []
        ({ s with control := { pc := .delaying, retries := s.control.retries + 1 } }.announces .waitingRetry
          (s.control.retries + 1) (retryDelay (s.control.retries + 1)) terminal.error)
  | cancelled {terminal : AvInputStatus} (hpc : s.control.pc = .deciding terminal) (hgoing : s.stopping = false)
      (hended : terminal.state ≠ .ended) (hfailed : terminal.state ≠ .failed) : Worked s [] (s.finish .stopped 0 none)
  | delayed (hpc : s.control.pc = .delaying) (hgoing : s.stopping = false) : Worked s [] (s.goto .checking)

inductive Fetched (s : AvInputProxy) (k : ℕ) : List Event → AvInputProxy → Prop where
  | cancelled (hreader : s.readers k = .checking ∨ s.readers k = .reading ∨ s.readers k = .draining)
      (hcancelled : (s.inputs k).cancelled = true) : Fetched s k [] (s.readerEnds k { state := .cancelled })
  | checked (hreader : s.readers k = .checking) : Fetched s k [] (s.setReader k .reading)
  | passed (hreader : s.readers k = .reading) : Fetched s k [] (s.setReader k .checking)
  | packet {packet : Packet} (hreader : s.readers k = .reading) : Fetched s k [] (s.setReader k (.pushing packet))
  | eof (hreader : s.readers k = .reading) : Fetched s k [] (s.setReader k .draining)
  | error (hreader : s.readers k = .reading) (e : Exception) : Fetched s k [] (s.setReader k (.failing e))
  | drained (hreader : s.readers k = .draining) (hqueue : (s.inputs k).queued = []) :
      Fetched s k [] (s.readerEnds k { state := .ended })
  | pushed {packet : Packet} (hreader : s.readers k = .pushing packet) (hopen : (s.inputs k).queue.closed = false) :
      Fetched s k [.pushed k packet] ((s.setInput k { s.inputs k with
        queue := { (s.inputs k).queue with queue := (s.inputs k).queued ++ [packet] } }).setReader k .checking)
  | refused {packet : Packet} (hreader : s.readers k = .pushing packet) (hclosed : (s.inputs k).queue.closed = true) :
      Fetched s k [] (s.readerEnds k { state := .cancelled })
  | failed {e : Exception} (hreader : s.readers k = .failing e) :
      Fetched s k [] (s.readerEnds k ((s.inputs k).failure e))

inductive Consumed (s : AvInputProxy) : List Event → AvInputProxy → Prop where
  | woken {mode : Mode} (hconsumer : s.consumer = .entering mode) (hmode : mode = .readOrStateChange)
      (hchanged : s.readStateChanged = true) :
      Consumed s [.woken s.status.info] { s with readStateChanged := false, consumer := .idle }
  | null {mode : Mode} (hconsumer : s.consumer = .entering mode)
      (hnull : s.stopping = true ∨ s.status.state = .stopped ∨ s.status.state = .failed ∨
        (s.available = false ∧ s.status.state ≠ .ended ∧ s.exhausted = false)) :
      Consumed s [.returned none .null s.status.info] { s with consumer := .idle }
  | eof {mode : Mode} (hconsumer : s.consumer = .entering mode) (hgoing : s.stopping = false)
      (hended : s.status.state = .ended ∨ s.exhausted = true) :
      Consumed s [.returned none .eof s.status.info] { s with consumer := .idle }
  | captured {mode : Mode} {k : ℕ} (hconsumer : s.consumer = .entering mode) (hgoing : s.stopping = false)
      (hstate : s.status.state ≠ .ended ∧ s.status.state ≠ .stopped ∧ s.status.state ≠ .failed)
      (hexhausted : s.exhausted = false) (havailable : s.available = true) (hinput : s.input = some k) :
      Consumed s [] { s with consumer := .taking mode k s.status.info }
  | unreadable {mode : Mode} {k : ℕ} {d : Option Description} (hconsumer : s.consumer = .taking mode k d)
      (hunreadable : (s.inputs k).readable = false) : Consumed s [] { s with consumer := .missing mode k d }
  | takes {mode : Mode} {k : ℕ} {d : Option Description} (hconsumer : s.consumer = .taking mode k d)
      (hreadable : (s.inputs k).readable = true) : Consumed s [] { s with consumer := .popping mode k d }
  | popped {mode : Mode} {k : ℕ} {d : Option Description} (hconsumer : s.consumer = .popping mode k d)
      (hwaits : (s.inputs k).queued = [] → mode.waits = true → (s.inputs k).queue.closed = true) :
      Consumed s [] { s.setInput k { s.inputs k with
        queue := { (s.inputs k).queue with queue := (s.inputs k).queued.tail } } with
          consumer := .answering mode k d (s.inputs k).queued.head? }
  | packet {mode : Mode} {k : ℕ} {d : Option Description} {packet : Packet}
      (hconsumer : s.consumer = .answering mode k d (some packet)) (huncancelled : (s.inputs k).cancelled = false) :
      Consumed s [.returned (some k) (.packet packet) d] { s with consumer := .idle }
  | ended {mode : Mode} {k : ℕ} {d : Option Description} (hconsumer : s.consumer = .answering mode k d none)
      (huncancelled : (s.inputs k).cancelled = false) (hended : (s.inputs k).status.state = .ended) :
      Consumed s [] { s with consumer := .acknowledging k d }
  | lost {mode : Mode} {k : ℕ} {d : Option Description} {popped : Option Packet}
      (hconsumer : s.consumer = .answering mode k d popped)
      (hlost : popped ≠ none → (s.inputs k).cancelled = true ∨ (s.inputs k).packets = false ∨
        (s.inputs k).status.state = .closed ∨ (s.inputs k).status.state = .cancelled) :
      Consumed s [] { s with consumer := .missing mode k d }
  | acknowledged {k : ℕ} {d : Option Description} (hconsumer : s.consumer = .acknowledging k d)
      (hgoing : s.stopping = false) (hinput : s.input = some k) (hterminal : s.terminal = none) :
      Consumed s [.acknowledged k] { s with
        terminal := some { state := .ended }, available := s.available && !s.loop, consumer := .returning k d }
  | late {k : ℕ} {d : Option Description} (hconsumer : s.consumer = .acknowledging k d)
      (hlate : s.stopping = true ∨ s.input ≠ some k ∨ s.terminal ≠ none) :
      Consumed s [] { s with consumer := .returning k d }
  | returned {k : ℕ} {d : Option Description} (hconsumer : s.consumer = .returning k d) :
      Consumed s [.returned (some k) .eof d] { s with consumer := .idle }
  | tried {mode : Mode} {k : ℕ} {d : Option Description} (hconsumer : s.consumer = .missing mode k d)
      (hmode : mode.waits = false) : Consumed s [.returned none .null d] { s with consumer := .idle }
  | again {mode : Mode} {k : ℕ} {d : Option Description} (hconsumer : s.consumer = .missing mode k d)
      (hchanged : s.changed mode k = true) : Consumed s [] { s with consumer := .entering mode }

inductive Stepped (s : AvInputProxy) : List Event → AvInputProxy → Prop where
  | requested {n : ℕ} (hfree : s.todo (.user n) = []) : Stepped s [] (s.bind (.user n) [.requestStop])
  | called (mode : Mode) (hidle : s.consumer = .idle) : Stepped s [] { s with consumer := .entering mode }
  | performed {thread : Thread} {events : List Event} {s' : AvInputProxy} (h : Performed s thread events s') :
      Stepped s events s'
  | worked {events : List Event} {s' : AvInputProxy} (htodo : s.todo .control = []) (h : Worked s events s') :
      Stepped s events s'
  | fetched {k : ℕ} {events : List Event} {s' : AvInputProxy} (htodo : s.todo (.reader k) = [])
      (h : Fetched s k events s') : Stepped s events s'
  | consumed {events : List Event} {s' : AvInputProxy} (h : Consumed s events s') : Stepped s events s'

/-! ### Inversion -/

variable {s s' : AvInputProxy} {events : List Event} {thread : Thread}

theorem perform_performed (h : s.perform thread = some (events, s')) : Performed s thread events s' := by
  rw [perform] at h
  split at h
  · cases h
  · rename_i rest htodo
    cases h
    exact .stopRecorded htodo
  · rename_i k rest htodo
    cases h
    exact .cancelled htodo
  · rename_i k rest htodo
    cases h
    exact .queueClosed htodo
  · rename_i k status rest htodo
    cases h
    exact .inputPublished htodo
  · rename_i k status rest htodo
    split at h
    · rename_i hother
      cases h
      exact .foreign htodo hother
    · rename_i hinput
      rw [ne_eq, not_not] at hinput
      cases h
      exact .inputChanged htodo hinput
  · rename_i state retries delay error rest htodo
    cases h
    exact .published htodo
  · rename_i rest htodo
    cases h
    exact .announced htodo

theorem checkIo_ok {α : Type} {input : AvInput} {operation : String} {answer : Except Exception α} {value : α}
    (h : input.checkIo operation answer = .ok value) : input.cancelled = false := by
  rw [AvInput.checkIo] at h
  split at h
  · cases h
  · rename_i huncancelled
    exact Bool.not_eq_true _ ▸ huncancelled

/-- What a `TryPop` of the control worker takes. -/
theorem tryPop_some {input input' : AvInput} {packet : Packet} (h : input.pop false = some (some packet, input')) :
    ∃ rest, input.queued = packet :: rest ∧ input' = { input with queue := { input.queue with queue := rest } } := by
  obtain ⟨hhead, hinput, -⟩ := AvInput.pop_cases h
  cases hqueue : input.queued with
  | nil =>
    rw [hqueue] at hhead
    cases hhead
  | cons first rest =>
    rw [hqueue] at hhead hinput
    obtain rfl := Option.some.inj hhead
    exact ⟨rest, rfl, hinput⟩

theorem tryPop_none {input : AvInput} (h : ∀ packet input', input.pop false ≠ some (some packet, input')) :
    input.queued = [] := by
  obtain ⟨⟨popped, input'⟩, hpop⟩ := input.pop_ready (.inl (rfl : false = false))
  cases popped with
  | none =>
    obtain ⟨hhead, -, -⟩ := AvInput.pop_cases hpop
    exact List.head?_eq_none_iff.mp hhead.symm
  | some packet => exact absurd hpop (h packet input')

theorem work_worked {answer : Answer} (h : s.work answer = some (events, s')) : Worked s events s' := by
  rw [work] at h
  split at h
  · rename_i hpc
    cases h
    cases hstopping : s.stopping with
    | true => exact .breaks (.inl hpc) hstopping
    | false => exact .loops hpc hstopping
  · rename_i hpc
    cases h
    exact .created hpc
  · rename_i k hpc
    cases h
    cases hstopping : s.stopping with
    | true => exact .unopened hpc hstopping
    | false => exact .rechecked hpc hstopping
  · rename_i k hpc
    cases h
    exact .uncancelled hpc
  · rename_i k hpc
    cases h
    exact .queued hpc
  · rename_i k hpc
    split at h
    · cases h
      exact .gaveUp (.inl hpc) _
    · split at h
      · cases h
        exact .gaveUp (.inl hpc) _
      · rename_i hio
        cases h
        exact .connected hpc (checkIo_ok hio)
  · rename_i k hpc
    split at h
    · cases h
      exact .gaveUp (.inr (.inl hpc)) _
    · rename_i info hio
      cases h
      exact .probed hpc (checkIo_ok hio) info
  · rename_i k info hpc
    cases h
    exact .described hpc
  · rename_i k hpc
    split at h
    · cases h
      exact .launched hpc
    · cases h
      exact .gaveUp (.inr (.inr hpc)) _
  · rename_i k e hpc
    cases h
    exact .failed hpc
  · rename_i k hpc
    cases h
    exact .settled hpc
  · rename_i k hpc
    cases h
    cases hstopping : s.stopping with
    | true => exact .unannounced hpc hstopping
    | false => exact .announced hpc hstopping
  · rename_i k hpc
    cases h
    exact .offered hpc
  · rename_i k hpc
    split at h
    · rename_i hstopping
      cases h
      exact .stopSeen hpc hstopping
    · rename_i hgoing
      obtain ⟨terminal, hterminal, heq⟩ := Option.map_eq_some_iff.mp h
      cases heq
      exact .ended hpc (Bool.not_eq_true _ ▸ hgoing) hterminal
  · rename_i k terminal hpc
    cases h
    exact .retired hpc
  · rename_i k terminal hpc
    split at h
    · rename_i hclosed
      cases h
      exact .unclosed hpc hclosed
    · rename_i hopen
      cases h
      exact .closes hpc hopen
  · rename_i k terminal hpc
    split at h
    · rename_i hjoined
      cases h
      exact .joined hpc hjoined.1 hjoined.2
    · cases h
  · rename_i k terminal hpc
    cases h
    exact .detached hpc
  · rename_i k terminal hpc
    split at h
    · rename_i packet input hpop
      cases h
      obtain ⟨rest, hqueue, rfl⟩ := tryPop_some hpop
      exact .discarded hpc hqueue
    · rename_i hnone
      cases h
      exact .emptied hpc (tryPop_none fun packet input' hpop => hnone packet input' hpop)
  · rename_i k terminal hpc
    cases h
    exact .released hpc
  · rename_i terminal hpc
    split at h
    · rename_i hstopping
      cases h
      exact .breaks (.inr (.inr ⟨_, hpc⟩)) hstopping
    · rename_i hgoing
      rw [Bool.not_eq_true] at hgoing
      split at h
      · rename_i hended
        cases h
        cases hloop : s.loop with
        | true => exact .reopens hpc hgoing hended hloop
        | false => exact .exhausts hpc hgoing hended hloop
      · rename_i hfailed
        split at h
        · cases h
          exact .givesUp hpc hgoing hfailed
        · cases h
          exact .retries hpc hgoing hfailed
      · rename_i hended hfailed
        cases h
        exact .cancelled hpc hgoing hended hfailed
  · rename_i hpc
    cases h
    cases hstopping : s.stopping with
    | true => exact .breaks (.inr (.inl hpc)) hstopping
    | false => exact .delayed hpc hstopping
  · cases h

theorem read_fetched {k : ℕ} {answer : ReadAnswer} (h : s.read k answer = some (events, s')) :
    Fetched s k events s' := by
  unfold read at h
  split at h
  · cases h
  · rename_i hreader
    cases h
    split
    · rename_i hcancelled
      exact .cancelled (.inl hreader) hcancelled
    · exact .checked hreader
  · rename_i hreader
    split at h
    · rename_i hcancelled
      cases h
      exact .cancelled (.inr (.inl hreader)) hcancelled
    · split at h
      · cases h
        split
        · exact .packet hreader
        · exact .passed hreader
      · cases h
        exact .eof hreader
      · cases h
        exact .passed hreader
      · cases h
        exact .error hreader _
  · rename_i hreader
    split at h
    · rename_i hcancelled
      cases h
      exact .cancelled (.inr (.inr hreader)) hcancelled
    · split at h
      · rename_i hqueue
        cases h
        exact .drained hreader hqueue
      · cases h
  · rename_i packet hreader
    split at h
    · cases h
    · rename_i input hpush
      cases h
      rcases AvInput.push_cases hpush with ⟨-, hopen, -, rfl⟩ | ⟨hcontra, -, -⟩
      · exact .pushed hreader hopen
      · cases hcontra
    · rename_i input hpush
      cases h
      rcases AvInput.push_cases hpush with ⟨hcontra, -, -, -⟩ | ⟨-, hclosed, -⟩
      · cases hcontra
      · exact .refused hreader hclosed
  · rename_i e hreader
    cases h
    exact .failed hreader
  · cases h

theorem answer_packet {input : AvInput} {popped : Option Packet} {packet : Packet}
    (h : input.answer popped = .packet packet) : popped = some packet ∧ input.cancelled = false := by
  unfold AvInput.answer at h
  split at h
  · cases h
  · rename_i hgoing
    simp only [Bool.or_eq_true, not_or, Bool.not_eq_true] at hgoing
    split at h
    · cases h
      exact ⟨rfl, hgoing.1.1.1⟩
    · split at h <;> cases h

theorem answer_eof {input : AvInput} {popped : Option Packet} (h : input.answer popped = .eof) :
    popped = none ∧ input.cancelled = false ∧ input.status.state = .ended := by
  unfold AvInput.answer at h
  split at h
  · cases h
  · rename_i hgoing
    simp only [Bool.or_eq_true, not_or, Bool.not_eq_true] at hgoing
    split at h
    · cases h
    · split at h
      · rename_i hended
        exact ⟨rfl, hgoing.1.1.1, hended⟩
      · cases h

theorem answer_null {input : AvInput} {popped : Option Packet} (h : input.answer popped = .null)
    (hsome : popped ≠ none) :
    input.cancelled = true ∨ input.packets = false ∨ input.status.state = .closed ∨
      input.status.state = .cancelled := by
  unfold AvInput.answer at h
  split at h
  · rename_i hgone
    simp only [Bool.or_eq_true, beq_iff_eq, Bool.not_eq_true'] at hgone
    rcases hgone with ((hcancelled | hclosed) | hstate) | hpackets
    · exact .inl hcancelled
    · exact .inr (.inr (.inl hclosed))
    · exact .inr (.inr (.inr hstate))
    · exact .inr (.inl hpackets)
  · split at h
    · cases h
    · exact absurd rfl hsome

theorem consume_consumed (h : s.consume = some (events, s')) : Consumed s events s' := by
  rw [consume] at h
  split at h
  · cases h
  · rename_i mode hconsumer
    dsimp only at h
    split at h
    · cases h
    · split at h
      · rename_i hchanged
        rw [Bool.and_eq_true] at hchanged
        cases h
        refine .woken hconsumer ?_ hchanged.2
        cases mode with
        | readOrStateChange => rfl
        | _ => cases hchanged.1
      · split at h
        · rename_i hnull
          simp only [Bool.or_eq_true, beq_iff_eq] at hnull
          cases h
          refine .null hconsumer ?_
          rcases hnull with (hstopping | hstopped) | hfailed
          · exact .inl hstopping
          · exact .inr (.inl hstopped)
          · exact .inr (.inr (.inl hfailed))
        · rename_i hnull
          simp only [Bool.or_eq_true, beq_iff_eq, not_or, Bool.not_eq_true] at hnull
          split at h
          · rename_i hended
            rw [Bool.or_eq_true, beq_iff_eq] at hended
            cases h
            exact .eof hconsumer hnull.1.1 hended
          · rename_i hended
            simp only [Bool.or_eq_true, beq_iff_eq, not_or, Bool.not_eq_true] at hended
            split at h
            · rename_i havailable
              rw [Bool.not_eq_true'] at havailable
              cases h
              exact .null hconsumer (.inr (.inr (.inr ⟨havailable, hended⟩)))
            · rename_i havailable
              rw [Bool.not_eq_true', Bool.not_eq_false] at havailable
              obtain ⟨k, hinput, heq⟩ := Option.map_eq_some_iff.mp h
              cases heq
              exact .captured hconsumer hnull.1.1 ⟨hended.1, hnull.1.2, hnull.2⟩ hended.2 havailable hinput
  · rename_i mode k d hconsumer
    cases h
    cases hreadable : (s.inputs k).readable with
    | true => exact .takes hconsumer hreadable
    | false => exact .unreadable hconsumer hreadable
  · rename_i mode k d hconsumer
    obtain ⟨⟨popped, input⟩, hpop, heq⟩ := Option.map_eq_some_iff.mp h
    cases heq
    obtain ⟨rfl, rfl, hwaits⟩ := AvInput.pop_cases hpop
    exact .popped hconsumer fun hqueue => hwaits (by rw [hqueue]; rfl)
  · rename_i mode k d popped hconsumer
    split at h
    · rename_i packet hanswer
      cases h
      obtain ⟨rfl, huncancelled⟩ := answer_packet hanswer
      exact .packet hconsumer huncancelled
    · rename_i hanswer
      cases h
      obtain ⟨rfl, huncancelled, hended⟩ := answer_eof hanswer
      exact .ended hconsumer huncancelled hended
    · rename_i hanswer
      cases h
      exact .lost hconsumer (answer_null hanswer)
  · rename_i k d hconsumer
    split at h
    · rename_i hacknowledges
      simp only [Bool.and_eq_true, Bool.not_eq_true', beq_iff_eq, Option.isNone_iff_eq_none] at hacknowledges
      cases h
      exact .acknowledged hconsumer hacknowledges.1.1 hacknowledges.1.2 hacknowledges.2
    · rename_i hlate
      cases h
      refine .late hconsumer ?_
      by_contra hnone
      simp only [not_or, Bool.not_eq_true, not_not] at hnone
      exact hlate (by simp [hnone.1, hnone.2.1, hnone.2.2])
  · rename_i k d hconsumer
    cases h
    exact .returned hconsumer
  · rename_i mode k d hconsumer
    split at h
    · rename_i hmode
      rw [Bool.not_eq_true'] at hmode
      cases h
      exact .tried hconsumer hmode
    · split at h
      · rename_i hchanged
        cases h
        exact .again hconsumer hchanged
      · cases h

/-- **What a step can do.** -/
theorem stepped {act : Act} (h : s.next act = some (events, s')) : Stepped s events s' := by
  cases act with
  | requestStop n =>
    rw [next] at h
    split at h
    · rename_i hfree
      cases h
      exact .requested (List.isEmpty_iff.mp hfree)
    · cases h
  | call mode =>
    rw [next] at h
    split at h
    · rename_i hidle
      cases h
      exact .called mode hidle
    · cases h
  | perform thread => exact .performed (perform_performed h)
  | work answer =>
    rw [next] at h
    split at h
    · rename_i htodo
      exact .worked (List.isEmpty_iff.mp htodo) (work_worked h)
    · cases h
  | read k answer =>
    rw [next] at h
    split at h
    · rename_i htodo
      exact .fetched (List.isEmpty_iff.mp htodo) (read_fetched h)
    · cases h
  | consume => exact .consumed (consume_consumed h)

end AvInputProxy

end MwStreamer
