import MwStreamer.Pipeline.RemuxFailures

/-!
# The end of the remux pipeline

The pipeline tells that it has ended only if its packet worker read an end, the retirement worker collected every
output that was handed to it, and neither a stop nor a failure came first.  With the laws of the failures this says
what `state()`, `error()` and `OnError` tell in a run.
-/

namespace MwStreamer

namespace RemuxPipeline

variable {s s' : RemuxPipeline} {events : List Event} {worker : Worker} {thread : Thread} {history : List Event}

/-! ### The end of a run -/

/-- The end was reported after an end of input, with every retired output collected and neither a stop nor a failure
before. -/
def Concluded (run : List Event) : Prop :=
  ∃ before after, run = before ++ .ended :: after ∧ .eof ∈ before ∧
    (∀ id, .retired id ∈ before → .collected id ∈ before) ∧ .recorded ∉ before ∧
    before.filterMap Event.failed? = []

theorem Concluded.append {run : List Event} (h : Concluded run) (later : List Event) : Concluded (run ++ later) := by
  obtain ⟨before, after, hrun, hrest⟩ := h
  refine ⟨before, after ++ later, ?_, hrest⟩
  rw [hrun, List.append_assoc, List.cons_append]

structure Ending (history : List Event) (s : RemuxPipeline) : Prop where
  read : ∀ w, s.worker = some w → w.eof = true → .eof ∈ thisRun history
  settling : ∀ w, s.worker = some w → w.pc = .settling → w.eof = true
  retired : ∀ id, .retired id ∈ thisRun history →
    id ∈ s.retired ∨ s.retiring = some id ∨ .collected id ∈ thisRun history
  unstopped : s.stopping = false → .recorded ∉ thisRun history
  concluded : s.ended = true → Concluded (thisRun history)
  state : s.state = .ended → s.ended = true ∧ s.error = none

/-- Events that neither retire an output nor tell of a stop. -/
def Event.unowed : Event → Bool
  | .started | .retired _ | .recorded => false
  | _ => true

theorem thisRun_append (h : ∀ e ∈ events, e.opens = false) : thisRun (history ++ events) = thisRun history ++ events :=
  Sessions.latest_append h

theorem thisRun_unowed (h : events.all Event.unowed = true) :
    thisRun (history ++ events) = thisRun history ++ events := by
  refine thisRun_append fun e he => ?_
  have howed := List.all_eq_true.mp h e he
  cases e with
  | started => cases howed
  | _ => rfl

/-- A step that leaves alone what `Ending` looks at, up to the state, which does not tell an end if it is new. -/
theorem Ending.same (h : Ending history s) (hevents : events.all Event.unowed = true) (hworker : s'.worker = s.worker)
    (hretired : s'.retired = s.retired) (hretiring : s'.retiring = s.retiring) (hstopping : s'.stopping = s.stopping)
    (hended : s'.ended = s.ended) (hstate : s'.state = s.state ∧ s'.error = s.error ∨ s'.state ≠ .ended) :
    Ending (history ++ events) s' := by
  have howed : ∀ e ∈ events, e.unowed = true := List.all_eq_true.mp hevents
  have hrun : thisRun (history ++ events) = thisRun history ++ events := thisRun_unowed hevents
  refine ⟨?_, ?_, ?_, ?_, ?_, ?_⟩
  · rw [hrun, hworker]
    exact fun w hw heof => List.mem_append_left _ (h.read w hw heof)
  · rw [hworker]
    exact h.settling
  · rw [hrun, hretired, hretiring]
    intro id hid
    rcases List.mem_append.mp hid with hid | hid
    · exact (h.retired id hid).imp_right (Or.imp_right (List.mem_append_left _))
    · cases howed _ hid
  · rw [hrun, hstopping]
    intro hgoing hrecorded
    rcases List.mem_append.mp hrecorded with hrecorded | hrecorded
    · exact h.unstopped hgoing hrecorded
    · cases howed _ hrecorded
  · rw [hrun, hended]
    exact fun hend => (h.concluded hend).append events
  · intro htold
    rcases hstate with ⟨hstate, herror⟩ | hstate
    · rw [hended, herror]
      exact h.state (hstate.symm.trans htold)
    · exact absurd htold hstate

/-- The packet worker goes on, with the end it has read. -/
theorem Ending.goto (h : Ending history s) (hworker : s.worker = some worker) {worker' : Worker}
    (heof : worker'.eof = worker.eof) (hpc : worker'.pc = .settling → worker.eof = true) :
    Ending history { s with worker := some worker' } where
  read w hw hend := by
    obtain rfl := Option.some.inj hw
    exact h.read worker hworker (heof ▸ hend)
  settling w hw hplace := by
    obtain rfl := Option.some.inj hw
    rw [heof]
    exact hpc hplace
  retired := h.retired
  unstopped := h.unstopped
  concluded := h.concluded
  state := h.state

/-- `CloseCurrent` hands a session's output over. -/
theorem Ending.closes (h : Ending history s) (hcloses : Closes s events s') : Ending (history ++ events) s' := by
  cases hcloses with
  | absent _ => exact h.same rfl rfl rfl rfl rfl rfl (.inl ⟨rfl, rfl⟩)
  | @retires id _ _ =>
    have hrun : thisRun (history ++ [.retired id]) = thisRun history ++ [.retired id] :=
      thisRun_append fun e he => List.mem_singleton.mp he ▸ rfl
    refine ⟨?_, h.settling, ?_, ?_, ?_, h.state⟩
    · rw [hrun]
      exact fun w hw heof => List.mem_append_left _ (h.read w hw heof)
    · rw [hrun]
      intro i hi
      rcases List.mem_append.mp hi with hi | hi
      · exact (h.retired i hi).imp (List.mem_append_left _) (Or.imp_right (List.mem_append_left _))
      · obtain rfl : i = id := by cases List.mem_singleton.mp hi; rfl
        exact .inl (List.mem_append_right _ (List.mem_singleton_self _))
    · rw [hrun]
      intro hgoing hrecorded
      rcases List.mem_append.mp hrecorded with hrecorded | hrecorded
      · exact h.unstopped hgoing hrecorded
      · cases List.mem_singleton.mp hrecorded
    · rw [hrun]
      exact fun hend => (h.concluded hend).append _
  | destroys _ _ _ => exact h.same rfl rfl rfl rfl rfl rfl (.inl ⟨rfl, rfl⟩)

theorem Goes.unsettled {pc pc' : Pc} (h : Goes s pc pc') : pc' ≠ .settling := by cases h <;> simp

/-- Nothing is left of a state that tells an end if it is overwritten. -/
theorem advanceTo_state {state : State} (hstate : state ≠ .ended) :
    (s.advanceTo state).state = s.state ∧ (s.advanceTo state).error = s.error ∨ (s.advanceTo state).state ≠ .ended := by
  rw [advanceTo]
  split
  · exact .inl ⟨rfl, rfl⟩
  · exact .inr hstate

theorem Ending.ensure (h : Ending history s) : Ending history s.ensureRemuxer := by
  rw [ensureRemuxer]
  split
  · exact h
  · exact ⟨h.read, h.settling, h.retired, h.unstopped, h.concluded, h.state⟩

/-! ### One lemma for each section that matters -/

/-- The packet worker goes on, and what `Ending` does not look at may change with it. -/
theorem Ending.goes (h : Ending history s) (hworker : s.worker = some worker) (pc : Pc)
    (hpc : pc = .settling → worker.eof = true) (hevents : events.all Event.unowed = true)
    (hworker' : s'.worker = some { worker with pc := pc }) (hretired : s'.retired = s.retired)
    (hretiring : s'.retiring = s.retiring) (hstopping : s'.stopping = s.stopping) (hended : s'.ended = s.ended)
    (hstate : s'.state = s.state ∧ s'.error = s.error ∨ s'.state ≠ .ended) : Ending (history ++ events) s' := by
  have hgoto : Ending history { s with worker := some { worker with pc := pc } } := h.goto hworker rfl hpc
  exact hgoto.same hevents hworker' hretired hretiring hstopping hended hstate

theorem Ending.begins (hs : Staged s) (hstopped : s.started = false) : Ending (history ++ [.started]) { s with
    started := true, stopping := false, ended := false, hasMedia := false, workerDone := false
    state := .starting, error := none, owner := .ensuring } := by
  have hrun : thisRun (history ++ [.started]) = [] := Sessions.latest_opened rfl
  have hnone : s.worker = none := (hs.still hstopped).1
  refine ⟨fun w hw => ?_, fun w hw => ?_, ?_, ?_, nofun, nofun⟩
  · cases hnone.symm.trans hw
  · cases hnone.symm.trans hw
  · rw [hrun]
    exact fun id hid => absurd hid List.not_mem_nil
  · rw [hrun]
    exact fun _ => List.not_mem_nil

theorem Ending.stopRecorded (h : Ending history s) {tasks : List Task} :
    Ending (history ++ if s.started then [.recorded] else []) ({ s with
      stopping := true
      state := if s.started && s.error.isNone && !s.ended then .stopping else s.state }.bind thread tasks) := by
  have hopens : ∀ e ∈ (if s.started then [Event.recorded] else []), e.opens = false := by
    intro e he
    split at he
    · exact List.mem_singleton.mp he ▸ rfl
    · cases he
  refine ⟨?_, h.settling, ?_, nofun, ?_, ?_⟩
  · rw [thisRun_append hopens]
    exact fun w hw heof => List.mem_append_left _ (h.read w hw heof)
  · rw [thisRun_append hopens]
    intro id hid
    rcases List.mem_append.mp hid with hid | hid
    · exact (h.retired id hid).imp_right (Or.imp_right (List.mem_append_left _))
    · split at hid
      · cases List.mem_singleton.mp hid
      · cases hid
  · rw [thisRun_append hopens]
    exact fun hend => (h.concluded hend).append _
  · intro htold
    change (if s.started && s.error.isNone && !s.ended then State.stopping else s.state) = .ended at htold
    split at htold
    · cases htold
    · exact h.state htold

theorem Ending.endReached (h : Ending history s) :
    Ending (history ++ [.eof]) ((s.advanceTo .draining).goto { worker with eof := true } .leaving) := by
  have hrun : thisRun (history ++ [.eof]) = thisRun history ++ [.eof] := thisRun_unowed rfl
  have hstays : Ending (history ++ [.eof]) (s.advanceTo .draining) :=
    h.same rfl rfl rfl rfl rfl rfl (advanceTo_state (by simp))
  refine { hstays with read := fun w hw _ => ?_, settling := fun w hw hpc => ?_ }
  · rw [hrun]
    exact List.mem_append_right _ (List.mem_singleton_self _)
  · obtain rfl := Option.some.inj hw
    cases hpc

theorem Ending.ends (hf : Failures history s) (h : Ending history s) (hworker : s.worker = some worker)
    (hpc : worker.pc = .settling) (hretired : s.retired = []) (hretiring : s.retiring = none)
    (hgoing : s.stopping = false) (herror : s.error = none) :
    Ending (history ++ [.ended]) ({ s with ended := true, state := .ended }.goto worker .done) := by
  have hrun : thisRun (history ++ [.ended]) = thisRun history ++ [.ended] := thisRun_unowed rfl
  have hlater : Ending (history ++ [.ended]) (s.goto worker .done) :=
    h.goes hworker .done nofun rfl rfl rfl rfl rfl rfl (.inl ⟨rfl, rfl⟩)
  refine { hlater with concluded := fun _ => ?_, state := fun _ => ⟨rfl, herror⟩ }
  have hunfailed : (thisRun history).filterMap Event.failed? = [] := by
    have hfailures : failures history = s.error.toList := hf.failures_eq
    rw [herror] at hfailures
    exact hfailures
  refine ⟨thisRun history, [], hrun, h.read worker hworker (h.settling worker hworker hpc), fun id hid => ?_,
    h.unstopped hgoing, hunfailed⟩
  -- Nothing is waiting for the retirement worker and it is busy with nothing.
  rcases h.retired id hid with hmem | hbusy | hcollected
  · rw [hretired] at hmem
    cases hmem
  · cases hretiring.symm.trans hbusy
  · exact hcollected

theorem Ending.reaperTook (hs : Staged s) (h : Ending history s) {id : ℕ} {rest : List ℕ}
    (hreaper : s.reaper = some .waiting) (hretired : s.retired = id :: rest) :
    Ending history { s with retired := rest, retiring := some id, reaper := some (.stopping id) } := by
  have hbusy : s.retiring = none := by
    rw [hs.busy, hreaper]
    rfl
  refine { h with retired := fun i hi => ?_ }
  rcases h.retired i hi with hmem | hsame | hcollected
  · rw [hretired] at hmem
    rcases List.mem_cons.mp hmem with rfl | hmem
    · exact .inr (.inl rfl)
    · exact .inl hmem
  · cases hbusy.symm.trans hsame
  · exact .inr (.inr hcollected)

theorem Ending.collected (hs : Staged s) (h : Ending history s) {id : ℕ} (hreaper : s.reaper = some (.collecting id)) :
    Ending (history ++ [.collected id]) { s with retiring := none, reaper := some .waiting } := by
  have hbusy : s.retiring = some id := by
    rw [hs.busy, hreaper]
    rfl
  have hrun : thisRun (history ++ [.collected id]) = thisRun history ++ [.collected id] := thisRun_unowed rfl
  have hlater : Ending (history ++ [.collected id]) s := h.same rfl rfl rfl rfl rfl rfl (.inl ⟨rfl, rfl⟩)
  refine { hlater with retired := fun i hi => ?_ }
  rcases hlater.retired i hi with hmem | hsame | hcollected
  · exact .inl hmem
  · obtain rfl := Option.some.inj (hbusy.symm.trans hsame)
    refine .inr (.inr ?_)
    rw [hrun]
    exact List.mem_append_right _ (List.mem_singleton_self _)
  · exact .inr (.inr hcollected)

/-- The packet worker is a new one, or none. -/
theorem Ending.replace (h : Ending history s) {worker' : Option Worker} {owner : Owner}
    (hnew : ∀ w, worker' = some w → w.eof = false ∧ w.pc ≠ .settling) :
    Ending history { s with worker := worker', owner := owner } :=
  { h with
    read := fun w hw heof => absurd ((hnew w hw).1.symm.trans heof) (by decide)
    settling := fun w hw hpc => absurd hpc (hnew w hw).2 }

theorem Ending.closed (h : Ending history s) : Ending (history ++ [.stopped s.finalState])
    { s with started := false, state := s.finalState, owner := .idle } := by
  have hlater : Ending (history ++ [.stopped s.finalState]) s := h.same rfl rfl rfl rfl rfl rfl (.inl ⟨rfl, rfl⟩)
  refine { hlater with state := fun htold => ?_ }
  change finalState s = .ended at htold
  rw [finalState] at htold
  split at htold
  · cases htold
  · rename_i herror
    split at htold
    · rename_i hended
      exact ⟨hended, Option.not_isSome_iff_eq_none.mp herror⟩
    · cases htold

theorem Ending.step (hs : Staged s) (hf : Failures history s) (h : Ending history s) (hstep : Stepped s events s') :
    Ending (history ++ events) s' := by
  cases hstep with
  | same => exact h.same rfl rfl rfl rfl rfl rfl (.inl ⟨rfl, rfl⟩)
  | started _ hstopped => exact Ending.begins hs hstopped
  | stop _ => exact h.same rfl rfl rfl rfl rfl rfl (.inl ⟨rfl, rfl⟩)
  | requested _ => exact h.same rfl rfl rfl rfl rfl rfl (.inl ⟨rfl, rfl⟩)
  | dropped _ _ => exact h.same rfl rfl rfl rfl rfl rfl (.inl ⟨rfl, rfl⟩)
  | failed _ _ _ => exact h.same rfl rfl rfl rfl rfl rfl (.inr (by simp [bind]))
  | stopRecorded _ => exact h.stopRecorded
  | inputCancelled _ => exact h.same rfl rfl rfl rfl rfl rfl (.inl ⟨rfl, rfl⟩)
  | drained _ => exact h.same rfl rfl rfl rfl rfl rfl (.inl ⟨rfl, rfl⟩)
  | @inputChanged t state rest _ =>
    refine h.same rfl rfl rfl rfl rfl rfl ?_
    cases hwaits : s.waits state with
    | true => exact .inr (by simp [bind])
    | false => exact .inl ⟨rfl, rfl⟩
  | reported _ => exact h.same rfl rfl rfl rfl rfl rfl (.inl ⟨rfl, rfl⟩)
  | published _ _ _ _ => exact h.same rfl rfl rfl rfl rfl rfl (.inl ⟨rfl, rfl⟩)
  | exited _ _ => exact h.same rfl rfl rfl rfl rfl rfl (.inl ⟨rfl, rfl⟩)
  | expired => exact h.same rfl rfl rfl rfl rfl rfl (.inl ⟨rfl, rfl⟩)
  | outputFailed _ _ _ => exact h.same rfl rfl rfl rfl rfl rfl (.inl ⟨rfl, rfl⟩)
  | moved hworker _ hgoes =>
    exact h.goes hworker _ (fun hpc => absurd hpc hgoes.unsettled) rfl rfl rfl rfl rfl rfl (.inl ⟨rfl, rfl⟩)
  | threw hworker _ _ e => exact h.goes hworker .leaving (by simp) rfl rfl rfl rfl rfl rfl (.inl ⟨rfl, rfl⟩)
  | opened hworker _ _ => exact h.goes hworker .rechecking (by simp) rfl rfl rfl rfl rfl rfl (.inl ⟨rfl, rfl⟩)
  | rechecked hworker _ _ => exact h.goes hworker .looping (by simp) rfl rfl rfl rfl rfl rfl (.inl ⟨rfl, rfl⟩)
  | endReached _ _ _ => exact h.endReached
  | ensured hworker _ _ =>
    refine h.ensure.goes ?_ .startingOutput (by simp) rfl rfl rfl rfl rfl rfl (.inl ⟨rfl, rfl⟩)
    rw [ensureRemuxer]
    split
    · exact hworker
    · exact hworker
  | outputStarted hworker _ _ _ =>
    exact h.goes hworker .sessionStarted (by simp) rfl rfl rfl rfl rfl rfl (.inl ⟨rfl, rfl⟩)
  | outputUnstarted hworker _ _ _ e =>
    exact h.goes hworker .leaving (by simp) rfl rfl rfl rfl rfl rfl (.inl ⟨rfl, rfl⟩)
  | sessionBegun hworker _ _ =>
    exact h.goes hworker .pacing (by simp) rfl rfl rfl rfl rfl rfl
      (advanceTo_state (s := { s with hasMedia := true }) (by simp))
  | submitted hworker _ _ => exact h.goes hworker .looping (by simp) rfl rfl rfl rfl rfl rfl (advanceTo_state (by simp))
  | stopsInput hworker _ _ => exact h.goes hworker .joiningInput (by simp) rfl rfl rfl rfl rfl rfl (.inl ⟨rfl, rfl⟩)
  | sessionClosed hworker _ hpc hcloses =>
    refine (h.closes hcloses).goto (hcloses.worker_eq.trans hworker) rfl fun hsettling => ?_
    rcases hpc with ⟨-, rfl⟩ | ⟨-, rfl⟩
    · cases hsettling
    · cases hsettling
  | @finished worker hworker _ _ =>
    refine h.goes hworker _ (fun hpc => ?_) rfl rfl rfl rfl rfl rfl (.inl ⟨rfl, rfl⟩)
    cases heof : worker.eof with
    | true => rfl
    | false => simp [heof] at hpc
  | ended hworker _ hpc hretired hretiring hgoing herror =>
    exact h.ends hf hworker hpc hretired hretiring hgoing herror
  | reaperTook hreaper hretired =>
    rw [List.append_nil]
    exact h.reaperTook hs hreaper hretired
  | reaperDone _ _ _ => exact h.same rfl rfl rfl rfl rfl rfl (.inl ⟨rfl, rfl⟩)
  | reaperStopped _ _ => exact h.same rfl rfl rfl rfl rfl rfl (.inl ⟨rfl, rfl⟩)
  | collected hreaper => exact h.collected hs hreaper
  | aborts _ _ _ => exact h.same rfl rfl rfl rfl rfl rfl (.inl ⟨rfl, rfl⟩)
  | ownerEnsured _ _ => exact h.ensure.same rfl rfl rfl rfl rfl rfl (.inl ⟨rfl, rfl⟩)
  | reaperLaunched _ _ => exact h.same rfl rfl rfl rfl rfl rfl (.inl ⟨rfl, rfl⟩)
  | workerLaunched _ _ =>
    rw [List.append_nil]
    refine h.replace fun w hw => ?_
    obtain rfl := Option.some.inj hw
    exact ⟨rfl, by simp⟩
  | aborted _ _ => exact h.same rfl rfl rfl rfl rfl rfl (.inl ⟨rfl, rfl⟩)
  | joinedWorker _ _ _ =>
    have hnone : Ending history { s with worker := none, owner := .joiningInput } := h.replace (by simp)
    exact hnone.same rfl rfl rfl rfl rfl rfl (.inl ⟨rfl, rfl⟩)
  | joinedInput _ _ => exact h.same rfl rfl rfl rfl rfl rfl (.inl ⟨rfl, rfl⟩)
  | ownerClosed _ _ hcloses => exact { h.closes hcloses with }
  | joinedReaper _ _ _ => exact h.same rfl rfl rfl rfl rfl rfl (.inl ⟨rfl, rfl⟩)
  | closed _ _ => exact h.closed

/-! ### Runs -/

theorem init_bound (hinit : system.init s) : Bound s := by
  obtain ⟨loop, rfl⟩ := hinit
  exact ⟨(fun _ _ h => by cases h), fun _ => rfl, fun _ => rfl, fun _ _ => rfl, fun _ => rfl, (fun _ _ h => by cases h)⟩

theorem init_staged (hinit : system.init s) : Staged s := by
  obtain ⟨loop, rfl⟩ := hinit
  exact {
    entered := (fun h => by cases h)
    session := (fun h => by cases h)
    finished := (fun h => by cases h)
    attended := (fun _ h => by cases h)
    reaperDone := (fun h => by cases h)
    reaped := fun _ => rfl
    busy := rfl
    numbered := fun id hid => by
      obtain rfl := Option.some.inj hid
      exact Nat.zero_lt_one
    fresh := fun _ _ => rfl
    lives := (fun _ h => by cases h)
    phase := trivial
    still := fun _ => ⟨rfl, rfl, fun _ => rfl⟩ }

theorem placed (hs : system.Reachable s) : Bound s ∧ Staged s := by
  induction hs with
  | init hinit => exact ⟨init_bound hinit, init_staged hinit⟩
  | step _ hstep ih =>
    obtain ⟨act, hact⟩ := hstep
    exact ⟨ih.1.step (ih.2.fresh _ le_rfl) (stepped hact), ih.2.step (stepped hact)⟩

theorem accounted {s₀ : RemuxPipeline} (hinit : system.init s₀) (hrun : system.Run s₀ history s) :
    Failures history s ∧ Ending history s := by
  induction hrun with
  | refl =>
    obtain ⟨loop, rfl⟩ := hinit
    exact ⟨.unfailed fun _ => rfl, (fun _ h => by cases h), (fun _ h => by cases h), (fun _ h => by cases h),
      fun _ => List.not_mem_nil, (fun h => by cases h), (fun h => by cases h)⟩
  | snoc hrun hstep ih =>
    obtain ⟨hbound, hstaged⟩ : Bound _ ∧ Staged _ := placed (Transition.Reachable.run (.init hinit) hrun)
    obtain ⟨act, hact⟩ := hstep
    exact ⟨ih.1.step hbound hstaged (stepped hact), ih.2.step hstaged ih.1 (stepped hact)⟩

/-- The pipeline without the writes between the two sections of `Fail`. -/
def careful : Transition RemuxPipeline Event where
  init := system.init
  step s events s' := ∃ act, s.overwrites act = false ∧ s.next act = some (events, s')

theorem careful_run {s₀ : RemuxPipeline} (hrun : careful.Run s₀ history s) : system.Run s₀ history s := by
  induction hrun with
  | refl => exact .refl _
  | snoc _ hstep ih =>
    obtain ⟨act, -, hact⟩ := hstep
    exact .snoc ih ⟨act, hact⟩

theorem careful_sane {s₀ : RemuxPipeline} (hinit : careful.init s₀) (hrun : careful.Run s₀ history s) : Sane s := by
  induction hrun with
  | refl =>
    obtain ⟨loop, rfl⟩ := hinit
    exact sane_unfailed rfl
  | snoc _ hstep ih =>
    obtain ⟨act, hcareful, hact⟩ := hstep
    exact (sane_iff ih hact).mpr hcareful

/-- **What a run tells of its failure and of its end.**  In every run in which no section writes the state between the
two sections of `Fail`, the state tells the failure that was recorded first, which is never replaced; `OnError` is
called once, at the latest until the pipeline has stopped; and the pipeline has ended only after an end of input, with
every retired output collected and neither a stop nor a failure.  The first such write, if there is one, makes the
state forget the failure. -/
theorem failure_told {s₀ : RemuxPipeline} (hinit : careful.init s₀) (hrun : careful.Run s₀ history s) :
    (s.error ≠ none → s.state = .failed) ∧ failures history = s.error.toList ∧
    (reports history = [] ∨ reports history = s.error.toList) ∧
    (s.started = false → reports history = s.error.toList) ∧
    (s.state = .ended → s.error = none ∧ Concluded (thisRun history)) ∧
    ∀ act events s', s.next act = some (events, s') →
      ((s'.error ≠ none → s'.state = .failed) ↔ s.overwrites act = false) := by
  have hsane : Sane s := careful_sane hinit hrun
  have hrun' : system.Run s₀ history s := careful_run hrun
  obtain ⟨hfailures, hending⟩ : Failures history s ∧ Ending history s := accounted hinit hrun'
  obtain ⟨hbound, hstaged⟩ : Bound s ∧ Staged s := placed (Transition.Reachable.run (.init hinit) hrun')
  refine ⟨hsane, hfailures.failures_eq, hfailures.once, fun hstopped => ?_, fun htold => ?_,
    fun act events s' hact => ?_⟩
  · exact hfailures.settled (hbound.unreported hstaged hstopped)
  · obtain ⟨hended, herror⟩ := hending.state htold
    exact ⟨herror, hending.concluded hended⟩
  · exact sane_iff hsane hact

/-- A session is set up and its output fails. -/
def failingOutput : List Act :=
  [.start, .own none, .own none, .own none, .work {}, .work {}, .work {}, .work {}, .work { read := .boundary },
    .work {}, .work {}, .work {}, .work {}, .work {}, .outside (.outputFails 0 (.runtimeError "rtmp"))]

theorem failure_told_stopped : ∃ history s, system.init {} ∧
    Transition.execute (fun s act => if s.overwrites act then none else next s act) {}
      (failingOutput ++ [.work {}] ++ List.replicate 5 (.perform (.output 0))) = some (history, s) ∧
    (s.error ≠ none → s.state = .failed) ∧ s.error = some (.runtimeError "rtmp") ∧ failures history = s.error.toList ∧
    reports history = s.error.toList ∧ s.input.cancelled = true ∧ (s.outputs 0).draining = true := by
  refine ⟨_, _, ⟨false, rfl⟩, rfl, ?_, rfl, rfl, rfl, rfl, rfl⟩
  have hrun := Transition.execute_run (T := careful)
    (fun (s : RemuxPipeline) (act : Act) events s' h => by
      split at h
      · cases h
      · rename_i hcareful
        exact ⟨act, by rwa [Bool.not_eq_true] at hcareful, h⟩)
    (rfl : Transition.execute (fun s act => if s.overwrites act then none else next s act) ({} : RemuxPipeline)
      (failingOutput ++ [.work {}] ++ List.replicate 5 (.perform (.output 0))) = some (_, _))
  exact (failure_told ⟨false, rfl⟩ hrun).1

/-- The packet worker writes that it runs between the two sections of a failure. -/
theorem failure_overwritten : ∃ history s, system.init {} ∧
    system.Run {} history s ∧ s.error = some (.runtimeError "rtmp") ∧ s.state = .running := by
  have hrun := Transition.execute_run (T := system) (fun _ act _ _ h => ⟨act, h⟩)
    (rfl : Transition.execute next ({} : RemuxPipeline) (failingOutput ++ [.perform (.output 0), .work {}])
      = some (_, _))
  exact ⟨_, _, ⟨false, rfl⟩, hrun, rfl, rfl⟩

end RemuxPipeline

end MwStreamer
