import MwStreamer.Pipeline.OfflineDelivery
import MwStreamer.Pipeline.OfflineWakeups

/-!
# Runs of the offline pipeline

The worker goes through phases: it consumes, resets the filter, waits until the source has settled, leaves and finishes.
`Stage` says what the history of the current run shows in each of them, `Final` what it shows once the worker has
finished.
-/

namespace MwStreamer

namespace OfflinePipeline

variable {s s' : OfflinePipeline} {events events' history latest : List Event} {worker worker' : Worker}
  {thread : Thread}

/-- The history since the last `Start`. -/
def current (history : List Event) : List Event := Sessions.latest Event.opens history

/-! ### What a history shows -/

def Event.byWorker : Event → Bool
  | .opened | .read _ _ | .consumed _ _ | .threw _ | .stopSeen | .exhausted _ | .reset | .settled | .filterStopped _
  | .finished _ => true
  | _ => false

/-- After these `Reset` may not be called. -/
def Event.disturbs : Event → Bool
  | .stopSeen | .threw _ | .reset => true
  | _ => false

/-- Before these `Reset` must not be called. -/
def Event.feeds : Event → Bool
  | .read _ _ | .consumed _ _ | .reset => true
  | _ => false

/-- Events of the worker after `Consume`. -/
def Event.late : Event → Bool
  | .settled | .filterStopped _ | .finished _ => true
  | _ => false

/-- Events of the worker inside `Consume`. -/
def Event.early : Event → Bool
  | .threw _ | .exhausted _ | .reset | .settled | .filterStopped _ | .finished _ => false
  | _ => true

/-- The end of every present track was read. -/
def Exhausted (latest : List Event) : Prop :=
  ∃ present, .exhausted present ∈ latest ∧ ∀ v, present v = true → .read v .eof ∈ latest

/-- `Reset` was called once, behind the end of every track, and nothing was read or passed after it. -/
def ResetOnce (latest : List Event) : Prop :=
  ∃ before after, latest = before ++ .reset :: after ∧ (∀ e ∈ before, e.disturbs = false) ∧ Exhausted before ∧
    ∀ e ∈ after, e.feeds = false

/-- The pipeline has processed its source to the end. -/
structure Complete (latest : List Event) : Prop where
  reset : ResetOnce latest
  settled : .settled ∈ latest
  stopped : .filterStopped none ∈ latest
  unthrown : ∀ thrown, .filterStopped thrown ∈ latest → thrown = none
  unrecorded : .recorded ∉ latest
  unfailed : ∀ e, .failed e ∉ latest

/-- The pipeline had processed its source to the end when the worker finished. -/
def Ended (latest : List Event) : Prop :=
  ∃ before after, latest = before ++ .finished .ended :: after ∧ Complete before

theorem Exhausted.append (h : Exhausted latest) : Exhausted (latest ++ events) := by
  obtain ⟨present, hmem, heof⟩ := h
  exact ⟨present, List.mem_append_left _ hmem, fun v hv => List.mem_append_left _ (heof v hv)⟩

theorem ResetOnce.append (h : ResetOnce latest) (hevents : ∀ e ∈ events, e.feeds = false) :
    ResetOnce (latest ++ events) := by
  obtain ⟨before, after, rfl, hbefore, hexhausted, hafter⟩ := h
  refine ⟨before, after ++ events, by rw [List.append_assoc, List.cons_append], hbefore, hexhausted, fun e he => ?_⟩
  rcases List.mem_append.mp he with he | he
  · exact hafter e he
  · exact hevents e he

theorem Ended.append (h : Ended latest) : Ended (latest ++ events) := by
  obtain ⟨before, after, rfl, hcomplete⟩ := h
  exact ⟨before, after ++ events, by rw [List.append_assoc, List.cons_append], hcomplete⟩

/-! ### Stops -/

structure Stops (latest : List Event) (s : OfflinePipeline) : Prop where
  recorded : .recorded ∈ latest → s.stopping = true
  seen : .stopSeen ∈ latest → s.stopping = true

theorem Move.stopSeen (h : Move s worker events worker') (hseen : .stopSeen ∈ events) : s.stopping = true := by
  cases h with
  | leaves hpc hstopping => exact hstopping
  | passed hpc hstopping => exact hstopping
  | _ => simp at hseen

theorem Throws.unstopped {filter : AvMediaFilter} {e : Exception} (h : Throws s worker events filter e) :
    .stopSeen ∉ events ∧ .recorded ∉ events := by cases h <;> simp

theorem Move.unrecorded (h : Move s worker events worker') : .recorded ∉ events := by cases h <;> simp

theorem Stops.frame (h : Stops latest s) (hstopping : s'.stopping = s.stopping) (hrecorded : .recorded ∉ events)
    (hseen : .stopSeen ∈ events → s.stopping = true) : Stops (latest ++ events) s' := by
  refine ⟨fun hmem => ?_, fun hmem => ?_⟩
  · rw [hstopping]
    exact h.recorded ((List.mem_append.mp hmem).resolve_right hrecorded)
  · rw [hstopping]
    exact (List.mem_append.mp hmem).elim h.seen hseen

/-- The section of a `RequestStop` emits nothing else. -/
theorem recorded_only {e : Event} (h : e ∈ if s.started then [Event.recorded] else []) : e = .recorded := by
  split at h
  · exact List.mem_singleton.mp h
  · exact absurd h List.not_mem_nil

/-- The steps that do not open a run. -/
theorem Stepped.continues (hstep : Stepped s events s') (h : events ≠ [.started]) : ∀ e ∈ events, e.opens = false := by
  cases hstep with
  | started hidle hstopped => exact absurd rfl h
  | stopRecorded htodo => exact fun e he => recorded_only he ▸ rfl
  | moved hworker htodo hmove => cases hmove <;> simp [Event.opens, Event.kind, Threads.Kind.isOpens]
  | threw hworker htodo hthrows => cases hthrows <;> simp [Event.opens, Event.kind, Threads.Kind.isOpens]
  | _ => simp [Event.opens, Event.kind, Threads.Kind.isOpens]

theorem Stepped.starts (hstep : Stepped s [.started] s') : s.owner = .idle ∧ s.started = false ∧ s' = { s with
    started := true, stopping := false, ended := false, error := none, state := .starting, owner := .launching } := by
  generalize hevents : [Event.started] = es at hstep
  have hmem : .started ∈ es := hevents ▸ List.mem_cons_self
  cases hstep with
  | started hidle hstopped => exact ⟨hidle, hstopped, rfl⟩
  | stopRecorded htodo => exact absurd (recorded_only hmem) (by simp)
  | moved hworker htodo hmove => cases hmove <;> simp at hmem
  | threw hworker htodo hthrows => cases hthrows <;> simp at hmem
  | _ => simp at hmem

theorem current_append (hstep : Stepped s events s') (h : events ≠ [.started]) :
    current (history ++ events) = current history ++ events := Sessions.latest_append (hstep.continues h)

theorem current_started : current (history ++ [.started]) = [] := Sessions.latest_opened rfl

theorem Stops.step (h : Stops (current history) s) (hstep : Stepped s events s') :
    Stops (current (history ++ events)) s' := by
  by_cases hopens : events = [.started]
  · subst hopens
    rw [current_started]
    exact ⟨fun hmem => absurd hmem List.not_mem_nil, fun hmem => absurd hmem List.not_mem_nil⟩
  rw [current_append hstep hopens]
  cases hstep with
  | started hidle hstopped => exact absurd rfl hopens
  | stopRecorded htodo => exact ⟨fun _ => rfl, fun _ => rfl⟩
  | moved hworker htodo hmove => exact h.frame rfl hmove.unrecorded hmove.stopSeen
  | threw hworker htodo hthrows =>
    exact h.frame rfl hthrows.unstopped.2 fun hcontra => absurd hcontra hthrows.unstopped.1
  | _ => exact h.frame rfl (by simp) fun hcontra => by simp at hcontra

/-! ### Phases of the worker -/

inductive Phase where
  | consuming
  | resetting
  | settling
  | leaving
  | finishing
  | done
  deriving DecidableEq

def Pc.phase : Pc → Phase
  | .resetting => .resetting
  | .settling | .settleChecking | .settleReading | .settleWaiting => .settling
  | .stoppingSource | .joiningSource | .stoppingFilter => .leaving
  | .finishing => .finishing
  | .done => .done
  | _ => .consuming

/-- What the worker has to show for `completed`. -/
def Settled (latest : List Event) (worker : Worker) : Prop :=
  worker.completed = true → ResetOnce latest ∧ .settled ∈ latest

/-- What the history shows when the worker is in this phase. -/
def AtPhase (latest : List Event) (s : OfflinePipeline) (worker : Worker) : Phase → Prop
  | .consuming => (∀ e ∈ latest, e.early = true) ∧ (∀ v, worker.round.eof v = true → .read v .eof ∈ latest) ∧
      worker.completed = false
  | .resetting => (∀ e ∈ latest, e.disturbs = false ∧ e.late = false) ∧ Exhausted latest ∧ worker.completed = false
  | .settling => ResetOnce latest ∧ (∀ e ∈ latest, e.late = false) ∧ worker.completed = false
  | .leaving => (∀ thrown, .filterStopped thrown ∉ latest) ∧ (∀ state, .finished state ∉ latest) ∧
      Settled latest worker ∧ (worker.completed = true ∨ s.stopping = true ∨ ∃ e, .threw e ∈ latest)
  | .finishing => (∃ thrown, .filterStopped thrown ∈ latest) ∧ (∀ state, .finished state ∉ latest) ∧
      Settled latest worker ∧ (worker.completed = true ∨ s.stopping = true ∨ ∃ e, .threw e ∈ latest) ∧
      ∀ thrown, .filterStopped thrown ∈ latest → thrown = none ∨ s.error ≠ none ∨ ∃ e, .fail e ∈ s.todo .worker
  | .done => True

/-- The history of the worker. -/
structure Stage (latest : List Event) (s : OfflinePipeline) : Prop where
  beginning : s.owner.beginning = true → ∀ e ∈ latest, e.byWorker = false
  once : (∀ e ∈ latest, e ≠ .reset) ∨ ResetOnce latest
  worker : ∀ w, s.worker = some w → AtPhase latest s w w.pc.phase

theorem Event.beside {e : Event} (hworker : e.byWorker = false) : e.disturbs = false ∧ e.feeds = false ∧
    e.late = false ∧ e.early = true := by
  cases e <;> first | exact ⟨rfl, rfl, rfl, rfl⟩ | cases hworker

theorem forall_append {p : Event → Prop} (h : ∀ e ∈ latest, p e) (hevents : ∀ e ∈ events, p e) :
    ∀ e ∈ latest ++ events, p e := by
  intro e he
  exact (List.mem_append.mp he).elim (h e) (hevents e)

theorem Settled.append (h : Settled latest worker) (hevents : ∀ e ∈ events, e.feeds = false) :
    Settled (latest ++ events) worker := by
  intro hcompleted
  obtain ⟨hreset, hsettled⟩ := h hcompleted
  exact ⟨hreset.append hevents, List.mem_append_left _ hsettled⟩

/-- A step of another thread. -/
theorem AtPhase.beside {phase : Phase} (h : AtPhase latest s worker phase)
    (hevents : ∀ e ∈ events, e.byWorker = false) (hstopping : s.stopping = true → s'.stopping = true)
    (herror : s.error ≠ none → s'.error ≠ none)
    (hfail : (∃ e, .fail e ∈ s.todo .worker) → s'.error ≠ none ∨ ∃ e, .fail e ∈ s'.todo .worker) :
    AtPhase (latest ++ events) s' worker phase := by
  have hfeeds : ∀ e ∈ events, e.feeds = false := fun e he => (Event.beside (hevents e he)).2.1
  have hno : ∀ {e : Event}, e.byWorker = true → e ∉ latest → e ∉ latest ++ events := by
    intro e hby hnot hmem
    exact (List.mem_append.mp hmem).elim hnot fun hev => absurd (hby.symm.trans (hevents e hev)) (by decide)
  have hwhy : (worker.completed = true ∨ s.stopping = true ∨ ∃ e, .threw e ∈ latest) →
      worker.completed = true ∨ s'.stopping = true ∨ ∃ e, .threw e ∈ latest ++ events := by
    rintro (hcompleted | hstop | ⟨e, he⟩)
    · exact .inl hcompleted
    · exact .inr (.inl (hstopping hstop))
    · exact .inr (.inr ⟨e, List.mem_append_left _ he⟩)
  cases phase with
  | consuming =>
    exact ⟨forall_append h.1 fun e he => (Event.beside (hevents e he)).2.2.2,
      fun v hv => List.mem_append_left _ (h.2.1 v hv), h.2.2⟩
  | resetting =>
    refine ⟨forall_append h.1 fun e he => ?_, h.2.1.append, h.2.2⟩
    obtain ⟨hdisturbs, -, hlate, -⟩ := Event.beside (hevents e he)
    exact ⟨hdisturbs, hlate⟩
  | settling =>
    exact ⟨h.1.append hfeeds, forall_append h.2.1 fun e he => (Event.beside (hevents e he)).2.2.1, h.2.2⟩
  | leaving =>
    obtain ⟨hstopped, hfinished, hsettled, hbecause⟩ := h
    exact ⟨fun thrown => hno rfl (hstopped thrown), fun state => hno rfl (hfinished state), hsettled.append hfeeds,
      hwhy hbecause⟩
  | finishing =>
    obtain ⟨⟨thrown, hthrown⟩, hfinished, hsettled, hbecause, hfailed⟩ := h
    refine ⟨⟨thrown, List.mem_append_left _ hthrown⟩, fun state => hno rfl (hfinished state), hsettled.append hfeeds,
      hwhy hbecause, fun thrown' hmem => ?_⟩
    rcases List.mem_append.mp hmem with hmem | hmem
    · rcases hfailed thrown' hmem with hnone | hset | hpending
      · exact .inl hnone
      · exact .inr (.inl (herror hset))
      · exact .inr (hfail hpending)
    · exact absurd (hevents _ hmem) (by simp [Event.byWorker])
  | done => trivial

/-- A step that leaves the worker where it is. -/
theorem Stage.beside (h : Stage latest s) (hevents : ∀ e ∈ events, e.byWorker = false) (hworker : s'.worker = s.worker)
    (howner : s'.owner.beginning = true → s.owner.beginning = true) (hstopping : s.stopping = true → s'.stopping = true)
    (herror : s.error ≠ none → s'.error ≠ none)
    (hfail : ∀ w, s.worker = some w → (∃ e, .fail e ∈ s.todo .worker) →
      s'.error ≠ none ∨ ∃ e, .fail e ∈ s'.todo .worker) : Stage (latest ++ events) s' where
  beginning hbegins := forall_append (h.beginning (howner hbegins)) hevents
  once := by
    refine h.once.imp (fun hnone => forall_append hnone fun e he => ?_) fun hreset => hreset.append fun e he =>
      (Event.beside (hevents e he)).2.1
    rintro rfl
    cases hevents _ he
  worker w hw := by
    rw [hworker] at hw
    exact (h.worker w hw).beside hevents hstopping herror (hfail w hw)

theorem Event.early_late {e : Event} (h : e.early = true) : e.late = false ∧ e ≠ .reset ∧ ∀ x, e ≠ .threw x := by
  cases e <;> first | (cases h; done) | exact ⟨rfl, by simp, by simp⟩

theorem late_leaves (h : ∀ e ∈ latest, e.late = false) :
    (∀ thrown, .filterStopped thrown ∉ latest) ∧ ∀ state, .finished state ∉ latest :=
  ⟨fun _ hmem => absurd (h _ hmem) (by simp [Event.late]), fun _ hmem => absurd (h _ hmem) (by simp [Event.late])⟩

theorem AtPhase.unreset (h : AtPhase latest s worker .consuming) : ∀ e ∈ latest, e ≠ .reset :=
  fun e he => (Event.early_late (h.1 e he)).2.1

theorem AtPhase.unlate (h : AtPhase latest s worker .consuming) : ∀ e ∈ latest, e.late = false :=
  fun e he => (Event.early_late (h.1 e he)).1

/-- The worker goes on inside `Consume`. -/
theorem AtPhase.consumes (h : AtPhase latest s worker .consuming) (hearly : ∀ e ∈ events, e.early = true)
    (heof : ∀ v, worker'.round.eof v = true → worker.round.eof v = true ∨ .read v .eof ∈ events)
    (hcompleted : worker'.completed = worker.completed) : AtPhase (latest ++ events) s' worker' .consuming := by
  refine ⟨forall_append h.1 hearly, fun v hv => ?_, hcompleted.trans h.2.2⟩
  rcases heof v hv with hbefore | hnow
  · exact List.mem_append_left _ (h.2.1 v hbefore)
  · exact List.mem_append_right _ hnow

/-- The worker leaves before the source has settled. -/
theorem AtPhase.leaves (hlate : ∀ e ∈ latest, e.late = false) (hevents : ∀ e ∈ events, e.late = false)
    (hcompleted : worker'.completed = false) (hwhy : s'.stopping = true ∨ ∃ e, .threw e ∈ latest ++ events) :
    AtPhase (latest ++ events) s' worker' .leaving := by
  obtain ⟨hstopped, hfinished⟩ := late_leaves (forall_append hlate hevents)
  refine ⟨hstopped, hfinished, fun hcontra => ?_, .inr hwhy⟩
  exact absurd (hcompleted.symm.trans hcontra) (by decide)

theorem Stage.work (h : Stage latest s) (hc : Control s) (hworker : s.worker = some worker)
    (hworker' : s'.worker = some worker') (howner : s'.owner = s.owner)
    (honce : (∀ e ∈ events, e ≠ .reset) ∧ ((∀ e ∈ latest, e ≠ .reset) ∨ ∀ e ∈ events, e.feeds = false) ∨
      ResetOnce (latest ++ events))
    (hphase : AtPhase (latest ++ events) s' worker' worker'.pc.phase) : Stage (latest ++ events) s' where
  beginning hbegins := by
    rw [howner] at hbegins
    have halone : s.owner.alone = true := by
      cases hplace : s.owner <;> rw [hplace] at hbegins <;> first | rfl | cases hbegins
    exact absurd ((hc.alone (.inr halone)).1.symm.trans hworker) (by simp)
  once := by
    rcases honce with ⟨hnoreset, hunreset | hunfed⟩ | hreset
    · exact .inl (forall_append hunreset hnoreset)
    · exact h.once.imp (fun hunreset => forall_append hunreset hnoreset) fun hreset => hreset.append hunfed
    · exact .inr hreset
  worker w hw := by
    obtain rfl := Option.some.inj (hworker'.symm.trans hw)
    exact hphase

theorem Round.exhausted_eof {round : Round} {present : Bool → Bool} (hinfo : round.info = some present)
    (h : round.exhausted = true) (v : Bool) (hv : present v = true) : round.eof v = true := by
  rw [Round.exhausted, hinfo] at h
  simp only [Bool.and_eq_true, Bool.or_eq_true, Bool.not_eq_true'] at h
  cases v with
  | true => exact h.1.2.resolve_left fun hcontra => absurd (hcontra.symm.trans hv) (by decide)
  | false => exact h.2.resolve_left fun hcontra => absurd (hcontra.symm.trans hv) (by decide)

theorem Pc.phase_afterTrack (video : Bool) : (Pc.afterTrack video).phase = .consuming := by
  cases video with
  | true => rfl
  | false => rfl

theorem Pc.phase_leaves {pc : Pc} (h : pc.leaves = true) : pc.phase = .consuming := by
  cases pc <;> first | rfl | cases h

/-- A move of the worker, in the phases it goes through. -/
theorem Move.phase (hmove : Move s worker events worker') (hstops : Stops latest s)
    (h : AtPhase latest s worker worker.pc.phase) :
    AtPhase (latest ++ events) { s with worker := some worker' } worker' worker'.pc.phase := by
  have hgoes : ∀ {w : Worker} {pc : Pc} {es : List Event}, worker.pc.phase = .consuming → pc.phase = .consuming →
      w.pc = pc → (∀ e ∈ es, e.early = true) → w.round.eof = worker.round.eof → w.completed = worker.completed →
      AtPhase (latest ++ es) { s with worker := some w } w w.pc.phase := by
    intro w pc es hphase hphase' hpc hearly heof hcompleted
    rw [hphase] at h
    rw [hpc, hphase']
    exact h.consumes hearly (fun v hv => .inl (heof ▸ hv)) hcompleted
  have hnone : ∀ e ∈ ([] : List Event), e.early = true := fun e he => absurd he List.not_mem_nil
  have hstays : ∀ {w : Worker} (phase : Phase), worker.pc.phase = phase → w.pc.phase = phase →
      (phase = .settling ∨ phase = .leaving) → w.completed = worker.completed →
      AtPhase (latest ++ []) { s with worker := some w } w w.pc.phase := by
    intro w phase hphase hphase' hwhich hcompleted
    rw [List.append_nil, hphase']
    rw [hphase] at h
    rcases hwhich with rfl | rfl
    · exact ⟨h.1, h.2.1, hcompleted.trans h.2.2⟩
    · obtain ⟨hstopped, hfinished, hsettled, hwhy⟩ := h
      exact ⟨hstopped, hfinished, fun hdone => hsettled (hcompleted ▸ hdone), hcompleted ▸ hwhy⟩
  cases hmove with
  | checked hpc =>
    refine hgoes (by rw [hpc]; rfl) ?_ rfl hnone rfl rfl
    cases s.stopping <;> rfl
  | leaves hpc hstopping =>
    rw [Pc.phase_leaves hpc] at h
    exact AtPhase.leaves h.unlate (by simp [Event.late]) h.2.2 (.inl hstopping)
  | loops hpc hgoing => exact hgoes (by rw [hpc]; rfl) rfl rfl hnone rfl rfl
  | observed hpc => exact hgoes (by rw [hpc]; rfl) rfl rfl hnone rfl rfl
  | described hpc =>
    refine hgoes (by rw [hpc]; rfl) ?_ rfl hnone rfl rfl
    cases s.source.info <;> rfl
  | skipped hpc hskip => exact hgoes (by rw [hpc]; rfl) (Pc.phase_afterTrack _) rfl hnone rfl rfl
  | passed hpc hstopping =>
    exact hgoes (by rw [hpc]; rfl) (Pc.phase_afterTrack _) rfl (by simp [Event.early]) rfl rfl
  | visits hpc hunread => exact hgoes (by rw [hpc]; rfl) rfl rfl hnone rfl rfl
  | null hpc hnull => exact hgoes (by rw [hpc]; rfl) (Pc.phase_afterTrack _) rfl hnone rfl rfl
  | @exhausted present hpc hinfo hexhausted hgoing =>
    rw [hpc] at h
    refine ⟨forall_append (fun e he => ⟨?_, AtPhase.unlate h e he⟩) (by simp [Event.disturbs, Event.late]),
      ⟨present, List.mem_append_right _ List.mem_cons_self, fun v hv => ?_⟩, h.2.2⟩
    · obtain ⟨-, hreset, hthrew⟩ := Event.early_late (h.1 e he)
      cases e with
      | stopSeen => exact absurd (hgoing.symm.trans (hstops.seen he)) (by decide)
      | threw x => exact absurd rfl (hthrew x)
      | reset => exact absurd rfl hreset
      | _ => rfl
    · exact List.mem_append_left _ (h.2.1 v (Round.exhausted_eof hinfo hexhausted v hv))
  | judged hpc hmore => exact hgoes (by rw [hpc]; rfl) rfl rfl hnone rfl rfl
  | again hpc hprogress => exact hgoes (by rw [hpc]; rfl) rfl rfl hnone rfl rfl
  | waits hpc hidle hgoing => exact hgoes (by rw [hpc]; rfl) rfl rfl hnone rfl rfl
  | woken hpc hrevision => exact hgoes (by rw [hpc]; rfl) rfl rfl hnone rfl rfl
  | settles hpc => exact hstays .settling (by rw [hpc]; rfl) rfl (.inl rfl) rfl
  | settleChecked hpc =>
    have hat := h
    rw [hpc] at hat
    by_cases hstopping : s.stopping = true
    · show AtPhase _ _ _ (if s.stopping then Pc.stoppingSource else Pc.settleReading).phase
      rw [if_pos hstopping]
      exact AtPhase.leaves hat.2.1 (fun e he => absurd he List.not_mem_nil) hat.2.2 (.inl hstopping)
    · refine hstays .settling (by rw [hpc]; rfl) ?_ (.inl rfl) rfl
      show (if s.stopping then Pc.stoppingSource else Pc.settleReading).phase = .settling
      rw [if_neg hstopping]
      rfl
  | settled hpc hended =>
    rw [hpc] at h
    refine ⟨fun thrown hmem => ?_, fun state hmem => ?_, fun _ => ⟨h.1.append (by simp [Event.feeds]), by simp⟩,
      .inl rfl⟩
    · rcases List.mem_append.mp hmem with hmem | hmem
      · exact (late_leaves h.2.1).1 thrown hmem
      · simp at hmem
    · rcases List.mem_append.mp hmem with hmem | hmem
      · exact (late_leaves h.2.1).2 state hmem
      · simp at hmem
  | unsettled hpc hended => exact hstays .settling (by rw [hpc]; rfl) rfl (.inl rfl) rfl
  | settleWoken hpc hrevision => exact hstays .settling (by rw [hpc]; rfl) rfl (.inl rfl) rfl
  | joined hpc hended hquiet => exact hstays .leaving (by rw [hpc]; rfl) rfl (.inr rfl) rfl

theorem Move.unreset (h : Move s worker events worker') :
    (∀ e ∈ events, e ≠ .reset) ∧ ∀ e ∈ events, e.feeds = false := by
  cases h <;> simp [Event.feeds]

/-- The phases a worker may throw in. -/
theorem Throws.phase {filter : AvMediaFilter} {x : Exception} (hthrows : Throws s worker events filter x)
    (h : AtPhase latest s worker worker.pc.phase) :
    worker.completed = false ∧ (∀ e ∈ latest, e.late = false) ∧ (∀ e ∈ events, e.late = false) ∧ .threw x ∈ events ∧
      ((∀ e ∈ events, e ≠ .reset) ∧ ((∀ e ∈ latest, e ≠ .reset) ∨ ∀ e ∈ events, e.feeds = false) ∨
        ResetOnce (latest ++ events)) := by
  cases hthrows with
  | starting hpc x =>
    rw [hpc] at h
    exact ⟨h.2.2, h.unlate, by simp [Event.late], by simp, .inl ⟨by simp, .inl h.unreset⟩⟩
  | opening hpc x =>
    rw [hpc] at h
    exact ⟨h.2.2, h.unlate, by simp [Event.late], by simp, .inl ⟨by simp, .inl h.unreset⟩⟩
  | unfit hpc hcheck =>
    rcases hpc with hpc | ⟨video, frame, hpc⟩
    · rw [hpc] at h
      exact ⟨h.2.2, fun e he => (h.1 e he).2, by simp [Event.late], by simp,
        .inl ⟨by simp, .inr (by simp [Event.feeds])⟩⟩
    · rw [hpc] at h
      exact ⟨h.2.2, AtPhase.unlate h, by simp [Event.late], by simp, .inl ⟨by simp, .inl (AtPhase.unreset h)⟩⟩
  | consuming hpc x =>
    rw [hpc] at h
    exact ⟨h.2.2, AtPhase.unlate h, by simp [Event.late], by simp, .inl ⟨by simp, .inl (AtPhase.unreset h)⟩⟩
  | resetting hpc x =>
    rw [hpc] at h
    refine ⟨h.2.2, fun e he => (h.1 e he).2, by simp [Event.late], by simp, .inr ?_⟩
    exact ⟨latest, [.threw x], rfl, fun e he => (h.1 e he).1, h.2.1, by simp [Event.feeds]⟩

/-- A step inside `Consume`. -/
theorem Stage.consumes (h : Stage latest s) (hc : Control s) (hworker : s.worker = some worker)
    (hworker' : s'.worker = some worker') (howner : s'.owner = s.owner) (hphase : worker.pc.phase = .consuming)
    (hphase' : worker'.pc.phase = .consuming) (hearly : ∀ e ∈ events, e.early = true)
    (heof : ∀ v, worker'.round.eof v = true → worker.round.eof v = true ∨ .read v .eof ∈ events)
    (hcompleted : worker'.completed = worker.completed) : Stage (latest ++ events) s' := by
  have hat := h.worker worker hworker
  rw [hphase] at hat
  refine h.work hc hworker hworker' howner
    (.inl ⟨fun e he => (Event.early_late (hearly e he)).2.1, .inl hat.unreset⟩) ?_
  rw [hphase']
  exact hat.consumes hearly heof hcompleted

/-- A failure that the worker is bound to record stays, unless the worker takes up other tasks without it. -/
theorem pending_bind (htodo : s'.todo = s.todo) {tasks : List Task}
    (hkeeps : ∀ e, .fail e ∈ s.todo thread → .fail e ∈ tasks) (hpending : ∃ e, .fail e ∈ s.todo .worker) :
    ∃ e, .fail e ∈ (s'.bind thread tasks).todo .worker := by
  obtain ⟨e, he⟩ := hpending
  refine ⟨e, ?_⟩
  show .fail e ∈ Function.update s'.todo thread tasks .worker
  rw [htodo]
  by_cases heq : thread = .worker
  · subst heq
    rw [Function.update_self]
    exact hkeeps e he
  · rw [Function.update_of_ne fun hcontra => heq hcontra.symm]
    exact he

/-- A thread that is bound to nothing takes tasks up. -/
theorem pending_begins (htodo : s'.todo = s.todo) (hfree : s.todo thread = []) {tasks : List Task}
    (hpending : ∃ e, .fail e ∈ s.todo .worker) : ∃ e, .fail e ∈ (s'.bind thread tasks).todo .worker := by
  refine pending_bind htodo (fun e he => ?_) hpending
  rw [hfree] at he
  exact absurd he List.not_mem_nil

/-- A thread performs a task that records no failure. -/
theorem pending_takes (htodo : s'.todo = s.todo) {task : Task} {rest tasks : List Task}
    (hbound : s.todo thread = task :: rest) (htask : ∀ e, task ≠ .fail e) (hrest : ∀ m ∈ rest, m ∈ tasks)
    (hpending : ∃ e, .fail e ∈ s.todo .worker) : ∃ e, .fail e ∈ (s'.bind thread tasks).todo .worker := by
  refine pending_bind htodo (fun e he => ?_) hpending
  rw [hbound] at he
  rcases List.mem_cons.mp he with heq | he
  · exact absurd heq.symm (htask e)
  · exact hrest _ he

/-- The worker is launched, and nothing it says is of this run yet. -/
theorem Stage.launched (h : Stage latest s) (howner : s.owner = .launching) :
    Stage (latest ++ [.launched]) { s with worker := some {}, owner := .idle } := by
  have hbefore := h.beginning (by rw [howner]; rfl)
  refine ⟨(fun hcontra => by cases hcontra), .inl (forall_append (fun e he => ?_) (by simp)), fun w hw => ?_⟩
  · rintro rfl
    cases hbefore _ he
  · obtain rfl := Option.some.inj hw
    exact ⟨forall_append (fun e he => (Event.beside (hbefore e he)).2.2.2) (by simp [Event.early]),
      (fun v hv => by cases hv), rfl⟩

/-- The filter is stopped, with an error or without. -/
theorem Stage.filterStopped (h : Stage latest s) (hc : Control s) (hworker : s.worker = some worker)
    (hpc : worker.pc = .stoppingFilter) (filter : AvMediaFilter) (thrown : Option Exception) :
    Stage (latest ++ [.filterStopped thrown]) ({ s with
      filter := filter, worker := some { worker with pc := .finishing } }.bind .worker
        (thrown.toList.map .fail)) := by
  have hat := h.worker worker hworker
  rw [hpc] at hat
  obtain ⟨hstopped, hfinished, hsettled, hwhy⟩ := hat
  refine h.work hc hworker rfl rfl (.inl ⟨by simp, .inr (by simp [Event.feeds])⟩)
    ⟨⟨thrown, by simp⟩, fun state hmem => ?_, hsettled.append (by simp [Event.feeds]), ?_, fun thrown' hmem => ?_⟩
  · rcases List.mem_append.mp hmem with hmem | hmem
    · exact hfinished state hmem
    · simp at hmem
  · rcases hwhy with hcompleted | hstop | ⟨e, he⟩
    · exact .inl hcompleted
    · exact .inr (.inl hstop)
    · exact .inr (.inr ⟨e, List.mem_append_left _ he⟩)
  · rcases List.mem_append.mp hmem with hmem | hmem
    · exact absurd hmem (hstopped thrown')
    · obtain rfl : thrown' = thrown := by simpa using hmem
      cases thrown' with
      | none => exact .inl rfl
      | some e => exact .inr (.inr ⟨e, by simp [bind]⟩)

/-- **One step keeps the stage.** -/
theorem Stage.step (hc : Control s) (hstops : Stops (current history) s) (h : Stage (current history) s)
    (hstep : Stepped s events s') : Stage (current (history ++ events)) s' := by
  by_cases hopens : events = [.started]
  · subst hopens
    rw [current_started]
    refine ⟨fun _ e he => absurd he List.not_mem_nil, .inl fun e he => absurd he List.not_mem_nil, fun w hw => ?_⟩
    obtain ⟨-, hstopped, rfl⟩ := hstep.starts
    exact absurd ((hc.alone (.inl hstopped)).1.symm.trans hw) (by simp)
  rw [current_append hstep hopens]
  have hnone : ∀ e ∈ ([] : List Event), e.byWorker = false := fun e he => absurd he List.not_mem_nil
  cases hstep with
  | same => exact h.beside hnone rfl id id id fun _ _ hpending => .inr hpending
  | started hidle hstopped => exact absurd rfl hopens
  | stop hidle =>
    exact h.beside hnone rfl (fun hcontra => by cases hcontra) id id fun _ _ hpending =>
      .inr (pending_begins rfl (hc.resting (by rw [hidle]; rfl)) hpending)
  | requested htodo => exact h.beside hnone rfl id id id fun _ _ hpending => .inr (pending_begins rfl htodo hpending)
  | dropped htodo hdrop =>
    refine h.beside hnone rfl id id id fun w hw _ => .inl ?_
    exact hdrop.resolve_left fun hstopped => absurd ((hc.alone (.inl hstopped)).1.symm.trans hw) (by simp)
  | failed htodo hstarted herror =>
    exact h.beside (by simp [Event.byWorker]) rfl id id (fun _ => by simp [bind]) fun _ _ _ => .inl (by simp [bind])
  | @stopRecorded t rest htodo =>
    refine h.beside (fun e he => ?_) rfl id (fun _ => rfl) id fun _ _ hpending =>
      .inr (pending_takes rfl htodo (by simp) (fun _ hm => hm) hpending)
    rw [recorded_only he]
    rfl
  | cancelled htodo =>
    exact h.beside hnone rfl id id id fun _ _ hpending =>
      .inr (pending_takes rfl htodo (by simp) (fun _ hm => List.mem_cons_of_mem _ hm) hpending)
  | notified htodo =>
    exact h.beside hnone rfl id id id fun _ _ hpending =>
      .inr (pending_takes rfl htodo (by simp) (fun _ hm => hm) hpending)
  | stateChanged htodo hnext =>
    exact h.beside hnone rfl id id id fun _ _ hpending =>
      .inr (pending_takes rfl htodo (by simp) (fun _ hm => hm) hpending)
  | reported htodo =>
    exact h.beside (by simp [Event.byWorker]) rfl id id id fun _ _ hpending =>
      .inr (pending_takes rfl htodo (by simp) (fun _ hm => hm) hpending)
  | described hrunning hquiet present =>
    exact h.beside hnone rfl id id id fun _ _ hpending => .inr (pending_begins rfl hquiet hpending)
  | published hrunning hquiet state e =>
    exact h.beside hnone rfl id id id fun _ _ hpending => .inr (pending_begins rfl hquiet hpending)
  | cut hrunning => exact h.beside hnone rfl id id id fun _ _ hpending => .inr hpending
  | exited hrunning hquiet => exact h.beside hnone rfl id id id fun _ _ hpending => .inr hpending
  | delivered hrunning hopen hquiet item =>
    exact h.beside (by simp [Event.byWorker]) rfl id id id fun _ _ hpending => .inr (pending_begins rfl hquiet hpending)
  | launched howner htodo => exact h.launched howner
  | unlaunched howner htodo e =>
    exact h.beside hnone rfl (fun _ => by rw [howner]; rfl) id id fun _ _ hpending =>
      .inr (pending_begins rfl htodo hpending)
  | aborts howner htodo =>
    exact h.beside hnone rfl (fun hcontra => by cases hcontra) id id fun _ _ hpending =>
      .inr (pending_begins rfl htodo hpending)
  | joinedWorker howner htodo hworker =>
    rw [List.append_nil]
    exact ⟨(fun hcontra => by cases hcontra), h.once, fun w hw => by cases hw⟩
  | joinedSource howner htodo hrunning hquiet =>
    exact h.beside hnone rfl (fun hcontra => by cases hcontra) id id fun _ _ hpending => .inr hpending
  | closed howner htodo =>
    exact h.beside (by simp [Event.byWorker]) rfl (fun hcontra => by cases hcontra) id id fun _ _ hpending =>
      .inr hpending
  | moved hworker htodo hmove =>
    exact h.work hc hworker rfl rfl (.inl ⟨hmove.unreset.1, .inr hmove.unreset.2⟩)
      (hmove.phase hstops (h.worker _ hworker))
  | @threw worker events filter e hworker htodo hthrows =>
    obtain ⟨hcompleted, hlate, hevents, hthrew, honce⟩ := hthrows.phase (h.worker _ hworker)
    exact h.work hc hworker rfl rfl honce
      (AtPhase.leaves hlate hevents hcompleted (.inr ⟨e, List.mem_append_right _ hthrew⟩))
  | filterStarted hworker htodo hpc =>
    exact h.consumes hc hworker rfl rfl (by rw [hpc]; rfl) rfl (by simp) (fun v hv => .inl hv) rfl
  | opened hworker htodo hpc =>
    exact h.consumes hc hworker rfl rfl (by rw [hpc]; rfl) rfl (by simp [Event.early]) (fun v hv => .inl hv) rfl
  | rechecked hworker htodo hpc =>
    exact h.consumes hc hworker rfl rfl (by rw [hpc]; rfl) rfl (by simp) (fun v hv => .inl hv) rfl
  | @readEof worker video rest hworker htodo hpc hopen hqueue =>
    refine h.consumes hc hworker rfl rfl (by rw [hpc]; rfl) (Pc.phase_afterTrack video) (by simp [Event.early])
      (fun v hv => ?_) rfl
    by_cases heq : v = video
    · exact .inr (by simp [heq])
    · replace hv : Function.update worker.round.eof video true v = true := hv
      rw [Function.update_of_ne heq] at hv
      exact .inl hv
  | readFrame hworker htodo hpc hopen hqueue =>
    exact h.consumes hc hworker rfl rfl (by rw [hpc]; rfl) rfl (by simp [Event.early]) (fun v hv => .inl hv) rfl
  | consumed hworker htodo hpc =>
    exact h.consumes hc hworker rfl rfl (by rw [hpc]; rfl) (Pc.phase_afterTrack _) (by simp [Event.early])
      (fun v hv => .inl hv) rfl
  | @reset worker hworker htodo hpc =>
    have hat := h.worker worker hworker
    rw [hpc] at hat
    have hreset : ResetOnce (current history ++ [.reset]) :=
      ⟨current history, [], rfl, fun e he => (hat.1 e he).1, hat.2.1, fun e he => absurd he List.not_mem_nil⟩
    exact h.work hc hworker rfl rfl (.inr hreset)
      ⟨hreset, forall_append (fun e he => (hat.1 e he).2) (by simp [Event.late]), hat.2.2⟩
  | @stopsSource worker hworker htodo hpc =>
    have hat := h.worker worker hworker
    rw [hpc] at hat
    refine h.work hc hworker rfl rfl (.inl ⟨by simp, .inr (by simp)⟩) ?_
    rw [List.append_nil]
    exact hat
  | filterStopped hworker htodo hpc => exact h.filterStopped hc hworker hpc _ _
  | finished hworker htodo hpc hended =>
    exact h.work hc hworker rfl rfl (.inl ⟨by simp, .inr (by simp [Event.feeds])⟩) trivial

/-! ### The end of a run -/

theorem finalState_failed : s.finalState = .failed ↔ s.error ≠ none := by
  rw [finalState]
  cases s.error with
  | some e => simp
  | none => cases s.ended <;> simp

theorem finalState_ended : s.finalState = .ended ↔ s.error = none ∧ s.ended = true := by
  rw [finalState]
  cases s.error with
  | some e => simp
  | none => cases s.ended <;> simp

theorem finalState_stopped : s.finalState = .stopped ↔ s.error = none ∧ s.ended = false := by
  rw [finalState]
  cases s.error with
  | some e => simp
  | none => cases s.ended <;> simp

/-- Nobody is bound to record a failure once the worker and the source have ended. -/
theorem Control.unfailing (hc : Control s) (hworker : ∀ w, s.worker = some w → w.pc = .done)
    (hrunning : s.source.running = false) (howner : s.owner.beginning = false) (t : Thread) (e : Exception) :
    .fail e ∉ s.todo t := by
  intro he
  have hempty : s.todo t ≠ [] := List.ne_nil_of_mem he
  have hstops : (∀ task ∈ s.todo t, task.stops = true) → False := fun hall => by cases hall _ he
  cases t with
  | owner =>
    by_cases hresting : s.owner.resting = true
    · exact hempty (hc.resting hresting)
    · refine hstops (hc.joining ?_)
      cases hplace : s.owner <;> rw [hplace] at hresting howner <;>
        first | rfl | exact absurd rfl hresting | cases howner
  | worker =>
    cases hw : s.worker with
    | none => exact hempty (hc.workerless hw)
    | some w => exact hempty (hc.done w hw (hworker w hw))
  | source => exact hempty ((hc.silent hrunning).2 _ rfl)
  | decoder video => exact hempty ((hc.silent hrunning).2 _ rfl)
  | user n => exact hstops (hc.outside _ rfl)

/-- The end of the worker and of `Stop`. -/
structure Final (latest : List Event) (s : OfflinePipeline) : Prop where
  finished : ∀ state, .finished state ∈ latest → state = s.finalState ∧
    (∀ w, s.worker = some w → w.pc = .done) ∧ s.source.running = false ∧ s.owner.beginning = false
  stopped : ∀ state, .stopped state ∈ latest → state = s.finalState ∧ s.started = false
  ended : s.ended = true → .finished .ended ∈ latest
  complete : .finished .ended ∈ latest → Ended latest
  state : s.state = .ended → s.ended = true

def Event.closes : Event → Bool
  | .finished _ | .stopped _ => true
  | _ => false

/-- A worker's or a session's end that these events are not was there before them. -/
theorem Event.closed_before (hevents : ∀ e ∈ events, e.closes = false) {e : Event} (hcloses : e.closes = true)
    (hmem : e ∈ latest ++ events) : e ∈ latest :=
  (List.mem_append.mp hmem).resolve_right fun hcontra => absurd (hcloses.symm.trans (hevents _ hcontra)) (by decide)

theorem Final.same (h : Final latest s) (hevents : ∀ e ∈ events, e.closes = false) (hended : s'.ended = s.ended)
    (herror : s'.error = s.error) (hworker : s'.worker = s.worker)
    (hrunning : s.source.running = false → s'.source.running = false)
    (howner : s.owner.beginning = false → s'.owner.beginning = false) (hstarted : s'.started = s.started)
    (hstate : s'.state = .ended → s.ended = true) : Final (latest ++ events) s' := by
  have hfinal : s'.finalState = s.finalState := by rw [finalState, finalState, herror, hended]
  have hold : ∀ {e : Event}, e.closes = true → e ∈ latest ++ events → e ∈ latest := Event.closed_before hevents
  refine ⟨fun state hmem => ?_, fun state hmem => ?_, fun hend => ?_, fun hmem => ?_, fun hend => ?_⟩
  · obtain ⟨hstate', hdone, hsilent, hbegins⟩ := h.finished state (hold rfl hmem)
    exact ⟨hfinal ▸ hstate', hworker ▸ hdone, hrunning hsilent, howner hbegins⟩
  · obtain ⟨hstate', hstopped⟩ := h.stopped state (hold rfl hmem)
    exact ⟨hfinal ▸ hstate', hstarted ▸ hstopped⟩
  · exact List.mem_append_left _ (h.ended (hended ▸ hend))
  · exact (h.complete (hold rfl hmem)).append
  · exact hended ▸ hstate hend

/-- A step of the worker before it has finished. -/
theorem Final.work (h : Final latest s) (hc : Control s) (hworker : s.worker = some worker) (hpc : worker.pc ≠ .done)
    (hevents : ∀ e ∈ events, e.closes = false) (hended : s'.ended = s.ended) (hstate : s'.state = s.state) :
    Final (latest ++ events) s' := by
  have hold : ∀ {e : Event}, e.closes = true → e ∈ latest ++ events → e ∈ latest := Event.closed_before hevents
  refine ⟨fun state hmem => ?_, fun state hmem => ?_, fun hend => ?_, fun hmem => ?_, fun hend => ?_⟩
  · exact absurd ((h.finished state (hold rfl hmem)).2.1 worker hworker) hpc
  · exact absurd ((hc.alone (.inl (h.stopped state (hold rfl hmem)).2)).1.symm.trans hworker) (by simp)
  · exact List.mem_append_left _ (h.ended (hended ▸ hend))
  · exact absurd ((h.finished _ (hold rfl hmem)).2.1 worker hworker) hpc
  · exact hended ▸ h.state (hstate ▸ hend)

theorem mem_failures {e : Exception} (h : .failed e ∈ current history) : e ∈ failures history :=
  List.mem_filterMap.mpr ⟨_, h, rfl⟩

theorem Move.place (h : Move s worker events worker') : worker.pc ≠ .done ∧ ∀ e ∈ events, e.closes = false := by
  cases h with
  | leaves hpc hstopping =>
    refine ⟨fun hdone => ?_, by simp [Event.closes]⟩
    rw [hdone] at hpc
    cases hpc
  | _ => simp_all [Event.closes]

theorem Throws.place {filter : AvMediaFilter} {x : Exception} (h : Throws s worker events filter x) :
    worker.pc ≠ .done ∧ ∀ e ∈ events, e.closes = false := by
  cases h with
  | unfit hpc hcheck => rcases hpc with hpc | ⟨video, frame, hpc⟩ <;> simp [hpc, Event.closes]
  | _ => simp_all [Event.closes]

/-- What the history shows when the worker finishes with an ended source. -/
theorem AtPhase.complete (h : AtPhase (current history) s worker .finishing) (hstops : Stops (current history) s)
    (hfailures : Failures history s) (htodo : s.todo .worker = []) (hcompleted : worker.completed = true)
    (hgoing : s.stopping = false) (herror : s.error = none) : Complete (current history) := by
  obtain ⟨⟨thrown, hthrown⟩, -, hsettled, -, hfailed⟩ := h
  obtain ⟨hreset, hmem⟩ := hsettled hcompleted
  have hnone : ∀ thrown, .filterStopped thrown ∈ current history → thrown = none := by
    intro thrown hstopped
    rcases hfailed thrown hstopped with hnone | hset | ⟨e, he⟩
    · exact hnone
    · exact absurd herror hset
    · rw [htodo] at he
      exact absurd he List.not_mem_nil
  refine ⟨hreset, hmem, hnone thrown hthrown ▸ hthrown, hnone, fun hrecorded => ?_, fun e he => ?_⟩
  · exact absurd (hgoing.symm.trans (hstops.recorded hrecorded)) (by decide)
  · have hfirst : failures history = s.error.toList := hfailures.failures_eq
    rw [herror] at hfirst
    have hmem := mem_failures he
    rw [hfirst] at hmem
    exact absurd hmem List.not_mem_nil

/-- A failure is recorded before the worker has finished. -/
theorem Final.failed (h : Final latest s) (hc : Control s) {e : Exception} {rest : List Task}
    (htodo : s.todo thread = .fail e :: rest) (hstarted : s.started = true) (tasks : List Task) :
    Final (latest ++ [.failed e]) ({ s with error := some e, state := .failed }.bind thread tasks) := by
  have hmem : .fail e ∈ s.todo thread := htodo ▸ List.mem_cons_self
  have hold : ∀ {e' : Event}, e'.closes = true → e' ∈ latest ++ [.failed e] → e' ∈ latest :=
    Event.closed_before (by simp [Event.closes])
  have hunfinished : ∀ {state : State} {p : Prop}, .finished state ∈ latest → p := by
    intro state p hfinished
    obtain ⟨-, hdone, hsilent, hbeginning⟩ := h.finished state hfinished
    exact absurd hmem (hc.unfailing hdone hsilent hbeginning thread e)
  refine ⟨fun state hmem' => hunfinished (hold rfl hmem'), fun state hmem' => ?_, fun hend => ?_,
    fun hmem' => hunfinished (hold rfl hmem'), fun hcontra => by cases hcontra⟩
  · exact absurd (hstarted.symm.trans (h.stopped state (hold rfl hmem')).2) (by decide)
  · exact List.mem_append_left _ (h.ended hend)

/-- The worker is launched, and it has not finished. -/
theorem Final.launched (h : Final latest s) (howner : s.owner = .launching) :
    Final (latest ++ [.launched]) { s with worker := some {}, owner := .idle } := by
  have hbeginning : s.owner.beginning = true := by
    rw [howner]
    rfl
  have hold : ∀ {e : Event}, e.closes = true → e ∈ latest ++ [.launched] → e ∈ latest :=
    Event.closed_before (by simp [Event.closes])
  have hunfinished : ∀ {state : State} {p : Prop}, .finished state ∈ latest → p :=
    fun hfinished => absurd (hbeginning.symm.trans (h.finished _ hfinished).2.2.2) (by decide)
  exact ⟨fun state hmem => hunfinished (hold rfl hmem), fun state hmem => h.stopped state (hold rfl hmem),
    fun hend => List.mem_append_left _ (h.ended hend), fun hmem => hunfinished (hold rfl hmem), h.state⟩

/-- `Stop` has joined the threads. -/
theorem Final.closed (h : Final latest s) : Final (latest ++ [.stopped s.finalState])
    { s with started := false, state := s.finalState, owner := .idle } := by
  refine ⟨fun state hmem => ?_, fun state hmem => ?_, fun hend => List.mem_append_left _ (h.ended hend),
    fun hmem => ?_, fun hend => (finalState_ended.mp hend).2⟩
  · have hold : .finished state ∈ latest := by simpa using hmem
    obtain ⟨hstate, hdone, hsilent, -⟩ := h.finished state hold
    exact ⟨hstate, hdone, hsilent, rfl⟩
  · refine ⟨?_, rfl⟩
    rcases List.mem_append.mp hmem with hmem | hmem
    · exact (h.stopped state hmem).1
    · show state = s.finalState
      simpa using hmem
  · have hold : .finished .ended ∈ latest := by simpa using hmem
    exact (h.complete hold).append

/-- The worker finishes, and the run has ended if nothing has disturbed it. -/
theorem Final.finishes (h : Final (current history) s) (hc : Control s) (hstops : Stops (current history) s)
    (hfailures : Failures history s) (hstage : Stage (current history) s) {ended : Bool}
    (hworker : s.worker = some worker) (htodo : s.todo .worker = []) (hpc : worker.pc = .finishing)
    (hended : ended = (worker.completed && !s.stopping && s.error.isNone)) :
    Final (current history ++ [.finished { s with ended := ended }.finalState]) { s with
      ended := ended, state := { s with ended := ended }.finalState, worker := some { worker with pc := .done } } := by
  have hat := hstage.worker worker hworker
  rw [hpc] at hat
  have hunfinished : ∀ state, .finished state ∉ current history := hat.2.1
  have hcomplete : ended = true → s.error = none → Complete (current history) := by
    intro hend herror
    rw [hended, Bool.and_eq_true, Bool.and_eq_true, Bool.not_eq_true'] at hend
    exact hat.complete hstops hfailures htodo hend.1.1 hend.1.2 herror
  have hnow : ∀ {state : State}, .finished state ∈ current history ++
      [.finished { s with ended := ended }.finalState] → state = { s with ended := ended }.finalState := by
    intro state hmem
    rcases List.mem_append.mp hmem with hmem | hmem
    · exact absurd hmem (hunfinished state)
    · simpa using hmem
  refine ⟨fun state hmem => ⟨hnow hmem, fun w hw => ?_, ?_, ?_⟩, fun state hmem => ?_, fun hend => ?_, fun hmem => ?_,
    fun hend => (finalState_ended.mp hend).2⟩
  · rw [← Option.some.inj hw]
  · exact hc.sourceless worker hworker (by rw [hpc]; rfl)
  · cases hplace' : s.owner with
    | launching => exact absurd ((hc.alone (.inr (by rw [hplace']; rfl))).1.symm.trans hworker) (by simp)
    | aborting => exact absurd ((hc.alone (.inr (by rw [hplace']; rfl))).1.symm.trans hworker) (by simp)
    | _ => rfl
  · have hold : .stopped state ∈ current history := by simpa using hmem
    exact absurd ((hc.alone (.inl (h.stopped state hold).2)).1.symm.trans hworker) (by simp)
  · have herror : s.error = none := by
      have hparts : ended = true := hend
      rw [hended, Bool.and_eq_true, Option.isNone_iff_eq_none] at hparts
      exact hparts.2
    have hstate : { s with ended := ended }.finalState = .ended := finalState_ended.mpr ⟨herror, hend⟩
    rw [hstate]
    exact List.mem_append_right _ List.mem_cons_self
  · have hstate := hnow hmem
    obtain ⟨herror, hend⟩ := finalState_ended.mp hstate.symm
    rw [← hstate]
    exact ⟨current history, [], rfl, hcomplete hend herror⟩

theorem Final.step (hc : Control s) (hstops : Stops (current history) s) (hfailures : Failures history s)
    (hstage : Stage (current history) s) (h : Final (current history) s) (hstep : Stepped s events s') :
    Final (current (history ++ events)) s' := by
  by_cases hopens : events = [.started]
  · subst hopens
    obtain ⟨-, -, rfl⟩ := hstep.starts
    rw [current_started]
    exact ⟨fun _ hmem => absurd hmem List.not_mem_nil, fun _ hmem => absurd hmem List.not_mem_nil,
      (fun hcontra => by cases hcontra), fun hmem => absurd hmem List.not_mem_nil, fun hcontra => by cases hcontra⟩
  rw [current_append hstep hopens]
  have hnone : ∀ e ∈ ([] : List Event), e.closes = false := fun e he => absurd he List.not_mem_nil
  have hplace : ∀ {w : Worker} {pc : Pc}, w.pc = pc → pc ≠ .done → w.pc ≠ .done := fun hpc hne => hpc.trans_ne hne
  have hbegins : ∀ {owner : Owner}, owner.beginning = false → s.owner.beginning = false → owner.beginning = false :=
    fun hnot _ => hnot
  cases hstep with
  | same => exact h.same hnone rfl rfl rfl id id rfl h.state
  | started hidle hstopped => exact absurd rfl hopens
  | stop hidle => exact h.same hnone rfl rfl rfl id (hbegins rfl) rfl h.state
  | requested htodo => exact h.same hnone rfl rfl rfl id id rfl h.state
  | dropped htodo hdrop => exact h.same hnone rfl rfl rfl id id rfl h.state
  | failed htodo hstarted herror => exact h.failed hc htodo hstarted _
  | stopRecorded htodo =>
    refine h.same (fun e he => recorded_only he ▸ rfl) rfl rfl rfl id id rfl fun hend => ?_
    replace hend : (if s.started && s.error.isNone && !s.ended then State.stopping else s.state) = .ended := hend
    split at hend
    · cases hend
    · exact h.state hend
  | cancelled htodo => exact h.same hnone rfl rfl rfl id id rfl h.state
  | notified htodo => exact h.same hnone rfl rfl rfl id id rfl h.state
  | stateChanged htodo hnext =>
    refine h.same hnone rfl rfl rfl id id rfl fun hend => ?_
    rcases hnext with rfl | ⟨-, -, -, rfl | rfl⟩
    · exact h.state hend
    · cases hend
    · cases hend
  | reported htodo => exact h.same (by simp [Event.closes]) rfl rfl rfl id id rfl h.state
  | described hrunning hquiet present => exact h.same hnone rfl rfl rfl id id rfl h.state
  | published hrunning hquiet state e => exact h.same hnone rfl rfl rfl id id rfl h.state
  | cut hrunning => exact h.same hnone rfl rfl rfl id id rfl h.state
  | exited hrunning hquiet => exact h.same hnone rfl rfl rfl (fun _ => rfl) id rfl h.state
  | delivered hrunning hopen hquiet item => exact h.same (by simp [Event.closes]) rfl rfl rfl id id rfl h.state
  | launched howner htodo => exact h.launched howner
  | unlaunched howner htodo e =>
    refine h.same hnone rfl rfl rfl id (fun hcontra => ?_) rfl h.state
    rw [howner] at hcontra
    cases hcontra
  | aborts howner htodo => exact h.same hnone rfl rfl rfl id (hbegins rfl) rfl h.state
  | joinedWorker howner htodo hworker =>
    rw [List.append_nil]
    refine ⟨fun state hmem => ?_, h.stopped, h.ended, h.complete, h.state⟩
    obtain ⟨hstate, -, hsilent, -⟩ := h.finished state hmem
    exact ⟨hstate, (fun w hw => by cases hw), hsilent, rfl⟩
  | joinedSource howner htodo hrunning hquiet => exact h.same hnone rfl rfl rfl id (hbegins rfl) rfl h.state
  | closed howner htodo => exact h.closed
  | moved hworker htodo hmove => exact h.work hc hworker hmove.place.1 hmove.place.2 rfl rfl
  | threw hworker htodo hthrows => exact h.work hc hworker hthrows.place.1 hthrows.place.2 rfl rfl
  | filterStarted hworker htodo hpc => exact h.work hc hworker (hplace hpc (by simp)) hnone rfl rfl
  | opened hworker htodo hpc => exact h.work hc hworker (hplace hpc (by simp)) (by simp [Event.closes]) rfl rfl
  | rechecked hworker htodo hpc => exact h.work hc hworker (hplace hpc (by simp)) hnone rfl rfl
  | readEof hworker htodo hpc hopen hqueue =>
    exact h.work hc hworker (hplace hpc (by simp)) (by simp [Event.closes]) rfl rfl
  | readFrame hworker htodo hpc hopen hqueue =>
    exact h.work hc hworker (hplace hpc (by simp)) (by simp [Event.closes]) rfl rfl
  | consumed hworker htodo hpc => exact h.work hc hworker (hplace hpc (by simp)) (by simp [Event.closes]) rfl rfl
  | reset hworker htodo hpc => exact h.work hc hworker (hplace hpc (by simp)) (by simp [Event.closes]) rfl rfl
  | stopsSource hworker htodo hpc => exact h.work hc hworker (hplace hpc (by simp)) hnone rfl rfl
  | filterStopped hworker htodo hpc => exact h.work hc hworker (hplace hpc (by simp)) (by simp [Event.closes]) rfl rfl
  | finished hworker htodo hpc hended => exact h.finishes hc hstops hfailures hstage hworker htodo hpc hended

/-! ### The law -/

/-- What holds in every run. -/
structure Lawful (history : List Event) (s : OfflinePipeline) : Prop where
  control : Control s
  failures : Failures history s
  stops : Stops (current history) s
  stage : Stage (current history) s
  final : Final (current history) s
  fit : Fit s
  watches : Watches s
  unbound : Unbound s
  conserved : ∀ v, ∃ ended, Conserved history s v ended

theorem lawful_init : Lawful [] {} where
  control := control_init
  failures := failures_init
  stops := ⟨fun hmem => absurd hmem List.not_mem_nil, fun hmem => absurd hmem List.not_mem_nil⟩
  stage := ⟨(fun _ e he => absurd he List.not_mem_nil), .inl fun e he => absurd he List.not_mem_nil,
    fun w hw => by cases hw⟩
  final := ⟨fun _ hmem => absurd hmem List.not_mem_nil, fun _ hmem => absurd hmem List.not_mem_nil,
    (fun hcontra => by cases hcontra), fun hmem => absurd hmem List.not_mem_nil, fun hcontra => by cases hcontra⟩
  fit := fit_init
  watches := watches_init
  unbound := unbound_init
  conserved v := ⟨false, conserved_init v⟩

theorem Lawful.step (h : Lawful history s) (hstep : Stepped s events s') : Lawful (history ++ events) s' where
  control := h.control.step hstep
  failures := h.failures.step h.control hstep
  stops := h.stops.step hstep
  stage := h.stage.step h.control h.stops hstep
  final := h.final.step h.control h.stops h.failures h.stage hstep
  fit := h.fit.step hstep
  watches := h.watches.step h.control hstep
  unbound := h.unbound.step hstep
  conserved v := by
    obtain ⟨ended, hconserved⟩ := h.conserved v
    exact hconserved.step h.control h.fit hstep

theorem Lawful.run (h : Lawful history s) (hrun : system.Run s events s') : Lawful (history ++ events) s' := by
  induction hrun with
  | refl => rwa [List.append_nil]
  | snoc hrun hstep ih =>
    obtain ⟨act, hact⟩ := hstep
    rw [← List.append_assoc]
    exact ih.step (stepped hact)

/-- What a waiting worker is to notice: a new item, a new state or description of the source, a stop. -/
def Changes (s : OfflinePipeline) (events : List Event) (s' : OfflinePipeline) : Prop :=
  (∃ v item, .delivered v item ∈ events) ∨ s'.source.state ≠ s.source.state ∨ s'.source.info ≠ s.source.info ∨
    (s.stopping = false ∧ s'.stopping = true)

/-- A worker that is to look again stays so. -/
theorem Stale.run (hlawful : Lawful history s) (hobserved : worker.round.observed ≤ s.revision)
    (hrun : system.Run s events s') (h : s.Stale worker) :
    s'.Stale worker ∧ worker.round.observed ≤ s'.revision := by
  induction hrun with
  | refl => exact ⟨h, hobserved⟩
  | snoc hrun hstep ih =>
    obtain ⟨act, hact⟩ := hstep
    have hstep := stepped hact
    exact ⟨Stale.step (hlawful.run hrun).control ih.2 hstep ih.1, ih.2.trans hstep.revision⟩

theorem revision_run (hrun : system.Run s events s') : s.revision ≤ s'.revision := by
  induction hrun with
  | refl => exact Nat.le_refl _
  | snoc hrun hstep ih =>
    obtain ⟨act, hact⟩ := hstep
    exact ih.trans (stepped hact).revision

/-- The frames of a track that were passed are the first that were delivered. -/
theorem Conserved.ordered {v ended : Bool} (h : Conserved history s v ended) :
    ∃ rest, delivered history v = (consumed history v ++ s.hand v).map .frame ++ rest ∧
      (.read v .eof ∈ current history → ∃ more, rest = .eof :: more) := by
  obtain ⟨rest, hflow, -⟩ := h.flow
  refine ⟨(if ended then [.eof] else []) ++ rest, ?_, fun hread => ?_⟩
  · rw [hflow, h.passed, List.append_assoc]
  · have hmem : .eof ∈ reads history v := List.mem_filterMap.mpr ⟨_, hread, by simp [Event.read?]⟩
    rw [h.passed] at hmem
    cases ended with
    | true => exact ⟨rest, rfl⟩
    | false => simp at hmem

/-- **The law of every run.**  Frames are passed once and in order, all that come before an end of a track that was
read; the pipeline ends only when it has processed its source to the end, and else as failed or stopped; `Reset` is
called at most once and never behind a stop or a failure; and a worker that waits does not miss what it waits for. -/
theorem offline_law (hrun : system.Run {} history s) :
    (∀ v, ∃ rest, delivered history v = (consumed history v ++ s.hand v).map .frame ++ rest ∧
      (.read v .eof ∈ current history → ∃ more, rest = .eof :: more)) ∧
    (∀ w, s.worker = some w → w.pc.phase = .leaving →
      w.completed = true ∨ s.stopping = true ∨ ∃ e, .threw e ∈ current history) ∧
    ((s.state = .ended → Ended (current history)) ∧
      ∀ state, .finished state ∈ current history ∨ .stopped state ∈ current history →
        (state = .ended → Ended (current history)) ∧
        (state ≠ .ended → (state = .failed ↔ s.error ≠ none) ∧ (state = .stopped ↔ s.error = none))) ∧
    ((∀ e ∈ current history, e ≠ .reset) ∨ ResetOnce (current history)) ∧
    ∀ w, s.worker = some w → w.pc = .waiting ∨ w.pc = .settleWaiting →
      (¬s.Stale w → s.stopping = false ∧
        (w.pc = .waiting → s.source.info = w.round.info ∧ ∀ v, w.round.present v = true → w.round.eof v = false →
          (s.source.tryRead v).1 = none) ∧
        (w.pc = .settleWaiting → s.source.state ≠ .ended)) ∧
      ∀ es₁ s₁ es₂ s₂ es₃ u, system.Run s es₁ s₁ → system.step s₁ es₂ s₂ → Changes s₁ es₂ s₂ → system.Run s₂ es₃ u →
        u.Stale w ∧ (u.worker = some w → ¬u.Notifying →
          u.next (.work none false) = some ([], u.goto w (if w.pc = .waiting then .looping else .settling))) := by
  have hlawful : Lawful history s := lawful_init.run hrun
  have hends : s.finalState = .ended → Ended (current history) := fun hfinal =>
    hlawful.final.complete (hlawful.final.ended (finalState_ended.mp hfinal).2)
  refine ⟨fun v => ?_, fun w hw hphase => ?_, ⟨fun hstate => ?_, fun state hmem => ?_⟩, hlawful.stage.once,
    fun w hw hpc => ⟨hlawful.watches.asleep hw hpc, ?_⟩⟩
  · obtain ⟨ended, hconserved⟩ := hlawful.conserved v
    exact hconserved.ordered
  · have hat := hlawful.stage.worker w hw
    rw [hphase] at hat
    exact hat.2.2.2
  · exact hlawful.final.complete (hlawful.final.ended (hlawful.final.state hstate))
  · have hfinal : state = s.finalState := by
      rcases hmem with hmem | hmem
      · exact (hlawful.final.finished state hmem).1
      · exact (hlawful.final.stopped state hmem).1
    rw [hfinal]
    refine ⟨hends, fun hne => ⟨finalState_failed, ?_⟩⟩
    rw [finalState_stopped, and_iff_left_iff_imp]
    intro herror
    cases hended : s.ended with
    | false => rfl
    | true => exact absurd (finalState_ended.mpr ⟨herror, hended⟩) hne
  · intro es₁ s₁ es₂ s₂ es₃ u hfirst hstep hchanges hlast
    obtain ⟨act, hact⟩ := hstep
    have hstepped := stepped hact
    have hobserved : w.round.observed ≤ s.revision := by
      refine (hlawful.watches w hw).1.observed ?_
      rcases hpc with hpc | hpc <;> rw [hpc] <;> rfl
    have hlawful₁ := hlawful.run hfirst
    have hlawful₂ := hlawful₁.step hstepped
    have hrevision := (hobserved.trans (revision_run hfirst)).trans hstepped.revision
    obtain ⟨hstale, -⟩ := Stale.run hlawful₂ hrevision hlast (.inr (hstepped.announces hlawful₁.control hchanges))
    exact ⟨hstale, fun hu hquiet => (hlawful₂.run hlast).unbound.awake hu hpc (hstale.resolve_right hquiet)⟩

/-- The worker goes on and nothing fails. -/
def Act.goes : Act := .work none true

/-- The worker starts the source, which has a video track, and its decoder delivers a frame. -/
def delivering : List Act :=
  [.start, .own none, .goes, .goes, .goes, .perform .worker, .source (.describe fun video => video),
    .perform .source, .source (.deliver true (.frame {})), .perform (.decoder true)]

/-- A frame that is read, the end of the track and the end of the source. -/
def endedRun : List Act := delivering ++
  [.goes, .goes, .goes, .goes, .goes, .goes, .goes, .goes, .goes, .goes, .source (.deliver true .eof),
    .perform (.decoder true), .goes, .goes, .goes, .goes, .goes, .goes, .goes, .goes, .goes,
    .source (.publish .ended (.runtimeError "")), .perform .source, .perform .source, .perform .source, .goes, .goes,
    .goes, .perform .worker, .perform .worker, .source .exit, .goes, .goes, .goes]

/-- A run to the end of its source. -/
theorem offline_law_ended : ∃ history s, system.Run {} history s ∧ s.state = .ended ∧ Ended (current history) ∧
    consumed history true = [{}] := by
  have hacts : ∃ history s, Transition.execute next {} endedRun = some (history, s) ∧ s.state = .ended ∧
      consumed history true = [{}] := ⟨_, _, rfl, rfl, rfl⟩
  obtain ⟨history, s, hacts, hstate, hconsumed⟩ := hacts
  have hrun := Transition.execute_run (T := system) (fun _ act _ _ h => ⟨act, h⟩) hacts
  exact ⟨history, s, hrun, hstate, (offline_law hrun).2.2.1.1 hstate, hconsumed⟩

/-- The frame is delivered, and then a stop is requested before the worker reads it. -/
def stoppedRun : List Act := delivering ++
  [.requestStop 0, .perform (.user 0), .perform (.user 0), .perform (.user 0), .perform (.user 0), .goes,
    .perform .worker, .perform .worker, .goes, .goes, .perform .worker, .perform .worker, .source .exit, .goes, .goes,
    .goes]

/-- **A stop leaves frames behind.**  Not every frame that a decoder delivers is passed to the filter. -/
theorem stop_leaves_frame : ∃ history s, system.Run {} history s ∧ s.source.info.map (· true) = some true ∧
    delivered history true = [.frame {}] ∧ consumed history true = [] ∧ s.worker.map Worker.pc = some .done ∧
    s.state = .stopped := by
  have hacts : ∃ history s, Transition.execute next {} stoppedRun = some (history, s) ∧
      s.source.info.map (· true) = some true ∧ delivered history true = [.frame {}] ∧ consumed history true = [] ∧
      s.worker.map Worker.pc = some .done ∧ s.state = .stopped := ⟨_, _, rfl, rfl, rfl, rfl, rfl, rfl⟩
  obtain ⟨history, s, hacts, hfacts⟩ := hacts
  exact ⟨history, s, Transition.execute_run (T := system) (fun _ act _ _ h => ⟨act, h⟩) hacts, hfacts⟩

end OfflinePipeline

end MwStreamer
