import MwStreamer.Pipeline.OfflineStops

/-!
# The worker of the offline pipeline is woken

The worker reads the revision of the signal before it looks at anything.  So what it has not seen when it waits was
written after that, and then the revision has moved on or the writer is still to notify (`Stale`).
-/

namespace MwStreamer

namespace OfflinePipeline

variable {s s' : OfflinePipeline} {events : List Event} {worker worker' : Worker}

/-- Some thread is going to notify the signal. -/
def Notifying (s : OfflinePipeline) : Prop := Threads.Owed (· = Task.notify) s.todo

/-- The signal has moved on since the worker read it, or is going to. -/
def Stale (s : OfflinePipeline) (worker : Worker) : Prop := s.revision ≠ worker.round.observed ∨ s.Notifying

/-- The track is there. -/
def Round.present (round : Round) (video : Bool) : Bool := round.info.elim false (· video)

/-- The round has read its revision. -/
def Pc.observed : Pc → Bool
  | .describing | .visiting _ | .reading _ | .consuming _ _ | .judging | .idling | .waiting => true
  | .settleChecking | .settleReading | .settleWaiting => true
  | _ => false

/-- The round has read the description of the source. -/
def Pc.described : Pc → Bool
  | .visiting _ | .reading _ | .consuming _ _ | .judging | .idling | .waiting => true
  | _ => false

/-- The round has come past the track. -/
def Pc.past (video : Bool) : Pc → Bool
  | .visiting v | .reading v | .consuming v _ => video && !v
  | .judging | .idling | .waiting => true
  | _ => false

/-- The last check found no stop. -/
def Pc.unstopped : Pc → Bool
  | .waiting | .settleReading | .settleWaiting => true
  | _ => false

/-- What the worker has seen is still so, or it is going to look again. -/
structure Watched (s : OfflinePipeline) (worker : Worker) : Prop where
  observed : worker.pc.observed = true → worker.round.observed ≤ s.revision
  described : worker.pc.described = true → s.source.info = worker.round.info ∨ s.Stale worker
  past : ∀ v, worker.pc.past v = true → worker.round.progress = false → worker.round.present v = true →
    worker.round.eof v = false → (s.source.tryRead v).1 = none ∨ s.stopping = true ∨ s.Stale worker
  unstopped : worker.pc.unstopped = true → s.stopping = false ∨ s.Stale worker
  settling : worker.pc = .settleWaiting → s.source.state ≠ .ended ∨ s.Stale worker

/-- A frame in the hand of the worker is progress, and a round with progress does not wait. -/
def Worker.Progressed (worker : Worker) : Prop :=
  match worker.pc with
  | .consuming _ _ => worker.round.progress = true
  | .waiting => worker.round.progress = false
  | _ => True

def Watches (s : OfflinePipeline) : Prop := ∀ w, s.worker = some w → s.Watched w ∧ w.Progressed

theorem Pc.observed_of_described {pc : Pc} (h : pc.described = true) : pc.observed = true := by
  cases pc <;> first | rfl | cases h

theorem Pc.observed_of_past {pc : Pc} {v : Bool} (h : pc.past v = true) : pc.observed = true := by
  cases pc <;> first | rfl | cases h

theorem Pc.observed_of_unstopped {pc : Pc} (h : pc.unstopped = true) : pc.observed = true := by
  cases pc <;> first | rfl | cases h

/-- A worker that is going to look again. -/
theorem Watched.stale (hobserved : worker.pc.observed = true → worker.round.observed ≤ s.revision)
    (hstale : worker.pc.observed = true → s.Stale worker) : s.Watched worker where
  observed := hobserved
  described hpc := .inr (hstale (Pc.observed_of_described hpc))
  past _ hpc _ _ _ := .inr (.inr (hstale (Pc.observed_of_past hpc)))
  unstopped hpc := .inr (hstale (Pc.observed_of_unstopped hpc))
  settling hpc := .inr (hstale (by rw [hpc]; rfl))

theorem Watched.outside (hpc : worker.pc.observed = false) : s.Watched worker :=
  .stale (fun hcontra => absurd (hpc.symm.trans hcontra) (by decide))
    fun hcontra => absurd (hpc.symm.trans hcontra) (by decide)

/-- A step beside the worker after which somebody is going to notify. -/
theorem Watches.notifying (h : Watches s) (hworker : s'.worker = s.worker) (hrevision : s'.revision = s.revision)
    (hnotifying : s'.Notifying) : Watches s' := by
  intro w hw
  obtain ⟨hold, hprogressed⟩ := h w (hworker ▸ hw)
  refine ⟨.stale (fun hpc => ?_) fun _ => .inr hnotifying, hprogressed⟩
  rw [hrevision]
  exact hold.observed hpc

/-- A step beside the worker that changes nothing the worker looks at. -/
theorem Watches.frame (h : Watches s) (hworker : s'.worker = s.worker) (hrevision : s'.revision = s.revision)
    (hinfo : s'.source.info = s.source.info) (hstate : s'.source.state = s.source.state)
    (hread : ∀ v, (s.source.tryRead v).1 = none → (s'.source.tryRead v).1 = none)
    (hstopping : s'.stopping = s.stopping) (hnotifying : s.Notifying → s'.Notifying) : Watches s' := by
  intro w hw
  obtain ⟨hold, hprogressed⟩ := h w (hworker ▸ hw)
  have hstale : s.Stale w → s'.Stale w := Or.imp (fun hne => hrevision ▸ hne) hnotifying
  refine ⟨?_, hprogressed⟩
  exact
    { observed := fun hpc => hrevision ▸ hold.observed hpc
      described := fun hpc => (hold.described hpc).imp (fun heq => hinfo.trans heq) hstale
      past := fun v hpc hprogress hpresent heof =>
        (hold.past v hpc hprogress hpresent heof).imp (hread v) (Or.imp (fun heq => hstopping.trans heq) hstale)
      unstopped := fun hpc => (hold.unstopped hpc).imp (fun heq => hstopping.trans heq) hstale
      settling := fun hpc => (hold.settling hpc).imp (fun hne => hstate ▸ hne) hstale }

theorem Pc.past_afterTrack {video v : Bool} (h : (Pc.afterTrack video).past v = true) :
    v = video ∨ (Pc.visiting video).past v = true := by
  cases video <;> cases v <;> first | exact .inl rfl | exact .inr rfl | cases h

/-- The worker goes on to the next track. -/
theorem Watched.afterTrack (h : s.Watched worker) {video : Bool} (hpc : worker.pc.described = true)
    (hpast : ∀ v, (Pc.visiting video).past v = worker.pc.past v)
    (hnow : worker.round.progress = false → worker.round.present video = true → worker.round.eof video = false →
      (s.source.tryRead video).1 = none ∨ s.stopping = true ∨ s.Stale worker) :
    s.Watched { worker with pc := .afterTrack video } where
  observed _ := h.observed (Pc.observed_of_described hpc)
  described _ := h.described hpc
  past v hv hprogress hpresent heof := by
    rcases Pc.past_afterTrack hv with rfl | hbefore
    · exact hnow hprogress hpresent heof
    · exact h.past v ((hpast v).symm.trans hbefore) hprogress hpresent heof
  unstopped hcontra := by
    cases video with
    | true => cases hcontra
    | false => cases hcontra
  settling hcontra := by
    cases video with
    | true => cases hcontra
    | false => cases hcontra

theorem Move.watched (hmove : Move s worker events worker') (h : s.Watched worker) : s.Watched worker' := by
  cases hmove with
  | checked hpc =>
    refine .outside ?_
    show (if s.stopping then Pc.looping else Pc.opening).observed = false
    cases s.stopping with
    | true => rfl
    | false => rfl
  | leaves hpc hstopping => exact .outside rfl
  | loops hpc hgoing => exact .outside rfl
  | observed hpc =>
    exact
      { observed := fun _ => Nat.le_refl _
        described := fun hcontra => by cases hcontra
        past := fun _ hcontra => by cases hcontra
        unstopped := fun hcontra => by cases hcontra
        settling := fun hcontra => by cases hcontra }
  | described hpc =>
    have hobserved := h.observed (by rw [hpc]; rfl)
    show s.Watched { worker with
      round := { worker.round with info := s.source.info }
      pc := if s.source.info.isSome then .visiting true else .idling }
    cases hinfo : s.source.info with
    | none =>
      exact
        { observed := fun _ => hobserved
          described := fun _ => .inl hinfo
          past := fun _ _ _ hcontra => by cases hcontra
          unstopped := fun hcontra => by cases hcontra
          settling := fun hcontra => by cases hcontra }
    | some present =>
      exact
        { observed := fun _ => hobserved
          described := fun _ => .inl hinfo
          past := fun v hv => by cases v <;> cases hv
          unstopped := fun hcontra => by cases hcontra
          settling := fun hcontra => by cases hcontra }
  | @skipped video hpc hskip =>
    refine h.afterTrack (by rw [hpc]; rfl) (fun v => by rw [hpc]) fun _ hpresent heof => ?_
    rcases hskip with habsent | hread
    · exact absurd (habsent.symm.trans hpresent) (by decide)
    · exact absurd (hread.symm.trans heof) (by decide)
  | passed hpc hstopping =>
    exact h.afterTrack (by rw [hpc]; rfl) (fun v => by rw [hpc]) fun _ _ _ => .inr (.inl hstopping)
  | visits hpc hunread =>
    exact
      { observed := fun _ => h.observed (by rw [hpc]; rfl)
        described := fun _ => h.described (by rw [hpc]; rfl)
        past := fun v hv => h.past v (by rw [hpc]; exact hv)
        unstopped := fun hcontra => by cases hcontra
        settling := fun hcontra => by cases hcontra }
  | null hpc hnone => exact h.afterTrack (by rw [hpc]; rfl) (fun v => by rw [hpc]; rfl) fun _ _ _ => .inl hnone
  | exhausted hpc hinfo hexhausted hgoing => exact .outside rfl
  | judged hpc hmore =>
    exact
      { observed := fun _ => h.observed (by rw [hpc]; rfl)
        described := fun _ => h.described (by rw [hpc]; rfl)
        past := fun v _ => h.past v (by rw [hpc]; rfl)
        unstopped := fun hcontra => by cases hcontra
        settling := fun hcontra => by cases hcontra }
  | again hpc hprogress => exact .outside rfl
  | waits hpc hidle hgoing =>
    exact
      { observed := fun _ => h.observed (by rw [hpc]; rfl)
        described := fun _ => h.described (by rw [hpc]; rfl)
        past := fun v _ => h.past v (by rw [hpc]; rfl)
        unstopped := fun _ => .inl hgoing
        settling := fun hcontra => by cases hcontra }
  | woken hpc hrevision => exact .outside rfl
  | settles hpc =>
    exact
      { observed := fun _ => Nat.le_refl _
        described := fun hcontra => by cases hcontra
        past := fun _ hcontra => by cases hcontra
        unstopped := fun hcontra => by cases hcontra
        settling := fun hcontra => by cases hcontra }
  | settleChecked hpc =>
    have hobserved := h.observed (by rw [hpc]; rfl)
    show s.Watched { worker with pc := if s.stopping then .stoppingSource else .settleReading }
    cases hstopping : s.stopping with
    | true => exact .outside rfl
    | false =>
      exact
        { observed := fun _ => hobserved
          described := fun hcontra => by cases hcontra
          past := fun _ hcontra => by cases hcontra
          unstopped := fun _ => .inl hstopping
          settling := fun hcontra => by cases hcontra }
  | settled hpc hended => exact .outside rfl
  | unsettled hpc hended =>
    exact
      { observed := fun _ => h.observed (by rw [hpc]; rfl)
        described := fun hcontra => by cases hcontra
        past := fun _ hcontra => by cases hcontra
        unstopped := fun _ => h.unstopped (by rw [hpc]; rfl)
        settling := fun _ => .inl hended }
  | settleWoken hpc hrevision => exact .outside rfl
  | joined hpc hended hquiet => exact .outside rfl

theorem Worker.progressed_afterTrack (worker : Worker) (video : Bool) :
    Worker.Progressed { worker with pc := .afterTrack video } := by
  cases video with
  | true => trivial
  | false => trivial

theorem Move.progressed (hmove : Move s worker events worker') : worker'.Progressed := by
  cases hmove with
  | checked hpc =>
    show Worker.Progressed { worker with pc := if s.stopping then .looping else .opening }
    cases s.stopping with
    | true => trivial
    | false => trivial
  | described hpc =>
    show Worker.Progressed { worker with
      round := { worker.round with info := s.source.info }
      pc := if s.source.info.isSome then .visiting true else .idling }
    cases s.source.info with
    | none => trivial
    | some present => trivial
  | settleChecked hpc =>
    show Worker.Progressed { worker with pc := if s.stopping then .stoppingSource else .settleReading }
    cases s.stopping with
    | true => trivial
    | false => trivial
  | skipped hpc hskip => exact Worker.progressed_afterTrack _ _
  | passed hpc hstopping => exact Worker.progressed_afterTrack _ _
  | null hpc hnone => exact Worker.progressed_afterTrack _ _
  | waits hpc hidle hgoing => exact hidle
  | _ => trivial

theorem tryRead_cut {source : Source} {v : Bool} (h : source.cancelled = true ∨ source.cut = true) :
    (source.tryRead v).1 = none := by
  rw [Source.tryRead, if_pos]
  rcases h with h | h
  · rw [h]
    rfl
  · rw [h, Bool.or_true]
    rfl

theorem Watches.step (hc : Control s) (h : Watches s) (hstep : Stepped s events s') : Watches s' := by
  have hbound : ∀ {t : Thread} {tasks : List Task} {s₁ : OfflinePipeline}, Task.notify ∈ tasks →
      (s₁.bind t tasks).Notifying := fun hmem => .of_mem hmem rfl
  have hnobody : ∀ {s₁ : OfflinePipeline}, s₁.worker = none → Watches s₁ := by
    intro s₁ hnone w hw
    rw [hnone] at hw
    cases hw
  have hworks : ∀ {s₁ : OfflinePipeline} {w : Worker}, s₁.worker = some w → s₁.Watched w → w.Progressed →
      Watches s₁ := by
    intro s₁ w hw hwatched hprogressed w' hw'
    obtain rfl := Option.some.inj (hw.symm.trans hw')
    exact ⟨hwatched, hprogressed⟩
  cases hstep with
  | same => exact h
  | started hidle hstopped => exact hnobody (hc.alone (.inl hstopped)).1
  | stop hidle =>
    exact h.notifying rfl rfl (hbound (List.mem_cons_of_mem _ (List.mem_cons_of_mem _ List.mem_cons_self)))
  | requested htodo =>
    exact h.notifying rfl rfl (hbound (List.mem_cons_of_mem _ (List.mem_cons_of_mem _ List.mem_cons_self)))
  | dropped htodo hdrop =>
    exact h.frame rfl rfl rfl rfl (fun _ => id) rfl fun hnotifying => hnotifying.take htodo (fun _ => id) (by simp)
  | failed htodo hstarted herror =>
    exact h.notifying rfl rfl (hbound (List.mem_append_left _
      (List.mem_cons_of_mem _ (List.mem_cons_of_mem _ List.mem_cons_self))))
  | @stopRecorded t rest htodo =>
    have hpromises := hc.promises t
    rw [htodo] at hpromises
    exact h.notifying rfl rfl (hbound hpromises.2.1)
  | cancelled htodo => exact h.notifying rfl rfl (hbound List.mem_cons_self)
  | notified htodo =>
    intro w hw
    obtain ⟨hold, hprogressed⟩ := h w hw
    refine ⟨.stale (fun hpc => Nat.le_succ_of_le (hold.observed hpc)) fun hpc => .inl ?_, hprogressed⟩
    exact (Nat.lt_succ_of_le (hold.observed hpc)).ne'
  | stateChanged htodo hnext =>
    exact h.frame rfl rfl rfl rfl (fun _ => id) rfl fun hnotifying => hnotifying.take htodo (fun _ => id) (by simp)
  | reported htodo =>
    exact h.frame rfl rfl rfl rfl (fun _ => id) rfl fun hnotifying => hnotifying.take htodo (fun _ => id) (by simp)
  | described hrunning hquiet present => exact h.notifying rfl rfl (hbound List.mem_cons_self)
  | published hrunning hquiet state e => exact h.notifying rfl rfl (hbound List.mem_cons_self)
  | cut hrunning => exact h.frame rfl rfl rfl rfl (fun v _ => tryRead_cut (.inr rfl)) rfl id
  | exited hrunning hquiet => exact h.frame rfl rfl rfl rfl (fun v _ => tryRead_cut (.inr rfl)) rfl id
  | delivered hrunning hopen hquiet item => exact h.notifying rfl rfl (hbound List.mem_cons_self)
  | launched howner htodo => exact hworks rfl (.outside rfl) trivial
  | unlaunched howner htodo e => exact h.frame rfl rfl rfl rfl (fun _ => id) rfl (Threads.Owed.fresh htodo)
  | aborts howner htodo => exact h.frame rfl rfl rfl rfl (fun _ => id) rfl (Threads.Owed.fresh htodo)
  | joinedWorker howner htodo hworker => exact hnobody rfl
  | joinedSource howner htodo hrunning hquiet => exact h.frame rfl rfl rfl rfl (fun _ => id) rfl id
  | closed howner htodo => exact h.frame rfl rfl rfl rfl (fun _ => id) rfl id
  | moved hworker htodo hmove =>
    have hwatched := hmove.watched (h _ hworker).1
    exact hworks rfl ⟨hwatched.observed, hwatched.described, hwatched.past, hwatched.unstopped, hwatched.settling⟩
      hmove.progressed
  | threw hworker htodo hthrows => exact hworks rfl (.outside rfl) trivial
  | filterStarted hworker htodo hpc => exact hworks rfl (.outside rfl) trivial
  | opened hworker htodo hpc => exact hworks rfl (.outside rfl) trivial
  | rechecked hworker htodo hpc => exact hworks rfl (.outside rfl) trivial
  | @readEof worker video rest hworker htodo hpc hopen hqueue =>
    obtain ⟨hold, -⟩ := h _ hworker
    refine hworks rfl ?_ ?_
    case refine_2 =>
      cases video with
      | true => trivial
      | false => trivial
    exact
      { observed := fun _ => hold.observed (by rw [hpc]; rfl)
        described := fun _ => hold.described (by rw [hpc]; rfl)
        past := fun _ _ hcontra => by cases hcontra
        unstopped := fun hcontra => by cases video <;> cases hcontra
        settling := fun hcontra => by cases video <;> cases hcontra }
  | @readFrame worker video frame rest hworker htodo hpc hopen hqueue =>
    obtain ⟨hold, -⟩ := h _ hworker
    refine hworks rfl ?_ rfl
    exact
      { observed := fun _ => hold.observed (by rw [hpc]; rfl)
        described := fun _ => hold.described (by rw [hpc]; rfl)
        past := fun _ _ hcontra => by cases hcontra
        unstopped := fun hcontra => by cases hcontra
        settling := fun hcontra => by cases hcontra }
  | @consumed worker video frame hworker htodo hpc =>
    obtain ⟨hold, hprogressed⟩ := h _ hworker
    rw [Worker.Progressed, hpc] at hprogressed
    have hwatched : s.Watched { worker with pc := .afterTrack video } :=
      hold.afterTrack (by rw [hpc]; rfl) (fun v => by rw [hpc]; rfl)
        fun hnone => absurd (hnone.symm.trans hprogressed) (by decide)
    exact hworks rfl ⟨hwatched.observed, hwatched.described, hwatched.past, hwatched.unstopped, hwatched.settling⟩
      (Worker.progressed_afterTrack _ video)
  | reset hworker htodo hpc => exact hworks rfl (.outside rfl) trivial
  | stopsSource hworker htodo hpc => exact hworks rfl (.outside rfl) trivial
  | filterStopped hworker htodo hpc => exact hworks rfl (.outside rfl) trivial
  | finished hworker htodo hpc hended => exact hworks rfl (.outside rfl) trivial

theorem watches_init : Watches {} := fun w hw => by cases hw

/-- **A worker that sleeps misses nothing**: as long as nobody is about to notify, all it waits for is as it has
seen it. -/
theorem Watches.asleep (h : Watches s) (hworker : s.worker = some worker)
    (hpc : worker.pc = .waiting ∨ worker.pc = .settleWaiting) (hfresh : ¬s.Stale worker) : s.stopping = false ∧
    (worker.pc = .waiting → s.source.info = worker.round.info ∧ ∀ v, worker.round.present v = true →
      worker.round.eof v = false → (s.source.tryRead v).1 = none) ∧
    (worker.pc = .settleWaiting → s.source.state ≠ .ended) := by
  obtain ⟨hwatched, hprogressed⟩ := h worker hworker
  have hgoing : s.stopping = false := by
    refine (hwatched.unstopped ?_).resolve_right hfresh
    rcases hpc with hpc | hpc
    · rw [hpc]
      rfl
    · rw [hpc]
      rfl
  refine ⟨hgoing, fun hwaiting => ⟨?_, fun v hpresent heof => ?_⟩, fun hsettling => ?_⟩
  · exact (hwatched.described (by rw [hwaiting]; rfl)).resolve_right hfresh
  · have hprogress : worker.round.progress = false := by
      rw [Worker.Progressed, hwaiting] at hprogressed
      exact hprogressed
    rcases hwatched.past v (by rw [hwaiting]; rfl) hprogress hpresent heof with hnone | hstopping | hstale
    · exact hnone
    · exact absurd (hgoing.symm.trans hstopping) (by decide)
    · exact absurd hstale hfresh
  · exact (hwatched.settling hsettling).resolve_right hfresh

/-! ### Notifications arrive -/

/-- Whatever the worker may wait for is followed by a notification. -/
theorem Stepped.announces (hc : Control s) (hstep : Stepped s events s')
    (hchange : (∃ v item, .delivered v item ∈ events) ∨ s'.source.state ≠ s.source.state ∨
      s'.source.info ≠ s.source.info ∨ (s.stopping = false ∧ s'.stopping = true)) : s'.Notifying := by
  have hbound : ∀ {t : Thread} {tasks : List Task} {s₁ : OfflinePipeline}, Task.notify ∈ tasks →
      (s₁.bind t tasks).Notifying := fun hmem => .of_mem hmem rfl
  have hnothing : ∀ {s₁ : OfflinePipeline}, s₁.source.state = s.source.state → s₁.source.info = s.source.info →
      s₁.stopping = s.stopping → (∀ v item, .delivered v item ∉ events) →
      ((∃ v item, .delivered v item ∈ events) ∨ s₁.source.state ≠ s.source.state ∨
        s₁.source.info ≠ s.source.info ∨ (s.stopping = false ∧ s₁.stopping = true)) → False := by
    intro s₁ hstate hinfo hstopping hnone hor
    rcases hor with ⟨v, item, hmem⟩ | hne | hne | ⟨hgoing, hstop⟩
    · exact hnone v item hmem
    · exact hne hstate
    · exact hne hinfo
    · exact absurd (hgoing.symm.trans (hstopping.symm.trans hstop)) (by decide)
  cases hstep with
  | @stopRecorded t rest htodo =>
    have hpromises := hc.promises t
    rw [htodo] at hpromises
    exact hbound hpromises.2.1
  | described hrunning hquiet present => exact hbound List.mem_cons_self
  | published hrunning hquiet state e => exact hbound List.mem_cons_self
  | delivered hrunning hopen hquiet item => exact hbound List.mem_cons_self
  | opened hworker htodo hpc => exact hbound List.mem_cons_self
  | started hidle hstopped =>
    rcases hchange with ⟨v, item, hmem⟩ | hne | hne | ⟨-, hstop⟩
    · exact absurd hmem (by simp)
    · exact absurd rfl hne
    · exact absurd rfl hne
    · cases hstop
  | moved hworker htodo hmove =>
    refine (hnothing rfl rfl rfl (fun v item hmem => ?_) hchange).elim
    cases hmove <;> simp at hmem
  | threw hworker htodo hthrows =>
    refine (hnothing rfl rfl rfl (fun v item hmem => ?_) hchange).elim
    cases hthrows <;> simp at hmem
  | _ => exact (hnothing rfl rfl rfl (fun v item hmem => by simp at hmem) hchange).elim

/-- A notification that is due stays due until it is made. -/
theorem Stepped.notifies (hc : Control s) (hstep : Stepped s events s') (h : s.Notifying) :
    s'.Notifying ∨ s'.revision = s.revision + 1 := by
  cases hstep with
  | notified htodo => exact .inr rfl
  | stop hidle => exact .inl (Threads.Owed.fresh (hc.resting (by rw [hidle]; rfl)) h)
  | requested htodo => exact .inl (Threads.Owed.fresh htodo h)
  | dropped htodo hdrop => exact .inl (Threads.Owed.take h htodo (fun _ => id) (by simp))
  | failed htodo hstarted herror =>
    refine .inl (Threads.Owed.take h htodo (fun m hm => ?_) (by simp))
    exact List.mem_append_right _ (List.mem_cons_of_mem _ hm)
  | stopRecorded htodo => exact .inl (Threads.Owed.take h htodo (fun _ => id) (by simp))
  | cancelled htodo => exact .inl (Threads.Owed.take h htodo (fun _ => List.mem_cons_of_mem _) (by simp))
  | stateChanged htodo hnext => exact .inl (Threads.Owed.take h htodo (fun _ => id) (by simp))
  | reported htodo => exact .inl (Threads.Owed.take h htodo (fun _ => id) (by simp))
  | described hrunning hquiet present => exact .inl (Threads.Owed.fresh hquiet h)
  | published hrunning hquiet state e => exact .inl (Threads.Owed.fresh hquiet h)
  | delivered hrunning hopen hquiet item => exact .inl (Threads.Owed.fresh hquiet h)
  | unlaunched howner htodo e => exact .inl (Threads.Owed.fresh htodo h)
  | aborts howner htodo => exact .inl (Threads.Owed.fresh htodo h)
  | joinedWorker howner htodo hworker => exact .inl (Threads.Owed.fresh htodo h)
  | threw hworker htodo hthrows => exact .inl (Threads.Owed.fresh htodo h)
  | opened hworker htodo hpc => exact .inl (Threads.Owed.fresh htodo h)
  | rechecked hworker htodo hpc => exact .inl (Threads.Owed.fresh htodo h)
  | stopsSource hworker htodo hpc => exact .inl (Threads.Owed.fresh htodo h)
  | filterStopped hworker htodo hpc => exact .inl (Threads.Owed.fresh htodo h)
  | _ => exact .inl h

theorem Stepped.revision (hstep : Stepped s events s') : s.revision ≤ s'.revision := by
  cases hstep with
  | notified htodo => exact Nat.le_succ _
  | _ => exact Nat.le_refl _

/-- **A wake-up is not lost**: once something the worker waits for has changed, it stays so until the worker has
looked at the signal. -/
theorem Stale.step (hc : Control s) (hobserved : worker.round.observed ≤ s.revision) (hstep : Stepped s events s')
    (h : s.Stale worker) : s'.Stale worker := by
  have hrevision := hstep.revision
  rcases h with hmoved | hnotifying
  · left
    omega
  · rcases hstep.notifies hc hnotifying with hstill | hmoved
    · exact .inr hstill
    · left
      omega

/-- The worker has nothing else to do while it is in a round. -/
def Unbound (s : OfflinePipeline) : Prop := ∀ w, s.worker = some w → w.pc.observed = true → s.todo .worker = []

theorem Unbound.beside (h : Unbound s) {thread : Thread} {tasks : List Task} (hworker : s'.worker = s.worker)
    (htodo : s'.todo = Function.update s.todo thread tasks)
    (hself : thread = .worker → s.todo .worker ≠ [] ∨ tasks = []) : Unbound s' := by
  intro w hw hpc
  have hnone : s.todo .worker = [] := h w (hworker ▸ hw) hpc
  rw [htodo]
  by_cases heq : thread = .worker
  · subst heq
    rw [Function.update_self]
    exact (hself rfl).resolve_left fun hne => hne hnone
  · rw [Function.update_of_ne fun hcontra => heq hcontra.symm]
    exact hnone

theorem Unbound.step (h : Unbound s) (hstep : Stepped s events s') : Unbound s' := by
  have htakes : ∀ {t : Thread} {task : Task} {rest : List Task}, s.todo t = task :: rest → t = .worker →
      s.todo .worker ≠ [] := by
    intro t task rest htodo heq
    rw [← heq, htodo]
    exact List.cons_ne_nil _ _
  have houtside : ∀ {s₁ : OfflinePipeline} {w : Worker}, s₁.worker = some w → w.pc.observed = false →
      Unbound s₁ := by
    intro s₁ w hw hpc w' hw' hpc'
    obtain rfl := Option.some.inj (hw.symm.trans hw')
    exact absurd (hpc.symm.trans hpc') (by decide)
  have hsame : ∀ {s₁ : OfflinePipeline}, s.todo .worker = [] → s₁.todo = s.todo → Unbound s₁ :=
    fun htodo heq _ _ _ => by rw [heq]; exact htodo
  have hnone : ∀ {s₁ : OfflinePipeline}, s₁.worker = none → Unbound s₁ := by
    intro s₁ hgone w hw
    rw [hgone] at hw
    cases hw
  cases hstep with
  | same => exact h
  | started hidle hstopped => exact h
  | stop hidle => exact h.beside rfl rfl fun hcontra => by cases hcontra
  | requested htodo => exact h.beside rfl rfl fun hcontra => by cases hcontra
  | dropped htodo hdrop => exact h.beside rfl rfl fun heq => .inl (htakes htodo heq)
  | failed htodo hstarted herror => exact h.beside rfl rfl fun heq => .inl (htakes htodo heq)
  | stopRecorded htodo => exact h.beside rfl rfl fun heq => .inl (htakes htodo heq)
  | cancelled htodo => exact h.beside rfl rfl fun heq => .inl (htakes htodo heq)
  | notified htodo => exact h.beside rfl rfl fun heq => .inl (htakes htodo heq)
  | stateChanged htodo hnext => exact h.beside rfl rfl fun heq => .inl (htakes htodo heq)
  | reported htodo => exact h.beside rfl rfl fun heq => .inl (htakes htodo heq)
  | described hrunning hquiet present => exact h.beside rfl rfl fun hcontra => by cases hcontra
  | published hrunning hquiet state e => exact h.beside rfl rfl fun hcontra => by cases hcontra
  | cut hrunning => exact h
  | exited hrunning hquiet => exact h
  | delivered hrunning hopen hquiet item => exact h.beside rfl rfl fun hcontra => by cases hcontra
  | launched howner htodo => exact houtside rfl rfl
  | unlaunched howner htodo e => exact h.beside rfl rfl fun hcontra => by cases hcontra
  | aborts howner htodo => exact h.beside rfl rfl fun hcontra => by cases hcontra
  | joinedWorker howner htodo hworker => exact hnone rfl
  | joinedSource howner htodo hrunning hquiet => exact h
  | closed howner htodo => exact h
  | moved hworker htodo hmove => exact hsame htodo rfl
  | threw hworker htodo hthrows => exact houtside rfl rfl
  | filterStarted hworker htodo hpc => exact hsame htodo rfl
  | opened hworker htodo hpc => exact houtside rfl rfl
  | rechecked hworker htodo hpc => exact houtside rfl rfl
  | readEof hworker htodo hpc hopen hqueue => exact hsame htodo rfl
  | readFrame hworker htodo hpc hopen hqueue => exact hsame htodo rfl
  | consumed hworker htodo hpc => exact hsame htodo rfl
  | reset hworker htodo hpc => exact hsame htodo rfl
  | stopsSource hworker htodo hpc => exact houtside rfl rfl
  | filterStopped hworker htodo hpc => exact houtside rfl rfl
  | finished hworker htodo hpc hended => exact hsame htodo rfl

theorem unbound_init : Unbound {} := fun w hw => by cases hw

/-- A worker whose signal has moved on is free to look again. -/
theorem Unbound.awake (h : Unbound s) (hworker : s.worker = some worker)
    (hpc : worker.pc = .waiting ∨ worker.pc = .settleWaiting) (hrevision : s.revision ≠ worker.round.observed) :
    s.next (.work none false) =
      some ([], s.goto worker (if worker.pc = .waiting then .looping else .settling)) := by
  have htodo : s.todo .worker = [] := h worker hworker (by rcases hpc with hpc | hpc <;> rw [hpc] <;> rfl)
  rcases hpc with hpc | hpc
  · simp [next, work, hworker, htodo, hpc, hrevision]
  · simp [next, work, hworker, htodo, hpc, hrevision]

end OfflinePipeline

end MwStreamer
