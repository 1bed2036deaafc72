import MwStreamer.Pipeline.OfflineSteps

/-!
# Stops and failures of the offline pipeline

`Control` says which thread may be bound to what, and when the worker and the source are there.  On it rest the
accounts of a run: the first failure is the only one that is recorded and it is reported once, and a stop that was
recorded reaches a source that was started, whichever came first.
-/

namespace MwStreamer

namespace OfflinePipeline

/-! ### What threads are bound to -/

/-- The steps of a `RequestStop`. -/
def Task.stops : Task → Bool
  | .requestStop | .cancelSource | .notify => true
  | _ => false

def Task.report? : Task → Option Exception
  | .onError e => some e
  | _ => none

/-- After the section of a `RequestStop` its calls follow. -/
def Promises : List Task → Prop
  | [] => True
  | .requestStop :: rest => .cancelSource ∈ rest ∧ .notify ∈ rest ∧ Promises rest
  | _ :: rest => Promises rest

theorem Promises.tail {task : Task} {rest : List Task} (h : Promises (task :: rest)) : Promises rest := by
  cases task with
  | requestStop => exact h.2.2
  | fail _ => exact h
  | cancelSource => exact h
  | notify => exact h
  | stateChanged _ => exact h
  | onError _ => exact h

theorem promises_requestStop {rest : List Task} (h : Promises rest) : Promises (OfflinePipeline.requestStop ++ rest) :=
  ⟨List.mem_cons_self, List.mem_cons_of_mem _ List.mem_cons_self, h⟩

theorem stops_requestStop {task : Task} (h : task ∈ OfflinePipeline.requestStop) : task.stops = true := by
  rcases List.mem_cons.mp h with rfl | h
  · rfl
  rcases List.mem_cons.mp h with rfl | h
  · rfl
  obtain rfl := List.mem_singleton.mp h
  rfl

/-- Threads that never record a failure. -/
def Thread.outside : Thread → Bool
  | .user _ | .decoder _ => true
  | _ => false

/-- Threads that the source joins before it ends. -/
def Thread.ofSource : Thread → Bool
  | .source | .decoder _ => true
  | _ => false

/-- The owner has nothing left to do in its call. -/
def Owner.resting : Owner → Bool
  | .idle | .launching | .closing => true
  | _ => false

/-- The owner is in a `Stop`. -/
def Owner.joining : Owner → Bool
  | .joiningWorker | .joiningSource => true
  | _ => false

/-- The owner is in a `Start`. -/
def Owner.beginning : Owner → Bool
  | .launching | .aborting => true
  | _ => false

/-- The owner is where no worker is, and no source. -/
def Owner.alone : Owner → Bool
  | .launching | .aborting | .closing => true
  | _ => false

/-- The source has not been started, or has ended. -/
def Pc.sourceless : Pc → Bool
  | .starting | .checking | .opening | .stoppingFilter | .finishing | .done => true
  | _ => false

/-- The worker is inside `Run`, past the start of the source and before its join. -/
def Pc.midway : Pc → Bool
  | .starting | .checking | .opening | .rechecking | .stoppingFilter | .finishing | .done => false
  | _ => true

structure Control (s : OfflinePipeline) : Prop where
  outside : ∀ t, t.outside = true → ∀ task ∈ s.todo t, task.stops = true
  promises : ∀ t, Promises (s.todo t)
  silent : s.source.running = false → s.source.cut = true ∧ ∀ t, t.ofSource = true → s.todo t = []
  resting : s.owner.resting = true → s.todo .owner = []
  joining : s.owner.joining = true → ∀ task ∈ s.todo .owner, task.stops = true
  began : s.owner.beginning = true → s.started = true
  alone : s.started = false ∨ s.owner.alone = true → s.worker = none ∧ s.source.running = false
  joined : s.owner = .joiningSource → s.worker = none
  workerless : s.worker = none → s.todo .worker = []
  sourceless : ∀ w, s.worker = some w → w.pc.sourceless = true → s.source.running = false
  done : ∀ w, s.worker = some w → w.pc = .done → s.todo .worker = []

variable {s s' : OfflinePipeline} {events : List Event} {worker : Worker} {thread : Thread}

theorem quiet_iff : s.quiet = true ↔ ∀ t, t.ofSource = true → s.todo t = [] := by
  rw [quiet, Bool.and_eq_true, Bool.and_eq_true, List.isEmpty_iff, List.isEmpty_iff, List.isEmpty_iff]
  constructor
  · rintro ⟨⟨hsource, hvideo⟩, haudio⟩ t ht
    cases t with
    | source => exact hsource
    | decoder video =>
      cases video with
      | true => exact hvideo
      | false => exact haudio
    | owner => cases ht
    | worker => cases ht
    | user _ => cases ht
  · intro h
    exact ⟨⟨h _ rfl, h _ rfl⟩, h _ rfl⟩

/-- `Control` looks at a part of the state only. -/
theorem Control.same (h : Control s) (hstarted : s'.started = s.started) (howner : s'.owner = s.owner)
    (hworker : s'.worker = s.worker) (htodo : s'.todo = s.todo) (hrunning : s'.source.running = s.source.running)
    (hcut : s'.source.cut = s.source.cut) : Control s' where
  outside t := htodo ▸ h.outside t
  promises t := htodo ▸ h.promises t
  silent := by
    rw [hrunning, hcut, htodo]
    exact h.silent
  resting := by
    rw [howner, htodo]
    exact h.resting
  joining := by
    rw [howner, htodo]
    exact h.joining
  began := by
    rw [howner, hstarted]
    exact h.began
  alone := by
    rw [hstarted, howner, hworker, hrunning]
    exact h.alone
  joined := by
    rw [howner, hworker]
    exact h.joined
  workerless := by
    rw [hworker, htodo]
    exact h.workerless
  sourceless := by
    rw [hworker, hrunning]
    exact h.sourceless
  done := by
    rw [hworker, htodo]
    exact h.done

/-- A thread is bound to other steps. -/
theorem Control.bind (h : Control s) {tasks : List Task}
    (houtside : thread.outside = true → ∀ task ∈ tasks, task.stops = true) (hpromises : Promises tasks)
    (hsilent : s.source.running = false → thread.ofSource = true → tasks = [])
    (howner : thread = .owner → s.owner.resting = false ∧
      (s.owner.joining = true → ∀ task ∈ tasks, task.stops = true))
    (hworker : thread = .worker → ∃ w, s.worker = some w ∧ w.pc ≠ .done) : Control (s.bind thread tasks) where
  outside t ht := by
    refine Threads.at_update (P := (∀ task ∈ ·, Task.stops task = true)) (h.outside t ht) fun heq => ?_
    subst heq
    exact houtside ht
  promises t := Threads.at_update (h.promises t) fun _ => hpromises
  silent hrunning := by
    refine ⟨(h.silent hrunning).1, fun t ht => ?_⟩
    refine Threads.at_update (P := (· = [])) ((h.silent hrunning).2 t ht) fun heq => ?_
    subst heq
    exact hsilent hrunning ht
  resting hresting :=
    Threads.at_update (P := (· = [])) (h.resting hresting)
      fun heq => absurd ((howner heq.symm).1.symm.trans hresting) (by decide)
  joining hjoining :=
    Threads.at_update (P := (∀ task ∈ ·, Task.stops task = true)) (h.joining hjoining)
      fun heq => (howner heq.symm).2 hjoining
  began := h.began
  alone := h.alone
  joined := h.joined
  workerless hnone := by
    refine Threads.at_update (P := (· = [])) (h.workerless hnone) fun heq => ?_
    obtain ⟨w, hw, -⟩ := hworker heq.symm
    exact absurd (hnone.symm.trans hw) (by simp)
  sourceless := h.sourceless
  done w hw hpc := by
    refine Threads.at_update (P := (· = [])) (h.done w hw hpc) fun heq => ?_
    obtain ⟨w', hw', hne⟩ := hworker heq.symm
    obtain rfl := Option.some.inj (hw.symm.trans hw')
    exact absurd hpc hne

/-- A thread takes the first of its steps. -/
theorem Control.perform (h : Control s) {task : Task} {rest tasks : List Task} (htodo : s.todo thread = task :: rest)
    (hpromises : Promises tasks) (hnew : task.stops = true → ∀ m ∈ tasks, m ∈ rest ∨ m.stops = true) :
    Control (s.bind thread tasks) := by
  have hne : s.todo thread ≠ [] := by
    rw [htodo]
    exact List.cons_ne_nil _ _
  have hkeeps : (∀ m ∈ s.todo thread, m.stops = true) → ∀ m ∈ tasks, m.stops = true := Threads.all_of_take htodo hnew
  refine h.bind (fun hout => hkeeps (h.outside thread hout)) hpromises
    (fun hrunning hof => absurd ((h.silent hrunning).2 thread hof) hne) (fun heq => ?_) fun heq => ?_
  · subst heq
    refine ⟨?_, fun hjoining => hkeeps (h.joining hjoining)⟩
    cases hresting : s.owner.resting with
    | false => rfl
    | true => exact absurd (h.resting hresting) hne
  · subst heq
    cases hw : s.worker with
    | none => exact absurd (h.workerless hw) hne
    | some w => exact ⟨w, rfl, fun hpc => hne (h.done w hw hpc)⟩

/-- The worker goes on. -/
theorem Control.work (h : Control s) {worker' : Worker} (hworker : s.worker = some worker)
    (hsourceless : worker'.pc.sourceless = true → s.source.running = false)
    (hdone : worker'.pc = .done → s.todo .worker = []) : Control { s with worker := some worker' } where
  outside := h.outside
  promises := h.promises
  silent := h.silent
  resting := h.resting
  joining := h.joining
  began := h.began
  alone halone := absurd (h.alone halone).1 (by simp [hworker])
  joined howner := absurd (h.joined howner) (by simp [hworker])
  workerless hnone := by cases hnone
  sourceless w hw hpc := by
    obtain rfl := Option.some.inj hw
    exact hsourceless hpc
  done w hw hpc := by
    obtain rfl := Option.some.inj hw
    exact hdone hpc

theorem Pc.midway_afterTrack (video : Bool) : (Pc.afterTrack video).midway = true := by
  cases video with
  | true => rfl
  | false => rfl

theorem Move.pc {worker' : Worker} (h : Move s worker events worker') : worker'.pc.midway = true ∨
    (worker'.pc = .opening ∧ worker.pc = .checking) ∨
    (worker'.pc = .stoppingFilter ∧ s.source.running = false) := by
  cases h with
  | checked hpc =>
    show (if s.stopping then Pc.looping else Pc.opening).midway = true ∨
      ((if s.stopping then Pc.looping else Pc.opening) = .opening ∧ worker.pc = .checking) ∨ _
    cases s.stopping with
    | true => exact .inl rfl
    | false => exact .inr (.inl ⟨rfl, hpc⟩)
  | described hpc =>
    refine .inl ?_
    show (if s.source.info.isSome then Pc.visiting true else Pc.idling).midway = true
    cases s.source.info with
    | none => rfl
    | some present => rfl
  | settleChecked hpc =>
    refine .inl ?_
    show (if s.stopping then Pc.stoppingSource else Pc.settleReading).midway = true
    cases s.stopping with
    | true => rfl
    | false => rfl
  | skipped hpc hskip => exact .inl (Pc.midway_afterTrack _)
  | passed hpc hstopping => exact .inl (Pc.midway_afterTrack _)
  | null hpc hnone => exact .inl (Pc.midway_afterTrack _)
  | joined hpc hended hquiet => exact .inr (.inr ⟨rfl, hended⟩)
  | leaves hpc hstopping => exact .inl rfl
  | loops hpc hgoing => exact .inl rfl
  | observed hpc => exact .inl rfl
  | visits hpc hunread => exact .inl rfl
  | exhausted hpc hinfo hexhausted hgoing => exact .inl rfl
  | judged hpc hmore => exact .inl rfl
  | again hpc hprogress => exact .inl rfl
  | waits hpc hidle hgoing => exact .inl rfl
  | woken hpc hrevision => exact .inl rfl
  | settles hpc => exact .inl rfl
  | settled hpc hended => exact .inl rfl
  | unsettled hpc hended => exact .inl rfl
  | settleWoken hpc hrevision => exact .inl rfl

theorem Pc.midway_sourceless {pc : Pc} (h : pc.midway = true) : pc.sourceless = false ∧ pc ≠ .rechecking := by
  cases pc <;> simp_all [Pc.midway, Pc.sourceless]

/-- The worker goes on inside `Run`. -/
theorem Control.midway (h : Control s) {worker' : Worker} (hworker : s.worker = some worker)
    (hmidway : worker'.pc.midway = true) : Control { s with worker := some worker' } := by
  obtain ⟨hsourceless, -⟩ := Pc.midway_sourceless hmidway
  refine h.work hworker (fun hcontra => absurd (hsourceless.symm.trans hcontra) (by decide)) fun hdone => ?_
  rw [hdone] at hmidway
  cases hmidway

/-- The owner goes on where no worker is. -/
theorem Control.own (h : Control s) {owner : Owner} (hresting : owner.resting = true → s.todo .owner = [])
    (hjoining : owner.joining = true → ∀ task ∈ s.todo .owner, task.stops = true)
    (hbegan : owner.beginning = true → s.started = true)
    (halone : owner.alone = true → s.worker = none ∧ s.source.running = false)
    (hjoined : owner = .joiningSource → s.worker = none) : Control { s with owner := owner } where
  outside := h.outside
  promises := h.promises
  silent := h.silent
  resting := hresting
  joining := hjoining
  began := hbegan
  alone hor := hor.elim (fun hstopped => h.alone (.inl hstopped)) halone
  joined := hjoined
  workerless := h.workerless
  sourceless := h.sourceless
  done := h.done

/-! ### One lemma for each section that matters -/

theorem Control.begins (h : Control s) (hidle : s.owner = .idle) (hstopped : s.started = false) : Control { s with
    started := true, stopping := false, ended := false, error := none, state := .starting, owner := .launching } := by
  have halone := h.alone (.inl hstopped)
  exact { h with
    resting := fun _ => h.resting (by rw [hidle]; rfl)
    joining := nofun
    began := fun _ => rfl
    alone := fun _ => halone
    joined := nofun }

/-- The owner enters a `Stop`. -/
theorem Control.stops (h : Control s) (htodo : s.todo .owner = []) :
    Control ({ s with owner := .joiningWorker }.bind .owner OfflinePipeline.requestStop) := by
  have hmid : Control { s with owner := .joiningWorker } :=
    h.own nofun (fun _ task htask => by rw [htodo] at htask; cases htask) nofun nofun nofun
  exact hmid.bind nofun (promises_requestStop trivial) nofun (fun _ => ⟨rfl, fun _ _ => stops_requestStop⟩) nofun

/-- A thread of the source is bound to what it tells the pipeline. -/
theorem Control.tells (h : Control s) (hrunning : s.source.running = true) (hof : thread.ofSource = true)
    {tasks : List Task} (houtside : thread.outside = true → ∀ task ∈ tasks, task.stops = true)
    (hpromises : Promises tasks) : Control (s.bind thread tasks) := by
  refine h.bind houtside hpromises (fun hnot _ => absurd (hrunning.symm.trans hnot) (by decide)) ?_ ?_
  · rintro rfl
    cases hof
  · rintro rfl
    cases hof

/-- The worker is bound to something. -/
theorem Control.binds (h : Control s) (hworker : s.worker = some worker) (hpc : worker.pc ≠ .done)
    {tasks : List Task} (hpromises : Promises tasks) : Control (s.bind .worker tasks) :=
  h.bind nofun hpromises nofun nofun fun _ => ⟨worker, hworker, hpc⟩

theorem Control.exited (h : Control s) (hquiet : s.quiet = true) :
    Control { s with source := { s.source with running := false, cut := true } } :=
  { h with
    silent := fun _ => ⟨rfl, quiet_iff.mp hquiet⟩
    alone := fun halone => ⟨(h.alone halone).1, rfl⟩
    sourceless := fun _ _ _ => rfl }

theorem Control.launched (h : Control s) (howner : s.owner = .launching) (htodo : s.todo .owner = []) :
    Control { s with worker := some {}, owner := .idle } := by
  obtain ⟨hnone, hrunning⟩ := h.alone (.inr (by rw [howner]; rfl))
  have hworkerTodo : s.todo .worker = [] := h.workerless hnone
  have hstarted : s.started = true := h.began (by rw [howner]; rfl)
  exact { h with
    resting := fun _ => htodo
    joining := nofun
    began := nofun
    alone := fun halone => absurd (halone.resolve_right (by simp [Owner.alone])) (by simp [hstarted])
    joined := nofun
    workerless := nofun
    sourceless := fun _ _ _ => hrunning
    done := fun _ _ _ => hworkerTodo }

theorem Control.unlaunched (h : Control s) (howner : s.owner = .launching) (e : Exception) :
    Control ({ s with owner := .aborting }.bind .owner [.fail e]) := by
  have halone := h.alone (.inr (by rw [howner]; rfl))
  have hmid : Control { s with owner := .aborting } :=
    h.own nofun nofun (fun _ => h.began (by rw [howner]; rfl)) (fun _ => halone) nofun
  exact hmid.bind nofun trivial nofun (fun _ => ⟨rfl, nofun⟩) nofun

theorem Control.joinedWorker (h : Control s) (htodo : s.todo .owner = [])
    (hworker : ∀ w, s.worker = some w → w.pc = .done) :
    Control ({ s with worker := none, owner := .joiningSource }.bind .owner [.cancelSource]) := by
  have hworkerTodo : s.todo .worker = [] := by
    cases hw : s.worker with
    | none => exact h.workerless hw
    | some w => exact h.done w hw (hworker w hw)
  have hmid : Control { s with worker := none, owner := .joiningSource } := { h with
    resting := nofun
    joining := fun _ task htask => by rw [htodo] at htask; cases htask
    began := nofun
    alone := fun halone => ⟨rfl, (h.alone (.inl (halone.resolve_right (by simp [Owner.alone])))).2⟩
    joined := fun _ => rfl
    workerless := fun _ => hworkerTodo
    sourceless := fun w hw => by cases hw
    done := fun w hw => by cases hw }
  exact hmid.bind nofun trivial nofun (fun _ => ⟨rfl, fun _ _ hm => List.mem_singleton.mp hm ▸ rfl⟩) nofun

theorem Control.closed (h : Control s) (howner : s.owner = .closing) (htodo : s.todo .owner = []) :
    Control { s with started := false, state := s.finalState, owner := .idle } := by
  have halone := h.alone (.inr (by rw [howner]; rfl))
  exact { h with
    resting := fun _ => htodo
    joining := nofun
    began := nofun
    alone := fun _ => halone
    joined := nofun }

theorem Control.moved (h : Control s) {worker' : Worker} (hworker : s.worker = some worker)
    (htodo : s.todo .worker = []) (hmove : Move s worker events worker') :
    Control { s with worker := some worker' } := by
  refine h.work hworker (fun hsourceless => ?_) fun _ => htodo
  rcases hmove.pc with hmidway | ⟨-, hpc⟩ | ⟨-, hrunning⟩
  · exact absurd ((Pc.midway_sourceless hmidway).1.symm.trans hsourceless) (by decide)
  · exact h.sourceless _ hworker (by rw [hpc]; rfl)
  · exact hrunning

/-- The worker goes on inside `Run`, and what `Control` does not look at may change with it. -/
theorem Control.goes (h : Control s) {worker' : Worker} (hworker : s.worker = some worker)
    (hmidway : worker'.pc.midway = true) (hstarted : s'.started = s.started) (howner : s'.owner = s.owner)
    (hworker' : s'.worker = some worker') (htodo : s'.todo = s.todo)
    (hrunning : s'.source.running = s.source.running) (hcut : s'.source.cut = s.source.cut) : Control s' :=
  (h.midway hworker hmidway).same hstarted howner hworker' htodo hrunning hcut

/-- The worker goes on where there is no source, and what `Control` does not look at may change with it. -/
theorem Control.sourceless_goes (h : Control s) {worker' : Worker} (hworker : s.worker = some worker)
    (hpc : worker.pc.sourceless = true) (hdone : worker'.pc = .done → s.todo .worker = [])
    (hstarted : s'.started = s.started) (howner : s'.owner = s.owner) (hworker' : s'.worker = some worker')
    (htodo : s'.todo = s.todo) (hsource : s'.source = s.source) : Control s' := by
  have hwork := h.work hworker (fun _ => h.sourceless _ hworker hpc) hdone
  exact hwork.same hstarted howner hworker' htodo (by rw [hsource]) (by rw [hsource])

theorem Control.opened (h : Control s) (hworker : s.worker = some worker) (htodo : s.todo .worker = []) :
    Control ({ s with
      source := s.source.start, worker := some { worker with pc := .rechecking } }.bind .worker [.notify]) := by
  have hmid : Control { s with source := s.source.start, worker := some { worker with pc := .rechecking } } := { h with
    silent := nofun
    alone := fun halone => absurd (h.alone halone).1 (by simp [hworker])
    joined := fun howner => absurd (h.joined howner) (by simp [hworker])
    workerless := nofun
    sourceless := fun w hw hcontra => by
      obtain rfl := Option.some.inj hw
      cases hcontra
    done := fun _ _ _ => htodo }
  exact hmid.binds rfl (by simp) trivial

theorem Control.step (h : Control s) (hstep : Stepped s events s') : Control s' := by
  have htail : ∀ {t : Thread} {task : Task} {rest : List Task}, s.todo t = task :: rest → Promises rest := by
    intro t task rest htodo
    have hpromises := h.promises t
    rw [htodo] at hpromises
    exact hpromises.tail
  cases hstep with
  | same => exact h
  | started hidle hstopped => exact h.begins hidle hstopped
  | stop hidle => exact h.stops (h.resting (by rw [hidle]; rfl))
  | requested _ => exact h.bind (fun _ _ => stops_requestStop) (promises_requestStop trivial) nofun nofun nofun
  | dropped htodo _ => exact h.perform htodo (htail htodo) nofun
  | @failed t e rest htodo _ _ =>
    exact Control.perform (s := { s with error := some e, state := .failed }) (h.same rfl rfl rfl rfl rfl rfl) htodo
      (promises_requestStop (htail htodo : Promises rest)) nofun
  | stopRecorded htodo =>
    exact Control.perform (s := { s with
        stopping := true, state := if s.started && s.error.isNone && !s.ended then .stopping else s.state })
      (h.same rfl rfl rfl rfl rfl rfl) htodo (htail htodo) fun _ m hm => .inl hm
  | @cancelled t rest htodo =>
    refine Control.perform (s := { s with source := { s.source with cancelled := true } })
      (h.same rfl rfl rfl rfl rfl rfl) htodo (htail htodo : Promises rest) fun _ m hm => ?_
    rcases List.mem_cons.mp hm with rfl | hm
    · exact .inr rfl
    · exact .inl hm
  | notified htodo =>
    exact Control.perform (s := { s with revision := s.revision + 1 }) (h.same rfl rfl rfl rfl rfl rfl) htodo
      (htail htodo) fun _ m hm => .inl hm
  | @stateChanged t state rest next htodo _ =>
    exact Control.perform (s := { s with state := next }) (h.same rfl rfl rfl rfl rfl rfl) htodo (htail htodo) nofun
  | reported htodo => exact h.perform htodo (htail htodo) nofun
  | described hrunning _ present =>
    exact Control.tells (s := { s with source := { s.source with info := some present } })
      (h.same rfl rfl rfl rfl rfl rfl) hrunning rfl nofun trivial
  | published hrunning _ state e =>
    refine Control.tells (s := { s with source := { s.source with state := state } })
      (h.same rfl rfl rfl rfl rfl rfl) hrunning rfl nofun ?_
    split
    · trivial
    · trivial
  | cut hrunning => exact { h with silent := fun hnot => absurd (hrunning.symm.trans hnot) (by decide) }
  | exited _ hquiet => exact h.exited hquiet
  | @delivered video hrunning _ _ item =>
    exact Control.tells (s := { s with source := { s.source with
        queue := Function.update s.source.queue video (s.source.queue video ++ [item]) } })
      (h.same rfl rfl rfl rfl rfl rfl) hrunning rfl (fun _ m hm => List.mem_singleton.mp hm ▸ rfl) trivial
  | launched howner htodo => exact h.launched howner htodo
  | unlaunched howner _ e => exact h.unlaunched howner e
  | aborts _ htodo => exact h.stops htodo
  | joinedWorker _ htodo hworker => exact h.joinedWorker htodo hworker
  | joinedSource howner htodo hrunning _ =>
    exact h.own (fun _ => htodo) nofun nofun (fun _ => ⟨h.joined howner, hrunning⟩) nofun
  | closed howner htodo => exact h.closed howner htodo
  | moved hworker htodo hmove => exact h.moved hworker htodo hmove
  | @threw worker events filter e hworker _ _ =>
    have hmid : Control { s with filter := filter, worker := some { worker with pc := .stoppingSource } } :=
      h.goes hworker rfl rfl rfl rfl rfl rfl rfl
    exact hmid.binds rfl (by simp) trivial
  | filterStarted hworker _ hpc =>
    exact h.sourceless_goes hworker (by rw [hpc]; rfl) (fun hdone => by cases hdone) rfl rfl rfl rfl rfl
  | opened hworker htodo _ => exact h.opened hworker htodo
  | @rechecked worker hworker _ _ =>
    have hmid : Control { s with worker := some { worker with pc := .looping } } := h.midway hworker rfl
    refine hmid.binds rfl (by simp) ?_
    split
    · trivial
    · trivial
  | @readEof worker video rest hworker _ _ _ _ =>
    exact h.goes hworker (Pc.midway_afterTrack video) rfl rfl rfl rfl rfl rfl
  | readFrame hworker _ _ _ _ => exact h.goes hworker rfl rfl rfl rfl rfl rfl rfl
  | @consumed worker video frame hworker _ _ =>
    exact h.goes hworker (Pc.midway_afterTrack video) rfl rfl rfl rfl rfl rfl
  | reset hworker _ _ => exact h.goes hworker rfl rfl rfl rfl rfl rfl rfl
  | @stopsSource worker hworker _ _ =>
    have hmid : Control { s with worker := some { worker with pc := .joiningSource } } := h.midway hworker rfl
    exact hmid.binds rfl (by simp) trivial
  | @filterStopped worker thrown filter hworker _ hpc =>
    have hmid : Control { s with filter := filter, worker := some { worker with pc := .finishing } } :=
      h.sourceless_goes hworker (by rw [hpc]; rfl) (fun hdone => by cases hdone) rfl rfl rfl rfl rfl
    refine hmid.binds rfl (by simp) ?_
    cases thrown with
    | none => trivial
    | some e => trivial
  | finished hworker htodo hpc _ =>
    exact h.sourceless_goes hworker (by rw [hpc]; rfl) (fun _ => htodo) rfl rfl rfl rfl rfl

theorem control_init : Control {} where
  outside _ _ _ htask := by cases htask
  promises _ := trivial
  silent _ := ⟨rfl, fun _ _ => rfl⟩
  resting _ := rfl
  joining hcontra := by cases hcontra
  began hcontra := by cases hcontra
  alone _ := ⟨rfl, rfl⟩
  joined hcontra := by cases hcontra
  workerless _ := rfl
  sourceless _ hw := by cases hw
  done _ hw := by cases hw

/-! ### The first failure -/

def Event.kind : Event → Threads.Kind Exception
  | .started => .opens
  | .failed e => .failed e
  | .reported e => .reported e
  | _ => .aside

/-- A new run begins. -/
def Event.opens (e : Event) : Bool := e.kind.isOpens

/-- The failures that were recorded in the current run. -/
def failures (history : List Event) : List Exception := Threads.failures Event.kind history

/-- The calls of `OnError` in the current run. -/
def reports (history : List Event) : List Exception := Threads.reports Event.kind history

variable {history : List Event}

/-- **The first failure of a run** is recorded once, and reported once by the thread that recorded it. -/
def Failures (history : List Event) (s : OfflinePipeline) : Prop :=
  Threads.Account Event.kind Task.report? history s.todo s.error

theorem Move.aside {worker' : Worker} (h : Move s worker events worker') :
    (events.all fun e => e.kind.isAside) = true := by
  cases h <;> rfl

theorem Throws.aside {filter : AvMediaFilter} {e : Exception} (h : Throws s worker events filter e) :
    (events.all fun e => e.kind.isAside) = true := by
  cases h <;> rfl

/-- No thread has a failure to report before a run. -/
theorem Control.unreported (hc : Control s) (hidle : s.owner = .idle) (hstopped : s.started = false) (t : Thread) :
    (s.todo t).filterMap Task.report? = [] := by
  obtain ⟨hnone, hrunning⟩ := hc.alone (.inl hstopped)
  have hstops : (∀ task ∈ s.todo t, task.stops = true) → (s.todo t).filterMap Task.report? = [] := by
    intro hall
    refine List.filterMap_eq_nil_iff.mpr fun task htask => ?_
    cases task with
    | onError _ => cases hall _ htask
    | _ => rfl
  cases t with
  | owner => rw [hc.resting (by rw [hidle]; rfl), List.filterMap_nil]
  | worker => rw [hc.workerless hnone, List.filterMap_nil]
  | source => rw [(hc.silent hrunning).2 _ rfl, List.filterMap_nil]
  | decoder video => rw [(hc.silent hrunning).2 _ rfl, List.filterMap_nil]
  | user n => exact hstops (hc.outside _ rfl)

theorem Failures.step (hc : Control s) (h : Failures history s) (hstep : Stepped s events s') :
    Failures (history ++ events) s' := by
  cases hstep with
  | same => exact h.same rfl rfl rfl
  | started hidle hstopped => exact Threads.Account.opened rfl (hc.unreported hidle hstopped)
  | stop hidle => exact h.bind rfl .owner rfl rfl (Threads.reports_fresh (hc.resting (by rw [hidle]; rfl)) rfl)
  | requested htodo => exact h.bind rfl _ rfl rfl (Threads.reports_fresh htodo rfl)
  | dropped htodo _ => exact h.bind rfl _ rfl rfl (Threads.reports_take htodo rfl rfl)
  | @failed t e rest htodo hstarted herror =>
    rw [Failures, herror] at h
    have hnone : rest.filterMap Task.report? = [] := by
      have ht := h.nothing t
      rw [htodo] at ht
      exact ht
    refine Threads.Account.record h rfl ?_
    show e :: rest.filterMap Task.report? = [e]
    rw [hnone]
  | stopRecorded htodo =>
    refine h.bind ?_ _ rfl rfl (Threads.reports_take htodo rfl rfl)
    split
    · rfl
    · rfl
  | cancelled htodo => exact h.bind rfl _ rfl rfl (Threads.reports_take htodo rfl rfl)
  | notified htodo => exact h.bind rfl _ rfl rfl (Threads.reports_take htodo rfl rfl)
  | stateChanged htodo _ => exact h.bind rfl _ rfl rfl (Threads.reports_take htodo rfl rfl)
  | @reported t e rest htodo =>
    refine Threads.Account.report h rfl ?_
    rw [htodo]
    rfl
  | described _ hquiet _ => exact h.bind rfl .source rfl rfl (Threads.reports_fresh hquiet rfl)
  | published _ hquiet state e =>
    refine h.bind rfl .source rfl rfl (Threads.reports_fresh hquiet ?_)
    split
    · rfl
    · rfl
  | cut _ => exact h.same rfl rfl rfl
  | exited _ _ => exact h.same rfl rfl rfl
  | delivered _ _ hquiet _ => exact h.bind rfl _ rfl rfl (Threads.reports_fresh hquiet rfl)
  | launched _ _ => exact h.same rfl rfl rfl
  | unlaunched _ htodo e => exact h.bind rfl .owner rfl rfl (Threads.reports_fresh htodo rfl)
  | aborts _ htodo => exact h.bind rfl .owner rfl rfl (Threads.reports_fresh htodo rfl)
  | joinedWorker _ htodo _ => exact h.bind rfl .owner rfl rfl (Threads.reports_fresh htodo rfl)
  | joinedSource _ _ _ _ => exact h.same rfl rfl rfl
  | closed _ _ => exact h.same rfl rfl rfl
  | moved _ _ hmove => exact h.same hmove.aside rfl rfl
  | threw _ htodo hthrows => exact h.bind hthrows.aside .worker rfl rfl (Threads.reports_fresh htodo rfl)
  | filterStarted _ _ _ => exact h.same rfl rfl rfl
  | opened _ htodo _ => exact h.bind rfl .worker rfl rfl (Threads.reports_fresh htodo rfl)
  | rechecked _ htodo _ =>
    refine h.bind rfl .worker rfl rfl (Threads.reports_fresh htodo ?_)
    split
    · rfl
    · rfl
  | readEof _ _ _ _ _ => exact h.same rfl rfl rfl
  | readFrame _ _ _ _ _ => exact h.same rfl rfl rfl
  | consumed _ _ _ => exact h.same rfl rfl rfl
  | reset _ _ _ => exact h.same rfl rfl rfl
  | stopsSource _ htodo _ => exact h.bind rfl .worker rfl rfl (Threads.reports_fresh htodo rfl)
  | @filterStopped worker thrown filter hworker htodo hpc =>
    refine h.bind rfl .worker rfl rfl (Threads.reports_fresh htodo ?_)
    cases thrown with
    | none => rfl
    | some e => rfl
  | finished _ _ _ _ => exact h.same rfl rfl rfl

theorem failures_init : Failures [] {} := .unfailed fun _ => rfl

/-! ### A stop reaches the source -/

/-- A source that was started in spite of a stop is going to be cancelled. -/
def Cancels (s : OfflinePipeline) : Prop :=
  s.stopping = true → s.source.running = true → s.source.cancelled = false →
    Threads.Owed (· = Task.cancelSource) s.todo ∨ ∃ w, s.worker = some w ∧ w.pc = .rechecking

theorem Cancels.frame (h : Cancels s) (hstopping : s'.stopping = s.stopping)
    (hrunning : s'.source.running = true → s.source.running = true)
    (hcancelled : s'.source.cancelled = false → s.source.cancelled = false)
    (howed : Threads.Owed (· = Task.cancelSource) s.todo → Threads.Owed (· = Task.cancelSource) s'.todo)
    (hworker : ∀ w, s.worker = some w → w.pc = .rechecking → ∃ w', s'.worker = some w' ∧ w'.pc = .rechecking) :
    Cancels s' := by
  intro hstop hrun hcancel
  rw [hstopping] at hstop
  rcases h hstop (hrunning hrun) (hcancelled hcancel) with hpending | ⟨w, hw, hpc⟩
  · exact .inl (howed hpending)
  · exact .inr (hworker w hw hpc)

theorem Move.not_rechecking {worker' : Worker} (h : Move s worker events worker') : worker.pc ≠ .rechecking := by
  intro hpc
  cases h with
  | leaves hleaves _ =>
    rw [hpc] at hleaves
    cases hleaves
  | _ => simp_all

theorem Throws.not_rechecking {filter : AvMediaFilter} {e : Exception} (h : Throws s worker events filter e) :
    worker.pc ≠ .rechecking := by
  intro hpc
  cases h with
  | unfit hplace _ =>
    rcases hplace with hplace | ⟨video, frame, hplace⟩
    · rw [hpc] at hplace
      cases hplace
    · rw [hpc] at hplace
      cases hplace
  | starting hplace _ => cases hpc.symm.trans hplace
  | opening hplace _ => cases hpc.symm.trans hplace
  | consuming hplace _ => cases hpc.symm.trans hplace
  | resetting hplace _ => cases hpc.symm.trans hplace

theorem Cancels.step (hc : Control s) (h : Cancels s) (hstep : Stepped s events s') : Cancels s' := by
  have htake : ∀ {t : Thread} {task : Task} {rest tasks : List Task}, s.todo t = task :: rest →
      task ≠ .cancelSource → (∀ m ∈ rest, m ∈ tasks) → Threads.Owed (· = Task.cancelSource) s.todo →
      Threads.Owed (· = Task.cancelSource) (Function.update s.todo t tasks) :=
    fun htodo hne hrest howed => howed.take htodo hrest hne
  have hkeeps : ∀ {s₁ : OfflinePipeline}, s₁.worker = s.worker → ∀ w, s.worker = some w → w.pc = .rechecking →
      ∃ w', s₁.worker = some w' ∧ w'.pc = .rechecking :=
    fun heq w hw hpc => ⟨w, heq.trans hw, hpc⟩
  have hleft : ∀ {s₁ : OfflinePipeline} {w₀ : Worker}, s.worker = some w₀ → w₀.pc ≠ .rechecking →
      ∀ w, s.worker = some w → w.pc = .rechecking → ∃ w', s₁.worker = some w' ∧ w'.pc = .rechecking := by
    intro s₁ w₀ hw₀ hne w hw hpc
    obtain rfl := Option.some.inj (hw₀.symm.trans hw)
    exact absurd hpc hne
  have hpcne : ∀ {w : Worker} {pc : Pc}, w.pc = pc → pc ≠ .rechecking → w.pc ≠ .rechecking :=
    fun hpc hne => hpc.trans_ne hne
  cases hstep with
  | same => exact h
  | started hidle hstopped => exact fun hstop => by cases hstop
  | stop hidle =>
    exact h.frame rfl id id (Threads.Owed.fresh (hc.resting (by rw [hidle]; rfl))) (hkeeps rfl)
  | requested htodo => exact h.frame rfl id id (Threads.Owed.fresh htodo) (hkeeps rfl)
  | dropped htodo hdrop => exact h.frame rfl id id (htake htodo (by simp) fun _ hm => hm) (hkeeps rfl)
  | failed htodo hstarted herror =>
    refine h.frame rfl id id (htake htodo (by simp) fun _ hm => ?_) (hkeeps rfl)
    exact List.mem_append_right _ (List.mem_cons_of_mem _ hm)
  | @stopRecorded t rest htodo =>
    have hpromises := hc.promises t
    rw [htodo] at hpromises
    exact fun _ _ _ => .inl (.of_mem hpromises.1 rfl)
  | cancelled htodo => exact fun _ _ hcancelled => by cases hcancelled
  | notified htodo => exact h.frame rfl id id (htake htodo (by simp) fun _ hm => hm) (hkeeps rfl)
  | stateChanged htodo hnext => exact h.frame rfl id id (htake htodo (by simp) fun _ hm => hm) (hkeeps rfl)
  | reported htodo => exact h.frame rfl id id (htake htodo (by simp) fun _ hm => hm) (hkeeps rfl)
  | described hrunning hquiet present => exact h.frame rfl id id (Threads.Owed.fresh hquiet) (hkeeps rfl)
  | published hrunning hquiet state e => exact h.frame rfl id id (Threads.Owed.fresh hquiet) (hkeeps rfl)
  | cut hrunning => exact h.frame rfl id id id (hkeeps rfl)
  | exited hrunning hquiet => exact h.frame rfl (fun hcontra => by cases hcontra) id id (hkeeps rfl)
  | delivered hrunning hopen hquiet item => exact h.frame rfl id id (Threads.Owed.fresh hquiet) (hkeeps rfl)
  | launched howner htodo =>
    obtain ⟨hnone, -⟩ := hc.alone (.inr (by rw [howner]; rfl))
    exact h.frame rfl id id id fun w hw => absurd (hnone.symm.trans hw) (by simp)
  | unlaunched howner htodo e => exact h.frame rfl id id (Threads.Owed.fresh htodo) (hkeeps rfl)
  | aborts howner htodo => exact h.frame rfl id id (Threads.Owed.fresh htodo) (hkeeps rfl)
  | joinedWorker howner htodo hworker =>
    exact h.frame rfl id id (Threads.Owed.fresh htodo) fun w hw hpc => absurd (hpc.symm.trans (hworker w hw)) (by simp)
  | joinedSource howner htodo hrunning hquiet => exact h.frame rfl id id id (hkeeps rfl)
  | closed howner htodo => exact h.frame rfl id id id (hkeeps rfl)
  | moved hworker htodo hmove => exact h.frame rfl id id id (hleft hworker hmove.not_rechecking)
  | threw hworker htodo hthrows =>
    exact h.frame rfl id id (Threads.Owed.fresh htodo) (hleft hworker hthrows.not_rechecking)
  | filterStarted hworker htodo hpc => exact h.frame rfl id id id (hleft hworker (hpcne hpc (by simp)))
  | opened hworker htodo hpc => exact fun _ _ _ => .inr ⟨_, rfl, rfl⟩
  | rechecked hworker htodo hpc =>
    intro hstop _ _
    have hstopping : s.stopping = true := hstop
    refine .inl (.of_mem (m := Task.cancelSource) ?_ rfl)
    rw [hstopping]
    exact List.mem_cons_self
  | readEof hworker htodo hpc hopen hqueue => exact h.frame rfl id id id (hleft hworker (hpcne hpc (by simp)))
  | readFrame hworker htodo hpc hopen hqueue => exact h.frame rfl id id id (hleft hworker (hpcne hpc (by simp)))
  | consumed hworker htodo hpc => exact h.frame rfl id id id (hleft hworker (hpcne hpc (by simp)))
  | reset hworker htodo hpc => exact h.frame rfl id id id (hleft hworker (hpcne hpc (by simp)))
  | stopsSource hworker htodo hpc =>
    exact h.frame rfl id id (Threads.Owed.fresh htodo) (hleft hworker (hpcne hpc (by simp)))
  | filterStopped hworker htodo hpc =>
    exact h.frame rfl id id (Threads.Owed.fresh htodo) (hleft hworker (hpcne hpc (by simp)))
  | finished hworker htodo hpc hended => exact h.frame rfl id id id (hleft hworker (hpcne hpc (by simp)))

end OfflinePipeline

end MwStreamer
